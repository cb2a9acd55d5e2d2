import TbManager.HashIteration

/-!
# The stages of `upload_backup`

An upload of the data file runs through a sequence of fallible stages. Which of
its I/O operations fail is an input of the upload. Files are contents by path; a
missing file is one of the failures. The compression is a parameter.
-/

namespace TbManager

inductive ManagerError where
  | process (message : String)
  | backup (message : String)
  | io (message : String)
  | compression (message : String)
  | s3 (message : String)
  deriving DecidableEq, Repr

namespace ManagerError

def message : ManagerError → String
  | process m => "process error: " ++ m
  | backup m => "backup error: " ++ m
  | io m => "I/O error: " ++ m
  | compression m => "compression error: " ++ m
  | s3 m => "S3 error: " ++ m

end ManagerError

/-- The objects of the store, as they were and as `put_object` changed them. -/
structure S3 where
  initial : HashMap (String × String) (List U8)
  puts : List ((String × String) × List U8)

namespace S3

def objects (s3 : S3) : HashMap (String × String) (List U8) :=
  HashMap.insertAll Prod.fst Prod.snd s3.initial s3.puts

def putObject (s3 : S3) (bucket key : String) (body : List U8) : S3 :=
  { s3 with puts := s3.puts ++ [((bucket, key), body)] }

end S3

abbrev Files := String → List U8

def fileName (path : String) : Option String :=
  match ((path.toList.splitOn '/').filter fun c => c ≠ [] ∧ c ≠ ['.']).getLast? with
  | none => none
  | some c => if c = ['.', '.'] then none else some (String.ofList c)

namespace Upload

inductive Stage where
  | statSource
  | nameTemp
  | createTemp
  | createEncoder
  | openSource
  | copy
  | finish
  | joinTask
  | statTemp
  | openBody
  | removeTemp
  deriving DecidableEq, Repr

/-- The stages in the order of the code. There is none that puts an object: the
call of `put_object` between `openBody` and `removeTemp` is commented out. -/
def stages : List Stage :=
  [.statSource, .nameTemp, .createTemp, .createEncoder, .openSource, .copy, .finish, .joinTask,
    .statTemp, .openBody, .removeTemp]

def Stage.error (stage : Stage) (e : String) : ManagerError :=
  match stage with
  | .createTemp => .compression ("create temp file: " ++ e)
  | .createEncoder => .compression ("create encoder: " ++ e)
  | .openSource => .compression ("open src file: " ++ e)
  | .copy => .compression ("compress: " ++ e)
  | .finish => .compression ("finish compression: " ++ e)
  | .joinTask => .compression ("compression task join error: " ++ e)
  | .openBody => .s3 ("failed to read file: " ++ e)
  | _ => .io e

end Upload

open Upload

structure Upload where
  bucket : String
  path : String
  /-- The error of the I/O operation of a stage, if it fails. -/
  io : Stage → Option String
  /-- The number of objects put before the call. -/
  putsBefore : ℕ
  copied : List U8
  left : List Stage

namespace Upload

def start (bucket path : String) (io : Stage → Option String) (putsBefore : ℕ) : Upload where
  bucket := bucket
  path := path
  io := io
  putsBefore := putsBefore
  copied := []
  left := stages

def failure (u : Upload) (stage : Stage) : Option ManagerError :=
  match stage with
  | .nameTemp =>
      if fileName u.path = none then some (.compression "failed to get file name") else none
  | .removeTemp => none
  | stage => (u.io stage).map stage.error

def tempPath (u : Upload) : String := "/tmp/" ++ (fileName u.path).getD "" ++ ".zst"

def perform (zstd : List U8 → List U8) (files : Files) (u : Upload) : Stage → Upload × Files
  | .createTemp => (u, Function.update files u.tempPath [])
  | .copy => ({ u with copied := files u.path }, files)
  | .finish => (u, Function.update files u.tempPath (zstd u.copied))
  | _ => (u, files)

def advance (zstd : List U8 → List U8) (files : Files) (u : Upload) :
    Except ManagerError (Option Upload) × Files :=
  match u.left with
  | [] => (.ok none, files)
  | stage :: left =>
    match u.failure stage with
    | some e => (.error e, files)
    | none =>
      let r := u.perform zstd files stage
      (.ok (some { r.1 with left := left }), r.2)

/-- The input of the upload makes one of its stages fail. -/
def SomeStageFails (u : Upload) : Prop := ∃ stage ∈ stages, (u.failure stage).isSome

/-- No stage that has run has failed. -/
def Passed (u : Upload) : Prop :=
  ∃ run, run ++ u.left = stages ∧ ∀ stage ∈ run, u.failure stage = none

theorem start_passed (bucket path : String) (io : Stage → Option String) (putsBefore : ℕ) :
    (start bucket path io putsBefore).Passed := ⟨[], rfl, by simp⟩

theorem perform_fixed (zstd : List U8 → List U8) (files : Files) (u : Upload) (stage : Stage) :
    (u.perform zstd files stage).1.failure = u.failure ∧
      (u.perform zstd files stage).1.putsBefore = u.putsBefore := by
  cases stage <;> exact ⟨rfl, rfl⟩

/-- What one stage does: the upload returns, with an error exactly if a stage
fails, or goes on to the next stage. -/
theorem advance_cases (zstd : List U8 → List U8) (files : Files) {u : Upload} (h : u.Passed) :
    ((u.advance zstd files).1 = .ok none ∧ ¬ u.SomeStageFails) ∨
      (∃ e, (u.advance zstd files).1 = .error e ∧ u.SomeStageFails) ∨
      ∃ u', (u.advance zstd files).1 = .ok (some u') ∧ u'.Passed ∧ u'.putsBefore = u.putsBefore := by
  obtain ⟨run, hstages, hrun⟩ := h
  unfold advance
  cases hleft : u.left with
  | nil =>
      left
      rw [hleft, List.append_nil] at hstages
      refine ⟨rfl, ?_⟩
      rintro ⟨stage, hstage, hfails⟩
      rw [hrun stage (hstages ▸ hstage)] at hfails
      cases hfails
  | cons stage left =>
      right
      rw [hleft] at hstages
      cases hfailure : u.failure stage with
      | some e =>
          left
          refine ⟨e, by simp only [hfailure], stage, ?_, by rw [hfailure]; rfl⟩
          rw [← hstages]
          exact List.mem_append_right run List.mem_cons_self
      | none =>
          right
          have hfixed := perform_fixed zstd files u stage
          refine ⟨{ (u.perform zstd files stage).1 with left := left }, by simp only [hfailure],
            ⟨run ++ [stage], ?_, ?_⟩, hfixed.2⟩
          · rw [← hstages, List.append_assoc]
            rfl
          · intro s hs
            have hnone : u.failure s = none := by
              rw [List.mem_append, List.mem_singleton] at hs
              rcases hs with hs | rfl
              · exact hrun s hs
              · exact hfailure
            rw [← hnone, ← hfixed.1]
            rfl

end Upload

end TbManager
