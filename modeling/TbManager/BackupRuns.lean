import TbManager.Upload

/-!
# Runs of the manager with backups

Backups are started by ticks of the cron job, by the trigger call and by the
start call; their stages interleave with one another and with changes of the
configuration and of the files. Only the backups of the two calls take the lock.
-/

namespace TbManager

structure ManagerState where
  backupsEnabled : Bool
  cronSchedule : Option String
  backupFile : String
  bucket : String
  lastBackupAt : Option String
  lastBackupError : Option String
  deriving DecidableEq, Repr

inductive Task where
  /-- Spawned, before the lock; a triggered backup has read the state already. -/
  | waiting (request : Option (String × String))
  /-- Under the lock. -/
  | holding (request : Option (String × String))
  | uploading (locked : Bool) (u : Upload)
  /-- After the return of `upload_backup`. -/
  | returned (locked : Bool) (u : Upload) (result : Except ManagerError Unit)
  | finished

structure Manager where
  state : ManagerState
  locked : Bool
  tasks : List Task
  /-- Start calls that have set the schedule and not yet spawned their backup. -/
  starting : ℕ
  files : Files
  s3 : S3

inductive Action where
  | cronTick (io : Upload.Stage → Option String)
  | triggerBackup
  | startBackup (cronSchedule : String)
  | spawnImmediateBackup
  | stopBackup
  | modifyBackupConfig (bucket backupFile : Option String)
  | acquireLock (task : ℕ)
  | beginUpload (task : ℕ) (io : Upload.Stage → Option String)
  | advance (task : ℕ)
  | report (task : ℕ) (now : String)
  /-- Any other process writes a file. -/
  | write (path : String) (content : List U8)

def isWhitespace (c : Char) : Bool :=
  (9 ≤ c.toNat && c.toNat ≤ 13) || c.toNat = 32 || c.toNat = 0x85 || c.toNat = 0xA0 ||
    c.toNat = 0x1680 || (0x2000 ≤ c.toNat && c.toNat ≤ 0x200A) || c.toNat = 0x2028 ||
    c.toNat = 0x2029 || c.toNat = 0x202F || c.toNat = 0x205F || c.toNat = 0x3000

def fieldCount (pattern : String) : ℕ :=
  ((pattern.toList.splitOnP isWhitespace).filter fun field => field ≠ []).length

def validSchedule (pattern : String) : Bool := 5 ≤ fieldCount pattern && fieldCount pattern ≤ 6

namespace Manager

variable (zstd : List U8 → List U8)

def initial (backupFile bucket : String) (cronSchedule : Option String) (files : Files)
    (objects : HashMap (String × String) (List U8)) : Manager where
  state :=
    { backupsEnabled := cronSchedule.isSome
      cronSchedule := cronSchedule
      backupFile := backupFile
      bucket := bucket
      lastBackupAt := none
      lastBackupError := none }
  locked := false
  tasks := []
  starting := 0
  files := files
  s3 := ⟨objects, []⟩

def startUpload (m : Manager) (request : String × String) (io : Upload.Stage → Option String) :
    Upload :=
  Upload.start request.2 request.1 io m.s3.puts.length

def afterAdvance (locked : Bool) (u : Upload) : Except ManagerError (Option Upload) → Task
  | .ok (some u') => .uploading locked u'
  | .ok none => .returned locked u (.ok ())
  | .error e => .returned locked u (.error e)

def reportResult (state : ManagerState) (now : String) : Except ManagerError Unit → ManagerState
  | .ok () =>
    { state with
      lastBackupAt := some now
      lastBackupError := none }
  | .error e => { state with lastBackupError := some e.message }

def step (m : Manager) : Action → Option Manager
  | .cronTick io =>
    some (if m.state.backupsEnabled then
      { m with
        tasks := m.tasks ++
          [.uploading false (m.startUpload (m.state.backupFile, m.state.bucket) io)] }
    else m)
  | .triggerBackup =>
    some (if m.locked then m
    else { m with tasks := m.tasks ++ [.waiting (some (m.state.backupFile, m.state.bucket))] })
  | .startBackup cronSchedule =>
    some (if validSchedule cronSchedule then
      { m with
        state :=
          { m.state with
            backupsEnabled := true
            cronSchedule := some cronSchedule }
        starting := m.starting + 1 }
    else m)
  | .spawnImmediateBackup =>
    if m.starting = 0 then none
    else some
      { m with
        starting := m.starting - 1
        tasks := if m.locked then m.tasks else m.tasks ++ [.waiting none] }
  | .stopBackup =>
    some
      { m with
        state :=
          { m.state with
            backupsEnabled := false
            cronSchedule := none } }
  | .modifyBackupConfig bucket backupFile =>
    some
      { m with
        state :=
          { m.state with
            bucket := bucket.getD m.state.bucket
            backupFile := backupFile.getD m.state.backupFile } }
  | .acquireLock task =>
    match m.tasks[task]? with
    | some (.waiting request) =>
      if m.locked then none
      else some
        { m with
          locked := true
          tasks := m.tasks.set task (.holding request) }
    | _ => none
  | .beginUpload task io =>
    match m.tasks[task]? with
    | some (.holding request) =>
      let request := request.getD (m.state.backupFile, m.state.bucket)
      some { m with tasks := m.tasks.set task (.uploading true (m.startUpload request io)) }
    | _ => none
  | .advance task =>
    match m.tasks[task]? with
    | some (.uploading locked u) =>
      let r := u.advance zstd m.files
      some
        { m with
          files := r.2
          tasks := m.tasks.set task (afterAdvance locked u r.1) }
    | _ => none
  | .report task now =>
    match m.tasks[task]? with
    | some (.returned locked _ result) =>
      some
        { m with
          state := reportResult m.state now result
          locked := m.locked && !locked
          tasks := m.tasks.set task .finished }
    | _ => none
  | .write path content => some { m with files := Function.update m.files path content }

def run : Manager → List Action → Option Manager
  | m, [] => some m
  | m, a :: as => (step zstd m a).bind fun m' => run m' as

/-! ## What a step does to the tasks -/

inductive Spawned (m : Manager) : Task → Prop
  | cron (request : String × String) (io : Upload.Stage → Option String) :
      Spawned m (.uploading false (m.startUpload request io))
  | waiting (request : Option (String × String)) : Spawned m (.waiting request)

inductive TaskStep (m : Manager) : Task → Task → Prop
  | acquire (request : Option (String × String)) : TaskStep m (.waiting request) (.holding request)
  | begin (request : Option (String × String)) (request' : String × String)
      (io : Upload.Stage → Option String) :
      TaskStep m (.holding request) (.uploading true (m.startUpload request' io))
  | advance (locked : Bool) (u : Upload) :
      TaskStep m (.uploading locked u) (afterAdvance locked u (u.advance zstd m.files).1)
  | report (locked : Bool) (u : Upload) (result : Except ManagerError Unit) :
      TaskStep m (.returned locked u result) .finished

variable {zstd}

theorem step_tasks {m m' : Manager} {a : Action} (h : step zstd m a = some m') :
    m'.s3 = m.s3 ∧ (m'.tasks = m.tasks ∨ (∃ t, Spawned m t ∧ m'.tasks = m.tasks ++ [t]) ∨
      ∃ task t t', m.tasks[task]? = some t ∧ TaskStep zstd m t t' ∧
        m'.tasks = m.tasks.set task t') := by
  cases a with
  | cronTick io =>
      rw [step, Option.some.injEq] at h
      subst m'
      split_ifs
      · exact ⟨rfl, .inr (.inl ⟨_, .cron _ _, rfl⟩)⟩
      · exact ⟨rfl, .inl rfl⟩
  | triggerBackup =>
      rw [step, Option.some.injEq] at h
      subst m'
      split_ifs
      · exact ⟨rfl, .inl rfl⟩
      · exact ⟨rfl, .inr (.inl ⟨_, .waiting _, rfl⟩)⟩
  | startBackup cronSchedule =>
      rw [step, Option.some.injEq] at h
      subst m'
      split_ifs
      · exact ⟨rfl, .inl rfl⟩
      · exact ⟨rfl, .inl rfl⟩
  | spawnImmediateBackup =>
      rw [step] at h
      split_ifs at h with hstarting hlocked
      · cases h
        exact ⟨rfl, .inl rfl⟩
      · cases h
        exact ⟨rfl, .inr (.inl ⟨_, .waiting _, rfl⟩)⟩
  | stopBackup =>
      cases h
      exact ⟨rfl, .inl rfl⟩
  | modifyBackupConfig bucket backupFile =>
      cases h
      exact ⟨rfl, .inl rfl⟩
  | acquireLock task =>
      rw [step] at h
      split at h
      · next request htask =>
          split_ifs at h with hlocked
          cases h
          exact ⟨rfl, .inr (.inr ⟨task, _, _, htask, .acquire request, rfl⟩)⟩
      · cases h
  | beginUpload task io =>
      rw [step] at h
      split at h
      · next request htask =>
          cases h
          exact ⟨rfl, .inr (.inr ⟨task, _, _, htask, .begin request _ io, rfl⟩)⟩
      · cases h
  | advance task =>
      rw [step] at h
      split at h
      · next locked u htask =>
          cases h
          exact ⟨rfl, .inr (.inr ⟨task, _, _, htask, .advance locked u, rfl⟩)⟩
      · cases h
  | report task now =>
      rw [step] at h
      split at h
      · next locked u result htask =>
          cases h
          exact ⟨rfl, .inr (.inr ⟨task, _, _, htask, .report locked u result, rfl⟩)⟩
      · cases h
  | write path content =>
      cases h
      exact ⟨rfl, .inl rfl⟩

/-! ## The invariant of the backups -/

/-- An upload saw that many objects put when it began; it returns an error
exactly if one of its stages fails. -/
def TaskOk (puts : ℕ) : Task → Prop
  | .uploading _ u => u.Passed ∧ u.putsBefore = puts
  | .returned _ u result => (result = .ok () ↔ ¬ u.SomeStageFails) ∧ u.putsBefore = puts
  | _ => True

def Inv (m : Manager) : Prop := m.s3.puts = [] ∧ ∀ t ∈ m.tasks, TaskOk 0 t

theorem initial_inv (backupFile bucket : String) (cronSchedule : Option String) (files : Files)
    (objects : HashMap (String × String) (List U8)) :
    (initial backupFile bucket cronSchedule files objects).Inv :=
  ⟨rfl, fun t ht => by cases ht⟩

theorem startUpload_ok {m : Manager} (h : m.Inv) (locked : Bool) (request : String × String)
    (io : Upload.Stage → Option String) :
    TaskOk 0 (.uploading locked (m.startUpload request io)) :=
  ⟨Upload.start_passed _ _ _ _, congrArg List.length h.1⟩

theorem spawned_ok {m : Manager} (h : m.Inv) {t : Task} (ht : Spawned m t) : TaskOk 0 t := by
  cases ht with
  | cron request io => exact startUpload_ok h _ _ _
  | waiting request => trivial

theorem taskStep_ok {m : Manager} (h : m.Inv) {t t' : Task} (ht : TaskOk 0 t)
    (hstep : TaskStep zstd m t t') : TaskOk 0 t' := by
  cases hstep with
  | acquire request => trivial
  | begin request request' io => exact startUpload_ok h _ _ _
  | advance locked u =>
      obtain ⟨hpassed, hputs⟩ := ht
      rcases Upload.advance_cases zstd m.files hpassed with
        ⟨hok, hnone⟩ | ⟨e, herror, hsome⟩ | ⟨u', hnext, hpassed', hputs'⟩
      · rw [hok]
        exact ⟨iff_of_true rfl hnone, hputs⟩
      · rw [herror]
        exact ⟨iff_of_false (by simp) (not_not.2 hsome), hputs⟩
      · rw [hnext]
        exact ⟨hpassed', hputs'.trans hputs⟩
  | report locked u result => trivial

theorem step_inv {m m' : Manager} {a : Action} (hstep : step zstd m a = some m') (h : m.Inv) :
    m'.Inv := by
  obtain ⟨hs3, htasks⟩ := step_tasks hstep
  refine ⟨hs3 ▸ h.1, fun t' ht' => ?_⟩
  rcases htasks with htasks | ⟨t, hspawned, htasks⟩ | ⟨task, t, t₁, ht, hone, htasks⟩
  · rw [htasks] at ht'
    exact h.2 t' ht'
  · rw [htasks, List.mem_append, List.mem_singleton] at ht'
    rcases ht' with ht' | rfl
    · exact h.2 t' ht'
    · exact spawned_ok h hspawned
  · rw [htasks] at ht'
    rcases List.mem_or_eq_of_mem_set ht' with ht' | rfl
    · exact h.2 t' ht'
    · exact taskStep_ok h (h.2 t (List.mem_of_getElem? ht)) hone

theorem run_inv {m m' : Manager} {actions : List Action} (hrun : run zstd m actions = some m')
    (h : m.Inv) : m'.Inv := by
  induction actions generalizing m with
  | nil =>
      rw [run, Option.some.injEq] at hrun
      rwa [← hrun]
  | cons a actions ih =>
      rw [run, Option.bind_eq_some_iff] at hrun
      obtain ⟨m₁, hstep, hrest⟩ := hrun
      exact ih hrest (step_inv hstep h)

/-! ## Reported backups -/

/-- During the call its bucket got an object that holds the compression of the
data that the call read, and still holds it. -/
def Stored (zstd : List U8 → List U8) (m : Manager) (u : Upload) : Prop :=
  ∃ key, ((u.bucket, key), zstd u.copied) ∈ m.s3.puts.drop u.putsBefore ∧
    m.s3.objects.lookup (u.bucket, key) = some (zstd u.copied)

/-- Whenever a run reports that `upload_backup` returned `Ok`, the object exists. -/
def ReportsExist (zstd : List U8 → List U8) (m₀ : Manager) (actions : List Action) : Prop :=
  ∀ before task now after m locked u, actions = before ++ .report task now :: after →
    run zstd m₀ before = some m → m.tasks[task]? = some (.returned locked u (.ok ())) →
      Stored zstd m u

/-- In every backup that the run reports on, the input makes some stage fail. -/
def EveryBackupFails (zstd : List U8 → List U8) (m₀ : Manager) (actions : List Action) : Prop :=
  ∀ before task now after m locked u result, actions = before ++ .report task now :: after →
    run zstd m₀ before = some m → m.tasks[task]? = some (.returned locked u result) →
      u.SomeStageFails

theorem stored_of_putObject (m : Manager) (u : Upload) (key : String)
    (h : u.putsBefore ≤ m.s3.puts.length) :
    Stored zstd { m with s3 := m.s3.putObject u.bucket key (zstd u.copied) } u := by
  refine ⟨key, ?_, ?_⟩
  · change _ ∈ (m.s3.puts ++ [_]).drop u.putsBefore
    rw [List.drop_append_of_le_length h]
    exact List.mem_append_right _ List.mem_cons_self
  · change (HashMap.insertAll _ _ m.s3.initial (m.s3.puts ++ [_])).lookup _ = _
    rw [HashMap.lookup_insertAll]
    simp

/-- In every run, from every initial state: the reported backups exist exactly
if each backup that is reported on fails in one of its stages. -/
theorem reportsExist_iff (zstd : List U8 → List U8) (backupFile bucket : String)
    (cronSchedule : Option String) (files : Files)
    (objects : HashMap (String × String) (List U8)) (actions : List Action) :
    ReportsExist zstd (initial backupFile bucket cronSchedule files objects) actions ↔
      EveryBackupFails zstd (initial backupFile bucket cronSchedule files objects) actions := by
  have hinv := initial_inv backupFile bucket cronSchedule files objects
  constructor
  · intro hexist before task now after m locked u result hactions hrun htask
    have hm := run_inv hrun hinv
    obtain ⟨hresult, hputs⟩ := hm.2 _ (List.mem_of_getElem? htask)
    by_contra hnone
    rw [hresult.2 hnone] at htask
    obtain ⟨key, hput, -⟩ := hexist before task now after m locked u hactions hrun htask
    rw [hm.1, List.drop_nil] at hput
    cases hput
  · intro hfails before task now after m locked u hactions hrun htask
    obtain ⟨hresult, -⟩ := (run_inv hrun hinv).2 _ (List.mem_of_getElem? htask)
    exact absurd (hfails before task now after m locked u _ hactions hrun htask) (hresult.1 rfl)

/-! ## A triggered backup without failures -/

def rawFrame (data : List U8) : List U8 :=
  [0x28, 0xB5, 0x2F, 0xFD, 0x00, 0x48] ++
    [BitVec.ofNat 8 (8 * data.length + 1), BitVec.ofNat 8 ((8 * data.length + 1) / 256), 0] ++ data

def idleManager : Manager :=
  initial "/data/0_0.tigerbeetle" "backups" none (fun _ => [7]) ∅

def triggeredBackup : List Action :=
  [.triggerBackup, .acquireLock 0, .beginUpload 0 fun _ => none] ++ List.replicate 12 (.advance 0)

/-- The backup is reported as successful and no object was ever put. -/
theorem triggeredBackup_not_stored :
    (∃ m, run rawFrame idleManager
        (triggeredBackup ++ [.report 0 "2026-01-01T00:00:00+00:00"]) = some m ∧
      m.state.lastBackupAt = some "2026-01-01T00:00:00+00:00" ∧ m.state.lastBackupError = none ∧
      m.s3.puts = []) ∧
      ¬ ReportsExist rawFrame idleManager
        (triggeredBackup ++ [.report 0 "2026-01-01T00:00:00+00:00"]) := by
  refine ⟨⟨_, rfl, rfl, rfl, rfl⟩, fun hexist => ?_⟩
  obtain ⟨key, hput, -⟩ := hexist triggeredBackup 0 _ [] _ true _ rfl rfl rfl
  cases hput

end Manager

end TbManager
