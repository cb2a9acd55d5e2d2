import TbManager.BackupRuns
import TbManager.Runs

/-!
# The backup lock

The calls test the lock, release it and spawn a task that takes it again for the
backup; the cron job does not touch it. Backups of the calls exclude each other
over every order of these steps, a backup of the cron job excludes nothing.
-/

namespace TbManager

inductive BackupStage where
  /-- The cron job runs and has not read the state. -/
  | ticked
  /-- The cron job has read that backups are enabled. -/
  | checked
  /-- A call holds the guard of its `try_lock`. -/
  | testing
  /-- The call has dropped the guard and not spawned its task. -/
  | tested
  /-- The spawned task, before the lock. -/
  | waiting
  /-- The task under the lock, before the upload. -/
  | holding
  | uploading (locked : Bool)
  /-- After the return of `upload_backup`. -/
  | returned (locked : Bool)
  | finished
  deriving DecidableEq, Repr

namespace BackupStage

def owns : BackupStage → Bool
  | testing => true
  | holding => true
  | uploading locked => locked
  | returned locked => locked
  | _ => false

def isUploading : BackupStage → Bool
  | uploading _ => true
  | _ => false

def unlocked : BackupStage → Bool
  | uploading locked => !locked
  | _ => false

end BackupStage

structure BackupSystem where
  backupsEnabled : Bool
  locked : Bool
  stages : List BackupStage
  deriving DecidableEq, Repr

inductive BackupAction where
  /-- A start or a stop call updates the state. -/
  | setEnabled (enabled : Bool)
  | cronTick
  | readState (task : ℕ)
  /-- `try_lock` of `trigger_backup`. -/
  | triggerBackup
  /-- `try_lock` of `spawn_immediate_backup`. -/
  | spawnImmediateBackup
  | dropGuard (task : ℕ)
  | spawn (task : ℕ)
  | acquireLock (task : ℕ)
  | beginUpload (task : ℕ)
  | returnUpload (task : ℕ)
  /-- The task ends; it drops its guard. -/
  | finish (task : ℕ)
  deriving DecidableEq, Repr

namespace BackupSystem

open BackupStage

def initial (backupsEnabled : Bool) : BackupSystem := ⟨backupsEnabled, false, []⟩

/-- With the lock taken, the call returns without a backup. -/
def tryLock (s : BackupSystem) : BackupSystem :=
  if s.locked then s else { s with locked := true, stages := s.stages ++ [testing] }

def setStage (s : BackupSystem) (task : ℕ) (stage : BackupStage) : BackupSystem :=
  { s with stages := s.stages.set task stage }

def step (s : BackupSystem) : BackupAction → Option BackupSystem
  | .setEnabled enabled => some { s with backupsEnabled := enabled }
  | .cronTick => some { s with stages := s.stages ++ [ticked] }
  | .readState task =>
    match s.stages[task]? with
    | some ticked => some (s.setStage task (if s.backupsEnabled then checked else finished))
    | _ => none
  | .triggerBackup => some s.tryLock
  | .spawnImmediateBackup => some s.tryLock
  | .dropGuard task =>
    match s.stages[task]? with
    | some testing => some { s.setStage task tested with locked := false }
    | _ => none
  | .spawn task =>
    match s.stages[task]? with
    | some tested => some (s.setStage task waiting)
    | _ => none
  | .acquireLock task =>
    match s.stages[task]? with
    | some waiting => if s.locked then none else some { s.setStage task holding with locked := true }
    | _ => none
  | .beginUpload task =>
    match s.stages[task]? with
    | some checked => some (s.setStage task (uploading false))
    | some holding => some (s.setStage task (uploading true))
    | _ => none
  | .returnUpload task =>
    match s.stages[task]? with
    | some (uploading locked) => some (s.setStage task (returned locked))
    | _ => none
  | .finish task =>
    match s.stages[task]? with
    | some (returned locked) =>
      some { s.setStage task finished with locked := s.locked && !locked }
    | _ => none

/-! ## What a step does -/

inductive Moves (s : BackupSystem) : BackupAction → ℕ → BackupStage → BackupStage → Bool → Prop
  | read (i : ℕ) : Moves s (.readState i) i ticked
      (if s.backupsEnabled then checked else finished) s.locked
  | drop (i : ℕ) : Moves s (.dropGuard i) i testing tested false
  | spawn (i : ℕ) : Moves s (.spawn i) i tested waiting s.locked
  | acquire (i : ℕ) (h : s.locked = false) : Moves s (.acquireLock i) i waiting holding true
  | beginCron (i : ℕ) : Moves s (.beginUpload i) i checked (uploading false) s.locked
  | beginCall (i : ℕ) : Moves s (.beginUpload i) i holding (uploading true) s.locked
  | leave (i : ℕ) (locked : Bool) :
      Moves s (.returnUpload i) i (uploading locked) (returned locked) s.locked
  | finish (i : ℕ) (locked : Bool) :
      Moves s (.finish i) i (returned locked) finished (s.locked && !locked)

/-- A step adds an execution of the cron job, adds a call under the lock, moves one task or
leaves the tasks and the lock alone. -/
inductive Change (s : BackupSystem) (a : BackupAction) (s' : BackupSystem) : Prop
  | keep (hstages : s'.stages = s.stages) (hlocked : s'.locked = s.locked)
      (ha : ∀ i, a ≠ .beginUpload i)
  | tick (hstages : s'.stages = s.stages ++ [ticked]) (hlocked : s'.locked = s.locked)
      (ha : ∀ i, a ≠ .beginUpload i)
  | test (hfree : s.locked = false) (hstages : s'.stages = s.stages ++ [testing])
      (hlocked : s'.locked = true) (ha : ∀ i, a ≠ .beginUpload i)
  | move (i : ℕ) (t t' : BackupStage) (ht : s.stages[i]? = some t)
      (hmoves : Moves s a i t t' s'.locked) (hstages : s'.stages = s.stages.set i t')

theorem tryLock_change (s : BackupSystem) (a : BackupAction) (ha : ∀ i, a ≠ .beginUpload i) :
    Change s a s.tryLock := by
  unfold tryLock
  split_ifs with hlocked
  · exact .keep rfl rfl ha
  · exact .test (Bool.eq_false_iff.2 hlocked) rfl rfl ha

theorem step_change {s s' : BackupSystem} {a : BackupAction} (h : step s a = some s') :
    Change s a s' := by
  cases a with
  | setEnabled enabled =>
      cases h
      exact .keep rfl rfl (by simp)
  | cronTick =>
      cases h
      exact .tick rfl rfl (by simp)
  | triggerBackup =>
      cases h
      exact tryLock_change s _ (by simp)
  | spawnImmediateBackup =>
      cases h
      exact tryLock_change s _ (by simp)
  | readState i =>
      rw [step] at h
      split at h
      · next ht =>
          cases h
          exact .move i _ _ ht (.read i) rfl
      · cases h
  | dropGuard i =>
      rw [step] at h
      split at h
      · next ht =>
          cases h
          exact .move i _ _ ht (.drop i) rfl
      · cases h
  | spawn i =>
      rw [step] at h
      split at h
      · next ht =>
          cases h
          exact .move i _ _ ht (.spawn i) rfl
      · cases h
  | acquireLock i =>
      rw [step] at h
      split at h
      · next ht =>
          split_ifs at h with hlocked
          cases h
          exact .move i _ _ ht (.acquire i (Bool.eq_false_iff.2 hlocked)) rfl
      · cases h
  | beginUpload i =>
      rw [step] at h
      split at h
      · next ht =>
          cases h
          exact .move i _ _ ht (.beginCron i) rfl
      · next ht =>
          cases h
          exact .move i _ _ ht (.beginCall i) rfl
      · cases h
  | returnUpload i =>
      rw [step] at h
      split at h
      · next locked ht =>
          cases h
          exact .move i _ _ ht (.leave i locked) rfl
      · cases h
  | finish i =>
      rw [step] at h
      split at h
      · next locked ht =>
          cases h
          exact .move i _ _ ht (.finish i locked) rfl
      · cases h

/-! ## The lock has one owner -/

def Inv (s : BackupSystem) : Prop := s.stages.countP owns = if s.locked then 1 else 0

theorem initial_inv (backupsEnabled : Bool) : (initial backupsEnabled).Inv := rfl

theorem moves_inv {s s' : BackupSystem} {a : BackupAction} {i : ℕ} {t t' : BackupStage}
    (hi : s.Inv) (ht : s.stages[i]? = some t) (h : Moves s a i t t' s'.locked)
    (hstages : s'.stages = s.stages.set i t') : s'.Inv := by
  have hcount := countP_set_add (p := owns) t' ht
  unfold Inv at hi ⊢
  rw [hstages]
  generalize s'.locked = locked' at h ⊢
  cases h with
  | read i =>
      have hidle : owns (if s.backupsEnabled then checked else finished) = false := by
        split_ifs <;> rfl
      rw [hidle] at hcount
      exact hcount.trans hi
  | drop i =>
      have hown : owns testing = true := rfl
      have hnone : owns tested = false := rfl
      simp only [hown, hnone, if_true, Bool.false_eq_true, if_false] at hcount ⊢
      split_ifs at hi <;> omega
  | spawn i => exact hcount.trans hi
  | acquire i hfree =>
      have hown : owns holding = true := rfl
      have hnone : owns waiting = false := rfl
      simp only [hown, hnone, hfree, if_true, Bool.false_eq_true, if_false] at hcount hi ⊢
      omega
  | beginCron i => exact hcount.trans hi
  | beginCall i => exact (Nat.add_right_cancel hcount).trans hi
  | leave i locked => exact (Nat.add_right_cancel hcount).trans hi
  | finish i locked =>
      cases locked with
      | false =>
          rw [Bool.not_false, Bool.and_true]
          exact hcount.trans hi
      | true =>
          have hown : owns (returned true) = true := rfl
          have hnone : owns finished = false := rfl
          simp only [hown, hnone, if_true, Bool.false_eq_true, if_false, Bool.not_true,
            Bool.and_false] at hcount ⊢
          split_ifs at hi <;> omega

theorem step_inv {s s' : BackupSystem} {a : BackupAction} (hi : s.Inv)
    (h : step s a = some s') : s'.Inv := by
  cases step_change h with
  | keep hstages hlocked ha => rwa [Inv, hstages, hlocked]
  | tick hstages hlocked ha =>
      rw [Inv, hstages, hlocked, List.countP_append]
      exact hi
  | test hfree hstages hlocked ha =>
      rw [Inv, hfree] at hi
      rw [Inv, hstages, hlocked, List.countP_append, hi]
      rfl
  | move i t t' ht hmoves hstages => exact moves_inv hi ht hmoves hstages

/-! ## Two uploads at a time -/

/-- At most one execution of `upload_backup` is in progress. -/
def Exclusive (s : BackupSystem) : Prop := s.stages.countP isUploading ≤ 1

instance (s : BackupSystem) : Decidable s.Exclusive := inferInstanceAs (Decidable (_ ≤ 1))

/-- The cron job begins an upload only when none is in progress, a call only when the cron
job has none in progress. -/
def Alone (s : BackupSystem) : BackupAction → Prop
  | .beginUpload task =>
    (s.stages[task]? = some checked → s.stages.countP isUploading = 0) ∧
      (s.stages[task]? = some holding → s.stages.countP unlocked = 0)
  | _ => True

theorem countP_uploading_le (stages : List BackupStage) :
    stages.countP isUploading ≤ stages.countP unlocked + stages.countP owns := by
  induction stages with
  | nil => exact le_rfl
  | cons t stages ih =>
      rw [List.countP_cons, List.countP_cons, List.countP_cons]
      have hone : (if isUploading t then 1 else 0) ≤
          (if unlocked t then 1 else 0) + if owns t then 1 else 0 := by
        cases t with
        | uploading locked => cases locked <;> decide
        | _ => exact Nat.zero_le _
      omega

theorem countP_unlocked_le (stages : List BackupStage) :
    stages.countP unlocked ≤ stages.countP isUploading := by
  apply List.countP_mono_left
  intro t _ ht
  cases t with
  | uploading locked => rfl
  | _ => cases ht

theorem countP_uploading_of_holding {s : BackupSystem} (hi : s.Inv) {i : ℕ}
    (ht : s.stages[i]? = some holding) :
    s.stages.countP isUploading = s.stages.countP unlocked := by
  have hle := countP_unlocked_le s.stages
  -- without the holding task nobody owns the lock
  have hothers := countP_uploading_le (s.stages.set i waiting)
  have howns := countP_set_add (p := owns) waiting ht
  have hupload := countP_set_add (p := isUploading) waiting ht
  have hcron := countP_set_add (p := unlocked) waiting ht
  have hlock : s.stages.countP owns ≤ 1 := by
    rw [hi]
    split_ifs <;> omega
  simp only [owns, isUploading, unlocked, if_true, Bool.false_eq_true, if_false] at *
  omega

theorem exclusive_step_iff {s s' : BackupSystem} {a : BackupAction} (hi : s.Inv)
    (hx : s.Exclusive) (h : step s a = some s') : s'.Exclusive ↔ Alone s a := by
  have hother : (∀ i, a ≠ .beginUpload i) → Alone s a := by
    intro ha
    cases a with
    | beginUpload i => exact absurd rfl (ha i)
    | _ => trivial
  unfold Exclusive at hx ⊢
  cases step_change h with
  | keep hstages hlocked ha =>
      rw [hstages]
      exact iff_of_true hx (hother ha)
  | tick hstages hlocked ha =>
      rw [hstages, List.countP_append]
      exact iff_of_true hx (hother ha)
  | test hfree hstages hlocked ha =>
      rw [hstages, List.countP_append]
      exact iff_of_true hx (hother ha)
  | move i t t' ht hmoves hstages =>
      have hcount := countP_set_add (p := isUploading) t' ht
      rw [hstages]
      generalize s'.locked = locked' at hmoves
      cases hmoves with
      | read i =>
          have hidle : isUploading (if s.backupsEnabled then checked else finished) = false := by
            split_ifs <;> rfl
          rw [hidle] at hcount
          exact iff_of_true (hcount.trans_le hx) trivial
      | drop i => exact iff_of_true (hcount.trans_le hx) trivial
      | spawn i => exact iff_of_true (hcount.trans_le hx) trivial
      | acquire i hfree => exact iff_of_true (hcount.trans_le hx) trivial
      | beginCron i =>
          have halone : Alone s (.beginUpload i) ↔ s.stages.countP isUploading = 0 := by
            simp [Alone, ht]
          have hold : isUploading checked = false := rfl
          have hnew : isUploading (uploading false) = true := rfl
          simp only [hold, hnew, if_true, Bool.false_eq_true, if_false] at hcount
          rw [halone]
          omega
      | beginCall i =>
          have halone : Alone s (.beginUpload i) ↔ s.stages.countP unlocked = 0 := by
            simp [Alone, ht]
          have hcron := countP_uploading_of_holding hi ht
          have hold : isUploading holding = false := rfl
          have hnew : isUploading (uploading true) = true := rfl
          simp only [hold, hnew, if_true, Bool.false_eq_true, if_false] at hcount
          rw [halone]
          omega
      | leave i locked =>
          have hold : isUploading (uploading locked) = true := rfl
          have hnew : isUploading (returned locked) = false := rfl
          simp only [hold, hnew, if_true, Bool.false_eq_true, if_false] at hcount
          exact iff_of_true (by omega) trivial
      | finish i locked => exact iff_of_true (hcount.trans_le hx) trivial

/-- In every run at most one upload is in progress throughout exactly when no upload begins
beside one of the cron job and the cron job begins none beside another. -/
theorem exclusive_iff (backupsEnabled : Bool) (actions : List BackupAction) {s' : BackupSystem}
    (hrun : runFrom step (initial backupsEnabled) actions = some s') :
    Throughout step Exclusive (initial backupsEnabled) actions ↔
      StepsMeet step Alone (initial backupsEnabled) actions :=
  throughout_iff_stepsMeet (fun _ _ _ hi h => step_inv hi h)
    (fun _ _ _ hi hx h => exclusive_step_iff hi hx h) (initial_inv backupsEnabled)
    (Nat.zero_le 1) hrun

def tickDuringBackup : List BackupAction :=
  [.triggerBackup, .dropGuard 0, .spawn 0, .acquireLock 0, .beginUpload 0, .cronTick,
    .readState 1, .beginUpload 1]

theorem exclusive_iff_tickDuringBackup :
    runFrom step (initial true) tickDuringBackup =
      some ⟨true, true, [uploading true, uploading false]⟩ ∧
    (Throughout step Exclusive (initial true) tickDuringBackup ↔
      StepsMeet step Alone (initial true) tickDuringBackup) :=
  have hrun : runFrom step (initial true) tickDuringBackup =
      some ⟨true, true, [uploading true, uploading false]⟩ := by decide
  ⟨hrun, exclusive_iff true tickDuringBackup hrun⟩

theorem tickDuringBackup_not_exclusive :
    ¬ Throughout step Exclusive (initial true) tickDuringBackup := by
  intro h
  have hboth := h tickDuringBackup [] ⟨true, true, [uploading true, uploading false]⟩ rfl
    (by decide)
  exact absurd hboth (by decide)

end BackupSystem

/-! ## The manager takes these steps -/

def Task.stage : Task → BackupStage
  | .waiting _ => .waiting
  | .holding _ => .holding
  | .uploading locked _ => .uploading locked
  | .returned locked _ _ => .returned locked
  | .finished => .finished

namespace Manager

open BackupSystem

/-- The manager without what its backups read and write. -/
def backups (m : Manager) : BackupSystem :=
  ⟨m.state.backupsEnabled, m.locked, m.tasks.map Task.stage⟩

theorem reportResult_backupsEnabled (state : ManagerState) (now : String)
    (result : Except ManagerError Unit) :
    (reportResult state now result).backupsEnabled = state.backupsEnabled := by
  cases result with
  | ok u => rfl
  | error e => rfl

theorem getElem?_stage {m : Manager} {i : ℕ} {t : Task} (h : m.tasks[i]? = some t) :
    m.backups.stages[i]? = some t.stage := by
  change (m.tasks.map Task.stage)[i]? = _
  rw [List.getElem?_map, h]
  rfl

theorem run_spawn (s : BackupSystem) {a : BackupAction} (ha : BackupSystem.step s a = some s.tryLock)
    (hfree : s.locked = false) :
    runFrom BackupSystem.step s [a, .dropGuard s.stages.length, .spawn s.stages.length] =
      some { s with stages := s.stages ++ [.waiting] } := by
  have htest : s.tryLock = { s with locked := true, stages := s.stages ++ [.testing] } :=
    if_neg (Bool.eq_false_iff.1 hfree)
  rw [runFrom, ha, Option.bind_some, htest]
  simp [runFrom, BackupSystem.step, setStage, hfree]

theorem run_tick (s : BackupSystem) (henabled : s.backupsEnabled = true) :
    runFrom BackupSystem.step s
        [.cronTick, .readState s.stages.length, .beginUpload s.stages.length] =
      some { s with stages := s.stages ++ [.uploading false] } := by
  simp [runFrom, BackupSystem.step, setStage, henabled]

/-- Every step of the manager is a run of the backup system. -/
theorem step_backups {zstd : List U8 → List U8} {m m' : Manager} {a : Action}
    (h : step zstd m a = some m') :
    ∃ actions, runFrom BackupSystem.step m.backups actions = some m'.backups := by
  cases a with
  | cronTick io =>
      rw [step, Option.some.injEq] at h
      subst m'
      split_ifs with henabled
      · refine ⟨_, (run_tick m.backups henabled).trans ?_⟩
        simp [backups, Task.stage]
      · exact ⟨[], rfl⟩
  | triggerBackup =>
      rw [step, Option.some.injEq] at h
      subst m'
      split_ifs with hlocked
      · exact ⟨[], rfl⟩
      · refine ⟨_, (run_spawn m.backups (a := .triggerBackup) rfl
          (Bool.eq_false_iff.2 hlocked)).trans ?_⟩
        simp [backups, Task.stage]
  | startBackup cronSchedule =>
      rw [step, Option.some.injEq] at h
      subst m'
      split_ifs
      · exact ⟨[.setEnabled true], rfl⟩
      · exact ⟨[], rfl⟩
  | spawnImmediateBackup =>
      rw [step] at h
      split_ifs at h with hstarting hlocked
      · cases h
        exact ⟨[], rfl⟩
      · cases h
        refine ⟨_, (run_spawn m.backups (a := .spawnImmediateBackup) rfl
          (Bool.eq_false_iff.2 hlocked)).trans ?_⟩
        simp [backups, Task.stage]
  | stopBackup =>
      cases h
      exact ⟨[.setEnabled false], rfl⟩
  | modifyBackupConfig bucket backupFile =>
      cases h
      exact ⟨[], rfl⟩
  | acquireLock task =>
      rw [step] at h
      split at h
      · next request htask =>
          split_ifs at h with hlocked
          cases h
          refine ⟨[.acquireLock task], ?_⟩
          simp [runFrom, BackupSystem.step, htask, hlocked, Task.stage, setStage, backups,
            List.map_set]
      · cases h
  | beginUpload task io =>
      rw [step] at h
      split at h
      · next request htask =>
          cases h
          refine ⟨[.beginUpload task], ?_⟩
          simp [runFrom, BackupSystem.step, htask, Task.stage, setStage, backups, List.map_set]
      · cases h
  | advance task =>
      rw [step] at h
      split at h
      · next locked u htask =>
          cases h
          have hstage := getElem?_stage htask
          rcases (u.advance zstd m.files).1 with e | u'
          · refine ⟨[.returnUpload task], ?_⟩
            simp [runFrom, BackupSystem.step, htask, Task.stage, setStage, backups, List.map_set,
              afterAdvance]
          · cases u' with
            | none =>
                refine ⟨[.returnUpload task], ?_⟩
                simp [runFrom, BackupSystem.step, htask, Task.stage, setStage, backups,
                  List.map_set, afterAdvance]
            | some u' =>
                refine ⟨[], ?_⟩
                have hsame : (m.tasks.map Task.stage).set task (.uploading locked) =
                    m.tasks.map Task.stage := set_of_getElem? hstage
                simp [runFrom, backups, List.map_set, afterAdvance, Task.stage, hsame]
      · cases h
  | report task now =>
      rw [step] at h
      split at h
      · next locked u result htask =>
          cases h
          refine ⟨[.finish task], ?_⟩
          simp [runFrom, BackupSystem.step, htask, Task.stage, setStage, backups, List.map_set,
            reportResult_backupsEnabled]
      · cases h
  | write path content =>
      cases h
      exact ⟨[], rfl⟩

/-- The runs of the manager are runs of the backup system. -/
theorem run_backups {zstd : List U8 → List U8} {m m' : Manager} {actions : List Action}
    (h : run zstd m actions = some m') :
    ∃ steps, runFrom BackupSystem.step m.backups steps = some m'.backups := by
  induction actions generalizing m with
  | nil =>
      rw [run, Option.some.injEq] at h
      exact ⟨[], by rw [h]; rfl⟩
  | cons a actions ih =>
      rw [run, Option.bind_eq_some_iff] at h
      obtain ⟨m₁, hstep, hrest⟩ := h
      obtain ⟨first, hfirst⟩ := step_backups hstep
      obtain ⟨rest, hrest⟩ := ih hrest
      exact ⟨first ++ rest, by rw [runFrom_append, hfirst]; exact hrest⟩

/-- In every run of the manager the lock has one owner. -/
theorem run_lock {zstd : List U8 → List U8} {backupFile bucket : String}
    {cronSchedule : Option String} {files : Files}
    {objects : HashMap (String × String) (List U8)} {actions : List Action} {m : Manager}
    (h : run zstd (initial backupFile bucket cronSchedule files objects) actions = some m) :
    m.backups.Inv := by
  obtain ⟨steps, hsteps⟩ := run_backups h
  exact invariant_run (fun _ _ _ hi hs => BackupSystem.step_inv hi hs)
    (BackupSystem.initial_inv cronSchedule.isSome) hsteps

end Manager

end TbManager
