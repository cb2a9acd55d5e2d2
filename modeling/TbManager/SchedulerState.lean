import TbManager.ScheduleCopies

/-!
# The scheduler behind the reported state

The manager loop follows the watch channel of the schedule: it shuts the old
scheduler down and builds a new one, which the cron parser can refuse. The state
that the calls report is written before and is not taken back.
-/

namespace TbManager

/-- `create_scheduler`: a scheduler with the pattern, if the cron parser accepts it. -/
def createScheduler (accepts : String → Bool) (cronPattern : String) : Option String :=
  if accepts cronPattern then some cronPattern else none

inductive ScheduleRequest where
  | startBackup (cronSchedule : String)
  | stopBackup
  deriving DecidableEq, Repr

structure ManagerLoop where
  node : NodeSchedule
  /-- The channel holds a value that the loop has not seen. -/
  changed : Bool
  /-- The pattern of the scheduler that runs. -/
  scheduler : Option String
  deriving DecidableEq, Repr

inductive LoopAction where
  | call (a : ScheduleAction)
  | cronChanged
  deriving DecidableEq, Repr

namespace ManagerLoop

variable (accepts : String → Bool)

def initial (config : BackupConfig) (dataFile : Option String) : ManagerLoop where
  node := .initial config dataFile
  changed := false
  scheduler := config.cronSchedule.bind (createScheduler accepts)

def step (s : ManagerLoop) : LoopAction → Option ManagerLoop
  | .call a =>
    (s.node.step a).map fun node =>
      { s with
        node := node
        changed := s.changed || a.sends.isSome }
  | .cronChanged =>
    if s.changed then
      -- the old scheduler is shut down whatever becomes of the new one
      some
        { s with
          changed := false
          scheduler := s.node.cronScheduleTx.bind (createScheduler accepts) }
    else none

/-- The steps of a call with number `i` and of the loop after it. -/
def accept (i : ℕ) (begins : ScheduleAction) : List LoopAction :=
  [.call begins, .call (.persist i), .call (.send i), .cronChanged]

def firstStep : ScheduleRequest → ScheduleAction
  | .startBackup cronSchedule => .startBackup cronSchedule
  | .stopBackup => .stopBackup

def schedule (request : ScheduleRequest) : Option (Option String) := (firstStep request).begins

/-- A call alone on the node with `i` calls before it; a start call that fails its check ends
at once. -/
def serve (i : ℕ) (request : ScheduleRequest) : List LoopAction :=
  if (schedule request).isSome then accept i (firstStep request)
  else [.call (firstStep request)]

def serveAll : ℕ → List ScheduleRequest → List LoopAction
  | _, [] => []
  | i, request :: requests =>
    serve i request ++ serveAll (i + (schedule request).toList.length) requests

def inForce : Option String → List ScheduleRequest → Option String
  | cron, [] => cron
  | cron, request :: requests => inForce ((schedule request).getD cron) requests

/-- A scheduler runs with a pattern exactly when the state reports it. -/
def Reported (s : ManagerLoop) : Prop :=
  ∀ p, s.scheduler = some p ↔
    s.node.managerState.backupsEnabled = true ∧ s.node.managerState.cronSchedule = some p

/-! ## Between two calls -/

/-- The loop has followed the last call, whose schedule is `cron`. -/
structure Settled (cron : Option String) (s : ManagerLoop) : Prop where
  seen : s.changed = false
  enabled : s.node.managerState.backupsEnabled = cron.isSome
  cronSchedule : s.node.managerState.cronSchedule = cron
  scheduler : s.scheduler = cron.bind (createScheduler accepts)

variable {accepts}

theorem initial_settled (config : BackupConfig) (dataFile : Option String) :
    Settled accepts config.cronSchedule (initial accepts config dataFile) where
  seen := rfl
  enabled := rfl
  cronSchedule := rfl
  scheduler := rfl

theorem accept_settled {s : ManagerLoop} {begins : ScheduleAction} {cron : Option String}
    (hbegins : s.node.step begins = some (s.node.update cron)) (hsends : begins.sends = none)
    (hseen : s.changed = false) :
    ∃ s', runFrom (step accepts) s (accept s.node.calls.length begins) = some s' ∧
      s'.node.calls.length = s.node.calls.length + 1 ∧ Settled accepts cron s' := by
  let n := s.node.update cron
  let call : ScheduleCall := ⟨cron, .updated⟩
  have hcall : n.calls[s.node.calls.length]? = some call := List.getElem?_concat_length
  let n₁ : NodeSchedule :=
    { n.setCall s.node.calls.length call .persisted with config := persistCron cron n.config }
  have hlength : n.calls.length = s.node.calls.length + 1 := List.length_append
  have hcall₁ : n₁.calls[s.node.calls.length]? = some { call with stage := .persisted } :=
    List.getElem?_set_self (by omega)
  let n₂ : NodeSchedule :=
    { n₁.setCall s.node.calls.length { call with stage := .persisted } .returned with
      cronScheduleTx := cron }
  have hpersist : n.step (.persist s.node.calls.length) = some n₁ := by
    simp only [NodeSchedule.step, hcall]
    rfl
  have hsend : n₁.step (.send s.node.calls.length) = some n₂ := by
    simp only [NodeSchedule.step, hcall₁]
    rfl
  refine ⟨⟨n₂, false, cron.bind (createScheduler accepts)⟩, ?_, ?_, ⟨rfl, rfl, rfl, rfl⟩⟩
  · have hfirst : step accepts s (.call begins) = some ⟨n, false, s.scheduler⟩ := by
      rw [step, hbegins, hsends, hseen]
      rfl
    have hsecond : step accepts ⟨n, false, s.scheduler⟩ (.call (.persist s.node.calls.length)) =
        some ⟨n₁, false, s.scheduler⟩ := by
      rw [step, hpersist]
      rfl
    have hthird : step accepts ⟨n₁, false, s.scheduler⟩ (.call (.send s.node.calls.length)) =
        some ⟨n₂, true, s.scheduler⟩ := by
      rw [step, hsend]
      rfl
    rw [accept, runFrom, hfirst, Option.bind_some, runFrom, hsecond, Option.bind_some, runFrom,
      hthird, Option.bind_some, runFrom_singleton]
    rfl
  · change ((n.calls.set _ _).set _ _).length = _
    rw [List.length_set, List.length_set, hlength]

theorem serve_settled {s : ManagerLoop} {cron : Option String} (hs : Settled accepts cron s)
    (request : ScheduleRequest) :
    ∃ s', runFrom (step accepts) s (serve s.node.calls.length request) = some s' ∧
      s'.node.calls.length = s.node.calls.length + (schedule request).toList.length ∧
      Settled accepts ((schedule request).getD cron) s' := by
  cases request with
  | startBackup cronSchedule =>
      by_cases hvalid : validSchedule cronSchedule
      · have hschedule : schedule (.startBackup cronSchedule) = some (some cronSchedule) :=
          if_pos hvalid
        have hstep : s.node.step (.startBackup cronSchedule) =
            some (s.node.update (some cronSchedule)) := by
          rw [NodeSchedule.step, if_pos hvalid]
        rw [serve, hschedule]
        exact accept_settled hstep rfl hs.seen
      · have hschedule : schedule (.startBackup cronSchedule) = none := if_neg hvalid
        have hstep : s.node.step (.startBackup cronSchedule) = some s.node := by
          rw [NodeSchedule.step, if_neg hvalid]
        have hcall : step accepts s (.call (.startBackup cronSchedule)) = some s := by
          rw [step, hstep, Option.map_some]
          exact congrArg (fun changed => some { s with changed := changed }) (Bool.or_false _)
        rw [serve, hschedule]
        exact ⟨s, (runFrom_singleton).trans hcall, rfl, hs⟩
  | stopBackup => exact accept_settled rfl rfl hs.seen

theorem serveAll_settled {s : ManagerLoop} {cron : Option String} (hs : Settled accepts cron s)
    (requests : List ScheduleRequest) :
    ∃ s', runFrom (step accepts) s (serveAll s.node.calls.length requests) = some s' ∧
      Settled accepts (inForce cron requests) s' := by
  induction requests generalizing s cron with
  | nil => exact ⟨s, rfl, hs⟩
  | cons request requests ih =>
      obtain ⟨s₁, hfirst, hlength, hs₁⟩ := serve_settled hs request
      obtain ⟨s', hrest, hs'⟩ := ih hs₁
      refine ⟨s', ?_, hs'⟩
      rw [serveAll, runFrom_append, hfirst, Option.bind_some, ← hlength, hrest]

theorem reported_of_settled {s : ManagerLoop} {cron : Option String}
    (hs : Settled accepts cron s) : s.Reported ↔ ∀ p, cron = some p → accepts p := by
  rw [Reported, hs.scheduler, hs.enabled, hs.cronSchedule]
  cases cron with
  | none => exact iff_of_true (fun p => by simp) (fun p h => by cases h)
  | some q =>
      rw [Option.bind_some, createScheduler]
      by_cases hq : accepts q
      · refine iff_of_true (fun p => by simp [hq]) ?_
        rintro p ⟨⟩
        exact hq
      · refine iff_of_false ?_ fun h => hq (h q rfl)
        intro h
        have hrunning := (h q).2 ⟨rfl, rfl⟩
        rw [if_neg hq] at hrunning
        cases hrunning

/-- After any calls one after another the state reports the scheduler that runs exactly when
the cron parser accepts the schedule in force, if there is one. -/
theorem reported_iff (accepts : String → Bool) (config : BackupConfig) (dataFile : Option String)
    (requests : List ScheduleRequest) :
    ∃ s, runFrom (step accepts) (initial accepts config dataFile) (serveAll 0 requests) = some s ∧
      (s.Reported ↔ ∀ p, inForce config.cronSchedule requests = some p → accepts p) := by
  obtain ⟨s, hrun, hs⟩ := serveAll_settled (initial_settled config dataFile) requests
  exact ⟨s, hrun, reported_of_settled hs⟩

def refusedLoop : ManagerLoop where
  node :=
    { managerState :=
        { backupsEnabled := true
          cronSchedule := some "61 0 3 * * *"
          backupFile := "./data/0_0.tigerbeetle"
          bucket := "tigerbeetle-backups"
          lastBackupAt := none
          lastBackupError := none }
      config := persistCron (some "61 0 3 * * *") NodeSchedule.emptyConfig
      cronScheduleTx := some "61 0 3 * * *"
      calls := [⟨some "0 0 3 * * *", .returned⟩, ⟨some "61 0 3 * * *", .returned⟩] }
  changed := false
  scheduler := none

/-- The second schedule has six fields and takes the first one's scheduler down. -/
theorem refused_not_reported :
    runFrom (step fun p => p = "0 0 3 * * *")
      (initial (fun p => p = "0 0 3 * * *") NodeSchedule.emptyConfig none)
      (serveAll 0 [.startBackup "0 0 3 * * *", .startBackup "61 0 3 * * *"]) =
        some refusedLoop ∧
    ¬ refusedLoop.Reported := by
  refine ⟨by decide +kernel, ?_⟩
  intro h
  have hrunning := (h "61 0 3 * * *").2 ⟨rfl, rfl⟩
  cases hrunning

end ManagerLoop

end TbManager
