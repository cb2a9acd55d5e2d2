import TbManager.BackupRuns
import TbManager.Runs

/-!
# The copies of the schedule

A start and a stop call change the schedule in three places: in the state of the
manager, in the config file and on the watch channel that the scheduler follows.
The steps of several calls interleave; each copy is the one of its last writer.
-/

namespace TbManager

/-! ## Copies and their last writers -/

section LastWriter

variable {α : Type*}

/-- What the last of some writers, given by their numbers, has written. -/
def lastWritten (order : List ℕ) (values : List α) : Option α :=
  order.getLast?.bind fun i => values[i]?

/-- A copy with an initial value after the writes of `order`, where writer `i` writes
`values[i]`. -/
structure LastWrite (order : List ℕ) (values : List α) (initial copy : α) : Prop where
  unwritten : order = [] → copy = initial
  written : order ≠ [] → lastWritten order values = some copy

variable {order order' : List ℕ} {values : List α} {initial copy copy' : α}

theorem lastWrite_nil (values : List α) (initial : α) : LastWrite [] values initial initial :=
  ⟨fun _ => rfl, fun h => absurd rfl h⟩

theorem lastWritten_concat (order : List ℕ) (i : ℕ) (values : List α) :
    lastWritten (order ++ [i]) values = values[i]? := by
  rw [lastWritten, List.getLast?_concat, Option.bind_some]

/-- With the writers in the order of their numbers the last value stands. -/
theorem lastWritten_range (values : List α) :
    lastWritten (List.range values.length) values = values.getLast? := by
  rw [lastWritten, List.getLast?_range, List.getLast?_eq_getElem?]
  by_cases hnil : values.length = 0
  · rw [if_pos hnil, List.length_eq_zero_iff.1 hnil]
    rfl
  · rw [if_neg hnil, Option.bind_some]

theorem LastWrite.push {i : ℕ} {x : α} (hx : values[i]? = some x) :
    LastWrite (order ++ [i]) values initial x where
  unwritten := fun h => absurd h (List.append_ne_nil_of_right_ne_nil _ (by simp))
  written := fun _ => by rw [lastWritten_concat, hx]

theorem LastWrite.grow (h : LastWrite order values initial copy) (more : List α) :
    LastWrite order (values ++ more) initial copy where
  unwritten := h.unwritten
  written := by
    intro horder
    have hwritten := h.written horder
    obtain ⟨i, hi, hvalue⟩ := Option.bind_eq_some_iff.1 hwritten
    have hlt := (List.getElem?_eq_some_iff.1 hvalue).1
    rw [lastWritten, hi, Option.bind_some, List.getElem?_append_left hlt, hvalue]

/-- Two copies are the same exactly when their last writers wrote the same. -/
theorem LastWrite.eq_iff (h : LastWrite order values initial copy)
    (h' : LastWrite order' values initial copy') (hnil : order = [] ↔ order' = []) :
    copy = copy' ↔ lastWritten order values = lastWritten order' values := by
  by_cases horder : order = []
  · have horder' := hnil.1 horder
    rw [h.unwritten horder, h'.unwritten horder', horder, horder']
    exact iff_of_true rfl rfl
  · rw [h.written horder, h'.written (mt hnil.2 horder), Option.some.injEq]

end LastWriter

/-! ## The calls -/

structure BackupConfig where
  awsEndpointUrl : Option String
  awsAccessKeyId : Option String
  awsSecretAccessKey : Option String
  awsDefaultRegion : Option String
  awsRequestChecksumCalculation : Option String
  awsResponseChecksumValidation : Option String
  cronSchedule : Option String
  bucket : Option String
  backupFile : Option String
  deriving DecidableEq, Repr

/-- `persist_cron`: the file is loaded, changed and saved. -/
def persistCron (cron : Option String) (config : BackupConfig) : BackupConfig :=
  { config with cronSchedule := cron }

inductive CallStage where
  | updated
  | persisted
  /-- It has sent its schedule and returned. -/
  | returned
  deriving DecidableEq, Repr

structure ScheduleCall where
  schedule : Option String
  stage : CallStage
  deriving DecidableEq, Repr

structure NodeSchedule where
  managerState : ManagerState
  config : BackupConfig
  /-- The value on the watch channel. -/
  cronScheduleTx : Option String
  /-- The calls in the order in which they updated the state. -/
  calls : List ScheduleCall
  deriving DecidableEq, Repr

inductive ScheduleAction where
  | startBackup (cronSchedule : String)
  | stopBackup
  | persist (call : ℕ)
  | send (call : ℕ)
  deriving DecidableEq, Repr

namespace NodeSchedule

open CallStage

def initial (config : BackupConfig) (dataFile : Option String) : NodeSchedule where
  managerState :=
    { backupsEnabled := config.cronSchedule.isSome
      cronSchedule := config.cronSchedule
      backupFile := (config.backupFile.or dataFile).getD "./data/0_0.tigerbeetle"
      bucket := config.bucket.getD "tigerbeetle-backups"
      lastBackupAt := none
      lastBackupError := none }
  config := config
  cronScheduleTx := config.cronSchedule
  calls := []

def update (s : NodeSchedule) (schedule : Option String) : NodeSchedule :=
  { s with
    managerState :=
      { s.managerState with
        backupsEnabled := schedule.isSome
        cronSchedule := schedule }
    calls := s.calls ++ [⟨schedule, updated⟩] }

def setCall (s : NodeSchedule) (i : ℕ) (call : ScheduleCall) (stage : CallStage) : NodeSchedule :=
  { s with calls := s.calls.set i { call with stage := stage } }

def step (s : NodeSchedule) : ScheduleAction → Option NodeSchedule
  | .startBackup cronSchedule =>
    some (if validSchedule cronSchedule then s.update (some cronSchedule) else s)
  | .stopBackup => some (s.update none)
  | .persist i =>
    match s.calls[i]? with
    | some call =>
      if call.stage = updated then
        some { s.setCall i call persisted with config := persistCron call.schedule s.config }
      else none
    | none => none
  | .send i =>
    match s.calls[i]? with
    | some call =>
      if call.stage = persisted then
        some { s.setCall i call returned with cronScheduleTx := call.schedule }
      else none
    | none => none

def Agree (s : NodeSchedule) : Prop :=
  s.managerState.cronSchedule = s.config.cronSchedule ∧ s.config.cronSchedule = s.cronScheduleTx

instance (s : NodeSchedule) : Decidable s.Agree := inferInstanceAs (Decidable (_ ∧ _))

def AllReturned (s : NodeSchedule) : Prop := ∀ call ∈ s.calls, call.stage = returned

instance (s : NodeSchedule) : Decidable s.AllReturned :=
  inferInstanceAs (Decidable (∀ call ∈ s.calls, call.stage = returned))

def schedules (s : NodeSchedule) : List (Option String) := s.calls.map ScheduleCall.schedule

end NodeSchedule

namespace ScheduleAction

def begins : ScheduleAction → Option (Option String)
  | startBackup cronSchedule => if validSchedule cronSchedule then some (some cronSchedule) else none
  | stopBackup => some none
  | _ => none

def persists : ScheduleAction → Option ℕ
  | persist i => some i
  | _ => none

def sends : ScheduleAction → Option ℕ
  | send i => some i
  | _ => none

end ScheduleAction

namespace NodeSchedule

open CallStage

def callSchedules (actions : List ScheduleAction) : List (Option String) :=
  actions.filterMap ScheduleAction.begins

/-- The calls in the order in which they write the file. -/
def persistOrder (actions : List ScheduleAction) : List ℕ :=
  actions.filterMap ScheduleAction.persists

/-- The calls in the order in which they send their schedule. -/
def sendOrder (actions : List ScheduleAction) : List ℕ :=
  actions.filterMap ScheduleAction.sends

/-- The call that persists last and the call that sends last carry the schedule of the call
that updates the state last. -/
def SameLast (actions : List ScheduleAction) : Prop :=
  lastWritten (persistOrder actions) (callSchedules actions) = (callSchedules actions).getLast? ∧
    lastWritten (sendOrder actions) (callSchedules actions) = (callSchedules actions).getLast?

instance (actions : List ScheduleAction) : Decidable (SameLast actions) :=
  inferInstanceAs (Decidable (_ ∧ _))

/-! ## What a step does -/

inductive Moves (s : NodeSchedule) : ScheduleAction → NodeSchedule → Prop
  | refuse (cronSchedule : String) (hvalid : ¬ validSchedule cronSchedule) :
      Moves s (.startBackup cronSchedule) s
  | start (cronSchedule : String) (hvalid : validSchedule cronSchedule) :
      Moves s (.startBackup cronSchedule) (s.update (some cronSchedule))
  | stop : Moves s .stopBackup (s.update none)
  | persist (i : ℕ) (call : ScheduleCall) (hcall : s.calls[i]? = some call)
      (hstage : call.stage = updated) : Moves s (.persist i)
        { s.setCall i call persisted with config := persistCron call.schedule s.config }
  | send (i : ℕ) (call : ScheduleCall) (hcall : s.calls[i]? = some call)
      (hstage : call.stage = persisted) : Moves s (.send i)
        { s.setCall i call returned with cronScheduleTx := call.schedule }

theorem step_moves {s s' : NodeSchedule} {a : ScheduleAction} (h : step s a = some s') :
    Moves s a s' := by
  cases a with
  | startBackup cronSchedule =>
      rw [step, Option.some.injEq] at h
      subst h
      split_ifs with hvalid
      · exact .start cronSchedule hvalid
      · exact .refuse cronSchedule hvalid
  | stopBackup =>
      cases h
      exact .stop
  | persist i =>
      rw [step] at h
      split at h
      · next call hcall =>
          split_ifs at h with hstage
          cases h
          exact .persist i call hcall hstage
      · cases h
  | send i =>
      rw [step] at h
      split at h
      · next call hcall =>
          split_ifs at h with hstage
          cases h
          exact .send i call hcall hstage
      · cases h

theorem getElem?_schedules {s : NodeSchedule} {i : ℕ} {call : ScheduleCall}
    (hcall : s.calls[i]? = some call) : s.schedules[i]? = some call.schedule := by
  rw [schedules, List.getElem?_map, hcall]
  rfl

theorem schedules_setCall {s : NodeSchedule} {i : ℕ} {call : ScheduleCall}
    (hcall : s.calls[i]? = some call) (stage : CallStage) :
    (s.setCall i call stage).schedules = s.schedules := by
  rw [schedules, setCall, List.map_set]
  change s.schedules.set i call.schedule = s.schedules
  exact set_of_getElem? (getElem?_schedules hcall)

theorem schedules_update (s : NodeSchedule) (schedule : Option String) :
    (s.update schedule).schedules = s.schedules ++ [schedule] := by
  rw [schedules, update, List.map_append]
  rfl

/-! ## Each copy is the one of its last writer -/

def hasPersisted (call : ScheduleCall) : Bool := call.stage ≠ updated

def hasReturned (call : ScheduleCall) : Bool := call.stage = returned

structure Inv (cron : Option String) (actions : List ScheduleAction) (s : NodeSchedule) :
    Prop where
  schedules : s.schedules = callSchedules actions
  persists : (persistOrder actions).length = s.calls.countP hasPersisted
  sends : (sendOrder actions).length = s.calls.countP hasReturned
  managerState : LastWrite (List.range s.schedules.length) s.schedules cron
    s.managerState.cronSchedule
  config : LastWrite (persistOrder actions) s.schedules cron s.config.cronSchedule
  cronScheduleTx : LastWrite (sendOrder actions) s.schedules cron s.cronScheduleTx

section Orders

variable {actions : List ScheduleAction} {a : ScheduleAction}

theorem callSchedules_other (h : a.begins = none) :
    callSchedules (actions ++ [a]) = callSchedules actions := by
  rw [callSchedules, List.filterMap_append, List.filterMap_cons_none h]
  exact List.append_nil _

theorem callSchedules_begins {schedule : Option String} (h : a.begins = some schedule) :
    callSchedules (actions ++ [a]) = callSchedules actions ++ [schedule] := by
  rw [callSchedules, List.filterMap_append, List.filterMap_cons_some h]
  rfl

theorem persistOrder_other (h : a.persists = none) :
    persistOrder (actions ++ [a]) = persistOrder actions := by
  rw [persistOrder, List.filterMap_append, List.filterMap_cons_none h]
  exact List.append_nil _

theorem sendOrder_other (h : a.sends = none) :
    sendOrder (actions ++ [a]) = sendOrder actions := by
  rw [sendOrder, List.filterMap_append, List.filterMap_cons_none h]
  exact List.append_nil _

theorem persistOrder_persist (i : ℕ) :
    persistOrder (actions ++ [.persist i]) = persistOrder actions ++ [i] := List.filterMap_append

theorem sendOrder_send (i : ℕ) :
    sendOrder (actions ++ [.send i]) = sendOrder actions ++ [i] := List.filterMap_append

end Orders

theorem initial_inv (config : BackupConfig) (dataFile : Option String) :
    Inv config.cronSchedule [] (initial config dataFile) where
  schedules := rfl
  persists := rfl
  sends := rfl
  managerState := lastWrite_nil _ _
  config := lastWrite_nil _ _
  cronScheduleTx := lastWrite_nil _ _

theorem update_inv {cron : Option String} {actions : List ScheduleAction} {s : NodeSchedule}
    {a : ScheduleAction} {schedule : Option String} (hi : s.Inv cron actions)
    (hbegins : a.begins = some schedule) (hpersists : a.persists = none) (hsends : a.sends = none) :
    (s.update schedule).Inv cron (actions ++ [a]) := by
  have hpersist : persistOrder (actions ++ [a]) = persistOrder actions :=
    persistOrder_other hpersists
  have hsend : sendOrder (actions ++ [a]) = sendOrder actions := sendOrder_other hsends
  constructor
  · rw [schedules_update, callSchedules_begins hbegins, hi.schedules]
  · rw [hpersist, hi.persists, update, List.countP_append]
    rfl
  · rw [hsend, hi.sends, update, List.countP_append]
    rfl
  · rw [schedules_update, List.length_append, List.length_singleton, List.range_succ]
    exact .push List.getElem?_concat_length
  · rw [hpersist, schedules_update]
    exact hi.config.grow _
  · rw [hsend, schedules_update]
    exact hi.cronScheduleTx.grow _

/-- A step that moves a call on and writes at most one of the two other copies. -/
theorem moveOn_inv {cron : Option String} {actions : List ScheduleAction} {s s' : NodeSchedule}
    {a : ScheduleAction} {i : ℕ} {call : ScheduleCall} {stage : CallStage} (hi : s.Inv cron actions)
    (hcall : s.calls[i]? = some call) (hcalls : s'.calls = (s.setCall i call stage).calls)
    (hstate : s'.managerState = s.managerState) (hbegins : a.begins = none)
    (hpersists : (persistOrder (actions ++ [a])).length = s'.calls.countP hasPersisted)
    (hsends : (sendOrder (actions ++ [a])).length = s'.calls.countP hasReturned)
    (hconfig : LastWrite (persistOrder (actions ++ [a])) s.schedules cron s'.config.cronSchedule)
    (hcron : LastWrite (sendOrder (actions ++ [a])) s.schedules cron s'.cronScheduleTx) :
    s'.Inv cron (actions ++ [a]) := by
  have hschedules : s'.schedules = s.schedules := by
    rw [schedules, hcalls]
    exact schedules_setCall hcall stage
  constructor
  · rw [callSchedules_other hbegins, hschedules, hi.schedules]
  · exact hpersists
  · exact hsends
  · rw [hschedules, hstate]
    exact hi.managerState
  · rw [hschedules]
    exact hconfig
  · rw [hschedules]
    exact hcron

theorem step_inv {cron : Option String} {actions : List ScheduleAction} {s s' : NodeSchedule}
    {a : ScheduleAction} (hi : s.Inv cron actions) (h : step s a = some s') :
    s'.Inv cron (actions ++ [a]) := by
  cases step_moves h with
  | refuse cronSchedule hvalid =>
      have hnone : (ScheduleAction.startBackup cronSchedule).begins = none := if_neg hvalid
      constructor
      · rw [callSchedules_other hnone, hi.schedules]
      · rw [persistOrder_other rfl, hi.persists]
      · rw [sendOrder_other rfl, hi.sends]
      · exact hi.managerState
      · rw [persistOrder_other rfl]
        exact hi.config
      · rw [sendOrder_other rfl]
        exact hi.cronScheduleTx
  | start cronSchedule hvalid => exact update_inv hi (if_pos hvalid) rfl rfl
  | stop => exact update_inv hi rfl rfl rfl
  | persist i call hcall hstage =>
      have hpersisted := countP_set_add (p := hasPersisted) { call with stage := persisted } hcall
      have hreturned := countP_set_add (p := hasReturned) { call with stage := persisted } hcall
      simp only [hasPersisted, hasReturned, hstage] at hpersisted hreturned
      refine moveOn_inv hi hcall rfl rfl rfl ?_ ?_ ?_ ?_
      · rw [persistOrder_persist, List.length_append, hi.persists]
        exact hpersisted.symm
      · rw [sendOrder_other rfl, hi.sends]
        exact hreturned.symm
      · rw [persistOrder_persist]
        exact .push (getElem?_schedules hcall)
      · rw [sendOrder_other rfl]
        exact hi.cronScheduleTx
  | send i call hcall hstage =>
      have hpersisted := countP_set_add (p := hasPersisted) { call with stage := returned } hcall
      have hreturned := countP_set_add (p := hasReturned) { call with stage := returned } hcall
      simp only [hasPersisted, hasReturned, hstage] at hpersisted hreturned
      refine moveOn_inv hi hcall rfl rfl rfl ?_ ?_ ?_ ?_
      · rw [persistOrder_other rfl, hi.persists]
        exact (Nat.add_right_cancel hpersisted).symm
      · rw [sendOrder_send, List.length_append, hi.sends]
        exact hreturned.symm
      · rw [persistOrder_other rfl]
        exact hi.config
      · rw [sendOrder_send]
        exact .push (getElem?_schedules hcall)

theorem run_inv {config : BackupConfig} {dataFile : Option String}
    {actions : List ScheduleAction} {s : NodeSchedule}
    (hrun : runFrom step (initial config dataFile) actions = some s) :
    s.Inv config.cronSchedule actions :=
  history_run (I := fun actions s => s.Inv config.cronSchedule actions)
    (fun _ _ _ _ hi ha => step_inv hi ha) (initial_inv config dataFile) hrun

/-! ## When the copies agree -/

/-- Once all calls have returned, each of them has taken each step. -/
theorem length_orders {cron : Option String} {actions : List ScheduleAction} {s : NodeSchedule}
    (hi : s.Inv cron actions) (hreturned : s.AllReturned) :
    (persistOrder actions).length = s.schedules.length ∧
      (sendOrder actions).length = s.schedules.length := by
  rw [hi.persists, hi.sends, schedules, List.length_map]
  constructor
  · apply List.countP_eq_length.2
    intro call hcall
    rw [hasPersisted, hreturned call hcall]
    rfl
  · apply List.countP_eq_length.2
    intro call hcall
    rw [hasReturned, hreturned call hcall]
    rfl

/-- In every run from the start of the node, once all calls have returned, the three copies of
the schedule agree exactly when the last writers of the three carry the same schedule. -/
theorem agree_iff (config : BackupConfig) (dataFile : Option String)
    {actions : List ScheduleAction} {s : NodeSchedule}
    (hrun : runFrom step (initial config dataFile) actions = some s)
    (hreturned : s.AllReturned) : s.Agree ↔ SameLast actions := by
  have hi := run_inv hrun
  obtain ⟨hpersists, hsends⟩ := length_orders hi hreturned
  have hpersist : persistOrder actions = [] ↔ List.range s.schedules.length = [] := by
    rw [← List.length_eq_zero_iff, ← List.length_eq_zero_iff, hpersists, List.length_range]
  have hsend : sendOrder actions = [] ↔ List.range s.schedules.length = [] := by
    rw [← List.length_eq_zero_iff, ← List.length_eq_zero_iff, hsends, List.length_range]
  have hconfig := hi.config.eq_iff hi.managerState hpersist
  have hcron := hi.cronScheduleTx.eq_iff hi.managerState hsend
  rw [lastWritten_range, hi.schedules] at hconfig hcron
  rw [SameLast, ← hconfig, ← hcron]
  constructor
  · rintro ⟨hstate, hfile⟩
    exact ⟨hstate.symm, (hstate.trans hfile).symm⟩
  · rintro ⟨hfile, htx⟩
    exact ⟨hfile.symm, hfile.trans htx.symm⟩

def emptyConfig : BackupConfig := ⟨none, none, none, none, none, none, none, none, none⟩

def overtaken : List ScheduleAction :=
  [.startBackup "0 0 3 * * *", .stopBackup, .persist 1, .send 1, .persist 0, .send 0]

def overtakenNode : NodeSchedule where
  managerState :=
    { backupsEnabled := false
      cronSchedule := none
      backupFile := "./data/0_0.tigerbeetle"
      bucket := "tigerbeetle-backups"
      lastBackupAt := none
      lastBackupError := none }
  config := persistCron (some "0 0 3 * * *") emptyConfig
  cronScheduleTx := some "0 0 3 * * *"
  calls := [⟨some "0 0 3 * * *", returned⟩, ⟨none, returned⟩]

theorem agree_iff_overtaken :
    runFrom step (initial emptyConfig none) overtaken = some overtakenNode ∧
    overtakenNode.AllReturned ∧ (overtakenNode.Agree ↔ SameLast overtaken) :=
  have hrun : runFrom step (initial emptyConfig none) overtaken = some overtakenNode := by
    decide +kernel
  have hreturned : overtakenNode.AllReturned := by decide
  ⟨hrun, hreturned, agree_iff emptyConfig none hrun hreturned⟩

theorem overtaken_not_agree :
    runFrom step (initial emptyConfig none) overtaken = some overtakenNode ∧
    overtakenNode.AllReturned ∧ ¬ overtakenNode.Agree := by
  refine ⟨by decide +kernel, by decide, ?_⟩
  rintro ⟨hstate, -⟩
  cases hstate

/-- Calls may overlap as long as they take each step in the same order. -/
theorem sameLast_of_sameOrder {actions : List ScheduleAction}
    (hpersists : persistOrder actions = List.range (callSchedules actions).length)
    (hsends : sendOrder actions = List.range (callSchedules actions).length) :
    SameLast actions := by
  rw [SameLast, hpersists, hsends, lastWritten_range]
  exact ⟨rfl, rfl⟩

/-! ## The state is the one of the manager -/

/-- What the manager sees of a step. -/
def managerAction : ScheduleAction → Option Action
  | .startBackup cronSchedule => some (.startBackup cronSchedule)
  | .stopBackup => some .stopBackup
  | _ => none

theorem step_manager (zstd : List U8 → List U8) {s s' : NodeSchedule} {a : ScheduleAction}
    (h : step s a = some s') {m : Manager} (hm : m.state = s.managerState) :
    ∃ m', runFrom (Manager.step zstd) m (managerAction a).toList = some m' ∧
      m'.state = s'.managerState := by
  cases step_moves h with
  | refuse cronSchedule hvalid =>
      refine ⟨m, ?_, hm⟩
      rw [managerAction, Option.toList_some, runFrom_singleton, Manager.step, if_neg hvalid]
  | start cronSchedule hvalid =>
      refine ⟨{ m with
          state :=
            { m.state with
              backupsEnabled := true
              cronSchedule := some cronSchedule }
          starting := m.starting + 1 }, ?_, ?_⟩
      · rw [managerAction, Option.toList_some, runFrom_singleton, Manager.step, if_pos hvalid]
      · rw [hm]
        rfl
  | stop =>
      refine ⟨{ m with
          state :=
            { m.state with
              backupsEnabled := false
              cronSchedule := none } }, ?_, ?_⟩
      · rw [managerAction, Option.toList_some, runFrom_singleton, Manager.step]
      · rw [hm]
        rfl
  | persist i call hcall hstage => exact ⟨m, rfl, hm⟩
  | send i call hcall hstage => exact ⟨m, rfl, hm⟩

/-- The manager that takes the calls of a run ends in the same state. -/
theorem run_manager (zstd : List U8 → List U8) {s s' : NodeSchedule}
    {actions : List ScheduleAction} (hrun : runFrom step s actions = some s') {m : Manager}
    (hm : m.state = s.managerState) :
    ∃ m', runFrom (Manager.step zstd) m (actions.filterMap managerAction) = some m' ∧
      m'.state = s'.managerState := by
  rw [List.filterMap_eq_flatMap_toList]
  exact simulation_run (R := fun (s : NodeSchedule) (m : Manager) => m.state = s.managerState)
    (fun _ _ _ _ hm ha => step_manager zstd ha hm) hm hrun

end NodeSchedule

end TbManager
