import TbManager.ScheduleCopies

/-!
# Updates of the config file

A call that changes the config file loads it, changes its own fields and saves
the whole. Nothing keeps the save of another call out of the time between the two.
-/

namespace TbManager

/-! ## Reading, changing and writing one file -/

section ReadModifyWrite

inductive FileTurn where
  | load (call : ℕ)
  | save (call : ℕ)
  deriving DecidableEq, Repr

/-- The calls whose changes went into the file, in the order of their saves, and into what
each call has read. -/
structure Lineages where
  file : List ℕ
  read : ℕ → List ℕ

def Lineages.turn (l : Lineages) : FileTurn → Lineages
  | .load i => { l with read := Function.update l.read i l.file }
  | .save i => { l with file := l.read i ++ [i] }

def lineages (turns : List FileTurn) : Lineages := turns.foldl Lineages.turn ⟨[], fun _ => []⟩

/-- The calls whose changes the file holds after the turns: the last that saved, the last that had
saved when this one loaded, and so on. -/
def lineage (turns : List FileTurn) : List ℕ := (lineages turns).file

theorem lineages_concat (turns : List FileTurn) (t : FileTurn) :
    lineages (turns ++ [t]) = (lineages turns).turn t := by
  rw [lineages, List.foldl_append]
  rfl

/-- Calls that take their two turns at once all reach the file. -/
theorem lineage_exclusive (calls : List ℕ) :
    lineage (calls.flatMap fun i => [.load i, .save i]) = calls := by
  induction calls using List.reverseRecOn with
  | nil => rfl
  | append_singleton calls i ih =>
      have hturns : (calls ++ [i]).flatMap (fun i => [FileTurn.load i, FileTurn.save i]) =
          (calls.flatMap fun i => [FileTurn.load i, FileTurn.save i]) ++ [FileTurn.load i] ++
            [FileTurn.save i] := by
        rw [List.flatMap_append, List.append_assoc]
        rfl
      rw [lineage] at ih ⊢
      rw [hturns, lineages_concat, lineages_concat]
      change Function.update (lineages _).read i (lineages _).file i ++ [i] = calls ++ [i]
      rw [Function.update_self, ih]

variable {α γ : Type*} {change : ℕ → α → α} {get : α → γ} {i : ℕ} {v : γ}

def changed (change : ℕ → α → α) (calls : List ℕ) (x : α) : α :=
  calls.foldl (fun x i => change i x) x

theorem changed_concat (calls : List ℕ) (i : ℕ) (x : α) :
    changed change (calls ++ [i]) x = change i (changed change calls x) := by
  rw [changed, List.foldl_append]
  rfl

theorem changed_congr {change' : ℕ → α → α} {calls : List ℕ}
    (h : ∀ j ∈ calls, change j = change' j) (x : α) :
    changed change calls x = changed change' calls x := by
  induction calls using List.reverseRecOn with
  | nil => rfl
  | append_singleton calls j ih =>
      rw [changed_concat, changed_concat, ih fun k hk => h k (List.mem_append_left _ hk),
        h j (List.mem_append_right _ (List.mem_singleton_self j))]

/-- A part that one call alone writes has the value of that call if its change is among them. -/
theorem get_changed_of_mem {calls : List ℕ} (hset : ∀ x, get (change i x) = v)
    (hother : ∀ j, j ≠ i → ∀ x, get (change j x) = get x) (h : i ∈ calls) (x : α) :
    get (changed change calls x) = v := by
  induction calls using List.reverseRecOn with
  | nil => cases h
  | append_singleton calls j ih =>
      rw [changed_concat]
      by_cases hj : j = i
      · rw [hj, hset]
      · rw [hother j hj]
        rw [List.mem_append, List.mem_singleton] at h
        exact ih (h.resolve_right (Ne.symm hj))

theorem get_changed_of_not_mem {calls : List ℕ}
    (hother : ∀ j, j ≠ i → ∀ x, get (change j x) = get x) (h : i ∉ calls) (x : α) :
    get (changed change calls x) = get x := by
  induction calls using List.reverseRecOn with
  | nil => rfl
  | append_singleton calls j ih =>
      rw [List.mem_append, List.mem_singleton, not_or] at h
      rw [changed_concat, hother j (Ne.symm h.2), ih h.1]

end ReadModifyWrite

/-! ## The changes -/

structure ModifyBackupConfigRequest where
  awsEndpointUrl : String
  awsAccessKeyId : String
  awsSecretAccessKey : String
  awsDefaultRegion : String
  awsRequestChecksumCalculation : String
  awsResponseChecksumValidation : String
  bucket : String
  backupFile : String
  deriving DecidableEq, Repr

/-- An empty string in a request leaves the field. -/
def overrideField (field : Option String) (value : String) : Option String :=
  if value = "" then field else some value

def ModifyBackupConfigRequest.apply (req : ModifyBackupConfigRequest) (cfg : BackupConfig) :
    BackupConfig :=
  { cfg with
    awsEndpointUrl := overrideField cfg.awsEndpointUrl req.awsEndpointUrl
    awsAccessKeyId := overrideField cfg.awsAccessKeyId req.awsAccessKeyId
    awsSecretAccessKey := overrideField cfg.awsSecretAccessKey req.awsSecretAccessKey
    awsDefaultRegion := overrideField cfg.awsDefaultRegion req.awsDefaultRegion
    awsRequestChecksumCalculation :=
      overrideField cfg.awsRequestChecksumCalculation req.awsRequestChecksumCalculation
    awsResponseChecksumValidation :=
      overrideField cfg.awsResponseChecksumValidation req.awsResponseChecksumValidation
    bucket := overrideField cfg.bucket req.bucket
    backupFile := overrideField cfg.backupFile req.backupFile }

inductive ConfigUpdate where
  | modifyBackupConfig (req : ModifyBackupConfigRequest)
  | startBackup (cronSchedule : String)
  | stopBackup
  deriving DecidableEq, Repr

inductive ConfigField where
  | awsEndpointUrl
  | awsAccessKeyId
  | awsSecretAccessKey
  | awsDefaultRegion
  | awsRequestChecksumCalculation
  | awsResponseChecksumValidation
  | cronSchedule
  | bucket
  | backupFile
  deriving DecidableEq, Repr

def BackupConfig.get (cfg : BackupConfig) : ConfigField → Option String
  | .awsEndpointUrl => cfg.awsEndpointUrl
  | .awsAccessKeyId => cfg.awsAccessKeyId
  | .awsSecretAccessKey => cfg.awsSecretAccessKey
  | .awsDefaultRegion => cfg.awsDefaultRegion
  | .awsRequestChecksumCalculation => cfg.awsRequestChecksumCalculation
  | .awsResponseChecksumValidation => cfg.awsResponseChecksumValidation
  | .cronSchedule => cfg.cronSchedule
  | .bucket => cfg.bucket
  | .backupFile => cfg.backupFile

/-- The string of a request for a field; a request has none for the schedule. -/
def ModifyBackupConfigRequest.get (req : ModifyBackupConfigRequest) : ConfigField → String
  | .awsEndpointUrl => req.awsEndpointUrl
  | .awsAccessKeyId => req.awsAccessKeyId
  | .awsSecretAccessKey => req.awsSecretAccessKey
  | .awsDefaultRegion => req.awsDefaultRegion
  | .awsRequestChecksumCalculation => req.awsRequestChecksumCalculation
  | .awsResponseChecksumValidation => req.awsResponseChecksumValidation
  | .cronSchedule => ""
  | .bucket => req.bucket
  | .backupFile => req.backupFile

namespace ConfigUpdate

def apply : ConfigUpdate → BackupConfig → BackupConfig
  | modifyBackupConfig req => req.apply
  | startBackup cronSchedule => persistCron (some cronSchedule)
  | stopBackup => persistCron none

def sets : ConfigUpdate → ConfigField → Option (Option String)
  | modifyBackupConfig req, f => if req.get f = "" then none else some (some (req.get f))
  | startBackup cronSchedule, .cronSchedule => some (some cronSchedule)
  | stopBackup, .cronSchedule => some none
  | _, _ => none

def schedule : ConfigUpdate → Option (Option String)
  | modifyBackupConfig _ => none
  | startBackup cronSchedule => some (some cronSchedule)
  | stopBackup => some none

/-- A start call checks its pattern before it does anything. -/
def accepted : ConfigUpdate → Bool
  | startBackup cronSchedule => validSchedule cronSchedule
  | _ => true

theorem get_apply (u : ConfigUpdate) (cfg : BackupConfig) (f : ConfigField) :
    (u.apply cfg).get f = (u.sets f).getD (cfg.get f) := by
  cases u with
  | modifyBackupConfig req =>
      have hoverride (field : Option String) (value : String) : overrideField field value =
          (if value = "" then none else some (some value)).getD field := by
        rw [overrideField]
        split_ifs <;> rfl
      cases f
      case cronSchedule => rfl
      all_goals exact hoverride _ _
  | startBackup cronSchedule => cases f <;> rfl
  | stopBackup => cases f <;> rfl

end ConfigUpdate

/-! ## The calls on the node -/

/-- What a call has done; it keeps the configuration that it has in memory. -/
inductive ConfigStage where
  | begun
  | loaded (cfg : BackupConfig)
  | saved (cfg : BackupConfig)
  | returned
  deriving DecidableEq, Repr

structure ConfigCall where
  update : ConfigUpdate
  stage : ConfigStage
  deriving DecidableEq, Repr

structure ConfigNode where
  managerState : ManagerState
  config : BackupConfig
  cronScheduleTx : Option String
  calls : List ConfigCall
  deriving DecidableEq, Repr

inductive ConfigAction where
  | call (update : ConfigUpdate)
  | load (call : ℕ)
  | save (call : ℕ)
  /-- What the call does after the save. -/
  | finish (call : ℕ)
  deriving DecidableEq, Repr

namespace ConfigAction

def begins : ConfigAction → Option ConfigUpdate
  | call update => if update.accepted then some update else none
  | _ => none

def turn : ConfigAction → Option FileTurn
  | load i => some (.load i)
  | save i => some (.save i)
  | _ => none

end ConfigAction

namespace ConfigNode

open ConfigStage

def initial (config : BackupConfig) (dataFile : Option String) : ConfigNode where
  managerState := (NodeSchedule.initial config dataFile).managerState
  config := config
  cronScheduleTx := config.cronSchedule
  calls := []

/-- A start or a stop call updates the state first. -/
def begin (s : ConfigNode) (update : ConfigUpdate) : ConfigNode :=
  { s with
    managerState :=
      match update.schedule with
      | some schedule =>
        { s.managerState with
          backupsEnabled := schedule.isSome
          cronSchedule := schedule }
      | none => s.managerState
    calls := s.calls ++ [⟨update, begun⟩] }

def setCall (s : ConfigNode) (i : ℕ) (call : ConfigCall) (stage : ConfigStage) : ConfigNode :=
  { s with calls := s.calls.set i { call with stage := stage } }

/-- A start or a stop call sends its schedule; a change of the configuration takes the bucket
and the data file over into the state. -/
def conclude (s : ConfigNode) (update : ConfigUpdate) (cfg : BackupConfig) : ConfigNode :=
  match update.schedule with
  | some schedule => { s with cronScheduleTx := schedule }
  | none =>
    { s with
      managerState :=
        { s.managerState with
          bucket := cfg.bucket.getD s.managerState.bucket
          backupFile := cfg.backupFile.getD s.managerState.backupFile } }

def step (s : ConfigNode) : ConfigAction → Option ConfigNode
  | .call update => some (if update.accepted then s.begin update else s)
  | .load i =>
    match s.calls[i]? with
    | some call =>
      match call.stage with
      | begun => some (s.setCall i call (loaded s.config))
      | _ => none
    | none => none
  | .save i =>
    match s.calls[i]? with
    | some call =>
      match call.stage with
      | loaded cfg =>
        some { s.setCall i call (saved (call.update.apply cfg)) with
          config := call.update.apply cfg }
      | _ => none
    | none => none
  | .finish i =>
    match s.calls[i]? with
    | some call =>
      match call.stage with
      | saved cfg => some ((s.setCall i call returned).conclude call.update cfg)
      | _ => none
    | none => none

def AllReturned (s : ConfigNode) : Prop := ∀ call ∈ s.calls, call.stage = returned

instance (s : ConfigNode) : Decidable s.AllReturned :=
  inferInstanceAs (Decidable (∀ call ∈ s.calls, call.stage = returned))

def updates (s : ConfigNode) : List ConfigUpdate := s.calls.map ConfigCall.update

def callUpdates (actions : List ConfigAction) : List ConfigUpdate :=
  actions.filterMap ConfigAction.begins

def fileTurns (actions : List ConfigAction) : List FileTurn :=
  actions.filterMap ConfigAction.turn

/-- Call `i` sets the field to `v` and no other call sets it. -/
def OnlySetter (updates : List ConfigUpdate) (f : ConfigField) (i : ℕ) (v : Option String) : Prop :=
  (∃ u, updates[i]? = some u ∧ u.sets f = some v) ∧
    ∀ j u, updates[j]? = some u → j ≠ i → u.sets f = none

/-- Every field that one call alone sets has the value of that call. -/
def NoUpdateLost (s : ConfigNode) : Prop :=
  ∀ f i v, OnlySetter s.updates f i v → s.config.get f = v

/-- Such a call reaches the file, or the field had its value from the start. -/
def EachReachesFile (config : BackupConfig) (actions : List ConfigAction) : Prop :=
  ∀ f i v, OnlySetter (callUpdates actions) f i v →
    i ∈ lineage (fileTurns actions) ∨ config.get f = v

/-! ## What a step does -/

inductive Moves (s : ConfigNode) : ConfigAction → ConfigNode → Prop
  | refuse (u : ConfigUpdate) (haccepted : ¬ u.accepted) : Moves s (.call u) s
  | begin (u : ConfigUpdate) (haccepted : u.accepted) : Moves s (.call u) (s.begin u)
  | load (i : ℕ) (call : ConfigCall) (hcall : s.calls[i]? = some call)
      (hstage : call.stage = begun) : Moves s (.load i) (s.setCall i call (loaded s.config))
  | save (i : ℕ) (call : ConfigCall) (cfg : BackupConfig) (hcall : s.calls[i]? = some call)
      (hstage : call.stage = loaded cfg) : Moves s (.save i)
        { s.setCall i call (saved (call.update.apply cfg)) with config := call.update.apply cfg }
  | finish (i : ℕ) (call : ConfigCall) (cfg : BackupConfig) (hcall : s.calls[i]? = some call)
      (hstage : call.stage = saved cfg) :
      Moves s (.finish i) ((s.setCall i call returned).conclude call.update cfg)

theorem step_moves {s s' : ConfigNode} {a : ConfigAction} (h : step s a = some s') :
    Moves s a s' := by
  cases a with
  | call u =>
      rw [step, Option.some.injEq] at h
      subst h
      split_ifs with haccepted
      · exact .begin u haccepted
      · exact .refuse u haccepted
  | load i =>
      simp only [step] at h
      split at h
      · next call hcall =>
          split at h
          · next hstage =>
              cases h
              exact .load i call hcall hstage
          · cases h
      · cases h
  | save i =>
      simp only [step] at h
      split at h
      · next call hcall =>
          split at h
          · next cfg hstage =>
              cases h
              exact .save i call cfg hcall hstage
          · cases h
      · cases h
  | finish i =>
      simp only [step] at h
      split at h
      · next call hcall =>
          split at h
          · next cfg hstage =>
              cases h
              exact .finish i call cfg hcall hstage
          · cases h
      · cases h

@[simp] theorem conclude_calls (s : ConfigNode) (u : ConfigUpdate) (cfg : BackupConfig) :
    (s.conclude u cfg).calls = s.calls := by
  rw [conclude]
  split <;> rfl

@[simp] theorem conclude_config (s : ConfigNode) (u : ConfigUpdate) (cfg : BackupConfig) :
    (s.conclude u cfg).config = s.config := by
  rw [conclude]
  split <;> rfl

theorem updates_setCall {s : ConfigNode} {i : ℕ} {call : ConfigCall}
    (hcall : s.calls[i]? = some call) (stage : ConfigStage) :
    (s.setCall i call stage).updates = s.updates := by
  have hupdate : s.updates[i]? = some call.update := by
    rw [updates, List.getElem?_map, hcall]
    rfl
  rw [updates, setCall, List.map_set]
  exact set_of_getElem? hupdate

theorem updates_begin (s : ConfigNode) (u : ConfigUpdate) :
    (s.begin u).updates = s.updates ++ [u] := by
  rw [updates, begin, List.map_append]
  rfl

/-! ## What the file holds -/

def changeOf (updates : List ConfigUpdate) (i : ℕ) (cfg : BackupConfig) : BackupConfig :=
  match updates[i]? with
  | some u => u.apply cfg
  | none => cfg

/-- A configuration is the initial one with the changes of some of the calls. -/
structure Holds (updates : List ConfigUpdate) (config : BackupConfig) (calls : List ℕ)
    (cfg : BackupConfig) : Prop where
  known : ∀ i ∈ calls, i < updates.length
  eq_changed : cfg = changed (changeOf updates) calls config

theorem holds_nil (updates : List ConfigUpdate) (config : BackupConfig) :
    Holds updates config [] config := ⟨fun _ h => absurd h List.not_mem_nil, rfl⟩

theorem Holds.grow {updates : List ConfigUpdate} {config cfg : BackupConfig} {calls : List ℕ}
    (h : Holds updates config calls cfg) (more : List ConfigUpdate) :
    Holds (updates ++ more) config calls cfg where
  known := by
    intro i hi
    rw [List.length_append]
    exact Nat.lt_add_right _ (h.known i hi)
  eq_changed := by
    rw [h.eq_changed]
    apply changed_congr
    intro i hi
    funext x
    rw [changeOf, changeOf, List.getElem?_append_left (h.known i hi)]

theorem Holds.push {updates : List ConfigUpdate} {config cfg : BackupConfig} {calls : List ℕ}
    (h : Holds updates config calls cfg) {i : ℕ} {u : ConfigUpdate} (hu : updates[i]? = some u) :
    Holds updates config (calls ++ [i]) (u.apply cfg) where
  known := by
    intro j hj
    rw [List.mem_append, List.mem_singleton] at hj
    rcases hj with hj | rfl
    · exact h.known j hj
    · exact (List.getElem?_eq_some_iff.1 hu).1
  eq_changed := by
    rw [changed_concat, ← h.eq_changed, changeOf, hu]

structure Inv (config : BackupConfig) (actions : List ConfigAction) (s : ConfigNode) : Prop where
  updates : s.updates = callUpdates actions
  file : Holds s.updates config (lineage (fileTurns actions)) s.config
  read : ∀ i call cfg, s.calls[i]? = some call → call.stage = loaded cfg →
    Holds s.updates config ((lineages (fileTurns actions)).read i) cfg

section Orders

variable {actions : List ConfigAction} {a : ConfigAction}

theorem callUpdates_other (h : a.begins = none) :
    callUpdates (actions ++ [a]) = callUpdates actions := by
  rw [callUpdates, List.filterMap_append, List.filterMap_cons_none h]
  exact List.append_nil _

theorem callUpdates_begins {u : ConfigUpdate} (h : a.begins = some u) :
    callUpdates (actions ++ [a]) = callUpdates actions ++ [u] := by
  rw [callUpdates, List.filterMap_append, List.filterMap_cons_some h]
  rfl

theorem fileTurns_other (h : a.turn = none) : fileTurns (actions ++ [a]) = fileTurns actions := by
  rw [fileTurns, List.filterMap_append, List.filterMap_cons_none h]
  exact List.append_nil _

theorem lineages_turn {t : FileTurn} (h : a.turn = some t) :
    lineages (fileTurns (actions ++ [a])) = (lineages (fileTurns actions)).turn t := by
  rw [fileTurns, List.filterMap_append, List.filterMap_cons_some h]
  exact lineages_concat _ t

end Orders

theorem getElem?_setCall {s : ConfigNode} {i j : ℕ} {call call' : ConfigCall} {stage : ConfigStage}
    (h : (s.setCall i call stage).calls[j]? = some call') :
    j = i ∧ call' = { call with stage := stage } ∨ j ≠ i ∧ s.calls[j]? = some call' := by
  rw [setCall, List.getElem?_set] at h
  split_ifs at h with hi hlt
  · cases h
    exact .inl ⟨hi.symm, rfl⟩
  · exact .inr ⟨Ne.symm hi, h⟩

theorem initial_inv (config : BackupConfig) (dataFile : Option String) :
    Inv config [] (initial config dataFile) where
  updates := rfl
  file := holds_nil _ _
  read := fun _ _ _ h => absurd h (by simp [initial])

theorem Inv.read_setCall {config : BackupConfig} {actions : List ConfigAction} {s : ConfigNode}
    (hi : Inv config actions s) {i : ℕ} {call : ConfigCall} {stage : ConfigStage}
    {read : ℕ → List ℕ} (hothers : ∀ j ≠ i, read j = (lineages (fileTurns actions)).read j)
    (hself : ∀ cfg, stage = loaded cfg → Holds s.updates config (read i) cfg) :
    ∀ j call' cfg, (s.setCall i call stage).calls[j]? = some call' → call'.stage = loaded cfg →
      Holds s.updates config (read j) cfg := by
  intro j call' cfg hcall' hstage'
  rcases getElem?_setCall hcall' with ⟨rfl, rfl⟩ | ⟨hj, hold⟩
  · exact hself cfg hstage'
  · rw [hothers j hj]
    exact hi.read j call' cfg hold hstage'

theorem step_inv {config : BackupConfig} {actions : List ConfigAction} {s s' : ConfigNode}
    {a : ConfigAction} (hi : Inv config actions s) (h : step s a = some s') :
    Inv config (actions ++ [a]) s' := by
  cases step_moves h with
  | refuse u haccepted =>
      have hbegins : (ConfigAction.call u).begins = none := if_neg haccepted
      constructor
      · rw [callUpdates_other hbegins, hi.updates]
      · rw [fileTurns_other rfl]
        exact hi.file
      · rw [fileTurns_other rfl]
        exact hi.read
  | begin u haccepted =>
      have hbegins : (ConfigAction.call u).begins = some u := if_pos haccepted
      constructor
      · rw [updates_begin, callUpdates_begins hbegins, hi.updates]
      · rw [fileTurns_other rfl, updates_begin]
        exact hi.file.grow _
      · rw [fileTurns_other rfl, updates_begin]
        intro j call cfg hcall hstage
        rw [begin, List.getElem?_append] at hcall
        split_ifs at hcall with hlt
        · exact (hi.read j call cfg hcall hstage).grow _
        · -- the new call has not loaded
          rw [List.getElem?_singleton] at hcall
          split_ifs at hcall
          cases hcall
          cases hstage
  | load i call hcall hstage =>
      have hturn : lineages (fileTurns (actions ++ [.load i])) =
          (lineages (fileTurns actions)).turn (.load i) := lineages_turn rfl
      rw [Lineages.turn] at hturn
      constructor
      · rw [updates_setCall hcall, callUpdates_other rfl, hi.updates]
      · rw [updates_setCall hcall, lineage, hturn]
        exact hi.file
      · rw [updates_setCall hcall, hturn]
        apply hi.read_setCall
        · exact fun j hj => Function.update_of_ne hj _ _
        · intro cfg hstage'
          cases hstage'
          change Holds _ _ (Function.update (lineages _).read i (lineages _).file i) _
          rw [Function.update_self]
          exact hi.file
  | save i call cfg hcall hstage =>
      have hturn : lineages (fileTurns (actions ++ [.save i])) =
          (lineages (fileTurns actions)).turn (.save i) := lineages_turn rfl
      rw [Lineages.turn] at hturn
      have hupdates := updates_setCall hcall (saved (call.update.apply cfg))
      have hupdate : s.updates[i]? = some call.update := by
        rw [updates, List.getElem?_map, hcall]
        rfl
      constructor
      · exact hupdates.trans (hi.updates.trans (callUpdates_other rfl).symm)
      · change Holds (s.setCall i call _).updates _ _ _
        rw [hupdates, lineage, hturn]
        exact (hi.read i call cfg hcall hstage).push hupdate
      · change ∀ j call' cfg', (s.setCall i call _).calls[j]? = some call' → _ →
          Holds (s.setCall i call _).updates _ _ _
        rw [hupdates, hturn]
        exact hi.read_setCall (fun _ _ => rfl) fun cfg' hstage' => nomatch hstage'
  | finish i call cfg hcall hstage =>
      have hupdates : ((s.setCall i call returned).conclude call.update cfg).updates =
          s.updates := by
        rw [updates, conclude_calls]
        exact updates_setCall hcall returned
      constructor
      · rw [hupdates, callUpdates_other rfl, hi.updates]
      · rw [hupdates, fileTurns_other rfl, conclude_config]
        exact hi.file
      · rw [hupdates, fileTurns_other rfl, conclude_calls]
        exact hi.read_setCall (fun _ _ => rfl) fun cfg' hstage' => nomatch hstage'

theorem run_inv {config : BackupConfig} {dataFile : Option String} {actions : List ConfigAction}
    {s : ConfigNode} (hrun : runFrom step (initial config dataFile) actions = some s) :
    Inv config actions s :=
  history_run (fun _ _ _ _ hi ha => step_inv hi ha) (initial_inv config dataFile) hrun

/-! ## When no update is lost -/

/-- A field that one call alone sets has the value of that call if the call reaches the file,
and else the value it had from the start. -/
theorem get_config {config : BackupConfig} {actions : List ConfigAction} {s : ConfigNode}
    (hi : Inv config actions s) {f : ConfigField} {i : ℕ} {v : Option String}
    (hset : OnlySetter s.updates f i v) :
    s.config.get f = if i ∈ lineage (fileTurns actions) then v else config.get f := by
  obtain ⟨⟨u, hu, hsets⟩, hothers⟩ := hset
  let get := fun cfg : BackupConfig => cfg.get f
  have hself (cfg : BackupConfig) : get (changeOf s.updates i cfg) = v := by
    rw [changeOf, hu]
    change (u.apply cfg).get f = v
    rw [u.get_apply, hsets, Option.getD_some]
  have hother (j : ℕ) (hj : j ≠ i) (cfg : BackupConfig) :
      get (changeOf s.updates j cfg) = get cfg := by
    rw [changeOf]
    split
    · next u' hu' =>
        change (u'.apply cfg).get f = cfg.get f
        rw [u'.get_apply, hothers j u' hu' hj, Option.getD_none]
    · rfl
  change get s.config = if i ∈ lineage (fileTurns actions) then v else get config
  rw [hi.file.eq_changed]
  split_ifs with hmem
  · exact get_changed_of_mem hself hother hmem config
  · exact get_changed_of_not_mem hother hmem config

/-- In every run, and so once all its calls have returned, no update is lost exactly when every
call that alone sets a field is among those whose changes the last save carries, or its value was
there from the start. -/
theorem noUpdateLost_iff (config : BackupConfig) (dataFile : Option String)
    {actions : List ConfigAction} {s : ConfigNode}
    (hrun : runFrom step (initial config dataFile) actions = some s) :
    s.NoUpdateLost ↔ EachReachesFile config actions := by
  have hi := run_inv hrun
  rw [NoUpdateLost, EachReachesFile, ← hi.updates]
  refine forall_congr' fun f => forall_congr' fun i => forall_congr' fun v =>
    imp_congr_right fun hset => ?_
  rw [get_config hi hset]
  split_ifs with hmem
  · exact iff_of_true rfl (.inl hmem)
  · constructor
    · intro hsame
      exact .inr hsame
    · rintro (h | hsame)
      · exact absurd h hmem
      · exact hsame

def noOverrides : ModifyBackupConfigRequest := ⟨"", "", "", "", "", "", "", ""⟩

def crossedUpdates : List ConfigAction :=
  [.call (.modifyBackupConfig { noOverrides with bucket := "ledger" }),
    .call (.startBackup "0 0 3 * * *"), .load 0, .load 1, .save 1, .save 0, .finish 1, .finish 0]

def crossedNode : ConfigNode where
  managerState :=
    { backupsEnabled := true
      cronSchedule := some "0 0 3 * * *"
      backupFile := "./data/0_0.tigerbeetle"
      bucket := "ledger"
      lastBackupAt := none
      lastBackupError := none }
  config := { NodeSchedule.emptyConfig with bucket := some "ledger" }
  cronScheduleTx := some "0 0 3 * * *"
  calls := [⟨.modifyBackupConfig { noOverrides with bucket := "ledger" }, returned⟩,
    ⟨.startBackup "0 0 3 * * *", returned⟩]

theorem run_crossedUpdates :
    runFrom step (initial NodeSchedule.emptyConfig none) crossedUpdates = some crossedNode := by
  decide +kernel

theorem noUpdateLost_iff_crossed :
    runFrom step (initial NodeSchedule.emptyConfig none) crossedUpdates = some crossedNode ∧
    (crossedNode.NoUpdateLost ↔ EachReachesFile NodeSchedule.emptyConfig crossedUpdates) :=
  ⟨run_crossedUpdates, noUpdateLost_iff NodeSchedule.emptyConfig none run_crossedUpdates⟩

theorem crossed_update_lost :
    runFrom step (initial NodeSchedule.emptyConfig none) crossedUpdates = some crossedNode ∧
    crossedNode.AllReturned ∧ ¬ crossedNode.NoUpdateLost := by
  refine ⟨run_crossedUpdates, by decide, ?_⟩
  intro h
  have honly : OnlySetter crossedNode.updates .cronSchedule 1 (some "0 0 3 * * *") := by
    constructor
    · exact ⟨.startBackup "0 0 3 * * *", rfl, rfl⟩
    · intro j u hu hj
      match j with
      | 0 =>
          cases hu
          rfl
      | 1 => exact absurd rfl hj
      | j + 2 => cases hu
  have hlost : crossedNode.config.get .cronSchedule = some "0 0 3 * * *" := h _ _ _ honly
  cases hlost

/-- Calls that each take their two turns at the file at once lose nothing. -/
theorem noUpdateLost_of_exclusive {config : BackupConfig} {dataFile : Option String}
    {actions : List ConfigAction} {s : ConfigNode} {order : List ℕ}
    (hrun : runFrom step (initial config dataFile) actions = some s)
    (hturns : fileTurns actions = order.flatMap fun i => [.load i, .save i])
    (hall : ∀ i < (callUpdates actions).length, i ∈ order) : s.NoUpdateLost := by
  intro f i v hset
  have hi := run_inv hrun
  obtain ⟨u, hu, _⟩ := hset.1
  have hlt : i < (callUpdates actions).length := by
    rw [← hi.updates]
    exact (List.getElem?_eq_some_iff.1 hu).1
  rw [get_config hi hset, hturns, lineage_exclusive, if_pos (hall i hlt)]

/-! ## Persisting at once -/

def configActions : ScheduleAction → List ConfigAction
  | .startBackup cronSchedule => [.call (.startBackup cronSchedule)]
  | .stopBackup => [.call .stopBackup]
  | .persist i => [.load i, .save i]
  | .send i => [.finish i]

def SameStage : CallStage → ConfigStage → Prop
  | .updated, begun => True
  | .persisted, saved _ => True
  | .returned, returned => True
  | _, _ => False

def SameCall (n : ScheduleCall) (call : ConfigCall) : Prop :=
  call.update.schedule = some n.schedule ∧ SameStage n.stage call.stage

structure SameNode (n : NodeSchedule) (s : ConfigNode) : Prop where
  managerState : s.managerState = n.managerState
  config : s.config = n.config
  cronScheduleTx : s.cronScheduleTx = n.cronScheduleTx
  calls : List.Forall₂ SameCall n.calls s.calls

theorem apply_of_schedule {u : ConfigUpdate} {schedule : Option String}
    (h : u.schedule = some schedule) : u.apply = persistCron schedule := by
  cases u with
  | modifyBackupConfig req => cases h
  | startBackup cronSchedule =>
      cases h
      rfl
  | stopBackup =>
      cases h
      rfl

theorem exists_sameCall {ns : List ScheduleCall} {calls : List ConfigCall}
    (h : List.Forall₂ SameCall ns calls) {i : ℕ} {n : ScheduleCall} (hn : ns[i]? = some n) :
    ∃ call, calls[i]? = some call ∧ SameCall n call := by
  induction h generalizing i with
  | nil => cases hn
  | cons hhead _ ih =>
      cases i with
      | zero =>
          cases hn
          exact ⟨_, rfl, hhead⟩
      | succ i => exact ih hn

theorem sameCall_set {ns : List ScheduleCall} {calls : List ConfigCall}
    (h : List.Forall₂ SameCall ns calls) (i : ℕ) {n : ScheduleCall} {call : ConfigCall}
    (hsame : SameCall n call) : List.Forall₂ SameCall (ns.set i n) (calls.set i call) := by
  induction h generalizing i with
  | nil => exact .nil
  | cons hhead htail ih =>
      cases i with
      | zero => exact .cons hsame htail
      | succ i => exact .cons hhead (ih i)

theorem begin_same {n : NodeSchedule} {s : ConfigNode} (h : SameNode n s) {u : ConfigUpdate}
    {schedule : Option String} (hu : u.schedule = some schedule) :
    SameNode (n.update schedule) (s.begin u) where
  managerState := by
    simp only [begin, hu, h.managerState]
    rfl
  config := h.config
  cronScheduleTx := h.cronScheduleTx
  calls := List.rel_append h.calls (.cons ⟨hu, trivial⟩ .nil)

theorem eq_begun {stage : ConfigStage} (h : SameStage .updated stage) : stage = begun := by
  cases stage with
  | begun => rfl
  | loaded cfg => cases h
  | saved cfg => cases h
  | returned => cases h

theorem eq_saved {stage : ConfigStage} (h : SameStage .persisted stage) :
    ∃ cfg, stage = saved cfg := by
  cases stage with
  | begun => cases h
  | loaded cfg => cases h
  | saved cfg => exact ⟨cfg, rfl⟩
  | returned => cases h

section Steps

variable {s : ConfigNode} {i : ℕ} {call : ConfigCall} {cfg : BackupConfig}

theorem step_call {u : ConfigUpdate} (h : u.accepted) : step s (.call u) = some (s.begin u) := by
  rw [step, if_pos h]

theorem step_load (hcall : s.calls[i]? = some call) (hstage : call.stage = begun) :
    step s (.load i) = some (s.setCall i call (loaded s.config)) := by
  simp only [step, hcall, hstage]

theorem step_save (hcall : s.calls[i]? = some call) (hstage : call.stage = loaded cfg) :
    step s (.save i) = some { s.setCall i call (saved (call.update.apply cfg)) with
      config := call.update.apply cfg } := by
  simp only [step, hcall, hstage]

theorem step_finish (hcall : s.calls[i]? = some call) (hstage : call.stage = saved cfg) :
    step s (.finish i) = some ((s.setCall i call returned).conclude call.update cfg) := by
  simp only [step, hcall, hstage]

/-- The two turns of a call without another step between. -/
theorem runFrom_load_save (hcall : s.calls[i]? = some call) (hstage : call.stage = begun) :
    runFrom step s [.load i, .save i] =
      some { s.setCall i call (saved (call.update.apply s.config)) with
        config := call.update.apply s.config } := by
  have hlt := (List.getElem?_eq_some_iff.1 hcall).1
  have hloaded : (s.setCall i call (loaded s.config)).calls[i]? =
      some { call with stage := loaded s.config } := List.getElem?_set_self hlt
  rw [runFrom, step_load hcall hstage, Option.bind_some, runFrom_singleton,
    step_save hloaded rfl, setCall, setCall, setCall, List.set_set]

end Steps

/-- A call that persists at once takes its two turns without another step between. -/
theorem step_same {n n' : NodeSchedule} {s : ConfigNode} {a : ScheduleAction} (h : SameNode n s)
    (ha : NodeSchedule.step n a = some n') :
    ∃ s', runFrom step s (configActions a) = some s' ∧ SameNode n' s' := by
  cases NodeSchedule.step_moves ha with
  | refuse cronSchedule hvalid =>
      refine ⟨s, ?_, h⟩
      rw [configActions, runFrom_singleton, step, if_neg]
      exact hvalid
  | start cronSchedule hvalid =>
      have haccepted : (ConfigUpdate.startBackup cronSchedule).accepted := hvalid
      refine ⟨s.begin (.startBackup cronSchedule), ?_, begin_same h rfl⟩
      rw [configActions, runFrom_singleton, step_call haccepted]
  | stop =>
      refine ⟨s.begin .stopBackup, ?_, begin_same h rfl⟩
      rw [configActions, runFrom_singleton, step_call rfl]
  | persist i call hcall hstage =>
      obtain ⟨c, hc, hsame⟩ := exists_sameCall h.calls hcall
      have hbegun := eq_begun (hstage ▸ hsame.2)
      have hrun := runFrom_load_save hc hbegun
      refine ⟨_, hrun, ?_⟩
      constructor
      · exact h.managerState
      · change c.update.apply s.config = persistCron call.schedule n.config
        rw [apply_of_schedule hsame.1, h.config]
      · exact h.cronScheduleTx
      · exact sameCall_set h.calls i ⟨hsame.1, trivial⟩
  | send i call hcall hstage =>
      obtain ⟨c, hc, hsame⟩ := exists_sameCall h.calls hcall
      obtain ⟨cfg, hcfg⟩ := eq_saved (hstage ▸ hsame.2)
      have hset : List.Forall₂ SameCall (n.setCall i call .returned).calls
          (s.setCall i c returned).calls := sameCall_set h.calls i ⟨hsame.1, trivial⟩
      refine ⟨(s.setCall i c returned).conclude c.update cfg, ?_, ?_⟩
      · rw [configActions, runFrom_singleton, step_finish hc hcfg]
      · rw [conclude, hsame.1]
        exact ⟨h.managerState, h.config, rfl, hset⟩

/-- Every run with calls that persist at once is a run of this node. -/
theorem run_same {n n' : NodeSchedule} {s : ConfigNode} {actions : List ScheduleAction}
    (hrun : runFrom NodeSchedule.step n actions = some n') (h : SameNode n s) :
    ∃ s', runFrom step s (actions.flatMap configActions) = some s' ∧ SameNode n' s' :=
  simulation_run (fun _ _ _ _ hsame ha => step_same hsame ha) h hrun

end ConfigNode

end TbManager
