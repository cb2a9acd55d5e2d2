import TbManager.ConfigUpdates

/-!
# What survives a restart

A node takes its schedule, its bucket and its data file from the config file when it
starts, and from the calls while it runs; some calls write them back. Each upload lays
the credentials of the file over the environment, which the process keeps. The calls
are taken one after another: a step is a whole call, as one of `ConfigNode` is that no
other call overlaps. A save that fails does so before the file is opened for writing.
-/

namespace TbManager

inductive AwsVar where
  | endpointUrl
  | accessKeyId
  | secretAccessKey
  | defaultRegion
  | region
  | requestChecksumCalculation
  | responseChecksumValidation
  deriving DecidableEq, Repr

/-- What the config file has for a variable; the region is set under two names. -/
def BackupConfig.var (cfg : BackupConfig) : AwsVar → Option String
  | .endpointUrl => cfg.awsEndpointUrl
  | .accessKeyId => cfg.awsAccessKeyId
  | .secretAccessKey => cfg.awsSecretAccessKey
  | .defaultRegion => cfg.awsDefaultRegion
  | .region => cfg.awsDefaultRegion
  | .requestChecksumCalculation => cfg.awsRequestChecksumCalculation
  | .responseChecksumValidation => cfg.awsResponseChecksumValidation

def BackupConfig.applyToEnv (cfg : BackupConfig) (env : AwsVar → Option String) :
    AwsVar → Option String :=
  fun var => (cfg.var var).or (env var)

structure NodeArgs where
  /-- `--backup-config-file` is given. -/
  backupConfigFile : Bool
  childArgs : List String
  env : AwsVar → Option String

/-- The last argument of the child that is not a flag. -/
def NodeArgs.dataFile (args : NodeArgs) : Option String :=
  args.childArgs.reverse.find? fun a => a.toList.take 2 ≠ ['-', '-']

structure RunningNode where
  managerState : ManagerState
  cronScheduleTx : Option String
  /-- The config file; no value is one that cannot be loaded, a missing one is empty. -/
  file : Option BackupConfig
  env : AwsVar → Option String

/-- What happens between two calls is not seen: see `boot_savedCalls`. -/
inductive RestartAction where
  /-- Whether the file was loaded and saved; if not, it stays as it is. -/
  | startBackup (cronSchedule : String) (saved : Bool)
  | stopBackup (saved : Bool)
  | modifyBackupConfig (req : ModifyBackupConfigRequest) (saved : Bool)
  /-- `build_client` at the start of an upload. -/
  | buildClient (loaded : Bool)
  /-- The node starts again and finds the config file as it is then. -/
  | restart (found : Option BackupConfig)
  deriving DecidableEq, Repr

namespace RunningNode

variable (args : NodeArgs)

def startConfig (file : Option BackupConfig) : BackupConfig :=
  if args.backupConfigFile then file.getD NodeSchedule.emptyConfig else NodeSchedule.emptyConfig

def boot (file : Option BackupConfig) : RunningNode where
  managerState := (NodeSchedule.initial (startConfig args file) args.dataFile).managerState
  cronScheduleTx := (startConfig args file).cronSchedule
  file := file
  env := args.env

def save (s : RunningNode) (change : BackupConfig → BackupConfig) (saved : Bool) :
    Option BackupConfig :=
  if args.backupConfigFile && saved then s.file.map change else none

/-- A schedule call changes the state whatever becomes of the file. -/
def setSchedule (s : RunningNode) (schedule : Option String) (saved : Bool) : RunningNode :=
  { s with
    managerState :=
      { s.managerState with
        backupsEnabled := schedule.isSome
        cronSchedule := schedule }
    cronScheduleTx := schedule
    file := (s.save args (persistCron schedule) saved).or s.file }

/-- A change of the configuration reaches the state only with the file. -/
def modify (s : RunningNode) (req : ModifyBackupConfigRequest) (saved : Bool) : RunningNode :=
  match s.save args req.apply saved with
  | some cfg =>
    { s with
      managerState :=
        { s.managerState with
          bucket := cfg.bucket.getD s.managerState.bucket
          backupFile := cfg.backupFile.getD s.managerState.backupFile }
      file := some cfg }
  | none => s

/-- A file that is not loaded leaves the environment. -/
def buildClient (s : RunningNode) (loaded : Bool) : RunningNode :=
  match if args.backupConfigFile && loaded then s.file else none with
  | some cfg => { s with env := cfg.applyToEnv s.env }
  | none => s

def step (s : RunningNode) : RestartAction → Option RunningNode
  | .startBackup cronSchedule saved =>
    some (if validSchedule cronSchedule then s.setSchedule args (some cronSchedule) saved else s)
  | .stopBackup saved => some (s.setSchedule args none saved)
  | .modifyBackupConfig req saved => some (s.modify args req saved)
  | .buildClient loaded => some (s.buildClient args loaded)
  | .restart found => some (boot args found)

/-- A restart that finds the file as it is gives the settings that the node has. -/
def Durable (s : RunningNode) : Prop :=
  s.managerState.backupsEnabled = (boot args s.file).managerState.backupsEnabled ∧
    s.managerState.cronSchedule = (boot args s.file).managerState.cronSchedule ∧
    s.cronScheduleTx = (boot args s.file).cronScheduleTx ∧
    s.managerState.bucket = (boot args s.file).managerState.bucket ∧
    s.managerState.backupFile = (boot args s.file).managerState.backupFile

def PersistsSchedule (s : RunningNode) (schedule : Option String) (saved : Bool) : Prop :=
  (args.backupConfigFile = true ∧ saved = true ∧ s.file ≠ none) ∨
    s.managerState.cronSchedule = schedule

/-- Each schedule that a call puts in force is saved, unless it is in force already. -/
def Persists (s : RunningNode) : RestartAction → Prop
  | .startBackup cronSchedule saved =>
    validSchedule cronSchedule → PersistsSchedule args s (some cronSchedule) saved
  | .stopBackup saved => PersistsSchedule args s none saved
  | _ => True

/-! ## A call that no other overlaps -/

def savedCall : ConfigUpdate → RestartAction
  | .modifyBackupConfig req => .modifyBackupConfig req true
  | .startBackup cronSchedule => .startBackup cronSchedule true
  | .stopBackup => .stopBackup true

/-- The steps of a call with number `i`; a start call that fails its check ends at once. -/
def oneCall (i : ℕ) (u : ConfigUpdate) : List ConfigAction :=
  if u.accepted then [.call u, .load i, .save i, .finish i] else [.call u]

def oneByOne : ℕ → List ConfigUpdate → List ConfigAction
  | _, [] => []
  | i, u :: us => oneCall i u ++ oneByOne (if u.accepted then i + 1 else i) us

structure SameSettings (s : RunningNode) (n : ConfigNode) : Prop where
  managerState : s.managerState = n.managerState
  cronScheduleTx : s.cronScheduleTx = n.cronScheduleTx
  file : s.file = some n.config

def served (n : ConfigNode) (u : ConfigUpdate) : ConfigNode :=
  ConfigNode.conclude
    { n.begin u with
      config := u.apply n.config
      calls := n.calls ++ [⟨u, .returned⟩] } u (u.apply n.config)

theorem set_last {α : Type*} (xs : List α) (x y : α) :
    (xs ++ [x]).set xs.length y = xs ++ [y] := by
  rw [List.set_append_right _ _ le_rfl, Nat.sub_self]
  rfl

theorem runFrom_oneCall (n : ConfigNode) {u : ConfigUpdate} (haccepted : u.accepted) :
    runFrom ConfigNode.step n (oneCall n.calls.length u) = some (served n u) := by
  let m (stage : ConfigStage) (cfg : BackupConfig) : ConfigNode :=
    { n.begin u with
      config := cfg
      calls := n.calls ++ [⟨u, stage⟩] }
  have hcall (stage : ConfigStage) (cfg : BackupConfig) :
      (m stage cfg).calls[n.calls.length]? = some ⟨u, stage⟩ := List.getElem?_concat_length
  have hset (stage next : ConfigStage) (cfg : BackupConfig) :
      (m stage cfg).setCall n.calls.length ⟨u, stage⟩ next = m next cfg := by
    rw [ConfigNode.setCall, set_last]
  have hbegin : ConfigNode.step n (.call u) = some (m .begun n.config) := by
    rw [ConfigNode.step, if_pos haccepted]
    rfl
  have hload : (m .begun n.config).step (.load n.calls.length) =
      some (m (.loaded n.config) n.config) := by
    simp only [ConfigNode.step, hcall, hset]
    rfl
  have hsave : (m (.loaded n.config) n.config).step (.save n.calls.length) =
      some (m (.saved (u.apply n.config)) (u.apply n.config)) := by
    simp only [ConfigNode.step, hcall, hset]
    rfl
  have hfinish : (m (.saved (u.apply n.config)) (u.apply n.config)).step (.finish n.calls.length) =
      some (served n u) := by
    simp only [ConfigNode.step, hcall, hset]
    rfl
  rw [oneCall, if_pos haccepted, runFrom, hbegin, Option.bind_some, runFrom, hload,
    Option.bind_some, runFrom, hsave, Option.bind_some, runFrom_singleton, hfinish]

section Calls

variable {args} {s : RunningNode} {n : ConfigNode}

theorem startConfig_some (hpath : args.backupConfigFile = true) (cfg : BackupConfig) :
    startConfig args (some cfg) = cfg := by
  rw [startConfig, if_pos hpath, Option.getD_some]

theorem boot_sameSettings (hpath : args.backupConfigFile = true) (cfg : BackupConfig) :
    SameSettings (boot args (some cfg)) (.initial cfg args.dataFile) := by
  rw [boot, startConfig_some hpath]
  exact ⟨rfl, rfl, rfl⟩

theorem savedCall_sameSettings (hpath : args.backupConfigFile = true) (h : SameSettings s n)
    (u : ConfigUpdate) :
    ∃ s' n', step args s (savedCall u) = some s' ∧
      runFrom ConfigNode.step n (oneCall n.calls.length u) = some n' ∧
      n'.calls.length = (if u.accepted then n.calls.length + 1 else n.calls.length) ∧
      SameSettings s' n' := by
  by_cases haccepted : u.accepted
  · have hlength : (served n u).calls.length = n.calls.length + 1 := by
      rw [served, ConfigNode.conclude_calls, List.length_append]
      rfl
    have hsave (change : BackupConfig → BackupConfig) :
        s.save args change true = some (change n.config) := by
      rw [save, hpath, h.file]
      rfl
    have hcall := runFrom_oneCall n haccepted
    rw [if_pos haccepted]
    cases u with
    | modifyBackupConfig req =>
        refine ⟨_, _, rfl, hcall, hlength, ?_⟩
        rw [modify, hsave]
        refine ⟨?_, h.cronScheduleTx, rfl⟩
        exact congrArg (fun m : ManagerState => { m with
          bucket := (req.apply n.config).bucket.getD m.bucket
          backupFile := (req.apply n.config).backupFile.getD m.backupFile }) h.managerState
    | startBackup cronSchedule =>
        have hvalid : validSchedule cronSchedule := haccepted
        refine ⟨_, _, rfl, hcall, hlength, ?_⟩
        rw [if_pos hvalid, setSchedule, hsave, h.managerState]
        exact ⟨rfl, rfl, rfl⟩
    | stopBackup =>
        refine ⟨_, _, rfl, hcall, hlength, ?_⟩
        rw [setSchedule, hsave, h.managerState]
        exact ⟨rfl, rfl, rfl⟩
  · rw [if_neg haccepted, oneCall, if_neg haccepted, runFrom_singleton, ConfigNode.step,
      if_neg haccepted]
    cases u with
    | startBackup cronSchedule =>
        refine ⟨s, n, ?_, rfl, rfl, h⟩
        exact congrArg some (if_neg haccepted)
    | modifyBackupConfig req => exact absurd rfl haccepted
    | stopBackup => exact absurd rfl haccepted

theorem savedCalls_sameSettings (hpath : args.backupConfigFile = true) (h : SameSettings s n)
    (updates : List ConfigUpdate) :
    ∃ s' n', runFrom (step args) s (updates.map savedCall) = some s' ∧
      runFrom ConfigNode.step n (oneByOne n.calls.length updates) = some n' ∧
      SameSettings s' n' := by
  induction updates generalizing s n with
  | nil => exact ⟨s, n, rfl, rfl, h⟩
  | cons u updates ih =>
      obtain ⟨s₁, n₁, hstep, hcall, hlength, h₁⟩ := savedCall_sameSettings hpath h u
      obtain ⟨s', n', hrest, hrest', h'⟩ := ih h₁
      refine ⟨s', n', ?_, ?_, h'⟩
      · rw [List.map_cons, runFrom, hstep, Option.bind_some, hrest]
      · rw [oneByOne, runFrom_append, hcall, Option.bind_some, ← hlength, hrest']

/-- From the start of a node, calls that are saved one after another leave the settings that the
steps of these calls leave where no two calls overlap. -/
theorem boot_savedCalls (hpath : args.backupConfigFile = true) (cfg : BackupConfig)
    (updates : List ConfigUpdate) :
    ∃ s n, runFrom (step args) (boot args (some cfg)) (updates.map savedCall) = some s ∧
      runFrom ConfigNode.step (.initial cfg args.dataFile) (oneByOne 0 updates) = some n ∧
      SameSettings s n :=
  savedCalls_sameSettings hpath (boot_sameSettings hpath cfg) updates

end Calls

/-! ## The bucket and the data file -/

/-- The settings that reach the state only with the file, and the copies of the schedule. -/
structure Inv (s : RunningNode) : Prop where
  enabled : s.managerState.backupsEnabled = s.managerState.cronSchedule.isSome
  cronScheduleTx : s.cronScheduleTx = s.managerState.cronSchedule
  bucket : s.managerState.bucket = (boot args s.file).managerState.bucket
  backupFile : s.managerState.backupFile = (boot args s.file).managerState.backupFile
  /-- A variable that is not as the system set it is one that the file has. -/
  env : ∀ var, s.env var = args.env var ∨ ∃ cfg, s.file = some cfg ∧ cfg.var var ≠ none

variable {args} {s s' : RunningNode} {a : RestartAction}

theorem boot_settings (args : NodeArgs) (file file' : Option BackupConfig)
    (hbucket : (startConfig args file).bucket = (startConfig args file').bucket)
    (hfile : (startConfig args file).backupFile = (startConfig args file').backupFile) :
    (boot args file).managerState.bucket = (boot args file').managerState.bucket ∧
      (boot args file).managerState.backupFile = (boot args file').managerState.backupFile := by
  simp only [boot, NodeSchedule.initial, hbucket, hfile]
  exact ⟨trivial, trivial⟩

theorem save_cases (args : NodeArgs) (s : RunningNode) (change : BackupConfig → BackupConfig)
    (saved : Bool) :
    (s.save args change saved = none ∧
      ¬ (args.backupConfigFile = true ∧ saved = true ∧ s.file ≠ none)) ∨
    ∃ cfg, args.backupConfigFile = true ∧ saved = true ∧ s.file = some cfg ∧
      s.save args change saved = some (change cfg) := by
  rw [save]
  cases hpath : args.backupConfigFile with
  | false => exact .inl ⟨rfl, by simp⟩
  | true =>
      cases saved with
      | false => exact .inl ⟨rfl, by simp⟩
      | true =>
          cases hfile : s.file with
          | none => exact .inl ⟨rfl, by simp⟩
          | some cfg => exact .inr ⟨cfg, rfl, rfl, rfl, rfl⟩

theorem boot_inv (file : Option BackupConfig) : (boot args file).Inv args where
  enabled := rfl
  cronScheduleTx := rfl
  bucket := rfl
  backupFile := rfl
  env _ := .inl rfl

theorem setSchedule_inv (hi : s.Inv args) (schedule : Option String) (saved : Bool) :
    (s.setSchedule args schedule saved).Inv args := by
  rcases save_cases args s (persistCron schedule) saved with
    ⟨hsave, _⟩ | ⟨cfg, hpath, _, hfile, hsave⟩
  · have hsame : (s.setSchedule args schedule saved).file = s.file := by
      rw [setSchedule, hsave, Option.none_or]
    refine ⟨rfl, rfl, ?_, ?_, ?_⟩
    · rw [hsame]
      exact hi.bucket
    · rw [hsame]
      exact hi.backupFile
    · rw [hsame]
      exact hi.env
  · have hnew : (s.setSchedule args schedule saved).file = some (persistCron schedule cfg) := by
      rw [setSchedule, hsave, Option.some_or]
    have hsettings := boot_settings args (some cfg) (some (persistCron schedule cfg))
      (by rw [startConfig_some hpath, startConfig_some hpath]; rfl)
      (by rw [startConfig_some hpath, startConfig_some hpath]; rfl)
    refine ⟨rfl, rfl, ?_, ?_, fun var => ?_⟩
    · rw [hnew, ← hsettings.1, ← hfile]
      exact hi.bucket
    · rw [hnew, ← hsettings.2, ← hfile]
      exact hi.backupFile
    · rcases hi.env var with hsystem | ⟨cfg', hcfg', hvar⟩
      · exact .inl hsystem
      · rw [hfile, Option.some.injEq] at hcfg'
        subst hcfg'
        exact .inr ⟨_, hnew, by cases var <;> exact hvar⟩

theorem overrideField_ne_none {field : Option String} (h : field ≠ none) (value : String) :
    overrideField field value ≠ none := by
  rw [overrideField]
  split_ifs
  · exact h
  · exact Option.some_ne_none _

theorem overrideField_getD {field : Option String} {x default : String}
    (h : x = field.getD default) (value : String) :
    (overrideField field value).getD x = (overrideField field value).getD default := by
  rw [overrideField]
  split_ifs
  · cases field with
    | none => exact h
    | some y => rfl
  · rfl

theorem var_apply_ne_none {req : ModifyBackupConfigRequest} {cfg : BackupConfig} {var : AwsVar}
    (h : cfg.var var ≠ none) : (req.apply cfg).var var ≠ none := by
  cases var <;> exact overrideField_ne_none h _

theorem modify_inv (hi : s.Inv args) (req : ModifyBackupConfigRequest) (saved : Bool) :
    (s.modify args req saved).Inv args := by
  rcases save_cases args s req.apply saved with
    ⟨hsave, _⟩ | ⟨cfg, hpath, _, hfile, hsave⟩
  · rw [modify, hsave]
    exact hi
  · have hbucket := hi.bucket
    have hbackup := hi.backupFile
    rw [hfile, boot, startConfig_some hpath] at hbucket hbackup
    rw [modify, hsave]
    refine ⟨hi.enabled, hi.cronScheduleTx, ?_, ?_, fun var => ?_⟩
    · rw [boot, startConfig_some hpath]
      exact overrideField_getD hbucket req.bucket
    · have hor (o : Option String) : (o.or args.dataFile).getD "./data/0_0.tigerbeetle" =
          o.getD (args.dataFile.getD "./data/0_0.tigerbeetle") := by cases o <;> rfl
      have hbackup : s.managerState.backupFile =
          (cfg.backupFile.or args.dataFile).getD "./data/0_0.tigerbeetle" := hbackup
      rw [hor] at hbackup
      rw [boot, startConfig_some hpath]
      exact (overrideField_getD hbackup req.backupFile).trans (hor _).symm
    · rcases hi.env var with hsystem | ⟨cfg', hcfg', hvar⟩
      · exact .inl hsystem
      · rw [hfile, Option.some.injEq] at hcfg'
        subst hcfg'
        exact .inr ⟨_, rfl, var_apply_ne_none hvar⟩

theorem buildClient_cases (args : NodeArgs) (s : RunningNode) (loaded : Bool) :
    s.buildClient args loaded = s ∨ ∃ cfg, s.file = some cfg ∧
      s.buildClient args loaded = { s with env := cfg.applyToEnv s.env } := by
  cases hfile : (if args.backupConfigFile && loaded then s.file else none) with
  | none =>
      refine .inl ?_
      rw [buildClient, hfile]
  | some cfg =>
      refine .inr ⟨cfg, ?_, ?_⟩
      · split_ifs at hfile
        exact hfile
      · rw [buildClient, hfile]

theorem applyToEnv_eq (hi : s.Inv args) {cfg : BackupConfig} (hfile : s.file = some cfg)
    (var : AwsVar) : cfg.applyToEnv s.env var = (cfg.var var).or (args.env var) := by
  rw [BackupConfig.applyToEnv]
  rcases hi.env var with hsystem | ⟨cfg', hcfg', hvar⟩
  · rw [hsystem]
  · rw [hfile, Option.some.injEq] at hcfg'
    subst hcfg'
    obtain ⟨value, hvalue⟩ := Option.ne_none_iff_exists'.1 hvar
    rw [hvalue, Option.some_or, Option.some_or]

theorem step_inv (hi : s.Inv args) (h : step args s a = some s') : s'.Inv args := by
  cases a with
  | startBackup cronSchedule saved =>
      cases h
      by_cases hvalid : validSchedule cronSchedule
      · rw [if_pos hvalid]
        exact setSchedule_inv hi _ saved
      · rw [if_neg hvalid]
        exact hi
  | stopBackup saved =>
      cases h
      exact setSchedule_inv hi none saved
  | modifyBackupConfig req saved =>
      cases h
      exact modify_inv hi req saved
  | buildClient loaded =>
      cases h
      rcases buildClient_cases args s loaded with hsame | ⟨cfg, hfile, hnew⟩
      · rw [hsame]
        exact hi
      · rw [hnew]
        refine ⟨hi.enabled, hi.cronScheduleTx, hi.bucket, hi.backupFile, fun var => ?_⟩
        change cfg.applyToEnv s.env var = _ ∨ _
        rw [applyToEnv_eq hi hfile]
        cases hvar : cfg.var var with
        | none => exact .inl rfl
        | some value =>
            refine .inr ⟨cfg, hfile, ?_⟩
            rw [hvar]
            exact Option.some_ne_none value
  | restart found =>
      cases h
      exact boot_inv found

theorem run_inv {file : Option BackupConfig} {actions : List RestartAction}
    (hrun : runFrom (step args) (boot args file) actions = some s) : s.Inv args :=
  invariant_run (fun _ _ _ hi h => step_inv hi h) (boot_inv file) hrun

/-- Whatever calls were made and whichever of them failed to save, the bucket and the data file of
a node are those that it would have after a restart, and the two copies of the schedule that it
holds agree. -/
theorem settings_durable {file : Option BackupConfig} {actions : List RestartAction}
    (hrun : runFrom (step args) (boot args file) actions = some s) :
    s.managerState.bucket = (boot args s.file).managerState.bucket ∧
      s.managerState.backupFile = (boot args s.file).managerState.backupFile ∧
      s.cronScheduleTx = s.managerState.cronSchedule := by
  have hi := run_inv hrun
  exact ⟨hi.bucket, hi.backupFile, hi.cronScheduleTx⟩

def freshArgs : NodeArgs where
  backupConfigFile := true
  childArgs := ["start", "--addresses=3000", "./data/0_0.tigerbeetle"]
  env := fun _ => none

def savedAndLost : List RestartAction :=
  [.modifyBackupConfig { ConfigNode.noOverrides with bucket := "ledger" } true, .stopBackup false]

theorem settings_durable_savedAndLost :
    ∃ s, runFrom (step freshArgs) (boot freshArgs (some NodeSchedule.emptyConfig)) savedAndLost =
        some s ∧ s.managerState.bucket = "ledger" ∧
      s.managerState.bucket = (boot freshArgs s.file).managerState.bucket ∧
      s.managerState.backupFile = (boot freshArgs s.file).managerState.backupFile ∧
      s.cronScheduleTx = s.managerState.cronSchedule :=
  have hrun : runFrom (step freshArgs) (boot freshArgs (some NodeSchedule.emptyConfig))
      savedAndLost = some _ := rfl
  ⟨_, hrun, rfl, settings_durable hrun⟩

/-- Every S3 client gets the values of the config file over those of the environment that the
node was started with: no value of an earlier upload is left in between. -/
theorem client_env {file : Option BackupConfig} {actions : List RestartAction}
    (hrun : runFrom (step args) (boot args file) actions = some s) {cfg : BackupConfig}
    (hpath : args.backupConfigFile = true) (hfile : s.file = some cfg)
    (hbuild : step args s (.buildClient true) = some s') (var : AwsVar) :
    s'.env var = (cfg.var var).or (args.env var) := by
  rw [step, buildClient, hpath, hfile, Option.some.injEq] at hbuild
  subst hbuild
  exact applyToEnv_eq (run_inv hrun) hfile var

def endpointSet : List RestartAction :=
  [.modifyBackupConfig { ConfigNode.noOverrides with awsEndpointUrl := "https://s3" } true,
    .buildClient true]

theorem client_env_endpoint :
    ∃ s s' cfg, runFrom (step freshArgs) (boot freshArgs (some NodeSchedule.emptyConfig))
        endpointSet = some s ∧ s.file = some cfg ∧
      step freshArgs s (.buildClient true) = some s' ∧ s'.env .endpointUrl = some "https://s3" ∧
      ∀ var, s'.env var = (cfg.var var).or (freshArgs.env var) :=
  have hrun : runFrom (step freshArgs) (boot freshArgs (some NodeSchedule.emptyConfig))
      endpointSet = some _ := rfl
  ⟨_, _, _, hrun, rfl, rfl, rfl, fun var => client_env hrun rfl rfl rfl var⟩

/-! ## The schedule -/

theorem durable_iff (hi : s.Inv args) : s.Durable args ↔
    s.managerState.cronSchedule = (startConfig args s.file).cronSchedule := by
  constructor
  · rintro ⟨_, hcron, _⟩
    exact hcron
  · intro hcron
    refine ⟨?_, hcron, ?_, hi.bucket, hi.backupFile⟩
    · rw [hi.enabled, hcron]
      rfl
    · rw [hi.cronScheduleTx, hcron]
      rfl

theorem durable_setSchedule_iff (hi : s.Inv args) (hd : s.Durable args) (schedule : Option String)
    (saved : Bool) :
    (s.setSchedule args schedule saved).Durable args ↔ PersistsSchedule args s schedule saved := by
  rw [durable_iff (setSchedule_inv hi schedule saved), PersistsSchedule]
  rcases save_cases args s (persistCron schedule) saved with
    ⟨hsave, hnot⟩ | ⟨cfg, hpath, hsaved, hfile, hsave⟩
  · have hsame : (s.setSchedule args schedule saved).file = s.file := by
      rw [setSchedule, hsave, Option.none_or]
    rw [hsame, ← (durable_iff hi).1 hd, or_iff_right hnot]
    exact eq_comm
  · have hnew : (s.setSchedule args schedule saved).file = some (persistCron schedule cfg) := by
      rw [setSchedule, hsave, Option.some_or]
    rw [hnew, startConfig_some hpath]
    refine iff_of_true rfl (.inl ⟨hpath, hsaved, ?_⟩)
    rw [hfile]
    exact Option.some_ne_none cfg

theorem durable_modify (hi : s.Inv args) (hd : s.Durable args) (req : ModifyBackupConfigRequest)
    (saved : Bool) : (s.modify args req saved).Durable args := by
  rw [durable_iff (modify_inv hi req saved)]
  have hcron := (durable_iff hi).1 hd
  rcases save_cases args s req.apply saved with
    ⟨hsave, _⟩ | ⟨cfg, hpath, _, hfile, hsave⟩
  · rw [modify, hsave]
    exact hcron
  · rw [hfile, startConfig_some hpath] at hcron
    rw [modify, hsave, startConfig_some hpath]
    exact hcron

theorem durable_step_iff (hi : s.Inv args) (hd : s.Durable args) (h : step args s a = some s') :
    s'.Durable args ↔ s.Persists args a := by
  cases a with
  | startBackup cronSchedule saved =>
      cases h
      by_cases hvalid : validSchedule cronSchedule
      · rw [if_pos hvalid, durable_setSchedule_iff hi hd]
        exact ⟨fun hp _ => hp, fun hp => hp hvalid⟩
      · rw [if_neg hvalid]
        exact iff_of_true hd fun hv => absurd hv hvalid
  | stopBackup saved =>
      cases h
      exact durable_setSchedule_iff hi hd none saved
  | modifyBackupConfig req saved =>
      cases h
      exact iff_of_true (durable_modify hi hd req saved) trivial
  | buildClient loaded =>
      cases h
      refine iff_of_true ?_ trivial
      rcases buildClient_cases args s loaded with hsame | ⟨cfg, _, hnew⟩
      · rwa [hsame]
      · rw [hnew]
        exact hd
  | restart found =>
      cases h
      exact iff_of_true ⟨rfl, rfl, rfl, rfl, rfl⟩ trivial

/-- A restart gives back all settings at every point of a run exactly when each schedule that a
call puts in force is saved to the config file or was in force before. -/
theorem durable_iff_persists {file : Option BackupConfig} {actions : List RestartAction}
    (hrun : runFrom (step args) (boot args file) actions = some s) :
    Throughout (step args) (Durable args) (boot args file) actions ↔
      StepsMeet (step args) (Persists args) (boot args file) actions :=
  throughout_iff_stepsMeet (fun _ _ _ hi h => step_inv hi h)
    (fun _ _ _ hi hd h => durable_step_iff hi hd h) (boot_inv file) ⟨rfl, rfl, rfl, rfl, rfl⟩ hrun

theorem durable_iff_persists_savedAndLost :
    Throughout (step freshArgs) (Durable freshArgs)
        (boot freshArgs (some NodeSchedule.emptyConfig)) savedAndLost ↔
      StepsMeet (step freshArgs) (Persists freshArgs)
        (boot freshArgs (some NodeSchedule.emptyConfig)) savedAndLost :=
  @durable_iff_persists freshArgs _ (some NodeSchedule.emptyConfig) savedAndLost rfl

end RunningNode

end TbManager
