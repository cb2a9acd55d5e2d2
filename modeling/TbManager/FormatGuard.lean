import TbManager.BackupRuns
import TbManager.MachineInt
import TbManager.Runs

/-!
# Formatting a data file

The node serves the format call from before the manager spawns TigerBeetle. The
call looks at the flag of the running process and launches the command later;
the manager spawns the process and sets the flag later.
-/

namespace TbManager

structure FormatDataFileRequest where
  clusterId : U64
  replica : U32
  replicaCount : U32
  size : String
  dataFilePath : String
  deriving DecidableEq, Repr

structure FormatDataFileResponse where
  success : Bool
  message : String
  dataFilePath : String
  deriving DecidableEq, Repr

/-- The output of the format command; a process that a signal ended has no code. -/
structure CommandOutput where
  code : Option ℤ
  stdout : String
  stderr : String
  deriving DecidableEq, Repr

namespace FormatDataFileRequest

/-- The path of the request, or else the one of the node. -/
def target (req : FormatDataFileRequest) (backupFile : String) : String :=
  if req.dataFilePath = "" then backupFile else req.dataFilePath

def cmdArgs (req : FormatDataFileRequest) (dataFilePath : String) : List String :=
  ["format", "--cluster=" ++ toString req.clusterId.toNat,
    "--replica=" ++ toString req.replica.toNat,
    "--replica-count=" ++ toString req.replicaCount.toNat] ++
    (if req.size = "" then [] else ["--size=" ++ req.size]) ++ [dataFilePath]

end FormatDataFileRequest

namespace FormatDataFileResponse

def stillRunning : FormatDataFileResponse where
  success := false
  message := "TigerBeetle process is still running. Stop the node before formatting a data file."
  dataFilePath := ""

def noPath : FormatDataFileResponse where
  success := false
  message := "No data file path provided and none is configured on this node."
  dataFilePath := ""

/-- `trim`. -/
def trimText (text : String) : String :=
  String.ofList
    ((text.toList.dropWhile isWhitespace).reverse.dropWhile isWhitespace).reverse

def debugCode : Option ℤ → String
  | some code => "Some(" ++ toString code ++ ")"
  | none => "None"

def ofOutput (req : FormatDataFileRequest) (dataFilePath : String) (output : CommandOutput) :
    FormatDataFileResponse :=
  if output.code = some 0 then
    { success := true
      message := "Data file formatted successfully: cluster=" ++ toString req.clusterId.toNat ++
        " replica=" ++ toString req.replica.toNat ++ "/" ++ toString req.replicaCount.toNat ++
        " path=" ++ dataFilePath
      dataFilePath := dataFilePath }
  else
    { success := false
      message := "tigerbeetle format failed (exit " ++ debugCode output.code ++ "): " ++
        trimText (output.stdout ++ output.stderr)
      dataFilePath := "" }

end FormatDataFileResponse

/-! ## The node -/

inductive FormatStage where
  /-- Past the look at the flag. -/
  | checked
  | resolved (dataFilePath : String)
  | launched (exe : String) (cmdArgs : List String) (dataFilePath : String)
  | responded (result : Except String FormatDataFileResponse)

structure FormatCall where
  req : FormatDataFileRequest
  stage : FormatStage

inductive RunStage where
  /-- Before the spawn. -/
  | starting
  /-- After the spawn, before the flag. -/
  | spawned
  | watching
  /-- The loop has returned, and the node with it. -/
  | exited
  deriving DecidableEq, Repr

structure FormatNode where
  run : RunStage
  childAlive : Bool
  processRunning : Bool
  exe : String
  backupFile : String
  calls : List FormatCall

inductive FormatAction where
  | spawn
  | spawnFails
  | setProcessRunning
  | childExit
  /-- The loop sees that the child has exited. -/
  | childWait
  /-- Ctrl-C: the child is killed. -/
  | shutdown
  | modifyBackupFile (backupFile : String)
  | formatDataFile (req : FormatDataFileRequest)
  | resolve (call : ℕ)
  | launch (call : ℕ)
  | respond (call : ℕ) (output : Except String CommandOutput)

namespace FormatNode

open RunStage FormatStage

def initial (exe backupFile : String) : FormatNode where
  run := starting
  childAlive := false
  processRunning := false
  exe := exe
  backupFile := backupFile
  calls := []

def setCall (s : FormatNode) (i : ℕ) (call : FormatCall) (stage : FormatStage) : FormatNode :=
  { s with calls := s.calls.set i { call with stage := stage } }

def addCall (s : FormatNode) (req : FormatDataFileRequest) (stage : FormatStage) : FormatNode :=
  { s with calls := s.calls ++ [⟨req, stage⟩] }

/-- The next stage of a call once the path is known. -/
def resolvedStage (dataFilePath : String) : FormatStage :=
  if dataFilePath = "" then responded (.ok .noPath) else resolved dataFilePath

def respondedStage (req : FormatDataFileRequest) (dataFilePath : String) :
    Except String CommandOutput → FormatStage
  | .ok output => responded (.ok (.ofOutput req dataFilePath output))
  | .error e => responded (.error ("failed to spawn tigerbeetle: " ++ e))

/-- The steps of the manager. -/
def runStep (s : FormatNode) : FormatAction → Option FormatNode
  | .spawn => if s.run = starting then some { s with run := spawned, childAlive := true } else none
  | .spawnFails => if s.run = starting then some { s with run := exited } else none
  | .setProcessRunning =>
    if s.run = spawned then some { s with run := watching, processRunning := true } else none
  | .childExit => if s.childAlive then some { s with childAlive := false } else none
  | .childWait =>
    if s.run = watching ∧ ¬ s.childAlive then some { s with run := exited } else none
  | .shutdown =>
    if s.run = watching then some { s with run := exited, childAlive := false } else none
  | _ => none

/-- The steps of the calls. -/
def callStep (s : FormatNode) : FormatAction → Option FormatNode
  | .modifyBackupFile backupFile => some { s with backupFile := backupFile }
  | .formatDataFile req =>
    some (s.addCall req (if s.processRunning then responded (.ok .stillRunning) else checked))
  | .resolve i =>
    match s.calls[i]? with
    | some call =>
      match call.stage with
      | checked => some (s.setCall i call (resolvedStage (call.req.target s.backupFile)))
      | _ => none
    | none => none
  | .launch i =>
    match s.calls[i]? with
    | some call =>
      match call.stage with
      | resolved dataFilePath =>
        some (s.setCall i call
          (launched s.exe (call.req.cmdArgs dataFilePath) dataFilePath))
      | _ => none
    | none => none
  | .respond i output =>
    match s.calls[i]? with
    | some call =>
      match call.stage with
      | launched _ _ dataFilePath =>
        some (s.setCall i call (respondedStage call.req dataFilePath output))
      | _ => none
    | none => none
  | _ => none

def step (s : FormatNode) (a : FormatAction) : Option FormatNode :=
  if s.run = exited then none else (s.runStep a).or (s.callStep a)

/-- A call past its check that has not launched its command. -/
def pending (call : FormatCall) : Bool :=
  match call.stage with
  | checked => true
  | resolved _ => true
  | _ => false

/-- No command is launched while the child is alive. -/
def LaunchesStopped (s : FormatNode) (a : FormatAction) : Prop :=
  ∀ i, a = .launch i → s.childAlive = false

/-- No call is between its check and its launch while the child is alive. -/
def NonePending (s : FormatNode) : Prop :=
  s.childAlive = true → ∀ call ∈ s.calls, pending call = false

/-- The manager spawns the child with no call between its check and its launch, and no call
checks the flag between the spawn and the setting of the flag while the child is alive. -/
def Guarded (s : FormatNode) : FormatAction → Prop
  | .spawn => ∀ call ∈ s.calls, pending call = false
  | .formatDataFile _ => s.childAlive = true → s.processRunning = true
  | _ => True

/-! ## What a step does -/

inductive Moves (s : FormatNode) : FormatAction → FormatNode → Prop
  | spawn : Moves s .spawn { s with run := spawned, childAlive := true }
  | check (req : FormatDataFileRequest) : Moves s (.formatDataFile req)
      (s.addCall req (if s.processRunning then responded (.ok .stillRunning) else checked))
  /-- A call moves on; none becomes pending again. -/
  | moveOn {a : FormatAction} (i : ℕ) (call : FormatCall) (stage : FormatStage)
      (hcall : s.calls[i]? = some call)
      (hpending : pending { call with stage := stage } = true → pending call = true)
      (hlaunch : ∀ j, a = .launch j → pending call = true) (hguard : s.Guarded a) :
      Moves s a (s.setCall i call stage)
  /-- The manager or another call does something; no child comes to life. -/
  | other {a : FormatAction} {s' : FormatNode} (hcalls : s'.calls = s.calls)
      (halive : s'.childAlive = true → s.childAlive = true) (hlaunch : ∀ j, a ≠ .launch j)
      (hguard : s.Guarded a) : Moves s a s'

theorem pending_resolvedStage (call : FormatCall) (dataFilePath : String)
    (hstage : call.stage = checked) :
    pending { call with stage := resolvedStage dataFilePath } = true → pending call = true := by
  intro _
  rw [pending, hstage]

theorem not_pending_respondedStage (call : FormatCall) (dataFilePath : String)
    (output : Except String CommandOutput) :
    ¬ pending { call with stage := respondedStage call.req dataFilePath output } = true := by
  cases output <;> exact Bool.false_ne_true

theorem runStep_moves {s s' : FormatNode} {a : FormatAction} (h : s.runStep a = some s') :
    Moves s a s' := by
  cases a with
  | spawn =>
      simp only [runStep] at h
      split_ifs at h
      cases h
      exact .spawn
  | spawnFails =>
      simp only [runStep] at h
      split_ifs at h
      cases h
      exact .other rfl id (fun _ => nofun) trivial
  | setProcessRunning =>
      simp only [runStep] at h
      split_ifs at h
      cases h
      exact .other rfl id (fun _ => nofun) trivial
  | childExit =>
      simp only [runStep] at h
      split_ifs at h with halive
      cases h
      exact .other rfl (fun _ => halive) (fun _ => nofun) trivial
  | childWait =>
      simp only [runStep] at h
      split_ifs at h
      cases h
      exact .other rfl id (fun _ => nofun) trivial
  | shutdown =>
      simp only [runStep] at h
      split_ifs at h
      cases h
      exact .other rfl nofun (fun _ => nofun) trivial
  | modifyBackupFile backupFile => cases h
  | formatDataFile req => cases h
  | resolve i => cases h
  | launch i => cases h
  | respond i output => cases h

theorem callStep_moves {s s' : FormatNode} {a : FormatAction} (h : s.callStep a = some s') :
    Moves s a s' := by
  cases a with
  | modifyBackupFile backupFile =>
      cases h
      exact .other rfl id (fun _ => nofun) trivial
  | formatDataFile req =>
      cases h
      exact .check req
  | resolve i =>
      simp only [callStep] at h
      split at h
      · next call hcall =>
          split at h
          · next hstage =>
              cases h
              exact .moveOn i call _ hcall (pending_resolvedStage call _ hstage) (fun _ => nofun)
                trivial
          · cases h
      · cases h
  | launch i =>
      simp only [callStep] at h
      split at h
      · next call hcall =>
          split at h
          · next dataFilePath hstage =>
              have hpending : pending call = true := by rw [pending, hstage]
              cases h
              exact .moveOn i call _ hcall (fun _ => hpending) (fun _ _ => hpending) trivial
          · cases h
      · cases h
  | respond i output =>
      simp only [callStep] at h
      split at h
      · next call hcall =>
          split at h
          · next dataFilePath hstage =>
              cases h
              exact .moveOn i call _ hcall
                (fun h => absurd h (not_pending_respondedStage call dataFilePath output))
                (fun _ => nofun) trivial
          · cases h
      · cases h
  | spawn => cases h
  | spawnFails => cases h
  | setProcessRunning => cases h
  | childExit => cases h
  | childWait => cases h
  | shutdown => cases h

theorem step_moves {s s' : FormatNode} {a : FormatAction} (h : step s a = some s') :
    Moves s a s' := by
  rw [step] at h
  split_ifs at h
  rcases Option.or_eq_some_iff.1 h with hrun | ⟨_, hcall⟩
  · exact runStep_moves hrun
  · exact callStep_moves hcall

/-! ## When no command is launched beside a child -/

theorem nonePending_step_iff {s s' : FormatNode} {a : FormatAction} (hs : s.NonePending)
    (h : step s a = some s') : s'.NonePending ↔ s.Guarded a := by
  cases step_moves h with
  | spawn => exact ⟨fun hnone => hnone rfl, fun hnone _ => hnone⟩
  | check req =>
      by_cases hrunning : s.processRunning
      · refine iff_of_true ?_ fun _ => hrunning
        intro halive call hcall
        rw [addCall, if_pos hrunning, List.mem_append, List.mem_singleton] at hcall
        rcases hcall with hold | rfl
        · exact hs halive call hold
        · rfl
      · rw [if_neg hrunning]
        constructor
        · intro hnone halive
          have hnew := hnone halive ⟨req, checked⟩ (List.mem_append_right _ (List.mem_singleton_self _))
          cases hnew
        · intro hguard halive
          exact absurd (hguard halive) hrunning
  | moveOn i call stage hcall hpending hlaunch hguard =>
      refine iff_of_true ?_ hguard
      intro halive other hmem
      have hidle := hs halive call (List.mem_of_getElem? hcall)
      rcases List.mem_or_eq_of_mem_set hmem with hold | rfl
      · exact hs halive other hold
      · exact Bool.eq_false_iff.2 fun h => by simp [hpending h] at hidle
  | other hcalls halive hlaunch hguard =>
      refine iff_of_true ?_ hguard
      intro hs'
      rw [hcalls]
      exact hs (halive hs')

/-- A launch that is possible comes from a pending call. -/
theorem launch_stopped {s s' : FormatNode} {a : FormatAction} (hs : s.NonePending)
    (h : step s a = some s') : s.LaunchesStopped a := by
  rintro i rfl
  cases step_moves h with
  | moveOn j call stage hcall hpending hlaunch hguard =>
      have hcalls := fun halive => hs halive call (List.mem_of_getElem? hcall)
      by_contra halive
      have hidle := hcalls (Bool.not_eq_false _ ▸ halive)
      rw [hlaunch i rfl] at hidle
      cases hidle
  | other hcalls halive hlaunch hguard => exact absurd rfl (hlaunch i)

/-- In every run the calls stay away from a living child exactly when its steps are guarded, and
then no format command is launched while the child is alive. -/
theorem formats_stopped (exe backupFile : String) {actions : List FormatAction} {s : FormatNode}
    (hrun : runFrom step (initial exe backupFile) actions = some s) :
    (Throughout step NonePending (initial exe backupFile) actions ↔
      StepsMeet step Guarded (initial exe backupFile) actions) ∧
    (StepsMeet step Guarded (initial exe backupFile) actions →
      StepsMeet step LaunchesStopped (initial exe backupFile) actions) := by
  have hiff : Throughout step NonePending (initial exe backupFile) actions ↔
      StepsMeet step Guarded (initial exe backupFile) actions :=
    throughout_iff_stepsMeet (I := fun _ => True) (fun _ _ _ _ _ => trivial)
      (fun _ _ _ _ hs h => nonePending_step_iff hs h) trivial (fun h => nomatch h) hrun
  refine ⟨hiff, ?_⟩
  intro hguarded before a after s₁ hactions hbefore
  have hs₁ := hiff.2 hguarded before (a :: after) s₁ hactions hbefore
  rw [hactions, runFrom_append, hbefore, Option.bind_some] at hrun
  obtain ⟨s₂, ha, _⟩ := runFrom_cons hrun
  exact launch_stopped hs₁ ha

def formatRequest : FormatDataFileRequest := ⟨0, 0, 1, "", ""⟩

/-- The call looks at the flag before the manager spawns the child. -/
def checkedBeforeSpawn : List FormatAction :=
  [.formatDataFile formatRequest, .spawn, .setProcessRunning, .resolve 0, .launch 0]

/-- The call looks at the flag between the spawn and the setting of the flag. -/
def checkedBeforeFlag : List FormatAction :=
  [.spawn, .formatDataFile formatRequest, .resolve 0, .setProcessRunning, .launch 0]

theorem formats_stopped_checkedBeforeSpawn :
    ∃ s, runFrom step (initial "tigerbeetle" "0_0.tigerbeetle") checkedBeforeSpawn = some s ∧
      (Throughout step NonePending (initial "tigerbeetle" "0_0.tigerbeetle") checkedBeforeSpawn ↔
        StepsMeet step Guarded (initial "tigerbeetle" "0_0.tigerbeetle") checkedBeforeSpawn) ∧
      (StepsMeet step Guarded (initial "tigerbeetle" "0_0.tigerbeetle") checkedBeforeSpawn →
        StepsMeet step LaunchesStopped (initial "tigerbeetle" "0_0.tigerbeetle")
          checkedBeforeSpawn) :=
  have hrun : runFrom step (initial "tigerbeetle" "0_0.tigerbeetle") checkedBeforeSpawn = some _ :=
    rfl
  ⟨_, hrun, formats_stopped "tigerbeetle" "0_0.tigerbeetle" hrun⟩

theorem formats_beside_child :
    (∃ s, runFrom step (initial "tigerbeetle" "0_0.tigerbeetle") checkedBeforeSpawn = some s ∧
      ¬ StepsMeet step LaunchesStopped (initial "tigerbeetle" "0_0.tigerbeetle")
        checkedBeforeSpawn) ∧
    ∃ s, runFrom step (initial "tigerbeetle" "0_0.tigerbeetle") checkedBeforeFlag = some s ∧
      ¬ StepsMeet step LaunchesStopped (initial "tigerbeetle" "0_0.tigerbeetle")
        checkedBeforeFlag := by
  constructor
  · refine ⟨_, rfl, ?_⟩
    intro h
    have hdead := h (checkedBeforeSpawn.take 4) (.launch 0) [] _ rfl rfl 0 rfl
    cases hdead
  · refine ⟨_, rfl, ?_⟩
    intro h
    have hdead := h (checkedBeforeFlag.take 4) (.launch 0) [] _ rfl rfl 0 rfl
    cases hdead

end FormatNode

end TbManager
