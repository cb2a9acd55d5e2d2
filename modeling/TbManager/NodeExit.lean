import TbManager.SchedulerState

/-!
# The end of a node

The loop of the manager waits for three things at once: a schedule on the watch channel, Ctrl-C
and the end of the child process. Ctrl-C and the end of the child, or a failure to wait for it,
stop the scheduler, and Ctrl-C kills the child. The sender of the schedules belongs to the gRPC
server; when that has ended, the loop breaks and leaves the scheduler and the child as they are.
The process of the node ends with the loop, or by a signal that nothing in it handles.
-/

namespace TbManager

structure NodeProcess where
  manager : ManagerLoop
  /-- The gRPC server owns the sender of the schedules. -/
  serving : Bool
  shutdown : Bool
  child : Bool
  /-- The loop has not broken. -/
  running : Bool
  deriving DecidableEq, Repr

inductive NodeAction where
  | call (a : ScheduleAction)
  | serverEnds
  | ctrlC
  /-- A signal other than Ctrl-C. -/
  | terminate
  | childExits
  | cronReady
  /-- The child has exited when `kill_and_wait` returns, or its errors were ignored. -/
  | shutdownReady (exited : Bool)
  /-- `child.wait()` returns a status or an error. -/
  | childReady (failed : Bool)
  deriving DecidableEq, Repr

/-- No failure to kill the child or to wait for it, and no end by a signal. -/
def NodeAction.Succeeds : NodeAction → Prop
  | .terminate => False
  | .shutdownReady exited => exited = true
  | .childReady failed => failed = false
  | _ => True

instance (a : NodeAction) : Decidable a.Succeeds := by
  cases a <;> unfold NodeAction.Succeeds <;> infer_instance

namespace NodeProcess

variable (accepts : String → Bool)

def initial (config : BackupConfig) (dataFile : Option String) : NodeProcess where
  manager := .initial accepts config dataFile
  serving := true
  shutdown := false
  child := true
  running := true

def stop (s : NodeProcess) (child : Bool) : NodeProcess :=
  { s with manager := { s.manager with scheduler := none }, child := child, running := false }

def step (s : NodeProcess) : NodeAction → Option NodeProcess
  | .call a =>
    if s.running ∧ s.serving then
      (s.manager.step accepts (.call a)).map fun m => { s with manager := m }
    else none
  | .serverEnds => if s.running then some { s with serving := false } else none
  | .ctrlC => if s.running then some { s with shutdown := true } else none
  -- the scheduler ends with its process, the child does not
  | .terminate => if s.running then some (s.stop s.child) else none
  | .childExits => if s.child then some { s with child := false } else none
  | .cronReady =>
    if s.running then
      match s.manager.step accepts .cronChanged with
      | some m => some { s with manager := m }
      -- without a new value the channel is ready when its sender is gone
      | none => if s.serving then none else some { s with running := false }
    else none
  | .shutdownReady exited =>
    if s.running ∧ s.shutdown then some (s.stop (s.child && !exited)) else none
  | .childReady failed =>
    if s.running ∧ (failed ∨ s.child = false) then some (s.stop s.child) else none

/-- The scheduler runs with the last schedule that was sent, if the parser accepts it. -/
def Follows (s : NodeProcess) : Prop :=
  s.manager.scheduler = s.manager.node.cronScheduleTx.bind (createScheduler accepts)

/-- The end of the node leaves a child behind. -/
def Orphans (s : NodeProcess) : Prop := s.running = false ∧ s.child = true

/-- A step that ends the node without killing its child finds it dead. -/
def Guarded (s : NodeProcess) : NodeAction → Prop
  | .cronReady => s.manager.changed = true ∨ s.serving = true ∨ s.child = false
  | .terminate => s.child = false
  | .shutdownReady exited => exited = true ∨ s.child = false
  | .childReady failed => failed = true → s.child = false
  | _ => True

inductive Moves (s : NodeProcess) : NodeAction → NodeProcess → Prop
  | called (a : ScheduleAction) (m : ManagerLoop) (hrunning : s.running = true)
      (h : s.manager.step accepts (.call a) = some m) : Moves s (.call a) { s with manager := m }
  | serverEnded (hrunning : s.running = true) : Moves s .serverEnds { s with serving := false }
  | interrupted (hrunning : s.running = true) : Moves s .ctrlC { s with shutdown := true }
  | terminated (hrunning : s.running = true) : Moves s .terminate (s.stop s.child)
  | childExited : Moves s .childExits { s with child := false }
  | rescheduled (hrunning : s.running = true) (hchanged : s.manager.changed = true) :
      Moves s .cronReady { s with manager := { s.manager with
        changed := false
        scheduler := s.manager.node.cronScheduleTx.bind (createScheduler accepts) } }
  | senderGone (hrunning : s.running = true) (hchanged : s.manager.changed = false)
      (hserving : s.serving = false) : Moves s .cronReady { s with running := false }
  | shutDown (hrunning : s.running = true) (exited : Bool) :
      Moves s (.shutdownReady exited) (s.stop (s.child && !exited))
  | waited (hrunning : s.running = true) (failed : Bool) (h : failed = true ∨ s.child = false) :
      Moves s (.childReady failed) (s.stop s.child)

variable {accepts} {s s' : NodeProcess} {a : NodeAction}

theorem step_moves (h : step accepts s a = some s') : Moves accepts s a s' := by
  cases a with
  | call a =>
      simp only [step] at h
      split_ifs at h with hserved
      obtain ⟨m, hm, rfl⟩ := Option.map_eq_some_iff.1 h
      exact .called a m hserved.1 hm
  | serverEnds =>
      simp only [step] at h
      split_ifs at h with hrunning
      cases h
      exact .serverEnded hrunning
  | ctrlC =>
      simp only [step] at h
      split_ifs at h with hrunning
      cases h
      exact .interrupted hrunning
  | terminate =>
      simp only [step] at h
      split_ifs at h with hrunning
      cases h
      exact .terminated hrunning
  | childExits =>
      simp only [step] at h
      split_ifs at h
      cases h
      exact .childExited
  | cronReady =>
      simp only [step, ManagerLoop.step] at h
      by_cases hrunning : s.running = true
      · rw [if_pos hrunning] at h
        by_cases hchanged : s.manager.changed = true
        · rw [if_pos hchanged] at h
          cases h
          exact .rescheduled hrunning hchanged
        · rw [if_neg hchanged] at h
          dsimp only at h
          split_ifs at h with hserving
          cases h
          exact .senderGone hrunning (Bool.eq_false_iff.2 hchanged) (Bool.eq_false_iff.2 hserving)
      · rw [if_neg hrunning] at h
        cases h
  | shutdownReady exited =>
      simp only [step] at h
      split_ifs at h with hshutdown
      cases h
      exact .shutDown hshutdown.1 exited
  | childReady failed =>
      simp only [step] at h
      split_ifs at h with hready
      cases h
      exact .waited hready.1 failed hready.2

theorem orphans_stop_iff {child : Bool} : ¬ (s.stop child).Orphans ↔ child = false :=
  ⟨fun hkept => Bool.eq_false_iff.2 fun hchild => hkept ⟨rfl, hchild⟩,
    fun hdead horphan => Bool.eq_false_iff.1 hdead horphan.2⟩

theorem orphans_step_iff (h : step accepts s a = some s') :
    ¬ s'.Orphans ↔ s.Guarded a := by
  have hrun (hrunning : s.running = true) {t : NodeProcess} (ht : t.running = s.running) :
      ¬ t.Orphans := by
    rintro ⟨hstopped, _⟩
    rw [ht, hrunning] at hstopped
    cases hstopped
  cases step_moves h with
  | called a m hrunning | serverEnded hrunning | interrupted hrunning =>
      exact iff_of_true (hrun hrunning rfl) trivial
  | childExited => exact iff_of_true (fun horphan => Bool.noConfusion horphan.2) trivial
  | rescheduled hrunning hchanged => exact iff_of_true (hrun hrunning rfl) (.inl hchanged)
  | senderGone hrunning hchanged hserving =>
      constructor
      · exact fun hkept => .inr (.inr (Bool.eq_false_iff.2 fun hchild => hkept ⟨rfl, hchild⟩))
      · rintro (hnew | hserved | hexited) ⟨_, hchild⟩
        · rw [hchanged] at hnew
          cases hnew
        · rw [hserving] at hserved
          cases hserved
        · exact Bool.eq_false_iff.1 hexited hchild
  | terminated => exact orphans_stop_iff
  | shutDown hrunning exited =>
      refine orphans_stop_iff.trans ?_
      change (s.child && !exited) = false ↔ exited = true ∨ s.child = false
      cases exited <;> simp
  | waited hrunning failed hready =>
      refine orphans_stop_iff.trans ⟨fun hdead _ => hdead, fun hdead => ?_⟩
      exact hready.elim hdead id

/-- In every run the node leaves no child behind exactly when, while the child lives, no signal other
than Ctrl-C ends the node, the child is killed and waited for without failure, and the loop does
not break over a server that has ended. -/
theorem orphans_iff {config : BackupConfig} {dataFile : Option String} {actions : List NodeAction}
    (hrun : runFrom (step accepts) (initial accepts config dataFile) actions = some s) :
    Throughout (step accepts) (fun t => ¬ t.Orphans) (initial accepts config dataFile) actions ↔
      StepsMeet (step accepts) Guarded (initial accepts config dataFile) actions :=
  throughout_iff_stepsMeet (I := fun _ => True) (fun _ _ _ _ _ => trivial)
    (fun _ _ _ _ _ h => orphans_step_iff h) trivial
    (fun horphan => Bool.noConfusion horphan.1) hrun

def serverFails : List NodeAction := [.serverEnds, .cronReady]

theorem orphans_iff_serverFails :
    runFrom (step fun _ => true) (initial (fun _ => true) NodeSchedule.emptyConfig none)
        serverFails =
      some { initial (fun _ => true) NodeSchedule.emptyConfig none with
        serving := false
        running := false } ∧
    ¬ Throughout (step fun _ => true) (fun t => ¬ t.Orphans)
      (initial (fun _ => true) NodeSchedule.emptyConfig none) serverFails := by
  have hrun : runFrom (step fun _ => true) (initial (fun _ => true) NodeSchedule.emptyConfig none)
      serverFails = some { initial (fun _ => true) NodeSchedule.emptyConfig none with
        serving := false
        running := false } := rfl
  refine ⟨hrun, fun hkept => ?_⟩
  have hguarded := (orphans_iff hrun).1 hkept [.serverEnds] .cronReady []
    { initial (fun _ => true) NodeSchedule.emptyConfig none with serving := false } rfl rfl
  revert hguarded
  simp only [Guarded]
  decide

/-- How the node stands: while the loop runs its scheduler follows what it has seen; when the loop
has broken, all was stopped or the server had ended and nothing was. -/
structure Inv (accepts : String → Bool) (s : NodeProcess) : Prop where
  running : s.running = true → s.manager.changed = false → s.Follows accepts
  broken : s.running = false → s.manager.scheduler = none ∧ s.child = false ∨
    s.serving = false ∧ s.manager.changed = false ∧ s.Follows accepts

/-- A call without a new value on the channel changes nothing that the loop sees. -/
theorem call_unseen {m m' : ManagerLoop} {a : ScheduleAction}
    (h : m.step accepts (.call a) = some m') (hseen : m'.changed = false) :
    m.changed = false ∧ m'.scheduler = m.scheduler ∧
      m'.node.cronScheduleTx = m.node.cronScheduleTx := by
  obtain ⟨n, hn, rfl⟩ := Option.map_eq_some_iff.1 h
  simp only [Bool.or_eq_false_iff] at hseen
  refine ⟨hseen.1, rfl, ?_⟩
  cases a with
  | startBackup cronSchedule =>
      rw [NodeSchedule.step, Option.some.injEq] at hn
      rw [← hn]
      split_ifs <;> rfl
  | stopBackup =>
      rw [NodeSchedule.step, Option.some.injEq] at hn
      rw [← hn]
      rfl
  | persist i =>
      simp only [NodeSchedule.step] at hn
      split at hn
      · split_ifs at hn
        cases hn
        rfl
      · cases hn
  | send i => exact Bool.noConfusion hseen.2

theorem initial_inv (accepts : String → Bool) (config : BackupConfig) (dataFile : Option String) :
    Inv accepts (initial accepts config dataFile) :=
  ⟨fun _ _ => rfl, fun hbroken => Bool.noConfusion hbroken⟩

theorem step_inv (hi : Inv accepts s) (ha : a.Succeeds) (h : step accepts s a = some s') :
    Inv accepts s' := by
  cases step_moves h with
  | called a m hrunning hcall =>
      refine ⟨fun _ hseen => ?_, fun hbroken => ?_⟩
      · obtain ⟨hchanged, hscheduler, hsent⟩ := call_unseen hcall hseen
        have hfollows := hi.running hrunning hchanged
        simp only [Follows] at hfollows ⊢
        rw [hscheduler, hsent, hfollows]
      · rw [show s.running = false from hbroken] at hrunning
        cases hrunning
  | serverEnded hrunning | interrupted hrunning =>
      refine ⟨hi.running, fun hbroken => ?_⟩
      rw [show s.running = false from hbroken] at hrunning
      cases hrunning
  | childExited =>
      refine ⟨hi.running, fun hbroken => ?_⟩
      rcases hi.broken hbroken with ⟨hscheduler, _⟩ | hleft
      · exact .inl ⟨hscheduler, rfl⟩
      · exact .inr hleft
  | rescheduled hrunning hchanged =>
      refine ⟨fun _ _ => rfl, fun hbroken => ?_⟩
      rw [show s.running = false from hbroken] at hrunning
      cases hrunning
  | senderGone hrunning hchanged hserving =>
      exact ⟨fun hrun => Bool.noConfusion hrun,
        fun _ => .inr ⟨hserving, hchanged, hi.running hrunning hchanged⟩⟩
  | terminated => exact ha.elim
  | shutDown hrunning exited =>
      refine ⟨fun hrun => Bool.noConfusion hrun, fun _ => .inl ⟨rfl, ?_⟩⟩
      rw [show exited = true from ha]
      exact Bool.and_false s.child
  | waited hrunning failed hready =>
      refine ⟨fun hrun => Bool.noConfusion hrun, fun _ => .inl ⟨rfl, ?_⟩⟩
      exact hready.resolve_left (Bool.eq_false_iff.1 ha)

/-- In every run that no signal other than Ctrl-C ends and in which the child is killed and waited
for without failure: while the loop runs and has seen the last schedule, its scheduler runs with
that, if the parser accepts it; when the loop has broken, the scheduler is stopped and the child
dead, or the server had ended and the scheduler of the last schedule was left. -/
theorem node_inv {config : BackupConfig} {dataFile : Option String} {actions : List NodeAction}
    (hsucceeds : ∀ a ∈ actions, a.Succeeds)
    (hrun : runFrom (step accepts) (initial accepts config dataFile) actions = some s) :
    Inv accepts s := by
  have hclean : StepsMeet (step accepts) (fun _ => NodeAction.Succeeds)
      (initial accepts config dataFile) actions := stepsMeet_of_forall hsucceeds
  have hstep : ∀ s a s', Inv accepts s → a.Succeeds → step accepts s a = some s' →
      Inv accepts s' := fun s a s' hi ha h => step_inv hi ha h
  exact invariant_of_stepsMeet hstep (initial_inv accepts config dataFile) hclean hrun

def stoppedUnseen : List NodeAction :=
  [.call (.startBackup "0 0 3 * * *"), .call (.persist 0), .call (.send 0), .ctrlC,
    .shutdownReady true]

def stoppedNode : NodeProcess :=
  (runFrom (step fun _ => true) (initial (fun _ => true) NodeSchedule.emptyConfig none)
    stoppedUnseen).getD (initial (fun _ => true) NodeSchedule.emptyConfig none)

theorem node_inv_stoppedUnseen :
    runFrom (step fun _ => true) (initial (fun _ => true) NodeSchedule.emptyConfig none)
        stoppedUnseen = some stoppedNode ∧
      Inv (fun _ => true) stoppedNode := by
  have hrun : runFrom (step fun _ => true) (initial (fun _ => true) NodeSchedule.emptyConfig none)
      stoppedUnseen = some stoppedNode := by decide +kernel
  exact ⟨hrun, node_inv (by decide) hrun⟩

end NodeProcess

end TbManager
