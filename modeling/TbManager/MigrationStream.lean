import TbManager.ImportPhases
import TbManager.Migration
import TbManager.Runs

/-!
# The stream of a migration

A call spawns a task that imports the plan and returns the stream that reports on
it. The task sends its progress over a bounded channel and at its end a text over
a one-shot channel, empty for success; the stream forwards the progress until the
channel closes and then waits for the text. A task that dies sends no text, and
the stream takes the empty one for it.
-/

namespace TbManager

structure MigrationProgress where
  phase : String
  imported : U64
  total : U64
  done : Bool
  error : String
  deriving DecidableEq, Repr

/-- How `Importer::connect` fails. -/
inductive ConnectFailure where
  | newClient (e : String)
  | probeRejected (e : String)
  | probeTimeout
  deriving DecidableEq, Repr

def ConnectFailure.error : ConnectFailure → CompressorError
  | newClient e => .client ("failed to connect: " ++ e)
  | probeRejected e => .client ("target cluster rejected probe request: " ++ e)
  | probeTimeout => .client "connection to target cluster timed out after 30s"

inductive TaskStage where
  | connecting
  /-- Before the request of the first batch left; the import returns if there is none. -/
  | importing (left : List Batch)
  /-- The target has handled the request and the task has not taken the reply. -/
  | replied (batch : Batch) (reply : Reply) (left : List Batch)
  /-- In `tx.send` after an accepted batch. -/
  | reporting (progress : ImportProgress) (left : List Batch)
  /-- Before `error_tx.send`. -/
  | returning (error : String)
  | ended
  /-- It panicked or was dropped. -/
  | died
  deriving DecidableEq, Repr

def TaskStage.Over (t : TaskStage) : Prop := t = ended ∨ t = died

instance (t : TaskStage) : Decidable t.Over := inferInstanceAs (Decidable (_ ∨ _))

inductive StreamStage where
  | reading
  /-- The progress channel is closed; in `error_rx.await`. -/
  | awaiting
  | ended
  /-- The client has gone. -/
  | dropped
  deriving DecidableEq, Repr

structure Migration where
  plan : BalancePlan
  task : TaskStage
  /-- The task still owns the sender of the progress channel. -/
  progressTx : Bool
  /-- The task still owns the sender of the one-shot channel. -/
  errorTx : Bool
  progressChannel : List ImportProgress
  errorSlot : Option String
  stream : StreamStage
  /-- The messages the client has received. -/
  yielded : List MigrationProgress
  /-- The batches the target has accepted. -/
  accepted : List Batch

inductive MigrationAction where
  | connect (failure : Option ConnectFailure)
  | submit (reply : Reply)
  | takeReply
  | sendProgress
  /-- `import_all_with_progress` returns `Ok`. -/
  | finishImport
  | sendError
  | die
  | dropProgressTx
  | dropErrorTx
  | recv
  | recvError
  | dropStream
  deriving DecidableEq, Repr

namespace Migration

open TaskStage StreamStage

def channelCapacity : ℕ := 32

def spawn (plan : BalancePlan) : Migration where
  plan := plan
  task := connecting
  progressTx := true
  errorTx := true
  progressChannel := []
  errorSlot := none
  stream := reading
  yielded := []
  accepted := []

inductive Spawned : Migration → Prop
  | executeMigration {prof : Profile} {orders : HashOrders} {file : FileReads} {cutoffTs : U64}
      {accountsOnly : Bool} {plan : BalancePlan}
      (h : BalancePlan.executeMigrationPlan prof orders file cutoffTs accountsOnly =
        some (.ok plan)) : Spawned (spawn plan)
  | importCsvTransfers {prof : Profile} {ord : IterOrder TransferKey U128}
      {transfers : List Transfer} {cutoffTs : U64} {plan : BalancePlan}
      (h : BalancePlan.buildPlanFromCsv prof ord transfers cutoffTs = some plan) :
      Spawned (spawn plan)

def progressMessage (p : ImportProgress) : MigrationProgress :=
  ⟨p.phase, p.imported, p.total, false, ""⟩

def finalMessage (error : String) : MigrationProgress := ⟨"done", 0, 0, true, error⟩

def finish (s : Migration) (error : String) : Migration :=
  { s with stream := .ended, yielded := s.yielded ++ [finalMessage error] }

def step (s : Migration) : MigrationAction → Option Migration
  | .connect failure =>
    match s.task with
    | connecting =>
      match failure with
      | none => some { s with task := importing s.plan.batches }
      | some f => some { s with task := returning f.error.message }
    | _ => none
  | .submit reply =>
    match s.task with
    | importing (batch :: left) =>
      let accepted := if batch.request.failure reply = none then [batch] else []
      some { s with task := replied batch reply left, accepted := s.accepted ++ accepted }
    | _ => none
  | .takeReply =>
    match s.task with
    | replied batch reply left =>
      match batch.request.failure reply with
      | none => some { s with task := reporting batch.progress left }
      | some e => some { s with task := returning e.message, progressTx := false }
    | _ => none
  | .sendProgress =>
    match s.task with
    | reporting progress left =>
      -- without a receiver the result of the send is ignored
      if s.stream = dropped then some { s with task := importing left }
      else if s.progressChannel.length < channelCapacity then
        some { s with
          task := importing left
          progressChannel := s.progressChannel ++ [progress] }
      else none
    | _ => none
  | .finishImport =>
    match s.task with
    | importing [] => some { s with task := returning "", progressTx := false }
    | _ => none
  | .sendError =>
    match s.task with
    | returning error =>
      some { s with
        task := .ended
        errorTx := false
        errorSlot := if s.stream = dropped then none else some error }
    | _ => none
  | .die => if s.task.Over then none else some { s with task := died }
  | .dropProgressTx => if s.task.Over then some { s with progressTx := false } else none
  | .dropErrorTx => if s.task.Over then some { s with errorTx := false } else none
  | .recv =>
    match s.stream, s.progressChannel with
    | reading, p :: rest =>
      some { s with progressChannel := rest, yielded := s.yielded ++ [progressMessage p] }
    | reading, [] => if s.progressTx then none else some { s with stream := awaiting }
    | _, _ => none
  | .recvError =>
    match s.stream, s.errorSlot with
    | awaiting, some error => some (s.finish error)
    -- `unwrap_or_default`
    | awaiting, none => if s.errorTx then none else some (s.finish "")
    | _, _ => none
  | .dropStream => some { s with stream := dropped, progressChannel := [] }

/-! ## What a step does -/

inductive Moves (s : Migration) : MigrationAction → Migration → Prop
  | connected (h : s.task = connecting) :
      Moves s (.connect none) { s with task := importing s.plan.batches }
  | notConnected (f : ConnectFailure) (h : s.task = connecting) :
      Moves s (.connect (some f)) { s with task := returning f.error.message }
  | accepted (batch : Batch) (reply : Reply) (left : List Batch)
      (h : s.task = importing (batch :: left)) (hreply : batch.request.failure reply = none) :
      Moves s (.submit reply)
        { s with task := replied batch reply left, accepted := s.accepted ++ [batch] }
  | refused (batch : Batch) (reply : Reply) (left : List Batch)
      (h : s.task = importing (batch :: left)) (hreply : batch.request.failure reply ≠ none) :
      Moves s (.submit reply) { s with task := replied batch reply left }
  | goOn (batch : Batch) (reply : Reply) (left : List Batch)
      (h : s.task = replied batch reply left) (hreply : batch.request.failure reply = none) :
      Moves s .takeReply { s with task := reporting batch.progress left }
  | giveUp (batch : Batch) (reply : Reply) (left : List Batch) (e : CompressorError)
      (h : s.task = replied batch reply left) (hreply : batch.request.failure reply = some e) :
      Moves s .takeReply { s with task := returning e.message, progressTx := false }
  | reported (progress : ImportProgress) (left : List Batch) (channel : List ImportProgress)
      (h : s.task = reporting progress left) :
      Moves s .sendProgress { s with task := importing left, progressChannel := channel }
  | imported (h : s.task = importing []) :
      Moves s .finishImport { s with task := returning "", progressTx := false }
  | answered (error : String) (h : s.task = returning error) :
      Moves s .sendError { s with
        task := .ended
        errorTx := false
        errorSlot := if s.stream = dropped then none else some error }
  | died (h : ¬ s.task.Over) : Moves s .die { s with task := .died }
  | droppedProgressTx (h : s.task.Over) :
      Moves s .dropProgressTx { s with progressTx := false }
  | droppedErrorTx (h : s.task.Over) :
      Moves s .dropErrorTx { s with errorTx := false }
  | forwarded (p : ImportProgress) (rest : List ImportProgress) (h : s.stream = reading) :
      Moves s .recv
        { s with progressChannel := rest, yielded := s.yielded ++ [progressMessage p] }
  | closed (h : s.stream = reading) : Moves s .recv { s with stream := awaiting }
  | finished (error : String) (h : s.stream = awaiting) (hslot : s.errorSlot = some error) :
      Moves s .recvError (s.finish error)
  | defaulted (h : s.stream = awaiting) (hslot : s.errorSlot = none) (htx : s.errorTx = false) :
      Moves s .recvError (s.finish "")
  | clientGone : Moves s .dropStream { s with stream := dropped, progressChannel := [] }

theorem step_moves {s s' : Migration} {a : MigrationAction} (h : step s a = some s') :
    Moves s a s' := by
  cases a with
  | connect failure =>
      simp only [step] at h
      split at h
      · next htask =>
          cases failure with
          | none =>
              cases h
              exact .connected htask
          | some f =>
              cases h
              exact .notConnected f htask
      · cases h
  | submit reply =>
      simp only [step] at h
      split at h
      · next batch left htask =>
          by_cases hreply : batch.request.failure reply = none
          · simp only [if_pos hreply, Option.some.injEq] at h
            subst h
            exact .accepted batch reply left htask hreply
          · simp only [if_neg hreply, List.append_nil, Option.some.injEq] at h
            subst h
            exact .refused batch reply left htask hreply
      · cases h
  | takeReply =>
      simp only [step] at h
      split at h
      · next batch reply left htask =>
          split at h
          · next hreply =>
              cases h
              exact .goOn batch reply left htask hreply
          · next e hreply =>
              cases h
              exact .giveUp batch reply left e htask hreply
      · cases h
  | sendProgress =>
      simp only [step] at h
      split at h
      · next progress left htask =>
          split_ifs at h
          · cases h
            exact .reported progress left s.progressChannel htask
          · cases h
            exact .reported progress left _ htask
      · cases h
  | finishImport =>
      simp only [step] at h
      split at h
      · next htask =>
          cases h
          exact .imported htask
      · cases h
  | sendError =>
      simp only [step] at h
      split at h
      · next error htask =>
          cases h
          exact .answered error htask
      · cases h
  | die =>
      simp only [step] at h
      split_ifs at h with hover
      cases h
      exact .died hover
  | dropProgressTx =>
      simp only [step] at h
      split_ifs at h with hover
      cases h
      exact .droppedProgressTx hover
  | dropErrorTx =>
      simp only [step] at h
      split_ifs at h with hover
      cases h
      exact .droppedErrorTx hover
  | recv =>
      simp only [step] at h
      split at h
      · next p rest hstream hchannel =>
          cases h
          exact .forwarded p rest hstream
      · next hstream hchannel =>
          split_ifs at h
          cases h
          exact .closed hstream
      · cases h
  | recvError =>
      simp only [step] at h
      split at h
      · next error hstream hslot =>
          cases h
          exact .finished error hstream hslot
      · next hstream hslot =>
          split_ifs at h with htx
          cases h
          exact .defaulted hstream hslot (Bool.eq_false_iff.2 htx)
      · cases h
  | dropStream =>
      cases h
      exact .clientGone

/-! ## What the text of the task means -/

def left (s : Migration) : Option (List Batch) :=
  match s.task with
  | connecting => some s.plan.batches
  | importing left => some left
  | reporting _ left => some left
  | _ => none

/-- Every batch of every phase was submitted and accepted. -/
def Complete (s : Migration) : Prop := s.accepted = s.plan.batches

structure Inv (s : Migration) : Prop where
  /-- While the import goes on, the accepted batches are the ones before those left. -/
  left : ∀ l, s.left = some l → s.accepted ++ l = s.plan.batches
  replied : ∀ batch reply l, s.task = replied batch reply l →
    batch.request.failure reply = none → s.accepted ++ l = s.plan.batches
  /-- Only a complete import returns the empty text. -/
  returning : s.task = returning "" → s.Complete
  working : ¬ s.task.Over → s.errorSlot = none ∧ s.errorTx = true
  slot : ∀ error, s.errorSlot = some error → s.task = .ended ∧ (error = "" → s.Complete)
  /-- A task that has ended has sent its text, unless there was no reader. -/
  ended : s.task = .ended → s.stream ≠ dropped → s.errorSlot ≠ none

theorem spawn_inv (plan : BalancePlan) : (spawn plan).Inv where
  left := by
    intro l hl
    cases hl
    rfl
  replied := by simp [spawn]
  returning := by simp [spawn]
  working := by simp [spawn]
  slot := by simp [spawn]
  ended := by simp [spawn]

theorem Inv.work {s s' : Migration} (hi : s.Inv) (hwork : ¬ s.task.Over) (hwork' : ¬ s'.task.Over)
    (hslot : s'.errorSlot = s.errorSlot) (htx : s'.errorTx = s.errorTx)
    (hleft : ∀ l, s'.left = some l → s'.accepted ++ l = s'.plan.batches)
    (hreplied : ∀ batch reply l, s'.task = .replied batch reply l →
      batch.request.failure reply = none → s'.accepted ++ l = s'.plan.batches)
    (hreturning : s'.task = .returning "" → s'.Complete) : s'.Inv where
  left := hleft
  replied := hreplied
  returning := hreturning
  working := by
    intro _
    rw [hslot, htx]
    exact hi.working hwork
  slot := by
    intro error he
    rw [hslot, (hi.working hwork).1] at he
    cases he
  ended := fun hended => absurd (Or.inl hended) hwork'

theorem Inv.read {s s' : Migration} (hi : s.Inv) (hstream : s.stream ≠ dropped)
    (hleft : s'.left = s.left) (hplan : s'.plan = s.plan) (hacc : s'.accepted = s.accepted)
    (htask : s'.task = s.task) (hslot : s'.errorSlot = s.errorSlot)
    (htx : s'.errorTx = s.errorTx) : s'.Inv where
  left := by
    rw [hleft, hplan, hacc]
    exact hi.left
  replied := by
    rw [htask, hplan, hacc]
    exact hi.replied
  returning := by
    rw [htask, Complete, hplan, hacc]
    exact hi.returning
  working := by
    rw [htask, hslot, htx]
    exact hi.working
  slot := by
    rw [htask, hslot, Complete, hplan, hacc]
    exact hi.slot
  ended := by
    intro hended _
    rw [hslot]
    exact hi.ended (htask ▸ hended) hstream

theorem step_inv {s s' : Migration} {a : MigrationAction} (hi : s.Inv)
    (h : step s a = some s') : s'.Inv := by
  cases step_moves h with
  | connected htask =>
      refine hi.work (by simp [htask, TaskStage.Over]) (by simp [TaskStage.Over]) rfl rfl ?_ ?_ ?_
      · intro l hl
        cases hl
        exact hi.left _ (by rw [Migration.left, htask])
      · simp
      · simp
  | notConnected f htask =>
      refine hi.work (by simp [htask, TaskStage.Over]) (by simp [TaskStage.Over]) rfl rfl ?_ ?_ ?_
      · simp [Migration.left]
      · simp
      · simp [CompressorError.message_ne_empty]
  | accepted batch reply left htask hreply =>
      refine hi.work (by simp [htask, TaskStage.Over]) (by simp [TaskStage.Over]) rfl rfl ?_ ?_ ?_
      · simp [Migration.left]
      · intro batch' reply' l htask' _
        cases htask'
        rw [List.append_assoc]
        exact hi.left _ (by rw [Migration.left, htask]; rfl)
      · simp
  | refused batch reply left htask hreply =>
      refine hi.work (by simp [htask, TaskStage.Over]) (by simp [TaskStage.Over]) rfl rfl ?_ ?_ ?_
      · simp [Migration.left]
      · intro batch' reply' l htask' hreply'
        cases htask'
        exact absurd hreply' hreply
      · simp
  | goOn batch reply left htask hreply =>
      refine hi.work (by simp [htask, TaskStage.Over]) (by simp [TaskStage.Over]) rfl rfl ?_ ?_ ?_
      · intro l hl
        cases hl
        exact hi.replied batch reply left htask hreply
      · simp
      · simp
  | giveUp batch reply left e htask hreply =>
      refine hi.work (by simp [htask, TaskStage.Over]) (by simp [TaskStage.Over]) rfl rfl ?_ ?_ ?_
      · simp [Migration.left]
      · simp
      · simp [CompressorError.message_ne_empty]
  | reported progress left channel htask =>
      refine hi.work (by simp [htask, TaskStage.Over]) (by simp [TaskStage.Over]) rfl rfl ?_ ?_ ?_
      · intro l hl
        cases hl
        exact hi.left left (by rw [Migration.left, htask])
      · simp
      · simp
  | imported htask =>
      refine hi.work (by simp [htask, TaskStage.Over]) (by simp [TaskStage.Over]) rfl rfl ?_ ?_ ?_
      · simp [Migration.left]
      · simp
      · intro _
        have hleft := hi.left [] (by rw [Migration.left, htask])
        rwa [List.append_nil] at hleft
  | answered error htask =>
      constructor
      · simp [Migration.left]
      · simp
      · simp
      · simp [TaskStage.Over]
      · intro error' he
        simp only [ite_eq_iff, reduceCtorEq, and_false, false_or, Option.some.injEq] at he
        refine ⟨rfl, ?_⟩
        rintro rfl
        exact hi.returning (he.2 ▸ htask)
      · intro _ hstream
        simp only [if_neg hstream]
        exact Option.some_ne_none error
  | died hover =>
      constructor
      · simp [Migration.left]
      · simp
      · simp
      · simp [TaskStage.Over]
      · intro error he
        rw [(hi.working hover).1] at he
        cases he
      · simp
  | droppedProgressTx hover =>
      exact ⟨hi.left, hi.replied, hi.returning, hi.working, hi.slot, hi.ended⟩
  | droppedErrorTx hover =>
      exact ⟨hi.left, hi.replied, hi.returning, fun hwork => absurd hover hwork, hi.slot, hi.ended⟩
  | forwarded p rest hstream => exact hi.read (by simp [hstream]) rfl rfl rfl rfl rfl rfl
  | closed hstream => exact hi.read (by simp [hstream]) rfl rfl rfl rfl rfl rfl
  | finished error hstream hslot => exact hi.read (by simp [hstream]) rfl rfl rfl rfl rfl rfl
  | defaulted hstream hslot htx => exact hi.read (by simp [hstream]) rfl rfl rfl rfl rfl rfl
  | clientGone =>
      exact ⟨hi.left, hi.replied, hi.returning, hi.working, hi.slot,
        fun _ hstream => absurd rfl hstream⟩

/-! ## Success is reported only on success -/

/-- A final message without an error stands for a complete import. -/
def Truthful (s : Migration) : Prop :=
  ∀ m ∈ s.yielded, m.done = true → m.error = "" → s.Complete

/-- The stream does not take its text from a task that died before its import was complete. -/
def Answered (s : Migration) : MigrationAction → Prop
  | .recvError => s.task = died → s.Complete
  | _ => True

theorem truthful_finish_iff {s : Migration} (ht : s.Truthful) (error : String) :
    (s.finish error).Truthful ↔ (error = "" → s.Complete) := by
  constructor
  · intro h
    exact h (finalMessage error) (List.mem_append_right _ (List.mem_singleton_self _)) rfl
  · intro h m hm hdone herror
    rcases List.mem_append.1 hm with hold | hfinal
    · exact ht m hold hdone herror
    · rw [List.mem_singleton.1 hfinal] at herror
      exact h herror

theorem truthful_step_iff {s s' : Migration} {a : MigrationAction} (hi : s.Inv)
    (ht : s.Truthful) (h : step s a = some s') : s'.Truthful ↔ Answered s a := by
  cases step_moves h with
  | connected htask => exact iff_of_true ht trivial
  | notConnected f htask => exact iff_of_true ht trivial
  | accepted batch reply left htask hreply =>
      refine iff_of_true ?_ trivial
      intro m hm hdone herror
      -- a batch was left, so the import was not complete before
      have hleft := hi.left (batch :: left) (by rw [Migration.left, htask])
      have hcomplete : s.accepted = s.plan.batches := ht m hm hdone herror
      rw [← hcomplete] at hleft
      simp at hleft
  | refused batch reply left htask hreply => exact iff_of_true ht trivial
  | goOn batch reply left htask hreply => exact iff_of_true ht trivial
  | giveUp batch reply left e htask hreply => exact iff_of_true ht trivial
  | reported progress left channel htask => exact iff_of_true ht trivial
  | imported htask => exact iff_of_true ht trivial
  | answered error htask => exact iff_of_true ht trivial
  | died hover => exact iff_of_true ht trivial
  | droppedProgressTx hover => exact iff_of_true ht trivial
  | droppedErrorTx hover => exact iff_of_true ht trivial
  | forwarded p rest hstream =>
      refine iff_of_true ?_ trivial
      intro m hm hdone herror
      rcases List.mem_append.1 hm with hold | hprogress
      · exact ht m hold hdone herror
      · rw [List.mem_singleton.1 hprogress] at hdone
        cases hdone
  | closed hstream => exact iff_of_true ht trivial
  | finished error hstream hslot =>
      obtain ⟨hended, hcomplete⟩ := hi.slot error hslot
      rw [truthful_finish_iff ht]
      refine iff_of_true hcomplete ?_
      intro hdied
      rw [hended] at hdied
      cases hdied
  | defaulted hstream hslot htx =>
      have hdied : s.task = died := by
        by_contra hdied
        by_cases hended : s.task = .ended
        · exact hi.ended hended (by simp [hstream]) hslot
        · have hworking := hi.working (by simp [TaskStage.Over, hended, hdied])
          rw [htx] at hworking
          cases hworking.2
      rw [truthful_finish_iff ht]
      constructor
      · intro hcomplete _
        exact hcomplete rfl
      · intro hcomplete _
        exact hcomplete hdied
  | clientGone => exact iff_of_true ht trivial

/-- In every run of the two calls a success stands for a complete import throughout exactly
when the stream never takes the end of a task that died before that for its text. -/
theorem truthful_iff {s s' : Migration} (hs : Spawned s) {actions : List MigrationAction}
    (hrun : runFrom step s actions = some s') :
    Throughout step Truthful s actions ↔ StepsMeet step Answered s actions := by
  have hstart : s.Inv ∧ s.Truthful := by
    cases hs with
    | executeMigration h => exact ⟨spawn_inv _, by simp [Truthful, spawn]⟩
    | importCsvTransfers h => exact ⟨spawn_inv _, by simp [Truthful, spawn]⟩
  exact throughout_iff_stepsMeet (fun _ _ _ hi h => step_inv hi h)
    (fun _ _ _ hi ht h => truthful_step_iff hi ht h) hstart.1 hstart.2 hrun

def csvPlan : BalancePlan where
  genesisAccounts := []
  regularAccounts := []
  syntheticTransfers := []
  windowedTransfers := [.moving 11 7 8 50 1 0 4]

theorem spawned_csvPlan : Spawned (spawn csvPlan) := by
  have hplan : BalancePlan.buildPlanFromCsv .release .stored [.moving 11 7 8 50 1 0 4] 0 =
      some csvPlan := rfl
  exact .importCsvTransfers hplan

def diesConnected : List MigrationAction :=
  [.connect none, .die, .dropProgressTx, .dropErrorTx, .recv, .recvError]

def diedConnected : Migration where
  plan := csvPlan
  task := died
  progressTx := false
  errorTx := false
  progressChannel := []
  errorSlot := none
  stream := .ended
  yielded := [finalMessage ""]
  accepted := []

theorem truthful_iff_diesConnected :
    Spawned (spawn csvPlan) ∧
    runFrom step (spawn csvPlan) diesConnected = some diedConnected ∧
    (Throughout step Truthful (spawn csvPlan) diesConnected ↔
      StepsMeet step Answered (spawn csvPlan) diesConnected) :=
  have hrun : runFrom step (spawn csvPlan) diesConnected = some diedConnected := rfl
  ⟨spawned_csvPlan, hrun, truthful_iff spawned_csvPlan hrun⟩

theorem diesConnected_untruthful :
    Spawned (spawn csvPlan) ∧
    runFrom step (spawn csvPlan) diesConnected = some diedConnected ∧
    ¬ Throughout step Truthful (spawn csvPlan) diesConnected := by
  refine ⟨spawned_csvPlan, rfl, ?_⟩
  intro h
  have htruthful : diedConnected.Truthful := h diesConnected [] diedConnected rfl rfl
  have hcomplete : ([] : List Batch) = csvPlan.batches :=
    htruthful (finalMessage "") (List.mem_singleton_self _) rfl rfl
  exact absurd hcomplete (by decide)

/-! ## A task that dies -/

/-- The stream of a dead task ends in a success. -/
theorem finalMessage_of_died {s : Migration} (hdied : s.task = died) (hslot : s.errorSlot = none)
    (hstream : s.stream = reading) : ∃ actions s', runFrom step s actions = some s' ∧
      finalMessage "" ∈ s'.yielded ∧ s'.accepted = s.accepted ∧ s'.plan = s.plan := by
  generalize hchannel : s.progressChannel = channel
  induction channel generalizing s with
  | nil =>
      refine ⟨[.dropProgressTx, .dropErrorTx, .recv, .recvError],
        { s with
          progressTx := false
          errorTx := false
          stream := .ended
          yielded := s.yielded ++ [finalMessage ""] }, ?_, ?_, rfl, rfl⟩
      · simp [runFrom, step, hdied, hslot, hstream, hchannel, TaskStage.Over, finish]
      · simp
  | cons p rest ih =>
      obtain ⟨actions, s', hrun, hfinal, hsame⟩ := ih
        (s := { s with progressChannel := rest, yielded := s.yielded ++ [progressMessage p] })
        hdied hslot hstream rfl
      have hrecv : step s .recv = some
          { s with progressChannel := rest, yielded := s.yielded ++ [progressMessage p] } := by
        simp [step, hstream, hchannel]
      refine ⟨.recv :: actions, s', ?_, hfinal, hsame⟩
      rw [runFrom, hrecv]
      exact hrun

/-- A client that reads on after the task has died in an incomplete import is told of a
success. -/
theorem untruthful_of_died {s : Migration} (hi : s.Inv) (hdied : s.task = died)
    (hstream : s.stream = reading) (hincomplete : ¬ s.Complete) :
    ∃ actions s', runFrom step s actions = some s' ∧ ¬ s'.Truthful := by
  have hslot : s.errorSlot = none := by
    rw [Option.eq_none_iff_forall_ne_some]
    intro error he
    have hended := (hi.slot error he).1
    rw [hdied] at hended
    cases hended
  obtain ⟨actions, s', hrun, hfinal, haccepted, hplan⟩ := finalMessage_of_died hdied hslot hstream
  refine ⟨actions, s', hrun, ?_⟩
  intro ht
  have hcomplete := ht _ hfinal rfl rfl
  rw [Complete, haccepted, hplan] at hcomplete
  exact hincomplete hcomplete

/-- A complete import has submitted every record of the plan once. -/
theorem Complete.events {s : Migration} (h : s.Complete) :
    s.accepted.flatMap (fun b => b.request.events) = s.plan.events := by
  rw [h]
  exact BalancePlan.batches_events s.plan

end Migration

end TbManager
