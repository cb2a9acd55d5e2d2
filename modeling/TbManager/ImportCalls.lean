import TbManager.ImportRun

/-!
# Importing in two calls

Besides `import_all_with_progress` the importer has a call for the accounts of a plan and one for
its transfers, which the documentation of the crate uses one after the other. They submit the
batches of the first three phases. The window of a plan is not submitted, and neither call fails.
-/

namespace TbManager

/-- A call of the importer: what has been submitted before and after it, and its result. -/
abbrev ImportCall := List Request → List Request × Except CompressorError Unit

def ImportCall.andThen (first second : ImportCall) : ImportCall := fun sent =>
  match first sent with
  | (sent', .ok ()) => second sent'
  | (sent', .error e) => (sent', .error e)

section Calls

variable (replies : ℕ → Reply)

/-- The loop over the chunks; the reply to the `k`-th request of the importer is `replies k`. -/
def createBatches {α : Type*} (request : List α → Request) : List (List α) → ImportCall
  | [], sent => (sent, .ok ())
  | chunk :: rest, sent =>
    match (request chunk).failure (replies sent.length) with
    | some e => (sent ++ [request chunk], .error e)
    | none => createBatches request rest (sent ++ [request chunk])

def createAccountsBatch (accounts : List Account) (imported : Bool) : ImportCall :=
  createBatches replies
    (fun chunk => .createAccounts (chunk.map fun acc => convertAccount acc imported))
    (chunks BalancePlan.batchSize accounts)

def createTransfersBatch (transfers : List SyntheticTransfer) : ImportCall :=
  createBatches replies (fun chunk => .createTransfers (chunk.map convertTransfer))
    (chunks BalancePlan.batchSize transfers)

namespace BalancePlan

def importAccounts (plan : BalancePlan) : ImportCall :=
  ImportCall.andThen (createAccountsBatch replies plan.genesisAccounts true)
    (createAccountsBatch replies plan.regularAccounts true)

def importTransfers (plan : BalancePlan) : ImportCall :=
  createTransfersBatch replies plan.syntheticTransfers

def importInTwoCalls (plan : BalancePlan) : List Request × Except CompressorError Unit :=
  ImportCall.andThen (plan.importAccounts replies) (plan.importTransfers replies) []

def callBatches (plan : BalancePlan) : List Batch :=
  plan.genesisBatches ++ plan.accountBatches ++ plan.syntheticBatches

end BalancePlan

/-! ## The calls as a part of the import -/

def ImportRun.sent (outcome : ImportRun × Except CompressorError Unit) :
    List Request × Except CompressorError Unit := (outcome.1.submitted, outcome.2)

def ImportCall.Submits (call : ImportCall) (bs : List Batch) : Prop :=
  ∀ run : ImportRun, call run.submitted = ImportRun.sent (submitBatches replies bs run)

variable {replies}

theorem createBatches_submits {α : Type*} (name : String) (request : List α → Request)
    (total imported : U64) (pieces : List (List α)) :
    ImportCall.Submits replies (createBatches replies request pieces)
      (BalancePlan.phaseBatches name request total imported pieces) := by
  induction pieces generalizing imported with
  | nil => exact fun run => rfl
  | cons chunk rest ih =>
      intro run
      rw [createBatches, BalancePlan.phaseBatches, submitBatches]
      cases (request chunk).failure (replies run.submitted.length) with
      | some e => rfl
      | none =>
          have hrest := ih (imported + BitVec.ofNat 64 chunk.length)
          exact hrest ((run.submit (request chunk)).report
            ⟨name, imported + BitVec.ofNat 64 chunk.length, total⟩)

theorem ImportCall.Submits.andThen {first second : ImportCall} {xs ys : List Batch}
    (hfirst : first.Submits replies xs) (hsecond : second.Submits replies ys) :
    (first.andThen second).Submits replies (xs ++ ys) := by
  intro run
  rw [ImportCall.andThen, hfirst run, submitBatches_append]
  rcases submitBatches replies xs run with ⟨run', result⟩
  cases result with
  | ok _ => exact hsecond run'
  | error e => rfl

theorem BalancePlan.importInTwoCalls_eq (plan : BalancePlan) :
    plan.importInTwoCalls replies =
      ImportRun.sent (submitBatches replies plan.callBatches .start) := by
  have hgenesis : (createAccountsBatch replies plan.genesisAccounts true).Submits replies
      plan.genesisBatches := createBatches_submits _ _ _ _ _
  have haccounts : (createAccountsBatch replies plan.regularAccounts true).Submits replies
      plan.accountBatches := createBatches_submits _ _ _ _ _
  have htransfers : (plan.importTransfers replies).Submits replies plan.syntheticBatches :=
    createBatches_submits _ _ _ _ _
  exact ((hgenesis.andThen haccounts).andThen htransfers) .start

/-! ## What comes after the calls -/

theorem submitBatches_isPrefix (bs : List Batch) (run : ImportRun) :
    run.submitted <+: (submitBatches replies bs run).1.submitted := by
  induction bs generalizing run with
  | nil => exact List.prefix_rfl
  | cons b rest ih =>
      rw [submitBatches]
      cases b.request.failure (replies run.submitted.length) with
      | some e => exact List.prefix_append _ _
      | none =>
          exact (List.prefix_append _ _).trans (ih ((run.submit b.request).report b.progress))

theorem submitBatches_cons_length (b : Batch) (rest : List Batch) (run : ImportRun) :
    run.submitted.length < (submitBatches replies (b :: rest) run).1.submitted.length := by
  have hmore : (run.submit b.request).submitted <+:
      (submitBatches replies (b :: rest) run).1.submitted := by
    rw [submitBatches]
    cases b.request.failure (replies run.submitted.length) with
    | some e => exact List.prefix_rfl
    | none => exact submitBatches_isPrefix rest ((run.submit b.request).report b.progress)
  have hlength := hmore.length_le
  rw [ImportRun.submit, List.length_append, List.length_singleton] at hlength
  omega

theorem submitBatches_ok_iff (bs : List Batch) :
    (submitBatches replies bs .start).2 = .ok () ↔ ∀ k < bs.length, replies k = .results 0 := by
  have htraversal : Traversal replies bs (submitBatches replies bs .start) :=
    submitBatches_traversal [] bs fun k hk => absurd hk (Nat.not_lt_zero k)
  generalize submitBatches replies bs .start = outcome at htraversal ⊢
  cases htraversal with
  | finished haccepted => exact iff_of_true rfl haccepted
  | failed accepted b rest e hbatches haccepted hfailure =>
      refine iff_of_false (fun h => nomatch h) fun hall => ?_
      rw [hall accepted.length (by rw [hbatches, List.length_append, List.length_cons]; omega),
        (b.request.failure_eq_none_iff _).2 rfl] at hfailure
      cases hfailure

/-- Stopping after the first batches is the same if and only if there are no others or one of the
first has failed. -/
theorem sent_append_iff (xs ys : List Batch) :
    ImportRun.sent (submitBatches replies xs .start) =
        ImportRun.sent (submitBatches replies (xs ++ ys) .start) ↔
      ys = [] ∨ ∃ k < xs.length, replies k ≠ .results 0 := by
  have hok := @submitBatches_ok_iff replies xs
  rw [submitBatches_append]
  generalize submitBatches replies xs .start = outcome at hok ⊢
  obtain ⟨run, result⟩ := outcome
  cases result with
  | error e =>
      refine iff_of_true rfl (.inr ?_)
      by_contra! hall
      cases hok.2 hall
  | ok _ =>
      have hnone : ¬ ∃ k < xs.length, replies k ≠ .results 0 := by
        push Not
        exact hok.1 rfl
      rw [or_iff_left hnone]
      cases ys with
      | nil => exact iff_of_true rfl rfl
      | cons b rest =>
          refine iff_of_false (fun h => ?_) (List.cons_ne_nil b rest)
          have hlength := @submitBatches_cons_length replies b rest run
          have hsubmitted : run.submitted = (submitBatches replies (b :: rest) run).1.submitted :=
            congrArg Prod.fst h
          rw [← hsubmitted] at hlength
          exact lt_irrefl _ hlength

end Calls

namespace BalancePlan

theorem windowedBatches_eq_nil_iff (plan : BalancePlan) :
    plan.windowedBatches = [] ↔ plan.windowedTransfers = [] := by
  constructor
  · intro h
    have hpieces := phaseBatches_requests "windowed_transfers" windowedRequest
      (BitVec.ofNat 64 plan.windowedTransfers.length) 0 (chunks batchSize plan.windowedTransfers)
    rw [← phase, ← windowedBatches, h, List.map_nil, eq_comm, List.map_eq_nil_iff] at hpieces
    rw [← chunks_flatten (n := batchSize) (by decide) plan.windowedTransfers, hpieces]
    rfl
  · intro h
    rw [windowedBatches, h]
    rfl

/-- The two calls submit what the import of the plan without its window submits, with the same
result. They agree with the import of the plan itself if and only if it has no window or a batch
before the window fails. -/
theorem importInTwoCalls_iff (prof : Profile) (replies : ℕ → Reply) {plan : BalancePlan}
    (hfits : plan.FitsVecs) :
    (∃ outcome, { plan with windowedTransfers := [] }.importAllWithProgress prof replies =
      some outcome ∧ plan.importInTwoCalls replies = ImportRun.sent outcome) ∧
    ∃ outcome, plan.importAllWithProgress prof replies = some outcome ∧
      (plan.importInTwoCalls replies).1 <+: outcome.1.submitted ∧
      (plan.importInTwoCalls replies = ImportRun.sent outcome ↔
        plan.windowedTransfers = [] ∨ ∃ k < plan.callBatches.length, replies k ≠ .results 0) := by
  have hshort : ({ plan with windowedTransfers := [] } : BalancePlan).FitsVecs :=
    ⟨hfits.genesisAccounts, hfits.regularAccounts, hfits.syntheticTransfers, Nat.two_pow_pos _⟩
  have hbatches : ({ plan with windowedTransfers := [] } : BalancePlan).batches =
      plan.callBatches := by
    rw [batches, (windowedBatches_eq_nil_iff _).2 rfl, List.append_nil]
    rfl
  refine ⟨⟨_, importAllWithProgress_eq hshort, ?_⟩, _, importAllWithProgress_eq hfits, ?_, ?_⟩
  · rw [hbatches, importInTwoCalls_eq]
  · rw [importInTwoCalls_eq, batches, ← callBatches, submitBatches_append]
    rcases submitBatches replies plan.callBatches .start with ⟨run, result⟩
    cases result with
    | ok _ => exact submitBatches_isPrefix _ run
    | error e => exact List.prefix_rfl
  · rw [importInTwoCalls_eq, batches, ← callBatches, sent_append_iff, windowedBatches_eq_nil_iff]

def cutPlan : BalancePlan where
  genesisAccounts := [genesisAccount 2 1 1]
  regularAccounts := [.holding 7 1 0 70 2, .holding 8 1 0 0 3]
  syntheticTransfers := [⟨1, 2, 7, 70, 1, 999, 4⟩]
  windowedTransfers := [.moving 5 7 8 30 1 0 12]

theorem importInTwoCalls_iff_cut :
    (∃ outcome, { cutPlan with windowedTransfers := [] }.importAllWithProgress .release
      (fun _ => .results 0) = some outcome ∧
        cutPlan.importInTwoCalls (fun _ => .results 0) = ImportRun.sent outcome) ∧
    ∃ outcome, cutPlan.importAllWithProgress .release (fun _ => .results 0) = some outcome ∧
      (cutPlan.importInTwoCalls fun _ => .results 0).1 <+: outcome.1.submitted ∧
      (cutPlan.importInTwoCalls (fun _ => .results 0) = ImportRun.sent outcome ↔
        cutPlan.windowedTransfers = [] ∨
          ∃ k < cutPlan.callBatches.length, Reply.results 0 ≠ .results 0) :=
  importInTwoCalls_iff .release (fun _ => .results 0)
    ⟨by decide, by decide, by decide, by decide⟩

end BalancePlan

end TbManager
