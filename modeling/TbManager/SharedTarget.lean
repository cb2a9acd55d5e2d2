import TbManager.MigrationStream
import TbManager.PlanIds

/-!
# Migrations that share a target

Any number of migrations may run against one target cluster, at the same time or
one after the other. The target does not create an event again whose id it has
created before. Whatever the interleaving, of several migrations with an event in
common at most one completes, and one that starts after another has created an
event of its first batch creates nothing.
-/

namespace TbManager

/-- What the target knows an event by; accounts and transfers have ids of their own. -/
inductive EventKey where
  | account (id : U128)
  | transfer (id : U128)
  deriving DecidableEq, Repr

def Event.key : Event → EventKey
  | createAccount a => .account a.id
  | createTransfer t => .transfer t.id

/-- A request that the target has handled, with the migration it came from. -/
structure Handled where
  migration : ℕ
  batch : Batch
  reply : Reply
  deriving DecidableEq, Repr

namespace Handled

def accepted (h : Handled) : Bool := h.batch.request.failure h.reply = none

def events (h : Handled) : List Event := h.batch.request.events

/-- No event of one is an event of the other, if both are accepted. -/
def Apart (h h' : Handled) : Prop :=
  h.accepted → h'.accepted → ∀ e ∈ h.events, ∀ f ∈ h'.events, e.key ≠ f.key

instance : Std.Symm Apart where
  symm _ _ hapart haccepted' haccepted f hf e he := (hapart haccepted haccepted' e he f hf).symm

end Handled

def Migration.handled (i : ℕ) (m : Migration) : MigrationAction → List Handled
  | .submit reply =>
    match m.task with
    | .importing (batch :: _) => [⟨i, batch, reply⟩]
    | _ => []
  | _ => []

deriving instance DecidableEq for Migration

/-- The migrations of the nodes and the requests that the target has handled. -/
structure SharedTarget where
  migrations : List Migration
  log : List Handled
  deriving DecidableEq

inductive TargetAction where
  | spawn (plan : BalancePlan)
  | act (i : ℕ) (a : MigrationAction)

namespace SharedTarget

def initial : SharedTarget := ⟨[], []⟩

def step (s : SharedTarget) : TargetAction → Option SharedTarget
  | .spawn plan => some { s with migrations := s.migrations ++ [Migration.spawn plan] }
  | .act i a => do
    let m ← s.migrations[i]?
    let m' ← m.step a
    some ⟨s.migrations.set i m', s.log ++ m.handled i a⟩

/-- The target answers `exists` for an event whose id it has created. -/
def KeepsEvents (log : List Handled) : Prop := log.Pairwise Handled.Apart

def acceptedFrom (i : ℕ) (log : List Handled) : List Batch :=
  (log.filter fun h => h.migration = i ∧ h.accepted).map Handled.batch

structure Inv (s : SharedTarget) : Prop where
  each : ∀ (i : ℕ) (m : Migration), s.migrations[i]? = some m → m.Inv ∧
    m.accepted <+: m.plan.batches ∧ m.accepted = acceptedFrom i s.log
  known : ∀ h ∈ s.log, h.migration < s.migrations.length

inductive Moves (s : SharedTarget) : TargetAction → SharedTarget → Prop
  | spawned (plan : BalancePlan) :
      Moves s (.spawn plan) { s with migrations := s.migrations ++ [Migration.spawn plan] }
  | moved {i : ℕ} {a : MigrationAction} {m m' : Migration} (hi : s.migrations[i]? = some m)
      (hm : m.step a = some m') :
      Moves s (.act i a) ⟨s.migrations.set i m', s.log ++ m.handled i a⟩

variable {s s' : SharedTarget} {a : TargetAction}

theorem step_moves (h : step s a = some s') : Moves s a s' := by
  cases a with
  | spawn plan =>
      cases h
      exact .spawned plan
  | act i a =>
      simp only [step, Option.bind_eq_bind, Option.bind_eq_some_iff] at h
      obtain ⟨m, hi, m', hm, hs'⟩ := h
      cases hs'
      exact .moved hi hm

theorem acceptedFrom_append (i : ℕ) (xs ys : List Handled) :
    acceptedFrom i (xs ++ ys) = acceptedFrom i xs ++ acceptedFrom i ys := by
  rw [acceptedFrom, List.filter_append, List.map_append]
  rfl

theorem mem_acceptedFrom {i : ℕ} {log : List Handled} {b : Batch} :
    b ∈ acceptedFrom i log ↔
      ∃ h ∈ log, h.migration = i ∧ h.accepted = true ∧ h.batch = b := by
  rw [acceptedFrom, List.mem_map]
  constructor
  · rintro ⟨h, hh, rfl⟩
    obtain ⟨hmem, hof⟩ := List.mem_filter.1 hh
    rw [decide_eq_true_eq] at hof
    exact ⟨h, hmem, hof.1, hof.2, rfl⟩
  · rintro ⟨h, hmem, hi, haccepted, rfl⟩
    refine ⟨h, List.mem_filter.2 ⟨hmem, ?_⟩, rfl⟩
    rw [decide_eq_true_eq]
    exact ⟨hi, haccepted⟩

theorem acceptedFrom_eq_nil {i : ℕ} (log : List Handled) (h : ∀ e ∈ log, e.migration ≠ i) :
    acceptedFrom i log = [] := by
  rw [List.eq_nil_iff_forall_not_mem]
  intro b hb
  obtain ⟨e, he, hi, _⟩ := mem_acceptedFrom.1 hb
  exact h e he hi

theorem handled_migration {m : Migration} {i : ℕ} {a : MigrationAction} {h : Handled}
    (hh : h ∈ m.handled i a) : h.migration = i := by
  unfold Migration.handled at hh
  split at hh
  · split at hh
    · rw [List.mem_singleton.1 hh]
    · cases hh
  · cases hh

theorem step_accepted {m m' : Migration} {a : MigrationAction} (hi : m.Inv)
    (hstart : m.accepted <+: m.plan.batches) (h : m.step a = some m') (i : ℕ) :
    m'.accepted = m.accepted ++ acceptedFrom i (m.handled i a) ∧
      m'.accepted <+: m'.plan.batches := by
  cases Migration.step_moves h with
  | accepted batch reply left htask hreply =>
      have hhandled : m.handled i (.submit reply) = [⟨i, batch, reply⟩] := by
        rw [Migration.handled, htask]
      constructor
      · rw [hhandled, acceptedFrom, List.filter_cons_of_pos (by simp [Handled.accepted, hreply])]
        rfl
      · have hleft := hi.left (batch :: left) (by rw [Migration.left, htask])
        refine ⟨left, ?_⟩
        rw [List.append_assoc]
        exact hleft
  | refused batch reply left htask hreply =>
      have hhandled : m.handled i (.submit reply) = [⟨i, batch, reply⟩] := by
        rw [Migration.handled, htask]
      refine ⟨?_, hstart⟩
      rw [hhandled, acceptedFrom, List.filter_cons_of_neg (by simp [Handled.accepted, hreply])]
      exact (List.append_nil _).symm
  | _ => exact ⟨(List.append_nil _).symm, hstart⟩

theorem moves_inv (hi : s.Inv) (h : Moves s a s') : s'.Inv := by
  cases h with
  | spawned plan =>
      constructor
      · intro j n hj
        rw [List.getElem?_append] at hj
        split_ifs at hj with hlt
        · exact hi.each j n hj
        · obtain ⟨rfl, hnew⟩ : s.migrations.length = j ∧ n = Migration.spawn plan := by
            have hone := List.getElem?_eq_some_iff.1 hj
            obtain ⟨hbound, hn⟩ := hone
            rw [List.length_singleton] at hbound
            refine ⟨by omega, ?_⟩
            rw [← hn, List.getElem_singleton]
          subst hnew
          refine ⟨Migration.spawn_inv plan, List.nil_prefix, ?_⟩
          exact (acceptedFrom_eq_nil _ fun e he => (hi.known e he).ne).symm
      · intro e he
        rw [List.length_append]
        exact Nat.lt_add_right _ (hi.known e he)
  | @moved i a m m' hm hstep =>
      obtain ⟨hinv, hstart, haccepted⟩ := hi.each i m hm
      obtain ⟨haccepted', hstart'⟩ := step_accepted hinv hstart hstep i
      constructor
      · intro j n hj
        dsimp only at hj ⊢
        by_cases hij : i = j
        · subst hij
          rw [List.getElem?_set_self (List.getElem?_eq_some_iff.1 hm).1,
            Option.some.injEq] at hj
          subst hj
          refine ⟨Migration.step_inv hinv hstep, hstart', ?_⟩
          rw [acceptedFrom_append, haccepted', haccepted]
        · rw [List.getElem?_set_ne hij] at hj
          obtain ⟨hinv₁, hstart₁, haccepted₁⟩ := hi.each j n hj
          refine ⟨hinv₁, hstart₁, ?_⟩
          rw [acceptedFrom_append, acceptedFrom_eq_nil (m.handled i a) fun e he => ?_,
            List.append_nil]
          · exact haccepted₁
          · rw [handled_migration he]
            exact hij
      · intro e he
        rw [List.length_set]
        rcases List.mem_append.1 he with hold | hnew
        · exact hi.known e hold
        · rw [handled_migration hnew]
          exact (List.getElem?_eq_some_iff.1 hm).1

theorem initial_inv : initial.Inv where
  each := fun _ _ h => nomatch h
  known := fun _ h => nomatch h

theorem run_inv {actions : List TargetAction} (hi : s.Inv)
    (hrun : runFrom step s actions = some s') : s'.Inv :=
  invariant_run (fun _ _ _ hi h => moves_inv hi (step_moves h)) hi hrun

theorem run_log {actions : List TargetAction} (hrun : runFrom step s actions = some s') :
    ∃ more, s'.log = s.log ++ more := by
  refine invariant_run (I := fun t => ∃ more, t.log = s.log ++ more) ?_
    ⟨[], (List.append_nil _).symm⟩ hrun
  rintro t a t' ⟨more, hlog⟩ h
  cases step_moves h with
  | spawned plan => exact ⟨more, hlog⟩
  | @moved i a m m' hm hstep =>
      refine ⟨more ++ m.handled i a, ?_⟩
      rw [← List.append_assoc, ← hlog]

/-- A complete migration has had each of its events accepted in one of its requests. -/
theorem Inv.handled_of_complete (hi : s.Inv) {i : ℕ} {m : Migration}
    (hm : s.migrations[i]? = some m) (hcomplete : m.Complete) {e : Event}
    (he : e ∈ m.plan.events) :
    ∃ h ∈ s.log, h.migration = i ∧ h.accepted = true ∧ e ∈ h.events := by
  rw [← hcomplete.events] at he
  obtain ⟨b, hb, heb⟩ := List.mem_flatMap.1 he
  rw [(hi.each i m hm).2.2] at hb
  obtain ⟨h, hmem, hof, haccepted, rfl⟩ := mem_acceptedFrom.1 hb
  exact ⟨h, hmem, hof, haccepted, heb⟩

theorem Inv.apart_of_complete (hi : s.Inv) (htarget : KeepsEvents s.log) {i j : ℕ}
    {m n : Migration} (hm : s.migrations[i]? = some m) (hn : s.migrations[j]? = some n)
    (hij : i ≠ j) (hcomplete : m.Complete) (hcomplete' : n.Complete) {e f : Event}
    (he : e ∈ m.plan.events) (hf : f ∈ n.plan.events) : e.key ≠ f.key := by
  obtain ⟨h, hmem, hof, haccepted, heh⟩ := hi.handled_of_complete hm hcomplete he
  obtain ⟨h', hmem', hof', haccepted', hfh⟩ := hi.handled_of_complete hn hcomplete' hf
  have hne : h ≠ h' := by
    rintro rfl
    exact hij (hof.symm.trans hof')
  exact List.Pairwise.forall htarget hmem hmem' hne haccepted haccepted' e heh f hfh

/-- In every interleaving of any number of migrations, two complete ones have no event in
common. -/
theorem complete_disjoint {actions : List TargetAction}
    (hrun : runFrom step initial actions = some s) (htarget : KeepsEvents s.log) {i j : ℕ}
    {m n : Migration} (hm : s.migrations[i]? = some m) (hn : s.migrations[j]? = some n)
    (hij : i ≠ j) (hcomplete : m.Complete) (hcomplete' : n.Complete) :
    ∀ e ∈ m.plan.events, ∀ f ∈ n.plan.events, e.key ≠ f.key := by
  intro e he f hf
  exact (run_inv initial_inv hrun).apart_of_complete htarget hm hn hij hcomplete hcomplete' he hf

def otherPlan : BalancePlan :=
  { Migration.csvPlan with windowedTransfers := [.moving 12 7 8 50 1 0 5] }

def batchOf (plan : BalancePlan) : Batch :=
  ⟨BalancePlan.windowedRequest plan.windowedTransfers, ⟨"windowed_transfers", 1, 1⟩⟩

def inTurns : List TargetAction :=
  [.spawn Migration.csvPlan, .spawn otherPlan, .act 0 (.connect none), .act 1 (.connect none),
    .act 1 (.submit (.results 0)), .act 0 (.submit (.results 0))]

def repliedTo (plan : BalancePlan) (reply : Reply) (accepted : List Batch) : Migration :=
  { Migration.spawn plan with task := .replied (batchOf plan) reply [], accepted := accepted }

def csvImported : Migration :=
  repliedTo Migration.csvPlan (.results 0) [batchOf Migration.csvPlan]

def otherImported : Migration := repliedTo otherPlan (.results 0) [batchOf otherPlan]

def handledBoth : List Handled :=
  [⟨1, batchOf otherPlan, .results 0⟩, ⟨0, batchOf Migration.csvPlan, .results 0⟩]

theorem complete_disjoint_inTurns :
    runFrom step initial inTurns = some ⟨[csvImported, otherImported], handledBoth⟩ ∧
      KeepsEvents handledBoth ∧
      ∀ e ∈ Migration.csvPlan.events, ∀ f ∈ otherPlan.events, e.key ≠ f.key :=
  have hrun : runFrom step initial inTurns =
      some ⟨[csvImported, otherImported], handledBoth⟩ := by decide +kernel
  have htarget : KeepsEvents handledBoth := by
    refine List.pairwise_pair.2 fun _ _ e he f hf => ?_
    rw [List.mem_singleton.1 he, List.mem_singleton.1 hf]
    decide
  have hcomplete : csvImported.Complete := by
    rw [Migration.Complete]
    decide +kernel
  have hcomplete' : otherImported.Complete := by
    rw [Migration.Complete]
    decide +kernel
  ⟨hrun, htarget, @complete_disjoint _ inTurns hrun htarget 0 1 csvImported otherImported
    rfl rfl (by decide) hcomplete hcomplete'⟩

/-- A migration that is spawned after a batch with an event of its first batch was accepted in full
never has a batch accepted in full. What its refused first batch may have created is not counted. -/
theorem retry_never_accepted {before after : List TargetAction} {s₁ s₂ : SharedTarget}
    (hbefore : runFrom step initial before = some s₁)
    (hafter : runFrom step s₁ after = some s₂) (htarget : KeepsEvents s₂.log) {i j : ℕ}
    {m n : Migration} (hm : s₁.migrations[i]? = some m) {e : Event}
    (he : e ∈ m.accepted.flatMap fun b => b.request.events)
    (hn : s₂.migrations[j]? = some n) (hlater : s₁.migrations.length ≤ j) {first : Batch}
    {rest : List Batch} (hplan : n.plan.batches = first :: rest) {f : Event}
    (hf : f ∈ first.request.events) (hkey : e.key = f.key) :
    n.accepted = [] := by
  have hi₁ := run_inv initial_inv hbefore
  obtain ⟨more, hlog⟩ := run_log hafter
  obtain ⟨_, hstart, haccepted⟩ := (run_inv hi₁ hafter).each j n hn
  by_contra hsome
  have hfirst : first ∈ n.accepted := by
    obtain ⟨tail, htail⟩ := hstart
    cases hcases : n.accepted with
    | nil => exact absurd hcases hsome
    | cons b bs =>
        rw [hcases, hplan, List.cons_append, List.cons.injEq] at htail
        rw [htail.1]
        exact List.mem_cons_self
  rw [haccepted] at hfirst
  obtain ⟨h', hmem', hof', haccepted', rfl⟩ := mem_acceptedFrom.1 hfirst
  obtain ⟨b, hb, heb⟩ := List.mem_flatMap.1 he
  rw [(hi₁.each i m hm).2.2] at hb
  obtain ⟨h, hmem, _, haccepted₁, rfl⟩ := mem_acceptedFrom.1 hb
  -- the requests of the later migration come after those of the earlier one
  have hmore : h' ∈ more := by
    rw [hlog] at hmem'
    rcases List.mem_append.1 hmem' with hold | hnew
    · have hknown := hi₁.known h' hold
      omega
    · exact hnew
  rw [KeepsEvents, hlog, List.pairwise_append] at htarget
  exact htarget.2.2 h hmem h' hmore haccepted₁ haccepted' e heb f hf hkey

def importedOnce : List TargetAction :=
  [.spawn Migration.csvPlan, .act 0 (.connect none), .act 0 (.submit (.results 0))]

def importedAgain : List TargetAction :=
  [.spawn Migration.csvPlan, .act 1 (.connect none), .act 1 (.submit (.results 1))]

def csvRefused : Migration := repliedTo Migration.csvPlan (.results 1) []

def onceImported : SharedTarget :=
  ⟨[csvImported], [⟨0, batchOf Migration.csvPlan, .results 0⟩]⟩

def againRefused : SharedTarget where
  migrations := [csvImported, csvRefused]
  log := [⟨0, batchOf Migration.csvPlan, .results 0⟩, ⟨1, batchOf Migration.csvPlan, .results 1⟩]

theorem retry_never_accepted_importedAgain :
    runFrom step initial importedOnce = some onceImported ∧
      runFrom step onceImported importedAgain = some againRefused ∧ csvRefused.accepted = [] :=
  have hbefore : runFrom step initial importedOnce = some onceImported := by decide +kernel
  have hafter : runFrom step onceImported importedAgain = some againRefused := by decide +kernel
  have htarget : KeepsEvents againRefused.log :=
    List.pairwise_pair.2 fun _ haccepted => absurd haccepted (by decide)
  ⟨hbefore, hafter, @retry_never_accepted importedOnce importedAgain _ _ hbefore hafter htarget
    0 1 csvImported csvRefused rfl
    (.createTransfer (convertWindowedTransfer (.moving 11 7 8 50 1 0 4))) (by decide) rfl le_rfl
    (batchOf Migration.csvPlan) [] (by decide +kernel)
    (.createTransfer (convertWindowedTransfer (.moving 11 7 8 50 1 0 4))) (by decide) rfl⟩

/-! ## Snapshots of clusters with a common ledger -/

section Genesis

variable {prof : Profile} {orders : HashOrders} {file : FileReads} {cutoffTs : U64}
  {plan : BalancePlan} {accounts : List Account}

theorem buildFor_of_executeMigrationPlan
    (hplan : BalancePlan.executeMigrationPlan prof orders file cutoffTs false = some (.ok plan))
    (hread : readAllAccounts orders.accounts file.accounts = .ok accounts) :
    BalancePlan.buildFor prof orders file cutoffTs accounts = some (.ok plan) := by
  rw [BalancePlan.executeMigrationPlan, hread] at hplan
  dsimp only at hplan
  by_cases hpending : 0 < (accounts.filter BalancePlan.hasPending).length
  · rw [if_pos hpending] at hplan
    cases hplan
  · rw [if_neg hpending] at hplan
    obtain ⟨result, hresult, hok⟩ := Option.map_eq_some_iff.1 hplan
    cases result with
    | error e => cases hok
    | ok built =>
        cases hok
        exact hresult

theorem genesis_of_buildFor
    (hplan : BalancePlan.buildFor prof orders file cutoffTs accounts = some (.ok plan))
    {a : Account} (ha : a ∈ accounts) :
    genesisCreditId a.ledger ∈ plan.genesisAccounts.map Account.id := by
  have hledger : a.ledger ∈ accounts.map Account.ledger := List.mem_map_of_mem ha
  rw [BalancePlan.buildFor] at hplan
  split_ifs at hplan with hcutoff
  · split at hplan
    · cases hplan
    · next windowed _ =>
        obtain ⟨built, hbuilt, heq⟩ := Option.map_eq_some_iff.1 hplan
        cases heq
        obtain ⟨d, _, _, hshape⟩ := BalancePlan.buildWindowed_cases hbuilt
        refine (hshape.genesisIds _).2 ⟨a.ledger, ?_, .inl rfl⟩
        rwa [BalancePlan.adjusted_ledgers]
  · obtain ⟨built, hbuilt, heq⟩ := Option.map_eq_some_iff.1 hplan
    cases heq
    exact ((BalancePlan.buildSnapshotImpl_shape hbuilt).genesisIds _).2
      ⟨a.ledger, hledger, .inl rfl⟩

/-- A migration opens the genesis accounts of every ledger of its source. -/
theorem opens_genesis
    (hplan : BalancePlan.executeMigrationPlan prof orders file cutoffTs false = some (.ok plan))
    (hread : readAllAccounts orders.accounts file.accounts = .ok accounts) {a : Account}
    (ha : a ∈ accounts) :
    ∃ e ∈ plan.events, e.key = .account (genesisCreditId a.ledger) := by
  obtain ⟨g, hg, hid⟩ := List.mem_map.1
    (genesis_of_buildFor (buildFor_of_executeMigrationPlan hplan hread) ha)
  refine ⟨.createAccount (convertAccount g true), ?_, ?_⟩
  · rw [BalancePlan.events]
    exact List.mem_append_left _
      (List.mem_map_of_mem (f := fun a => Event.createAccount (convertAccount a true))
        (List.mem_append_left _ hg))
  · rw [← hid]
    rfl

end Genesis

/-- Two data files with accounts on one ledger, the same file twice included, are never both
migrated into one target. -/
theorem ledger_migrates_once {actions : List TargetAction}
    (hrun : runFrom step initial actions = some s) (htarget : KeepsEvents s.log) {i j : ℕ}
    {m n : Migration} (hm : s.migrations[i]? = some m) (hn : s.migrations[j]? = some n)
    (hij : i ≠ j) {prof prof' : Profile} {orders orders' : HashOrders} {file file' : FileReads}
    {cutoffTs cutoffTs' : U64} {accounts accounts' : List Account}
    (hplan : BalancePlan.executeMigrationPlan prof orders file cutoffTs false =
      some (.ok m.plan))
    (hplan' : BalancePlan.executeMigrationPlan prof' orders' file' cutoffTs' false =
      some (.ok n.plan))
    (hread : readAllAccounts orders.accounts file.accounts = .ok accounts)
    (hread' : readAllAccounts orders'.accounts file'.accounts = .ok accounts')
    {a a' : Account} (ha : a ∈ accounts) (ha' : a' ∈ accounts') (hledger : a.ledger = a'.ledger) :
    ¬ (m.Complete ∧ n.Complete) := by
  rintro ⟨hcomplete, hcomplete'⟩
  obtain ⟨e, he, hkey⟩ := opens_genesis hplan hread ha
  obtain ⟨f, hf, hkey'⟩ := opens_genesis hplan' hread' ha'
  have hne := (run_inv initial_inv hrun).apart_of_complete htarget hm hn hij hcomplete hcomplete'
    he hf
  exact hne (by rw [hkey, hkey', hledger])

def oneAccount : FileReads :=
  ⟨.ok (.ofRecords [.holding 7 1 100 0 1] []), .ok (.ofRecords [] [])⟩

def oneAccountPlan : BalancePlan where
  genesisAccounts := [{ Account.holding (genesisCreditId 1) 1 0 0 1 with code := 1 },
    { Account.holding (genesisDebitId 1) 1 0 0 2 with code := 1 }]
  regularAccounts := [.holding 7 1 100 0 3]
  syntheticTransfers := [⟨1, 7, genesisDebitId 1, 100, 1, 999, 4⟩]
  windowedTransfers := []

def genesisBatch : Batch :=
  ⟨BalancePlan.accountRequest oneAccountPlan.genesisAccounts, ⟨"genesis_accounts", 2, 2⟩⟩

def accountBatch : Batch :=
  ⟨BalancePlan.accountRequest oneAccountPlan.regularAccounts, ⟨"accounts", 1, 1⟩⟩

def syntheticBatch : Batch :=
  ⟨BalancePlan.syntheticRequest oneAccountPlan.syntheticTransfers, ⟨"synthetic_transfers", 1, 1⟩⟩

/-- The file is migrated twice; the second migration asks after the first batch of the first. -/
def migratedTwice : List TargetAction :=
  [.spawn oneAccountPlan, .spawn oneAccountPlan, .act 0 (.connect none), .act 1 (.connect none),
    .act 0 (.submit (.results 0)), .act 1 (.submit (.results 2)), .act 0 .takeReply,
    .act 0 .sendProgress, .act 0 (.submit (.results 0)), .act 0 .takeReply, .act 0 .sendProgress,
    .act 0 (.submit (.results 0))]

def firstMigrated : Migration :=
  { Migration.spawn oneAccountPlan with
    task := .replied syntheticBatch (.results 0) []
    progressChannel := [genesisBatch.progress, accountBatch.progress]
    accepted := [genesisBatch, accountBatch, syntheticBatch] }

def secondRefused : Migration :=
  { Migration.spawn oneAccountPlan with
    task := .replied genesisBatch (.results 2) [accountBatch, syntheticBatch] }

def twiceMigrated : SharedTarget where
  migrations := [firstMigrated, secondRefused]
  log := [⟨0, genesisBatch, .results 0⟩, ⟨1, genesisBatch, .results 2⟩,
    ⟨0, accountBatch, .results 0⟩, ⟨0, syntheticBatch, .results 0⟩]

theorem ledger_migrates_once_twice :
    runFrom step initial migratedTwice = some twiceMigrated ∧ KeepsEvents twiceMigrated.log ∧
      ¬ (firstMigrated.Complete ∧ secondRefused.Complete) :=
  have hrun : runFrom step initial migratedTwice = some twiceMigrated := by decide +kernel
  have htarget : KeepsEvents twiceMigrated.log := by
    unfold KeepsEvents Handled.Apart
    decide +kernel
  have hplan : BalancePlan.executeMigrationPlan .release ⟨.stored, .stored, .stored⟩ oneAccount 0
      false = some (.ok oneAccountPlan) := by decide +kernel
  have hread : readAllAccounts .stored oneAccount.accounts = .ok [.holding 7 1 100 0 1] := by
    decide +kernel
  ⟨hrun, htarget, ledger_migrates_once (i := 0) (j := 1) hrun htarget rfl rfl (by decide) hplan
    hplan hread hread List.mem_cons_self List.mem_cons_self rfl⟩

end SharedTarget

end TbManager
