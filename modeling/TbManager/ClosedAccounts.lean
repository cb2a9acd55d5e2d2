import TbManager.CsvReplay
import TbManager.WindowedReplay

/-!
# Transfers onto closed accounts

An account reaches the target with its final flags before any transfer does. The
transfers that rebuild its balance, and those of the window, then meet an account
that may be closed already.
-/

namespace TbManager

open Cluster

attribute [local irreducible] genesisCreditId genesisDebitId

@[simp] theorem convertAccount_closed (acc : Account) (imported : Bool) :
    (convertAccount acc imported).flags.closed = acc.flags.closed := by
  simp only [convertAccount, AccountFlags.closed, mask_ne_zero, getLsbD_setBit, Nat.reduceLT]
  simp

namespace BalancePlan

/-- No plain transfer names an account that the import has created closed. -/
def SparesClosed (plan : BalancePlan) : Prop :=
  ∀ t ∈ plan.submittedTransfers, t.SinglePhase →
    ∀ a ∈ plan.genesisAccounts ++ plan.regularAccounts,
      (convertAccount a true).flags.closed = true →
        t.debitAccountId ≠ a.id ∧ t.creditAccountId ≠ a.id

def creditsAtCutoff (windowed : List Transfer) (c : U64) (a : Account) : ℕ :=
  if c ≤ a.timestamp then 0
  else a.creditsPosted.toNat - creditTotal a.id (windowed.map Transfer.posting) % 2 ^ 128

def debitsAtCutoff (windowed : List Transfer) (c : U64) (a : Account) : ℕ :=
  if c ≤ a.timestamp then 0
  else a.debitsPosted.toNat - debitTotal a.id (windowed.map Transfer.posting) % 2 ^ 128

/-- No balance is rebuilt on a closed account, nor against one that has a genesis id. -/
def ClosedIdle (credits debits : Account → ℕ) (accounts : List Account) : Prop :=
  ∀ a ∈ accounts, a.flags.closed = true → ∀ b ∈ accounts,
    (0 < credits b → genesisCreditId b.ledger ≠ a.id ∧ b.id ≠ a.id) ∧
      (0 < debits b → b.id ≠ a.id ∧ genesisDebitId b.ledger ≠ a.id)

def WindowSpares (accounts : List Account) (windowed : List Transfer) : Prop :=
  ∀ t ∈ windowed, t.SinglePhase → ∀ a ∈ accounts, a.flags.closed = true →
    t.debitAccountId ≠ a.id ∧ t.creditAccountId ≠ a.id

instance (credits debits : Account → ℕ) (accounts : List Account) :
    Decidable (ClosedIdle credits debits accounts) :=
  inferInstanceAs (Decidable (∀ a ∈ accounts, _ → ∀ b ∈ accounts, _))

instance (accounts : List Account) (windowed : List Transfer) :
    Decidable (WindowSpares accounts windowed) :=
  inferInstanceAs (Decidable (∀ t ∈ windowed, _))

section Shape

variable {accounts : List Account} {plan : BalancePlan}

theorem forall_regular_iff (h : Shape accounts plan) (P : Account → Prop)
    (huntimed : ∀ a, P a.untimed ↔ P a) :
    (∀ a ∈ plan.regularAccounts, P a) ↔ ∀ a ∈ accounts, P a := by
  have hmap (as : List Account) : (∀ a ∈ as.map Account.untimed, P a) ↔ ∀ a ∈ as, P a := by
    rw [List.forall_mem_map]
    exact forall₂_congr fun a _ => huntimed a
  rw [← hmap, ← hmap accounts]
  exact ⟨fun hall a ha => hall a (h.regular.mem_iff.2 ha),
    fun hall a ha => hall a (h.regular.mem_iff.1 ha)⟩

theorem forall_closed_iff (h : Shape accounts plan) (P : U128 → Prop) :
    (∀ a ∈ plan.genesisAccounts ++ plan.regularAccounts,
        (convertAccount a true).flags.closed = true → P a.id) ↔
      ∀ a ∈ accounts, a.flags.closed = true → P a.id := by
  have hgenesis : ∀ a ∈ plan.genesisAccounts, (convertAccount a true).flags.closed = true →
      P a.id := by
    intro a ha hclosed
    rw [convertAccount_closed, h.genesisFlags a ha] at hclosed
    exact absurd hclosed (by decide)
  rw [List.forall_mem_append, and_iff_right hgenesis]
  simp only [convertAccount_closed]
  exact forall_regular_iff h (fun a => a.flags.closed = true → P a.id) fun _ => Iff.rfl

theorem forall_synthetic_iff (h : Shape accounts plan) (P : U128 → U128 → Prop) :
    (∀ t ∈ plan.syntheticTransfers, P t.debitAccountId t.creditAccountId) ↔
      ∀ b ∈ accounts,
        (0 < b.creditsPosted.toNat → P (genesisCreditId b.ledger) b.id) ∧
          (0 < b.debitsPosted.toNat → P b.id (genesisDebitId b.ledger)) := by
  have hpostings : (∀ t ∈ plan.syntheticTransfers, P t.debitAccountId t.creditAccountId) ↔
      ∀ p ∈ plan.regularAccounts.flatMap Account.postings, P p.debit p.credit := by
    rw [← h.postings, List.forall_mem_map]
    rfl
  have hpositive (debitId creditId amount : U128) :
      (∀ p ∈ Account.positivePosting debitId creditId amount, P p.debit p.credit) ↔
        (0 < amount.toNat → P debitId creditId) := by
    rw [Account.positivePosting]
    split_ifs with hpos
    · rw [List.forall_mem_singleton]
      exact ⟨fun hp _ => hp, fun hp => hp (BitVec.lt_def.1 hpos)⟩
    · exact iff_of_true (fun p hp => absurd hp List.not_mem_nil)
        fun hpos' => absurd (Account.toNat_eq_zero_of_not_pos hpos) hpos'.ne'
  rw [hpostings, List.forall_mem_flatMap]
  simp only [Account.postings, List.forall_mem_append, hpositive]
  exact forall_regular_iff h _ fun _ => Iff.rfl

theorem sparesClosed_iff_of_shape (h : Shape accounts plan) :
    plan.SparesClosed ↔
      ClosedIdle (fun a => a.creditsPosted.toNat) (fun a => a.debitsPosted.toNat) accounts ∧
        WindowSpares accounts plan.windowedTransfers := by
  have hclosed (t : Transfer) := forall_closed_iff h fun i => t.debitAccountId ≠ i ∧
    t.creditAccountId ≠ i
  have hsynthetic := forall_synthetic_iff h fun debit credit =>
    ∀ a ∈ accounts, a.flags.closed = true → debit ≠ a.id ∧ credit ≠ a.id
  have hphase (t : Transfer) :
      (convertWindowedTransfer t).SinglePhase ↔ t.SinglePhase := by
    simp only [Transfer.SinglePhase, TransferFlags.pending, TransferFlags.postPendingTransfer,
      TransferFlags.voidPendingTransfer, mask_ne_zero,
      convertWindowedTransfer_flag t (show 1 < 8 by omega),
      convertWindowedTransfer_flag t (show 2 < 8 by omega),
      convertWindowedTransfer_flag t (show 3 < 8 by omega)]
  rw [SparesClosed, submittedTransfers, List.forall_mem_append, List.forall_mem_map,
    List.forall_mem_map]
  simp only [hclosed, hphase, convertTransfer_singlePhase, true_implies]
  refine and_congr ?_ Iff.rfl
  refine hsynthetic.trans ?_
  rw [ClosedIdle]
  constructor
  · intro hall a ha hac b hb
    exact ⟨fun hpos => (hall b hb).1 hpos a ha hac, fun hpos => (hall b hb).2 hpos a ha hac⟩
  · intro hall b hb
    exact ⟨fun hpos a ha hac => (hall a ha hac b hb).1 hpos,
      fun hpos a ha hac => (hall a ha hac b hb).2 hpos⟩

end Shape

section Windowed

variable {windowed : List Transfer} {d : HashMap U128 U128 × HashMap U128 U128}

theorem adjustAccount_flags (debitDelta creditDelta : HashMap U128 U128) (c : U64) (a : Account) :
    (adjustAccount debitDelta creditDelta c a).flags = a.flags :=
  (congrArg Account.flags (adjustAccount_fixed debitDelta creditDelta c a) :)

theorem closedIdle_adjusted (hd : Deltas windowed d) (c : U64) (accounts : List Account) :
    ClosedIdle (fun a => a.creditsPosted.toNat) (fun a => a.debitsPosted.toNat)
        (accounts.map (adjustAccount d.1 d.2 c)) ↔
      ClosedIdle (creditsAtCutoff windowed c) (debitsAtCutoff windowed c) accounts := by
  have hcredits (a : Account) : (adjustAccount d.1 d.2 c a).creditsPosted.toNat =
      creditsAtCutoff windowed c a := by
    rw [adjustAccount_credits, hd.credit, creditsAtCutoff]
  have hdebits (a : Account) : (adjustAccount d.1 d.2 c a).debitsPosted.toNat =
      debitsAtCutoff windowed c a := by
    rw [adjustAccount_debits, hd.debit, debitsAtCutoff]
  simp only [ClosedIdle, List.forall_mem_map, adjustAccount_flags, hcredits, hdebits, adjustAccount_id,
    adjustAccount_ledger]

theorem windowSpares_adjusted (d : HashMap U128 U128 × HashMap U128 U128) (c : U64)
    (accounts : List Account) (windowed : List Transfer) :
    WindowSpares (accounts.map (adjustAccount d.1 d.2 c)) windowed ↔
      WindowSpares accounts windowed := by
  simp only [WindowSpares, List.forall_mem_map, adjustAccount_flags, adjustAccount_id]

end Windowed

theorem buildSnapshotImpl_windowedTransfers {prof : Profile} {ord : IterOrder U32 (List Account)}
    {accounts : List Account} {windowedMode : Bool} {plan : BalancePlan}
    (h : buildSnapshotImpl prof ord accounts windowedMode = some plan) :
    plan.windowedTransfers = [] := by
  simp only [buildSnapshotImpl, Option.bind_eq_bind, Option.bind_eq_some_iff] at h
  obtain ⟨_, _, _, _, hplan⟩ := h
  rw [← Option.some.inj hplan]

/-- No plain transfer of a plan names an account that is created closed exactly when no balance
that the plan rebuilds, and no plain transfer of the window, names a closed account. -/
theorem sparesClosed_iff (ord : IterOrder U32 (List Account)) (accounts : List Account)
    (windowed : List Transfer) (c : U64) :
    Delivers (fun prof => build prof ord accounts) (fun plan => plan.SparesClosed ↔
      ClosedIdle (fun a => a.creditsPosted.toNat) (fun a => a.debitsPosted.toNat) accounts) ∧
    Delivers (fun prof => buildWindowed prof ord accounts windowed c) (fun plan =>
      plan.SparesClosed ↔
        ClosedIdle (creditsAtCutoff windowed c) (debitsAtCutoff windowed c) accounts ∧
          WindowSpares accounts windowed) := by
  constructor
  · refine ⟨buildSnapshotImpl_release ord accounts false, ?_⟩
    intro prof plan hplan
    rw [sparesClosed_iff_of_shape (buildSnapshotImpl_shape hplan), buildSnapshotImpl_windowedTransfers hplan]
    exact and_iff_left fun t ht => absurd ht List.not_mem_nil
  · refine ⟨buildWindowed_release ord accounts windowed c, ?_⟩
    intro prof plan hplan
    obtain ⟨d, hd, hwindow, hshape⟩ := buildWindowed_cases hplan
    rw [sparesClosed_iff_of_shape hshape, hwindow, closedIdle_adjusted hd, windowSpares_adjusted]

/-- A closed account that has been credited, and the one that has been debited. -/
def closedCreditor : List Account :=
  [{ Account.holding 7 1 0 5 10 with flags := ⟨1#16 <<< 5⟩ }, .holding 8 1 5 0 11]

theorem closedCreditor_not_spared :
    (∃ plan, build .release .stored closedCreditor = some plan ∧ ¬ plan.SparesClosed) ∧
    ∃ plan, buildWindowed .release .stored closedCreditor [] 12 = some plan ∧
      ¬ plan.SparesClosed := by
  have hidle : ¬ ClosedIdle (fun a => a.creditsPosted.toNat) (fun a => a.debitsPosted.toNat)
      closedCreditor := by decide +kernel
  have hwindow : ¬ ClosedIdle (creditsAtCutoff [] 12) (debitsAtCutoff [] 12) closedCreditor := by
    decide +kernel
  obtain ⟨plan, hplan⟩ := buildSnapshotImpl_release .stored closedCreditor false
  obtain ⟨plan', hplan'⟩ := buildWindowed_release .stored closedCreditor [] 12
  refine ⟨⟨plan, hplan, ?_⟩, plan', hplan', ?_⟩
  · rw [sparesClosed_iff_of_shape (buildSnapshotImpl_shape hplan)]
    exact fun h => hidle h.1
  · obtain ⟨d, hd, _, hshape⟩ := buildWindowed_cases hplan'
    rw [sparesClosed_iff_of_shape hshape, closedIdle_adjusted hd]
    exact fun h => hwindow h.1

end BalancePlan

end TbManager
