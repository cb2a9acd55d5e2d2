import TbManager.Importer

/-!
# Replaying a snapshot plan

The synthetic transfers of a plan are postings between accounts of the plan, so
their replay always succeeds; its totals are two sums over the planned accounts.
-/

namespace TbManager

attribute [local irreducible] genesisCreditId genesisDebitId

/-- No account has a genesis id of a ledger in the list. -/
def AvoidGenesisIds (accounts : List Account) : Prop :=
  ∀ a ∈ accounts, ∀ b ∈ accounts,
    a.id ≠ genesisCreditId b.ledger ∧ a.id ≠ genesisDebitId b.ledger

instance (accounts : List Account) : Decidable (AvoidGenesisIds accounts) :=
  inferInstanceAs (Decidable (∀ a ∈ accounts, ∀ b ∈ accounts,
    a.id ≠ genesisCreditId b.ledger ∧ a.id ≠ genesisDebitId b.ledger))

/-- Distinct account ids, none of them a genesis id of a ledger in the list. -/
structure FreshIds (accounts : List Account) : Prop where
  distinct : (accounts.map Account.id).Nodup
  notGenesis : AvoidGenesisIds accounts

instance (accounts : List Account) : Decidable (FreshIds accounts) :=
  decidable_of_iff ((accounts.map Account.id).Nodup ∧ AvoidGenesisIds accounts)
    ⟨fun h => ⟨h.1, h.2⟩, fun h => ⟨h.distinct, h.notGenesis⟩⟩

namespace FreshIds

variable {accounts accounts' : List Account}

theorem ne_genesis (h : FreshIds accounts) {i : U128} {l : U32}
    (hi : i ∈ accounts.map Account.id) (hl : l ∈ accounts.map Account.ledger) :
    i ≠ genesisCreditId l ∧ i ≠ genesisDebitId l := by
  obtain ⟨a, ha, rfl⟩ := List.mem_map.1 hi
  obtain ⟨b, hb, rfl⟩ := List.mem_map.1 hl
  exact h.notGenesis a ha b hb

theorem congr (h : FreshIds accounts)
    (hid : (accounts'.map Account.id).Perm (accounts.map Account.id))
    (hledger : (accounts'.map Account.ledger).Perm (accounts.map Account.ledger)) :
    FreshIds accounts' := by
  refine ⟨hid.nodup_iff.2 h.distinct, fun a ha b hb => h.ne_genesis ?_ ?_⟩
  · exact hid.mem_iff.1 (List.mem_map_of_mem ha)
  · exact hledger.mem_iff.1 (List.mem_map_of_mem hb)

end FreshIds

/-- The sum of the posted credits of the accounts of a ledger. -/
def ledgerCredits (l : U32) (accounts : List Account) : ℕ :=
  ((accounts.filter fun a => a.ledger = l).map fun a => a.creditsPosted.toNat).sum

/-- The sum of the posted debits of the accounts of a ledger. -/
def ledgerDebits (l : U32) (accounts : List Account) : ℕ :=
  ((accounts.filter fun a => a.ledger = l).map fun a => a.debitsPosted.toNat).sum

namespace BalancePlan

/-- The accounts of a plan, created with nothing posted. -/
def openBook (plan : BalancePlan) : Book U128 ℕ :=
  Book.opening ((plan.genesisAccounts ++ plan.regularAccounts).map Account.id)

def syntheticPostings (plan : BalancePlan) : List (Posting U128 ℕ) :=
  plan.syntheticTransfers.map SyntheticTransfer.posting

def windowedPostings (plan : BalancePlan) : List (Posting U128 ℕ) :=
  plan.windowedTransfers.map Transfer.posting

namespace Shape

variable {accounts : List Account} {plan : BalancePlan}

theorem idPerm (h : Shape accounts plan) :
    (plan.regularAccounts.map Account.id).Perm (accounts.map Account.id) := by
  have hm := h.regular.map Account.id
  rw [List.map_map, List.map_map] at hm
  exact hm

theorem ledgerPerm (h : Shape accounts plan) :
    (plan.regularAccounts.map Account.ledger).Perm (accounts.map Account.ledger) :=
  map_ledger_of_untimed h.regular

/-- The accounts opened by a plan: the planned ids and the genesis ids. -/
theorem mem_openIds (h : Shape accounts plan) (i : U128) :
    i ∈ (plan.genesisAccounts ++ plan.regularAccounts).map Account.id ↔
      (∃ l ∈ accounts.map Account.ledger, i = genesisCreditId l ∨ i = genesisDebitId l) ∨
        i ∈ accounts.map Account.id := by
  rw [List.map_append, List.mem_append, h.genesisIds, h.idPerm.mem_iff]

theorem posting_open (h : Shape accounts plan) {p : Posting U128 ℕ}
    (hp : p ∈ plan.syntheticPostings) :
    p.debit ∈ (plan.genesisAccounts ++ plan.regularAccounts).map Account.id ∧
      p.credit ∈ (plan.genesisAccounts ++ plan.regularAccounts).map Account.id := by
  rw [syntheticPostings, h.postings] at hp
  obtain ⟨a, ha, hp⟩ := List.mem_flatMap.1 hp
  have hid : a.id ∈ accounts.map Account.id := h.idPerm.mem_iff.1 (List.mem_map_of_mem ha)
  have hl : a.ledger ∈ accounts.map Account.ledger :=
    h.ledgerPerm.mem_iff.1 (List.mem_map_of_mem ha)
  rw [h.mem_openIds, h.mem_openIds]
  rcases Account.mem_postings hp with ⟨hd, hc⟩ | ⟨hd, hc⟩
  · rw [hd, hc]
    exact ⟨.inl ⟨a.ledger, hl, .inl rfl⟩, .inr hid⟩
  · rw [hd, hc]
    exact ⟨.inr hid, .inl ⟨a.ledger, hl, .inr rfl⟩⟩

theorem exists_account (h : Shape accounts plan) {b : Account} (hb : b ∈ plan.regularAccounts) :
    ∃ a ∈ accounts, a.untimed = b.untimed :=
  List.mem_map.1 (h.regular.mem_iff.1 (List.mem_map_of_mem hb))

theorem exists_planned (h : Shape accounts plan) {a : Account} (ha : a ∈ accounts) :
    ∃ b ∈ plan.regularAccounts, b.untimed = a.untimed :=
  List.mem_map.1 (h.regular.mem_iff.2 (List.mem_map_of_mem ha))

/-- A sum over the planned accounts that ignores timestamps is a sum over the
accounts the plan was made from. -/
theorem sum_regular (h : Shape accounts plan) (f : Account → ℕ)
    (hf : ∀ a, f a.untimed = f a) :
    (plan.regularAccounts.map f).sum = (accounts.map f).sum := by
  have hm := (h.regular.map f).sum_eq
  simpa only [List.map_map, Function.comp_def, hf] using hm

theorem debitTotal_synthetic (h : Shape accounts plan) (i : U128) :
    debitTotal i plan.syntheticPostings =
      (accounts.map fun a =>
        if genesisCreditId a.ledger = i then a.creditsPosted.toNat else 0).sum +
      (accounts.map fun a => if a.id = i then a.debitsPosted.toNat else 0).sum := by
  rw [syntheticPostings, h.postings, debitTotal_flatMap,
    h.sum_regular (fun a => debitTotal i a.postings) fun a => rfl, ← List.sum_map_add]
  simp only [Account.debitTotal_postings]

theorem creditTotal_synthetic (h : Shape accounts plan) (i : U128) :
    creditTotal i plan.syntheticPostings =
      (accounts.map fun a => if a.id = i then a.creditsPosted.toNat else 0).sum +
      (accounts.map fun a =>
        if genesisDebitId a.ledger = i then a.debitsPosted.toNat else 0).sum := by
  rw [syntheticPostings, h.postings, creditTotal_flatMap,
    h.sum_regular (fun a => creditTotal i a.postings) fun a => rfl, ← List.sum_map_add]
  simp only [Account.creditTotal_postings]

theorem sum_ite_eq_zero {xs : List Account} {p : Account → Prop} [DecidablePred p]
    (f : Account → ℕ) (h : ∀ a ∈ xs, ¬ p a) : (xs.map fun a => if p a then f a else 0).sum = 0 := by
  apply List.sum_eq_zero
  intro n hn
  obtain ⟨a, ha, rfl⟩ := List.mem_map.1 hn
  exact if_neg (h a ha)

theorem genesisCreditId_eq_iff (l l' : U32) : genesisCreditId l = genesisCreditId l' ↔ l = l' :=
  ⟨genesisCreditId_inj, congrArg genesisCreditId⟩

theorem genesisDebitId_eq_iff (l l' : U32) : genesisDebitId l = genesisDebitId l' ↔ l = l' :=
  ⟨genesisDebitId_inj, congrArg genesisDebitId⟩

section Fresh

variable (h : Shape accounts plan) (hf : FreshIds accounts)
include h hf

theorem debitTotal_account {a : Account} (ha : a ∈ accounts) :
    debitTotal a.id plan.syntheticPostings = a.debitsPosted.toNat := by
  rw [h.debitTotal_synthetic, sum_map_ite_key hf.distinct (fun a => a.debitsPosted.toNat) ha,
    sum_ite_eq_zero, zero_add]
  intro b hb heq
  exact (hf.notGenesis a ha b hb).1 heq.symm

theorem creditTotal_account {a : Account} (ha : a ∈ accounts) :
    creditTotal a.id plan.syntheticPostings = a.creditsPosted.toNat := by
  rw [h.creditTotal_synthetic, sum_map_ite_key hf.distinct (fun a => a.creditsPosted.toNat) ha,
    sum_ite_eq_zero, add_zero]
  intro b hb heq
  exact (hf.notGenesis a ha b hb).2 heq.symm

theorem debitTotal_genesisCredit {l : U32} (hl : l ∈ accounts.map Account.ledger) :
    debitTotal (genesisCreditId l) plan.syntheticPostings = ledgerCredits l accounts := by
  have hids : (accounts.map fun a =>
      if a.id = genesisCreditId l then a.debitsPosted.toNat else 0).sum = 0 :=
    sum_ite_eq_zero _ fun b hb => (hf.ne_genesis (List.mem_map_of_mem hb) hl).1
  rw [h.debitTotal_synthetic, hids, add_zero, ledgerCredits, sum_map_filter]
  simp only [genesisCreditId_eq_iff]

theorem creditTotal_genesisCredit {l : U32} (hl : l ∈ accounts.map Account.ledger) :
    creditTotal (genesisCreditId l) plan.syntheticPostings = 0 := by
  have hids : (accounts.map fun a =>
      if a.id = genesisCreditId l then a.creditsPosted.toNat else 0).sum = 0 :=
    sum_ite_eq_zero _ fun b hb => (hf.ne_genesis (List.mem_map_of_mem hb) hl).1
  rw [h.creditTotal_synthetic, hids, zero_add]
  exact sum_ite_eq_zero _ fun b _ => (genesisCreditId_ne_genesisDebitId l b.ledger).symm

theorem debitTotal_genesisDebit {l : U32} (hl : l ∈ accounts.map Account.ledger) :
    debitTotal (genesisDebitId l) plan.syntheticPostings = 0 := by
  have hids : (accounts.map fun a =>
      if a.id = genesisDebitId l then a.debitsPosted.toNat else 0).sum = 0 :=
    sum_ite_eq_zero _ fun b hb => (hf.ne_genesis (List.mem_map_of_mem hb) hl).2
  rw [h.debitTotal_synthetic, hids, add_zero]
  exact sum_ite_eq_zero _ fun b _ => genesisCreditId_ne_genesisDebitId b.ledger l

theorem creditTotal_genesisDebit {l : U32} (hl : l ∈ accounts.map Account.ledger) :
    creditTotal (genesisDebitId l) plan.syntheticPostings = ledgerDebits l accounts := by
  have hids : (accounts.map fun a =>
      if a.id = genesisDebitId l then a.creditsPosted.toNat else 0).sum = 0 :=
    sum_ite_eq_zero _ fun b hb => (hf.ne_genesis (List.mem_map_of_mem hb) hl).2
  rw [h.creditTotal_synthetic, hids, zero_add, ledgerDebits, sum_map_filter]
  simp only [genesisDebitId_eq_iff]

end Fresh

/-- The replay of the synthetic transfers, as a book. -/
theorem replay_synthetic (h : Shape accounts plan) :
    plan.openBook.replay plan.syntheticPostings = some fun i =>
      if i ∈ (plan.genesisAccounts ++ plan.regularAccounts).map Account.id then
        some ⟨debitTotal i plan.syntheticPostings, creditTotal i plan.syntheticPostings⟩
      else none :=
  Book.opening_replay_eq fun _ hp => h.posting_open hp

end Shape

/-- The book after the replay of a snapshot plan: every account at its original
totals, the genesis accounts at the totals of their ledgers. -/
structure Rebuilt (accounts : List Account) (book : Book U128 ℕ) : Prop where
  account : ∀ a ∈ accounts, book a.id = some a.postedTotals
  genesisCredit : ∀ l ∈ accounts.map Account.ledger,
    book (genesisCreditId l) = some ⟨ledgerCredits l accounts, 0⟩
  genesisDebit : ∀ l ∈ accounts.map Account.ledger,
    book (genesisDebitId l) = some ⟨0, ledgerDebits l accounts⟩

theorem Shape.rebuilt {accounts : List Account} {plan : BalancePlan} (h : Shape accounts plan)
    (hf : FreshIds accounts) :
    ∃ book, plan.openBook.replay plan.syntheticPostings = some book ∧ Rebuilt accounts book := by
  refine ⟨_, h.replay_synthetic, ?_, ?_, ?_⟩
  · intro a ha
    have hopen := (h.mem_openIds a.id).2 (.inr (List.mem_map_of_mem ha))
    rw [if_pos hopen, h.debitTotal_account hf ha, h.creditTotal_account hf ha]
    rfl
  · intro l hl
    have hopen := (h.mem_openIds (genesisCreditId l)).2 (.inl ⟨l, hl, .inl rfl⟩)
    rw [if_pos hopen, h.debitTotal_genesisCredit hf hl, h.creditTotal_genesisCredit hf hl]
  · intro l hl
    have hopen := (h.mem_openIds (genesisDebitId l)).2 (.inl ⟨l, hl, .inr rfl⟩)
    rw [if_pos hopen, h.debitTotal_genesisDebit hf hl, h.creditTotal_genesisDebit hf hl]

theorem build_delivers (ord : IterOrder U32 (List Account)) (accounts : List Account) :
    Delivers (fun prof => build prof ord accounts) (Shape accounts) :=
  ⟨buildSnapshotImpl_release ord accounts false, fun _ _ hplan => buildSnapshotImpl_shape hplan⟩

/-- A snapshot migration preserves every balance, and balances the two genesis
accounts of a ledger exactly when the ledger itself balances. -/
theorem build_preserves_balances (ord : IterOrder U32 (List Account)) (accounts : List Account)
    (hf : FreshIds accounts) :
    Delivers (fun prof => build prof ord accounts) fun plan =>
      ∃ book, plan.openBook.replay plan.syntheticPostings = some book ∧
        Rebuilt accounts book ∧
        ∀ l ∈ accounts.map Account.ledger,
          ((book (genesisCreditId l)).map Totals.debits =
            (book (genesisDebitId l)).map Totals.credits ↔
          ledgerCredits l accounts = ledgerDebits l accounts) := by
  apply (build_delivers ord accounts).mono
  intro plan hshape
  obtain ⟨book, hbook, hr⟩ := hshape.rebuilt hf
  refine ⟨book, hbook, hr, ?_⟩
  intro l hl
  rw [hr.genesisCredit l hl, hr.genesisDebit l hl]
  exact Option.some_inj

/-- Two accounts on one ledger and one on another. -/
def twoLedgers : List Account :=
  [.holding 7 1 40 100 30, .holding 8 2 0 5 20, .holding 9 1 60 0 10]

theorem build_preserves_balances_twoLedgers :
    FreshIds twoLedgers ∧
    Delivers (fun prof => build prof .stored twoLedgers) fun plan =>
      ∃ book, plan.openBook.replay plan.syntheticPostings = some book ∧
        Rebuilt twoLedgers book ∧
        ∀ l ∈ twoLedgers.map Account.ledger,
          ((book (genesisCreditId l)).map Totals.debits =
            (book (genesisDebitId l)).map Totals.credits ↔
          ledgerCredits l twoLedgers = ledgerDebits l twoLedgers) :=
  have hf : FreshIds twoLedgers := by decide +kernel
  ⟨hf, build_preserves_balances .stored twoLedgers hf⟩

end BalancePlan

end TbManager
