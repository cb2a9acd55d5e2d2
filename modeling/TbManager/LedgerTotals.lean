import TbManager.HashIteration
import TbManager.StableSort

/-!
# Totals by ledger

Both pre-flights list the ledgers they find, each with a count and two sums, in
the order of a `BTreeMap`.
-/

namespace TbManager

structure LedgerSummary where
  ledger : U32
  accountCount : U64
  totalDebitsPosted : String
  totalCreditsPosted : String
  deriving DecidableEq, Repr

/-- `(count, debits, credits)`. -/
abbrev LedgerEntry := U64 × U128 × U128

variable {α ν : Type*}

/-- `entry.0 += 1`, and what the handler does to the two sums. -/
def countEntry (prof : Profile) (post : U128 × U128 → α → Option (U128 × U128))
    (entry : LedgerEntry) (x : α) : Option LedgerEntry := do
  let count ← prof.add entry.1 1
  let totals ← post entry.2 x
  some (count, totals)

def ledgerMap (prof : Profile) (ledger : α → U32)
    (post : U128 × U128 → α → Option (U128 × U128)) (xs : List α) :
    Option (HashMap U32 LedgerEntry) :=
  HashMap.updateAll ledger (0, 0, 0) (countEntry prof post) ∅ xs

/-- The entries as a `BTreeMap` iterates them. -/
def inKeyOrder (m : HashMap U32 ν) : List (Σ _ : U32, ν) :=
  m.entries.insertionSort fun e e' => e.1 ≤ e'.1

def ledgerSummary (e : Σ _ : U32, LedgerEntry) : LedgerSummary where
  ledger := e.1
  accountCount := e.2.1
  totalDebitsPosted := toString e.2.2.1.toNat
  totalCreditsPosted := toString e.2.2.2.toNat

def ledgerSummaries (m : HashMap U32 LedgerEntry) : List LedgerSummary :=
  (inKeyOrder m).map ledgerSummary

def addPosted (prof : Profile) (debits credits : α → U128) (totals : U128 × U128) (x : α) :
    Option (U128 × U128) := do
  let debitTotal ← prof.add totals.1 (debits x)
  let creditTotal ← prof.add totals.2 (credits x)
  some (debitTotal, creditTotal)

/-! ## The listed ledgers -/

theorem inKeyOrder_perm (m : HashMap U32 ν) : (inKeyOrder m).Perm m.entries :=
  List.perm_insertionSort _ _

theorem inKeyOrder_keys_lt (m : HashMap U32 ν) :
    ((inKeyOrder m).map fun e => e.1.toNat).Pairwise (· < ·) := by
  have hsorted : ((inKeyOrder m).map fun e => e.1.toNat).Pairwise (· ≤ ·) := by
    rw [List.pairwise_map]
    apply pairwise_insertionSort_key
    intro e e'
    exact BitVec.le_def
  have hnodup : ((inKeyOrder m).map fun e => e.1.toNat).Nodup := by
    have hkeys : ((inKeyOrder m).map Sigma.fst).Nodup :=
      ((inKeyOrder_perm m).map Sigma.fst).nodup_iff.2 m.nodupKeys
    have htoNat := hkeys.map (f := BitVec.toNat) fun _ _ h => BitVec.eq_of_toNat_eq h
    rwa [List.map_map] at htoNat
  exact hsorted.imp₂ (fun _ _ hle hne => lt_of_le_of_ne hle hne) hnodup

section Entries

variable {prof : Profile} {ledger : α → U32} {post : U128 × U128 → α → Option (U128 × U128)}
  {xs : List α} {m : HashMap U32 LedgerEntry}

theorem ledgerMap_keys_perm (h : ledgerMap prof ledger post xs = some m) :
    (m.entries.map Sigma.fst).Perm (xs.map ledger).dedup := by
  refine (List.perm_ext_iff_of_nodup m.nodupKeys (List.nodup_dedup _)).2 fun l => ?_
  rw [List.mem_dedup]
  exact (HashMap.mem_updateAll h l).trans (by simp)

theorem ledgerMap_length (h : ledgerMap prof ledger post xs = some m) :
    m.entries.length = (xs.map ledger).dedup.length := by
  rw [← (ledgerMap_keys_perm h).length_eq, List.length_map]

theorem ledgerSummaries_ledgers_perm (h : ledgerMap prof ledger post xs = some m) :
    ((ledgerSummaries m).map LedgerSummary.ledger).Perm (xs.map ledger).dedup := by
  rw [ledgerSummaries, List.map_map]
  exact ((inKeyOrder_perm m).map Sigma.fst).trans (ledgerMap_keys_perm h)

theorem ledgerSummaries_sorted (m : HashMap U32 LedgerEntry) :
    ((ledgerSummaries m).map fun s => s.ledger.toNat).Pairwise (· < ·) := by
  rw [ledgerSummaries, List.map_map]
  exact inKeyOrder_keys_lt m

/-- The entry of a listed ledger is the fold of the elements on it. -/
theorem entry_of_mem (h : ledgerMap prof ledger post xs = some m) {e : Σ _ : U32, LedgerEntry}
    (he : e ∈ m.entries) :
    (xs.filter fun x => ledger x = e.1).foldlM (countEntry prof post) (0, 0, 0) = some e.2 := by
  have hfold := HashMap.lookup_updateAll h e.1
  rwa [AList.lookup_empty, Option.getD_none, (HashMap.mem_entries_iff _ _ _).1 he,
    Option.getD_some] at hfold

theorem ledgerMap_release (hpost : ∀ totals x, ∃ totals', post totals x = some totals')
    (xs : List α) : ∃ m, ledgerMap .release ledger post xs = some m := by
  apply HashMap.updateAll_total
  intro entry x
  obtain ⟨totals, htotals⟩ := hpost entry.2 x
  exact ⟨(entry.1 + 1, totals), by simp [countEntry, htotals]⟩

end Entries

/-! ## Exact sums -/

/-- The step adds to both sums as long as they fit. -/
def AddsExactly (post : U128 × U128 → α → Option (U128 × U128)) (debits credits : α → U128) :
    Prop :=
  ∀ totals x, totals.1.toNat + (debits x).toNat < 2 ^ 128 →
    totals.2.toNat + (credits x).toNat < 2 ^ 128 →
    post totals x = some (totals.1 + debits x, totals.2 + credits x)

/-- The listed ledgers are those of the elements, each with its number of elements and its
sums. -/
structure ReportsSums (ledger : α → U32) (debits credits : α → U128) (xs : List α)
    (summaries : List LedgerSummary) : Prop where
  ledgers : (summaries.map LedgerSummary.ledger).Perm (xs.map ledger).dedup
  counts : ∀ s ∈ summaries, s.accountCount.toNat = (xs.filter fun x => ledger x = s.ledger).length
  debits : ∀ s ∈ summaries, s.totalDebitsPosted =
    toString (HashMap.keySum ledger debits s.ledger xs)
  credits : ∀ s ∈ summaries, s.totalCreditsPosted =
    toString (HashMap.keySum ledger credits s.ledger xs)

theorem addPosted_addsExactly (prof : Profile) (debits credits : α → U128) :
    AddsExactly (addPosted prof debits credits) debits credits := by
  intro totals x hdebits hcredits
  rw [addPosted, prof.add_of_lt hdebits, prof.add_of_lt hcredits]
  rfl

section Exact

variable {prof : Profile} {ledger : α → U32} {post : U128 × U128 → α → Option (U128 × U128)}
  {debits credits : α → U128} {xs : List α} {m : HashMap U32 LedgerEntry}

theorem countEntry_fold_of_fit (prof : Profile) (hpost : AddsExactly post debits credits)
    {entry : LedgerEntry} (hcount : entry.1.toNat + xs.length < 2 ^ 64)
    (hdebits : entry.2.1.toNat + (xs.map fun x => (debits x).toNat).sum < 2 ^ 128)
    (hcredits : entry.2.2.toNat + (xs.map fun x => (credits x).toNat).sum < 2 ^ 128) :
    ∃ entry', xs.foldlM (countEntry prof post) entry = some entry' ∧
      entry'.1.toNat = entry.1.toNat + xs.length ∧
      entry'.2.1.toNat = entry.2.1.toNat + (xs.map fun x => (debits x).toNat).sum ∧
      entry'.2.2.toNat = entry.2.2.toNat + (xs.map fun x => (credits x).toNat).sum := by
  induction xs generalizing entry with
  | nil => exact ⟨entry, rfl, rfl, rfl, rfl⟩
  | cons x xs ih =>
      rw [List.length_cons] at hcount
      rw [List.map_cons, List.sum_cons] at hdebits hcredits
      have hone : entry.1.toNat + (1 : U64).toNat < 2 ^ 64 := by
        change entry.1.toNat + 1 < 2 ^ 64
        omega
      have hdebit : entry.2.1.toNat + (debits x).toNat < 2 ^ 128 := by omega
      have hcredit : entry.2.2.toNat + (credits x).toNat < 2 ^ 128 := by omega
      have hstep : countEntry prof post entry x =
          some (entry.1 + 1, entry.2.1 + debits x, entry.2.2 + credits x) := by
        rw [countEntry, prof.add_of_lt hone, hpost entry.2 x hdebit hcredit]
        rfl
      have hcounted : (entry.1 + 1).toNat = entry.1.toNat + 1 := BitVec.toNat_add_of_lt hone
      have hdebited := BitVec.toNat_add_of_lt hdebit
      have hcredited := BitVec.toNat_add_of_lt hcredit
      obtain ⟨entry', hfold, hcount', hdebits', hcredits'⟩ :=
        @ih (entry.1 + 1, entry.2.1 + debits x, entry.2.2 + credits x)
          (by dsimp only; omega) (by dsimp only; omega) (by dsimp only; omega)
      dsimp only at hcount' hdebits' hcredits'
      rw [List.foldlM_cons, hstep, List.map_cons, List.map_cons, List.sum_cons, List.sum_cons,
        List.length_cons]
      exact ⟨entry', hfold, by omega, by omega, by omega⟩

variable (hpost : AddsExactly post debits credits) (hlen : FitsVec xs)
  (hdebits : HashMap.SumsFit ledger debits xs) (hcredits : HashMap.SumsFit ledger credits xs)

include hpost hlen hdebits hcredits

theorem ledgerEntry_of_fit (prof : Profile) (l : U32) :
    ∃ entry, (xs.filter fun x => ledger x = l).foldlM (countEntry prof post) (0, 0, 0) =
        some entry ∧
      entry.1.toNat = (xs.filter fun x => ledger x = l).length ∧
      entry.2.1.toNat = HashMap.keySum ledger debits l xs ∧
      entry.2.2.toNat = HashMap.keySum ledger credits l xs := by
  have hcount : ((0, 0, 0) : LedgerEntry).1.toNat + (xs.filter fun x => ledger x = l).length <
      2 ^ 64 := by
    have hfilter := hlen.filter fun x => ledger x = l
    unfold FitsVec at hfilter
    change 0 + _ < 2 ^ 64
    omega
  have hdebit := hdebits l
  have hcredit := hcredits l
  rw [HashMap.keySum_eq_filter] at hdebit hcredit
  obtain ⟨entry, hfold, hcounted, hdebited, hcredited⟩ :=
    countEntry_fold_of_fit prof hpost hcount ((Nat.zero_add _).trans_lt hdebit)
      ((Nat.zero_add _).trans_lt hcredit)
  rw [HashMap.keySum_eq_filter, HashMap.keySum_eq_filter]
  exact ⟨entry, hfold, hcounted.trans (Nat.zero_add _), hdebited.trans (Nat.zero_add _),
    hcredited.trans (Nat.zero_add _)⟩

/-- Sums that fit are reported exactly. -/
theorem reportsSums_of_fit (h : ledgerMap prof ledger post xs = some m) :
    ReportsSums ledger debits credits xs (ledgerSummaries m) := by
  have hentry : ∀ s ∈ ledgerSummaries m, ∃ e : Σ _ : U32, LedgerEntry, s = ledgerSummary e ∧
      e.2.1.toNat = (xs.filter fun x => ledger x = e.1).length ∧
      e.2.2.1.toNat = HashMap.keySum ledger debits e.1 xs ∧
      e.2.2.2.toNat = HashMap.keySum ledger credits e.1 xs := by
    intro s hs
    obtain ⟨e, he, rfl⟩ := List.mem_map.1 hs
    have hfold := entry_of_mem h ((inKeyOrder_perm m).mem_iff.1 he)
    obtain ⟨entry, hfold', hexact⟩ := ledgerEntry_of_fit hpost hlen hdebits hcredits prof e.1
    rw [hfold, Option.some.injEq] at hfold'
    exact ⟨e, rfl, hfold' ▸ hexact⟩
  constructor
  · exact ledgerSummaries_ledgers_perm h
  · intro s hs
    obtain ⟨e, rfl, hcount, -, -⟩ := hentry s hs
    exact hcount
  · intro s hs
    obtain ⟨e, rfl, -, hdebit, -⟩ := hentry s hs
    exact congrArg toString hdebit
  · intro s hs
    obtain ⟨e, rfl, -, -, hcredit⟩ := hentry s hs
    exact congrArg toString hcredit

end Exact

end TbManager
