import Mathlib

/-!
# Double-entry books

A posting moves an amount from a debit account to a credit account. A book holds
the totals of the accounts that are open in it; a posting that names an account
that is not open is refused. The closed form `replay_eq` reduces every statement
about a replay to two sums over the postings.
-/

open scoped BigOperators

namespace TbManager

structure Posting (ι M : Type*) where
  debit : ι
  credit : ι
  amount : M
  deriving DecidableEq, Repr

structure Totals (M : Type*) where
  debits : M
  credits : M
  deriving DecidableEq, Repr

section Sums

variable {ι M α : Type*} [DecidableEq ι] [AddCommMonoid M]

def debitTotal (i : ι) (ps : List (Posting ι M)) : M :=
  (ps.map fun p => if p.debit = i then p.amount else 0).sum

def creditTotal (i : ι) (ps : List (Posting ι M)) : M :=
  (ps.map fun p => if p.credit = i then p.amount else 0).sum

/-- The postings that debit or credit one account. -/
def touching (i : ι) (ps : List (Posting ι M)) : List (Posting ι M) :=
  ps.filter fun p => p.debit = i ∨ p.credit = i

@[simp] theorem debitTotal_nil (i : ι) : debitTotal i ([] : List (Posting ι M)) = 0 := rfl

@[simp] theorem creditTotal_nil (i : ι) : creditTotal i ([] : List (Posting ι M)) = 0 := rfl

theorem debitTotal_cons (i : ι) (p : Posting ι M) (ps : List (Posting ι M)) :
    debitTotal i (p :: ps) = (if p.debit = i then p.amount else 0) + debitTotal i ps :=
  List.sum_cons

theorem creditTotal_cons (i : ι) (p : Posting ι M) (ps : List (Posting ι M)) :
    creditTotal i (p :: ps) = (if p.credit = i then p.amount else 0) + creditTotal i ps :=
  List.sum_cons

theorem debitTotal_append (i : ι) (ps qs : List (Posting ι M)) :
    debitTotal i (ps ++ qs) = debitTotal i ps + debitTotal i qs := by
  simp only [debitTotal, List.map_append, List.sum_append]

theorem creditTotal_append (i : ι) (ps qs : List (Posting ι M)) :
    creditTotal i (ps ++ qs) = creditTotal i ps + creditTotal i qs := by
  simp only [creditTotal, List.map_append, List.sum_append]

/-- With pairwise distinct keys, a sum over one key has one term. -/
theorem sum_map_ite_key {key : α → ι} {xs : List α} (hnodup : (xs.map key).Nodup) (f : α → M)
    {x : α} (hx : x ∈ xs) : (xs.map fun y => if key y = key x then f y else 0).sum = f x := by
  induction xs with
  | nil => cases hx
  | cons y ys ih =>
      rw [List.map_cons, List.nodup_cons] at hnodup
      rw [List.map_cons, List.sum_cons]
      rcases List.mem_cons.1 hx with rfl | hx
      · have hrest : (ys.map fun z => if key z = key x then f z else 0).sum = 0 := by
          apply List.sum_eq_zero
          intro m hm
          obtain ⟨z, hz, rfl⟩ := List.mem_map.1 hm
          exact if_neg fun h => hnodup.1 (List.mem_map.2 ⟨z, hz, h⟩)
        rw [if_pos rfl, hrest, add_zero]
      · have hne : key y ≠ key x := fun h => hnodup.1 (List.mem_map.2 ⟨x, hx, h.symm⟩)
        rw [if_neg hne, zero_add, ih hnodup.2 hx]

theorem sum_map_filter (p : α → Prop) [DecidablePred p] (f : α → M) (xs : List α) :
    ((xs.filter fun x => p x).map f).sum = (xs.map fun x => if p x then f x else 0).sum := by
  induction xs with
  | nil => rfl
  | cons x xs ih =>
      by_cases hx : p x
      · rw [List.filter_cons_of_pos (by simpa using hx), List.map_cons, List.map_cons,
          List.sum_cons, List.sum_cons, if_pos hx, ih]
      · rw [List.filter_cons_of_neg (by simpa using hx), List.map_cons, List.sum_cons,
          if_neg hx, zero_add, ih]

theorem debitTotal_flatMap (i : ι) (f : α → List (Posting ι M)) (xs : List α) :
    debitTotal i (xs.flatMap f) = (xs.map fun x => debitTotal i (f x)).sum := by
  induction xs with
  | nil => rfl
  | cons x xs ih => rw [List.flatMap_cons, debitTotal_append, ih, List.map_cons, List.sum_cons]

theorem creditTotal_flatMap (i : ι) (f : α → List (Posting ι M)) (xs : List α) :
    creditTotal i (xs.flatMap f) = (xs.map fun x => creditTotal i (f x)).sum := by
  induction xs with
  | nil => rfl
  | cons x xs ih => rw [List.flatMap_cons, creditTotal_append, ih, List.map_cons, List.sum_cons]

theorem debitTotal_eq_zero {i : ι} {ps : List (Posting ι M)} (h : ∀ p ∈ ps, p.debit ≠ i) :
    debitTotal i ps = 0 := by
  apply List.sum_eq_zero
  intro x hx
  obtain ⟨p, hp, rfl⟩ := List.mem_map.1 hx
  exact if_neg (h p hp)

theorem creditTotal_eq_zero {i : ι} {ps : List (Posting ι M)} (h : ∀ p ∈ ps, p.credit ≠ i) :
    creditTotal i ps = 0 := by
  apply List.sum_eq_zero
  intro x hx
  obtain ⟨p, hp, rfl⟩ := List.mem_map.1 hx
  exact if_neg (h p hp)

theorem debitTotal_touching (i : ι) (ps : List (Posting ι M)) :
    debitTotal i (touching i ps) = debitTotal i ps := by
  induction ps with
  | nil => rfl
  | cons p ps ih =>
      by_cases hp : p.debit = i ∨ p.credit = i
      · rw [touching, List.filter_cons_of_pos (by simpa using hp), debitTotal_cons,
          debitTotal_cons, ← ih]
        rfl
      · rw [touching, List.filter_cons_of_neg (by simpa using hp), debitTotal_cons,
          if_neg (fun h => hp (.inl h)), zero_add, ← ih]
        rfl

theorem creditTotal_touching (i : ι) (ps : List (Posting ι M)) :
    creditTotal i (touching i ps) = creditTotal i ps := by
  induction ps with
  | nil => rfl
  | cons p ps ih =>
      by_cases hp : p.debit = i ∨ p.credit = i
      · rw [touching, List.filter_cons_of_pos (by simpa using hp), creditTotal_cons,
          creditTotal_cons, ← ih]
        rfl
      · rw [touching, List.filter_cons_of_neg (by simpa using hp), creditTotal_cons,
          if_neg (fun h => hp (.inr h)), zero_add, ← ih]
        rfl

theorem debitTotal_perm (i : ι) {ps qs : List (Posting ι M)} (h : ps.Perm qs) :
    debitTotal i ps = debitTotal i qs := (h.map _).sum_eq

theorem creditTotal_perm (i : ι) {ps qs : List (Posting ι M)} (h : ps.Perm qs) :
    creditTotal i ps = creditTotal i qs := (h.map _).sum_eq

theorem amount_le_debitTotal {p : Posting ι ℕ} {ps : List (Posting ι ℕ)} (hp : p ∈ ps) :
    p.amount ≤ debitTotal p.debit ps := by
  obtain ⟨qs, rs, rfl⟩ := List.append_of_mem hp
  rw [debitTotal_append, debitTotal_cons, if_pos rfl]
  omega

theorem debitTotal_of_amount_eq_zero (i : ι) {ps : List (Posting ι M)}
    (h : ∀ p ∈ ps, p.amount = 0) : debitTotal i ps = 0 := by
  apply List.sum_eq_zero
  intro x hx
  obtain ⟨p, hp, rfl⟩ := List.mem_map.1 hx
  rw [h p hp, ite_self]

theorem creditTotal_of_amount_eq_zero (i : ι) {ps : List (Posting ι M)}
    (h : ∀ p ∈ ps, p.amount = 0) : creditTotal i ps = 0 := by
  apply List.sum_eq_zero
  intro x hx
  obtain ⟨p, hp, rfl⟩ := List.mem_map.1 hx
  rw [h p hp, ite_self]

theorem sum_map_ite_mem {ids : List ι} (h : ids.Nodup) (j : ι) (m : M) :
    (ids.map fun i => if j = i then m else 0).sum = if j ∈ ids then m else 0 := by
  by_cases hj : j ∈ ids
  · have hid : (ids.map id).Nodup := by rwa [List.map_id]
    have hsum := sum_map_ite_key hid (fun _ => m) hj
    simpa only [if_pos hj, id_eq, eq_comm] using hsum
  · rw [if_neg hj]
    apply List.sum_eq_zero
    intro x hx
    obtain ⟨i, hi, rfl⟩ := List.mem_map.1 hx
    exact if_neg fun hji => hj (by rwa [hji])

theorem sum_debitTotal {ids : List ι} (h : ids.Nodup) (ps : List (Posting ι M)) :
    (ids.map fun i => debitTotal i ps).sum =
      (ps.map fun p => if p.debit ∈ ids then p.amount else 0).sum := by
  induction ps with
  | nil => simp
  | cons p ps ih =>
      simp only [debitTotal_cons, List.sum_map_add, ih, sum_map_ite_mem h, List.map_cons,
        List.sum_cons]

theorem sum_creditTotal {ids : List ι} (h : ids.Nodup) (ps : List (Posting ι M)) :
    (ids.map fun i => creditTotal i ps).sum =
      (ps.map fun p => if p.credit ∈ ids then p.amount else 0).sum := by
  induction ps with
  | nil => simp
  | cons p ps ih =>
      simp only [creditTotal_cons, List.sum_map_add, ih, sum_map_ite_mem h, List.map_cons,
        List.sum_cons]

/-- The law of double entry: postings that do not cross the border of a set of
accounts leave its total debits equal to its total credits. -/
theorem sum_debitTotal_eq_sum_creditTotal {ids : List ι} (h : ids.Nodup)
    {ps : List (Posting ι M)} (hps : ∀ p ∈ ps, p.debit ∈ ids ↔ p.credit ∈ ids) :
    (ids.map fun i => debitTotal i ps).sum = (ids.map fun i => creditTotal i ps).sum := by
  rw [sum_debitTotal h, sum_creditTotal h]
  congr 1
  apply List.map_congr_left
  intro p hp
  simp only [hps p hp]

omit [AddCommMonoid M] in
theorem touching_append (i : ι) (ps qs : List (Posting ι M)) :
    touching i (ps ++ qs) = touching i ps ++ touching i qs := List.filter_append ps qs

theorem debitTotal_le_of_prefix {i : ι} {ps qs : List (Posting ι ℕ)} (h : qs <+: ps) :
    debitTotal i qs ≤ debitTotal i ps := by
  obtain ⟨rs, rfl⟩ := h
  rw [debitTotal_append]
  omega

theorem creditTotal_le_of_prefix {i : ι} {ps qs : List (Posting ι ℕ)} (h : qs <+: ps) :
    creditTotal i qs ≤ creditTotal i ps := by
  obtain ⟨rs, rfl⟩ := h
  rw [creditTotal_append]
  omega

end Sums

/-- The totals of the open accounts. -/
abbrev Book (ι M : Type*) := ι → Option (Totals M)

namespace Book

variable {ι M : Type*} [DecidableEq ι] [AddCommMonoid M]

/-- A book with the given accounts open and nothing posted. -/
def opening (ids : List ι) : Book ι M := fun i => if i ∈ ids then some ⟨0, 0⟩ else none

def post (b : Book ι M) (p : Posting ι M) : Option (Book ι M) :=
  if (b p.debit).isSome ∧ (b p.credit).isSome then
    some fun i => (b i).map fun t =>
      ⟨t.debits + if p.debit = i then p.amount else 0,
        t.credits + if p.credit = i then p.amount else 0⟩
  else none

def replay (b : Book ι M) (ps : List (Posting ι M)) : Option (Book ι M) := ps.foldlM post b

/-- Replaying postings between open accounts adds to every open account the sums
of the postings that debit and credit it. -/
theorem replay_eq (b : Book ι M) (ps : List (Posting ι M))
    (h : ∀ p ∈ ps, (b p.debit).isSome ∧ (b p.credit).isSome) :
    b.replay ps = some fun i => (b i).map fun t =>
      ⟨t.debits + debitTotal i ps, t.credits + creditTotal i ps⟩ := by
  induction ps generalizing b with
  | nil => simp [replay]
  | cons p ps ih =>
      have hp := h p List.mem_cons_self
      rw [replay, List.foldlM_cons, post, if_pos hp]
      refine (ih _ ?_).trans ?_
      · intro q hq
        simpa using h q (List.mem_cons_of_mem p hq)
      · congr 1
        funext i
        simp only [Option.map_map, Function.comp_def, debitTotal_cons, creditTotal_cons,
          add_assoc]

theorem opening_replay_eq {ids : List ι} {ps : List (Posting ι M)}
    (h : ∀ p ∈ ps, p.debit ∈ ids ∧ p.credit ∈ ids) :
    (opening ids).replay ps = some fun i =>
      if i ∈ ids then some ⟨debitTotal i ps, creditTotal i ps⟩ else none := by
  rw [replay_eq]
  · congr 1
    funext i
    by_cases hi : i ∈ ids <;> simp [opening, hi]
  · intro p hp
    simp [opening, h p hp]

end Book

end TbManager
