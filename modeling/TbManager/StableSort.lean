import Mathlib

/-!
# Stable sorting by a key

A stable sort orders a list by a key and keeps the order of the elements with
one key. These two properties determine the result, so two programs that sort
stably agree; sorting by one key and then by another sorts by both.
-/

namespace TbManager

variable {α κ κ' : Type*} [LinearOrder κ] [LinearOrder κ']

structure StablySorted (key : α → κ) (xs ys : List α) : Prop where
  sorted : ys.Pairwise fun a b => key a ≤ key b
  ties (k : κ) : (ys.filter fun a => key a = k) = xs.filter fun a => key a = k

section InsertionSort

variable {r : α → α → Prop} [DecidableRel r] {p : α → Bool}

theorem filter_orderedInsert_of_neg {a : α} (ha : ¬ p a) (ys : List α) :
    (ys.orderedInsert r a).filter p = ys.filter p := by
  induction ys with
  | nil => simp [ha]
  | cons y ys ih =>
      by_cases hr : r a y
      · rw [List.orderedInsert_cons_of_le _ _ hr, List.filter_cons_of_neg (by simpa using ha)]
      · rw [List.orderedInsert_of_not_le _ _ hr, List.filter_cons, List.filter_cons, ih]

/-- An element is inserted before the elements it is related to. -/
theorem filter_orderedInsert_of_pos (hp : ∀ a b, p a → p b → r a b) {a : α} (ha : p a)
    (ys : List α) : (ys.orderedInsert r a).filter p = a :: ys.filter p := by
  induction ys with
  | nil => simp [ha]
  | cons y ys ih =>
      by_cases hr : r a y
      · rw [List.orderedInsert_cons_of_le _ _ hr, List.filter_cons_of_pos ha]
      · have hy : ¬ p y := fun hy => hr (hp a y ha hy)
        rw [List.orderedInsert_of_not_le _ _ hr, List.filter_cons_of_neg hy, ih,
          List.filter_cons_of_neg hy]

theorem filter_insertionSort (hp : ∀ a b, p a → p b → r a b) (xs : List α) :
    (xs.insertionSort r).filter p = xs.filter p := by
  induction xs with
  | nil => rfl
  | cons x xs ih =>
      rw [List.insertionSort_cons]
      by_cases hx : p x
      · rw [filter_orderedInsert_of_pos hp hx, ih, List.filter_cons_of_pos hx]
      · rw [filter_orderedInsert_of_neg hx, ih, List.filter_cons_of_neg hx]

theorem pairwise_insertionSort_key {key : α → κ} (hr : ∀ a b, r a b ↔ key a ≤ key b)
    (xs : List α) : (xs.insertionSort r).Pairwise fun a b => key a ≤ key b := by
  have : Std.Total r := ⟨fun a b => by
    rw [hr, hr]
    exact le_total _ _⟩
  have : IsTrans α r := ⟨fun a b c hab hbc => by
    rw [hr] at hab hbc ⊢
    exact hab.trans hbc⟩
  exact (List.pairwise_insertionSort r xs).imp fun hab => (hr _ _).1 hab

/-- A sort by insertion that compares keys is stable. -/
theorem stablySorted_insertionSort {key : α → κ} (hr : ∀ a b, r a b ↔ key a ≤ key b)
    (xs : List α) : StablySorted key xs (xs.insertionSort r) := by
  refine ⟨pairwise_insertionSort_key hr xs, fun k => ?_⟩
  apply filter_insertionSort
  intro a b ha hb
  rw [hr, of_decide_eq_true ha, of_decide_eq_true hb]

end InsertionSort

namespace StablySorted

variable {key : α → κ} {xs ys zs : List α}

theorem eq_nil (h : StablySorted key xs ys) (hxs : xs = []) : ys = [] := by
  apply List.eq_nil_iff_forall_not_mem.2
  intro y hy
  have hmem : y ∈ ys.filter fun a => key a = key y := List.mem_filter.2 ⟨hy, by simp⟩
  rw [h.ties, hxs] at hmem
  cases hmem

theorem mem_iff (h : StablySorted key xs ys) {x : α} : x ∈ ys ↔ x ∈ xs := by
  have hx : x ∈ (ys.filter fun a => key a = key x) ↔ x ∈ xs.filter fun a => key a = key x := by
    rw [h.ties]
  simpa using hx

/-- Two lists ordered by a key that agree on the elements of each key are equal. -/
theorem eq_of_ties (hys : ys.Pairwise fun a b => key a ≤ key b)
    (hzs : zs.Pairwise fun a b => key a ≤ key b)
    (h : ∀ k, (ys.filter fun a => key a = k) = zs.filter fun a => key a = k) : ys = zs := by
  induction ys generalizing zs with
  | nil =>
      have hsorted : StablySorted key [] zs := ⟨hzs, fun k => (h k).symm⟩
      exact (hsorted.eq_nil rfl).symm
  | cons y ys ih =>
      cases zs with
      | nil =>
          have hsorted : StablySorted key [] (y :: ys) := ⟨hys, h⟩
          exact hsorted.eq_nil rfl
      | cons z zs =>
          rw [List.pairwise_cons] at hys hzs
          have hmem : ∀ x, x ∈ y :: ys ↔ x ∈ z :: zs :=
            fun x => mem_iff ⟨List.pairwise_cons.2 hys, fun k => h k⟩
          -- the least keys of both lists are equal, so the heads are one element
          have hyz : key z ≤ key y := by
            rcases List.mem_cons.1 ((hmem y).1 List.mem_cons_self) with heq | hy
            · rw [heq]
            · exact hzs.1 y hy
          have hzy : key y ≤ key z := by
            rcases List.mem_cons.1 ((hmem z).2 List.mem_cons_self) with heq | hz
            · rw [heq]
            · exact hys.1 z hz
          have hkey : key z = key y := le_antisymm hyz hzy
          have hhead := h (key y)
          rw [List.filter_cons_of_pos (by simp), List.filter_cons_of_pos (by simp [hkey]),
            List.cons.injEq] at hhead
          obtain ⟨rfl, htail⟩ := hhead
          rw [ih hys.2 hzs.2]
          intro k
          by_cases hk : key y = k
          · rw [← hk]
            exact htail
          · have hk' := h k
            rwa [List.filter_cons_of_neg (by simpa using hk),
              List.filter_cons_of_neg (by simpa using hk)] at hk'

theorem unique (hy : StablySorted key xs ys) (hz : StablySorted key xs zs) : ys = zs :=
  eq_of_ties hy.sorted hz.sorted fun k => (hy.ties k).trans (hz.ties k).symm

theorem perm (h : StablySorted key xs ys) : ys.Perm xs := by
  have hsort := stablySorted_insertionSort (r := fun a b => key a ≤ key b) (fun _ _ => Iff.rfl) xs
  rw [h.unique hsort]
  exact List.perm_insertionSort _ xs

theorem eq_of_perm {xs' ys' : List α} (h : StablySorted key xs ys) (h' : StablySorted key xs' ys')
    (hperm : xs.Perm xs') (hdistinct : (xs.map key).Nodup) : ys = ys' := by
  have hys : ys.Perm ys' := h.perm.trans (hperm.trans h'.perm.symm)
  refine List.Perm.eq_of_pairwise (fun a b ha hb hab hba => ?_) h.sorted h'.sorted hys
  exact List.inj_on_of_nodup_map hdistinct (h.mem_iff.1 ha) (h.mem_iff.1 (hys.mem_iff.2 hb))
    (le_antisymm hab hba)

theorem filter (h : StablySorted key xs ys) (p : α → Bool) :
    StablySorted key (xs.filter p) (ys.filter p) where
  sorted := h.sorted.filter p
  ties := by
    intro k
    rw [List.filter_comm, h.ties, List.filter_comm]

theorem split (h : StablySorted key xs ys) (bound : κ) :
    ys = ys.filter (fun a => key a < bound) ++ ys.filter fun a => bound ≤ key a := by
  have hsorted := h.sorted
  clear h
  induction ys with
  | nil => rfl
  | cons y ys ih =>
      rw [List.pairwise_cons] at hsorted
      by_cases hy : key y < bound
      · rw [List.filter_cons_of_pos (by simpa using hy),
          List.filter_cons_of_neg (by simpa using hy), List.cons_append, ← ih hsorted.2]
      · have hall : ∀ z ∈ ys, bound ≤ key z := fun z hz => (not_lt.1 hy).trans (hsorted.1 z hz)
        have hnone : ys.filter (fun a => key a < bound) = [] := by
          apply List.filter_eq_nil_iff.2
          intro z hz
          simpa using hall z hz
        have hrest : ys.filter (fun a => bound ≤ key a) = ys := by
          apply List.filter_eq_self.2
          intro z hz
          simpa using hall z hz
        rw [List.filter_cons_of_neg (by simpa using hy), hnone,
          List.filter_cons_of_pos (by simpa using hy), hrest, List.nil_append]

/-- Sorting by one key and then by another orders the ties of the second by the first. -/
theorem andThen {key' : α → κ'} (h : StablySorted key xs ys) (h' : StablySorted key' ys zs) :
    StablySorted (fun a => toLex (key' a, key a)) xs zs := by
  constructor
  · have hties : ∀ k, (zs.filter fun a => key' a = k).Pairwise fun a b => key a ≤ key b := by
      intro k
      rw [h'.ties]
      exact h.sorted.filter _
    rw [List.pairwise_iff_forall_sublist]
    intro a b hab
    have hle := List.pairwise_iff_forall_sublist.1 h'.sorted hab
    rcases hle.lt_or_eq with hlt | heq
    · exact Prod.Lex.toLex_le_toLex.2 (.inl hlt)
    · refine Prod.Lex.toLex_le_toLex.2 (.inr ⟨heq, ?_⟩)
      have hsub : [a, b].Sublist (zs.filter fun c => key' c = key' b) := by
        have hfilter := hab.filter fun c => decide (key' c = key' b)
        rwa [List.filter_cons_of_pos (by simpa using heq), List.filter_cons_of_pos (by simp),
          List.filter_nil] at hfilter
      exact List.pairwise_iff_forall_sublist.1 (hties (key' b)) hsub
  · intro k
    have hboth : ∀ l : List α, (l.filter fun a => toLex (key' a, key a) = k) =
        (l.filter fun a => key' a = (ofLex k).1).filter fun a => key a = (ofLex k).2 := by
      intro l
      rw [List.filter_filter]
      apply List.filter_congr
      intro a _
      rw [Bool.eq_iff_iff, decide_eq_true_iff, Bool.and_eq_true, decide_eq_true_iff,
        decide_eq_true_iff, ← ofLex_inj, ofLex_toLex, Prod.ext_iff, and_comm]
    have hswap : ∀ l : List α, ((l.filter fun a => key' a = (ofLex k).1).filter
        fun a => key a = (ofLex k).2) =
        (l.filter fun a => key a = (ofLex k).2).filter fun a => key' a = (ofLex k).1 := by
      intro l
      rw [List.filter_comm]
    rw [hboth, hboth, h'.ties, hswap, h.ties, ← hswap]

end StablySorted

end TbManager
