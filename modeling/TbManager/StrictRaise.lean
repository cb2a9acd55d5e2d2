import Mathlib

/-!
# Raising a list to a strictly increasing one

Each element that does not exceed its predecessor becomes its successor. The
element at a position is then the greatest of what the elements up to it force:
the start plus one for each position, and every earlier element plus its
distance.
-/

namespace TbManager

def raise : ℕ → List ℕ → List ℕ
  | _, [] => []
  | prev, t :: ts => max t (prev + 1) :: raise (max t (prev + 1)) ts

def raiseEnd : ℕ → List ℕ → ℕ
  | prev, [] => prev
  | prev, t :: ts => raiseEnd (max t (prev + 1)) ts

variable {prev : ℕ} {ts : List ℕ}

theorem length_raise (prev : ℕ) (ts : List ℕ) : (raise prev ts).length = ts.length := by
  induction ts generalizing prev with
  | nil => rfl
  | cons t ts ih => rw [raise, List.length_cons, List.length_cons, ih]

theorem lt_of_mem_raise {x : ℕ} (hx : x ∈ raise prev ts) : prev < x := by
  induction ts generalizing prev with
  | nil => cases hx
  | cons t ts ih =>
      rcases List.mem_cons.1 hx with rfl | hx
      · omega
      · have hlt := ih hx
        omega

theorem pairwise_raise (prev : ℕ) (ts : List ℕ) : (raise prev ts).Pairwise (· < ·) := by
  induction ts generalizing prev with
  | nil => exact List.Pairwise.nil
  | cons t ts ih => exact List.pairwise_cons.2 ⟨fun x hx => lt_of_mem_raise hx, ih _⟩

theorem le_raiseEnd (prev : ℕ) (ts : List ℕ) : prev ≤ raiseEnd prev ts := by
  induction ts generalizing prev with
  | nil => exact le_rfl
  | cons t ts ih =>
      have hle := ih (max t (prev + 1))
      change prev ≤ raiseEnd (max t (prev + 1)) ts
      omega

theorem le_raiseEnd_of_mem {x : ℕ} (hx : x ∈ raise prev ts) : x ≤ raiseEnd prev ts := by
  induction ts generalizing prev with
  | nil => cases hx
  | cons t ts ih =>
      rcases List.mem_cons.1 hx with rfl | hx
      · exact le_raiseEnd _ ts
      · exact ih hx

theorem getLast?_raise (prev : ℕ) (ts : List ℕ) :
    (raise prev ts).getLast?.getD prev = raiseEnd prev ts := by
  induction ts generalizing prev with
  | nil => rfl
  | cons t ts ih => rw [raise, List.getLast?_cons, Option.getD_some, ih, raiseEnd]

/-- Each element is the greater of its own value and the successor of the one before. -/
theorem getElem?_raise_succ {i x t : ℕ} (hx : (raise prev ts)[i]? = some x)
    (ht : ts[i + 1]? = some t) : (raise prev ts)[i + 1]? = some (max t (x + 1)) := by
  induction ts generalizing prev i with
  | nil => cases ht
  | cons u ts ih =>
      rw [raise, List.getElem?_cons_succ]
      rw [List.getElem?_cons_succ] at ht
      cases i with
      | zero =>
          have hhead : max u (prev + 1) = x := by simpa [raise] using hx
          cases ts with
          | nil => cases ht
          | cons v ts =>
              rw [List.getElem?_cons_zero, Option.some.injEq] at ht
              rw [raise, List.getElem?_cons_zero, hhead, ht]
      | succ i =>
          rw [raise, List.getElem?_cons_succ] at hx
          exact ih hx ht

/-- The element at a position stays below a bound exactly when the start and the
elements up to the position leave room for the positions in between. -/
theorem getElem?_raise_lt_iff {i x bound : ℕ} (hx : (raise prev ts)[i]? = some x) :
    x < bound ↔ prev + i + 1 < bound ∧
      ∀ j t, j ≤ i → ts[j]? = some t → t + (i - j) < bound := by
  induction ts generalizing prev i with
  | nil => simp [raise] at hx
  | cons t ts ih =>
      cases i with
      | zero =>
          have hhead : max t (prev + 1) = x := by simpa [raise] using hx
          constructor
          · intro hlt
            refine ⟨by omega, fun j u hj hu => ?_⟩
            rw [Nat.le_zero.1 hj, List.getElem?_cons_zero, Option.some.injEq] at hu
            omega
          · rintro ⟨hstart, hall⟩
            have ht := hall 0 t le_rfl List.getElem?_cons_zero
            omega
      | succ i =>
          rw [raise, List.getElem?_cons_succ] at hx
          rw [ih hx]
          constructor
          · rintro ⟨hstart, hall⟩
            refine ⟨by omega, fun j u hj hu => ?_⟩
            cases j with
            | zero =>
                rw [List.getElem?_cons_zero, Option.some.injEq] at hu
                omega
            | succ j =>
                have hu' := hall j u (by omega) (by rwa [List.getElem?_cons_succ] at hu)
                omega
          · rintro ⟨hstart, hall⟩
            have ht := hall 0 t (Nat.zero_le _) List.getElem?_cons_zero
            refine ⟨by omega, fun j u hj hu => ?_⟩
            have hu' := hall (j + 1) u (by omega) (by rwa [List.getElem?_cons_succ])
            omega

/-- What the start and the elements up to a position force there. -/
def forced (prev : ℕ) (ts : List ℕ) (i : ℕ) : Set ℕ :=
  {n | n = prev + i + 1 ∨ ∃ j t, j ≤ i ∧ ts[j]? = some t ∧ n = t + (i - j)}

theorem isGreatest_raise {i x : ℕ} (hx : (raise prev ts)[i]? = some x) :
    IsGreatest (forced prev ts i) x := by
  obtain ⟨hstart, hbelow⟩ := (getElem?_raise_lt_iff hx).1 (Nat.lt_succ_self x)
  constructor
  · by_contra hnot
    apply absurd ((getElem?_raise_lt_iff hx).2 ⟨?_, fun j t hj ht => ?_⟩) (Nat.lt_irrefl x)
    · have hne : x ≠ prev + i + 1 := fun heq => hnot (.inl heq)
      omega
    · have hne : x ≠ t + (i - j) := fun heq => hnot (.inr ⟨j, t, hj, ht, heq⟩)
      have hle := hbelow j t hj ht
      omega
  · rintro n (rfl | ⟨j, t, hj, ht, rfl⟩)
    · exact Nat.le_of_lt_succ hstart
    · exact Nat.le_of_lt_succ (hbelow j t hj ht)

/-- A sorted list is raised below a bound exactly when, from the start and from each
element on, there is room for all elements that are not less. -/
theorem raiseEnd_lt_iff {bound : ℕ} (hsorted : ts.Pairwise (· ≤ ·)) :
    raiseEnd prev ts < bound ↔ prev + ts.length < bound ∧
      ∀ t ∈ ts, t + ts.countP (fun u => t ≤ u) ≤ bound := by
  induction ts generalizing prev with
  | nil => simp [raiseEnd]
  | cons t ts ih =>
      rw [List.pairwise_cons] at hsorted
      have hall : (t :: ts).countP (fun u => t ≤ u) = ts.length + 1 := by
        rw [List.countP_eq_length.2, List.length_cons]
        intro u hu
        rcases List.mem_cons.1 hu with rfl | hu
        · simp
        · simpa using hsorted.1 u hu
      -- an element of the rest counts the head only if it equals it
      have hrest : ∀ u ∈ ts, u ≠ t →
          (t :: ts).countP (fun v => u ≤ v) = ts.countP fun v => u ≤ v := by
        intro u hu hne
        have hle := hsorted.1 u hu
        rw [List.countP_cons_of_neg]
        simp only [decide_eq_true_eq]
        omega
      rw [raiseEnd, ih hsorted.2, List.length_cons]
      constructor
      · rintro ⟨hstart, hroom⟩
        refine ⟨by omega, fun u hu => ?_⟩
        by_cases hut : u = t
        · rw [hut, hall]
          omega
        · have hu' := (List.mem_cons.1 hu).resolve_left hut
          rw [hrest u hu' hut]
          exact hroom u hu'
      · rintro ⟨hstart, hroom⟩
        have ht := hroom t List.mem_cons_self
        rw [hall] at ht
        refine ⟨by omega, fun u hu => ?_⟩
        have hu' := hroom u (List.mem_cons_of_mem t hu)
        exact (Nat.add_le_add_left (List.Sublist.countP_le (List.sublist_cons_self t ts)) u).trans hu'

/-! ## The least repair -/

/-- A list in place of another: strictly increasing above a start, and nowhere less. -/
structure Repairs (start : ℕ) (ts out : List ℕ) : Prop where
  above : ∀ x ∈ out, start < x
  increasing : out.Pairwise (· < ·)
  atLeast : List.Forall₂ (· ≤ ·) ts out

/-- The repair that is least at every position. -/
structure LeastRepair (start : ℕ) (ts out : List ℕ) : Prop where
  repairs : Repairs start ts out
  least : ∀ other, Repairs start ts other → List.Forall₂ (· ≤ ·) out other

theorem forall₂_le_raise (prev : ℕ) (ts : List ℕ) : List.Forall₂ (· ≤ ·) ts (raise prev ts) := by
  induction ts generalizing prev with
  | nil => exact .nil
  | cons t ts ih => exact .cons (le_max_left t (prev + 1)) (ih _)

theorem raise_le_of_repairs {out : List ℕ} (h : Repairs prev ts out) :
    List.Forall₂ (· ≤ ·) (raise prev ts) out := by
  obtain ⟨habove, hincreasing, hle⟩ := h
  induction hle generalizing prev with
  | nil => exact .nil
  | @cons t x ts out htx _ ih =>
      have hx := habove x List.mem_cons_self
      obtain ⟨hhead, htail⟩ := List.pairwise_cons.1 hincreasing
      have hmax : max t (prev + 1) ≤ x := by omega
      exact .cons hmax (ih (fun y hy => hmax.trans_lt (hhead y hy)) htail)

theorem leastRepair_raise (prev : ℕ) (ts : List ℕ) : LeastRepair prev ts (raise prev ts) :=
  ⟨⟨fun _ hx => lt_of_mem_raise hx, pairwise_raise prev ts, forall₂_le_raise prev ts⟩,
    fun _ h => raise_le_of_repairs h⟩

theorem LeastRepair.eq_self {out : List ℕ} (h : LeastRepair prev ts out)
    (habove : ∀ x ∈ ts, prev < x) (hincreasing : ts.Pairwise (· < ·)) : out = ts := by
  have hle := h.least ts ⟨habove, hincreasing, List.forall₂_refl ts⟩
  have hge := h.repairs.atLeast
  rw [List.forall₂_iff_get] at hle hge
  apply List.ext_get hle.1
  intro i hi hi'
  exact le_antisymm (hle.2 i hi hi') (hge.2 i hi' hi)

end TbManager
