import Mathlib

/-!
# Heaps with separate owners

A heap maps addresses to blocks. It is split between owners when each block is in the
part of exactly one of them. Whatever one owner does to its own blocks and to free
addresses changes its part only.
-/

namespace TbManager

abbrev Heap (β : Type*) := ℕ → Option β

namespace Heap

variable {β ι : Type*} {h : Heap β} {a : ℕ} {b : β}

def empty : Heap β := fun _ => none

def put (h : Heap β) (a : ℕ) (b : β) : Heap β := Function.update h a (some b)

def release (h : Heap β) (a : ℕ) : Heap β := Function.update h a none

theorem put_same : h.put a b a = some b := Function.update_self ..

theorem put_of_ne {c : ℕ} (hne : c ≠ a) : h.put a b c = h c := Function.update_of_ne hne ..

theorem release_of_ne {c : ℕ} (hne : c ≠ a) : h.release a c = h c := Function.update_of_ne hne ..

/-- What is released at a free address was not there. -/
theorem release_put (hfree : h a = none) : (h.put a b).release a = h := by
  rw [release, put, Function.update_idem, ← hfree, Function.update_eq_self]

theorem put_put (b' : β) : (h.put a b').put a b = h.put a b := Function.update_idem ..

theorem put_comm {a' : ℕ} {b' : β} (hne : a ≠ a') :
    (h.put a b).put a' b' = (h.put a' b').put a b := Function.update_comm hne ..

/-- Each block of the heap is in one of the parts, and in no other. -/
structure Split (h : Heap β) (parts : ι → Heap β) : Prop where
  cell : ∀ a b, h a = some b ↔ ∃ i, parts i a = some b
  apart : ∀ a i j, (parts i a).isSome → (parts j a).isSome → i = j

namespace Split

variable {parts : ι → Heap β} {i : ι}

theorem get (hs : Split h parts) (hown : parts i a = some b) : h a = some b :=
  (hs.cell a b).2 ⟨i, hown⟩

theorem free (hs : Split h parts) (hfree : h a = none) (i : ι) : parts i a = none := by
  rw [Option.eq_none_iff_forall_ne_some]
  intro b hb
  rw [hs.get hb] at hfree
  cases hfree

theorem empty_of_parts (hs : Split h parts) (hparts : ∀ i, parts i = Heap.empty) :
    h = Heap.empty := by
  funext a
  rw [Heap.empty, Option.eq_none_iff_forall_ne_some]
  intro b hb
  obtain ⟨i, hi⟩ := (hs.cell a b).1 hb
  rw [hparts] at hi
  cases hi

variable [DecidableEq ι]

/-- An owner changes a block of its own or a free address. -/
theorem update (hs : Split h parts) (hown : (parts i a).isSome ∨ h a = none) (x : Option β) :
    Split (Function.update h a x)
      (Function.update parts i (Function.update (parts i) a x)) := by
  have hother : ∀ j, j ≠ i → parts j a = none := by
    intro j hj
    rcases hown with hmine | hfree
    · rw [← Option.not_isSome_iff_eq_none]
      exact fun hj' => hj (hs.apart a j i hj' hmine)
    · exact hs.free hfree j
  constructor
  · intro c b
    by_cases hc : c = a
    · subst hc
      rw [Function.update_self]
      constructor
      · intro hx
        exact ⟨i, by rw [Function.update_self, Function.update_self, hx]⟩
      · rintro ⟨j, hj⟩
        by_cases hij : j = i
        · subst hij
          rwa [Function.update_self, Function.update_self] at hj
        · rw [Function.update_of_ne hij, hother j hij] at hj
          cases hj
    · rw [Function.update_of_ne hc, hs.cell]
      apply exists_congr
      intro j
      by_cases hij : j = i
      · subst hij
        rw [Function.update_self, Function.update_of_ne hc]
      · rw [Function.update_of_ne hij]
  · intro c j k hj hk
    have hold : ∀ l, l ≠ i → (Function.update parts i (Function.update (parts i) a x) l c).isSome →
        c ≠ a ∧ (parts l c).isSome := by
      intro l hl hsome
      rw [Function.update_of_ne hl] at hsome
      refine ⟨?_, hsome⟩
      rintro rfl
      rw [hother l hl] at hsome
      cases hsome
    have hmine : c ≠ a → (Function.update parts i (Function.update (parts i) a x) i c).isSome →
        (parts i c).isSome := by
      intro hc hsome
      rwa [Function.update_self, Function.update_of_ne hc] at hsome
    by_cases hji : j = i <;> by_cases hki : k = i
    · rw [hji, hki]
    · subst hji
      obtain ⟨hc, hkc⟩ := hold k hki hk
      exact hs.apart c j k (hmine hc hj) hkc
    · subst hki
      obtain ⟨hc, hjc⟩ := hold j hji hj
      exact hs.apart c j k hjc (hmine hc hk)
    · exact hs.apart c j k (hold j hji hj).2 (hold k hki hk).2

variable {p : Heap β}

theorem put_new (hs : Split h (Function.update parts i p)) (hfree : h a = none) :
    Split (h.put a b) (Function.update parts i (p.put a b)) := by
  have hnew := hs.update (i := i) (.inr hfree) (some b)
  rwa [Function.update_self, Function.update_idem] at hnew

theorem put_own (hs : Split h (Function.update parts i p)) (hown : (p a).isSome) :
    Split (h.put a b) (Function.update parts i (p.put a b)) := by
  have hmine := hs.update (i := i) (a := a) (.inl (by rwa [Function.update_self])) (some b)
  rwa [Function.update_self, Function.update_idem] at hmine

theorem release (hs : Split h (Function.update parts i p)) (hown : (p a).isSome) :
    Split (h.release a) (Function.update parts i (p.release a)) := by
  have hmine := hs.update (i := i) (a := a) (.inl (by rwa [Function.update_self])) none
  rwa [Function.update_self, Function.update_idem] at hmine

theorem get_own (hs : Split h (Function.update parts i p)) (hown : p a = some b) : h a = some b :=
  hs.get (i := i) (by rw [Function.update_self, hown])

end Split

end Heap

end TbManager
