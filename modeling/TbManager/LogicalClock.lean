import Mathlib

/-!
# Stamps that run ahead of a clock

A stamp is a time and a tick below a bound. The next stamp takes the reading of
the clock if that is later than the last time, and otherwise counts the ticks on;
when the ticks are used up it carries into the time. Whatever the clock reads, the
stamps increase, none is behind its reading, and they are ahead of the readings
by no more than the carries.
-/

namespace TbManager

@[ext] structure Stamp where
  time : ℕ
  tick : ℕ
  deriving DecidableEq, Repr

namespace Stamp

def code (bound : ℕ) (s : Stamp) : ℕ := s.time * bound + s.tick

/-- The ticks of the time are used up. -/
def Exhausted (bound : ℕ) (s : Stamp) : Prop := s.tick + 1 = bound

instance (bound : ℕ) : DecidablePred (Exhausted bound) := fun s =>
  inferInstanceAs (Decidable (s.tick + 1 = bound))

/-- The stamps that may follow a stamp at a reading. -/
inductive Next (bound reading : ℕ) (s : Stamp) : Stamp → Prop
  | advance {tick : ℕ} (hlater : s.time < reading) (htick : tick < bound) :
      Next bound reading s ⟨reading, tick⟩
  | count (hearlier : reading ≤ s.time) (htick : s.tick + 1 < bound) :
      Next bound reading s ⟨s.time, s.tick + 1⟩
  | carry {tick : ℕ} (hearlier : reading ≤ s.time) (hfull : s.Exhausted bound)
      (htick : tick < bound) : Next bound reading s ⟨s.time + 1, tick⟩

/-- Stamps that follow each other, one for each reading. -/
inductive Series (bound : ℕ) : Stamp → List ℕ → List Stamp → Prop
  | nil (s : Stamp) : Series bound s [] []
  | cons {s s' : Stamp} {reading : ℕ} {readings : List ℕ} {stamps : List Stamp}
      (hnext : Next bound reading s s') (hrest : Series bound s' readings stamps) :
      Series bound s (reading :: readings) (s' :: stamps)

variable {bound reading : ℕ} {s s' : Stamp} {readings : List ℕ} {stamps : List Stamp}

theorem code_lt_of_time_lt (htick : s.tick < bound) (h : s.time < s'.time) :
    s.code bound < s'.code bound := by
  have hle : (s.time + 1) * bound ≤ s'.time * bound := Nat.mul_le_mul_right bound h
  rw [Nat.succ_mul] at hle
  unfold code
  omega

theorem code_div (htick : s.tick < bound) : s.code bound / bound = s.time := by
  rw [code, Nat.add_comm, Nat.add_mul_div_right _ _ (by omega), Nat.div_eq_of_lt htick,
    Nat.zero_add]

theorem code_mod (htick : s.tick < bound) : s.code bound % bound = s.tick := by
  rw [code, Nat.add_comm, Nat.add_mul_mod_self_right, Nat.mod_eq_of_lt htick]

namespace Next

theorem tick_lt (h : Next bound reading s s') : s'.tick < bound := by
  cases h with
  | advance _ htick => exact htick
  | count _ htick => exact htick
  | carry _ _ htick => exact htick

/-- No stamp is behind the reading it was made at. -/
theorem reading_le (h : Next bound reading s s') : reading ≤ s'.time := by
  cases h with
  | advance => exact le_rfl
  | count hearlier => exact hearlier
  | carry hearlier => exact Nat.le_succ_of_le hearlier

theorem code_lt (h : Next bound reading s s') (hs : s.tick < bound) :
    s.code bound < s'.code bound := by
  cases h with
  | advance hlater => exact code_lt_of_time_lt hs hlater
  | count => exact Nat.lt_succ_self _
  | carry => exact code_lt_of_time_lt hs (Nat.lt_succ_self _)

theorem time_le (h : Next bound reading s s') {latest : ℕ} (hs : s.time ≤ latest)
    (hreading : reading ≤ latest) :
    s'.time ≤ latest + if s.Exhausted bound then 1 else 0 := by
  cases h with
  | advance => exact Nat.le_add_right_of_le hreading
  | count => exact Nat.le_add_right_of_le hs
  | carry _ hfull =>
      rw [if_pos hfull]
      exact Nat.succ_le_succ hs

theorem eq_count (h : Next bound reading s s') (hearlier : reading ≤ s.time)
    (htick : s.tick + 1 < bound) : s' = ⟨s.time, s.tick + 1⟩ := by
  cases h with
  | advance hlater => omega
  | count => rfl
  | carry _ hfull =>
      unfold Exhausted at hfull
      omega

end Next

namespace Series

theorem tick_lt (h : Series bound s readings stamps) : ∀ s' ∈ stamps, s'.tick < bound := by
  induction h with
  | nil => exact fun s' hs' => absurd hs' List.not_mem_nil
  | cons hnext _ ih => exact List.forall_mem_cons.2 ⟨hnext.tick_lt, ih⟩

theorem code_lt (h : Series bound s readings stamps) (hs : s.tick < bound) :
    ∀ s' ∈ stamps, s.code bound < s'.code bound := by
  induction h with
  | nil => exact fun s' hs' => absurd hs' List.not_mem_nil
  | cons hnext _ ih =>
      have hlt := hnext.code_lt hs
      exact List.forall_mem_cons.2
        ⟨hlt, fun s' hs' => hlt.trans (ih hnext.tick_lt s' hs')⟩

theorem pairwise (h : Series bound s readings stamps) :
    stamps.Pairwise fun a b => a.code bound < b.code bound := by
  induction h with
  | nil => exact List.Pairwise.nil
  | cons hnext hrest ih => exact List.pairwise_cons.2 ⟨hrest.code_lt hnext.tick_lt, ih⟩

theorem length_eq (h : Series bound s readings stamps) : stamps.length = readings.length := by
  induction h with
  | nil => rfl
  | cons _ _ ih => rw [List.length_cons, List.length_cons, ih]

theorem reading_le (h : Series bound s readings stamps) {k : ℕ}
    (hreading : readings[k]? = some reading) (hstamp : stamps[k]? = some s') :
    reading ≤ s'.time := by
  induction h generalizing k with
  | nil => simp at hstamp
  | cons hnext _ ih =>
      cases k with
      | zero =>
          rw [List.getElem?_cons_zero, Option.some.injEq] at hreading hstamp
          exact hreading ▸ hstamp ▸ hnext.reading_le
      | succ k =>
          rw [List.getElem?_cons_succ] at hreading hstamp
          exact ih hreading hstamp

theorem time_le (h : Series bound s readings stamps) {latest : ℕ} (hs : s.time ≤ latest)
    (hreadings : ∀ reading ∈ readings, reading ≤ latest) :
    ∀ s' ∈ stamps, s'.time ≤ latest + (s :: stamps).countP (Exhausted bound ·) := by
  induction h generalizing latest with
  | nil => exact fun s' hs' => absurd hs' List.not_mem_nil
  | @cons s s₁ reading readings stamps hnext _ ih =>
      obtain ⟨hreading, hlater⟩ := List.forall_mem_cons.1 hreadings
      have hfirst := hnext.time_le hs hreading
      have hrest := ih hfirst fun r hr => Nat.le_add_right_of_le (hlater r hr)
      have hcount : (s :: s₁ :: stamps).countP (Exhausted bound ·) =
          (s₁ :: stamps).countP (Exhausted bound ·) + if s.Exhausted bound then 1 else 0 := by
        simp [List.countP_cons]
      rw [hcount]
      intro s' hs'
      rcases List.mem_cons.1 hs' with rfl | hs'
      · omega
      · have hle := hrest s' hs'
        omega

/-- While the clock is behind and ticks are left, the stamps count on from the last one. -/
theorem code_eq (h : Series bound s readings stamps)
    (hreadings : ∀ reading ∈ readings, reading ≤ s.time)
    (hticks : s.tick + readings.length < bound) :
    stamps.map (code bound) = List.range' (s.code bound + 1) readings.length := by
  induction h with
  | nil => rfl
  | @cons s s₁ reading readings stamps hnext _ ih =>
      obtain ⟨hreading, hlater⟩ := List.forall_mem_cons.1 hreadings
      rw [List.length_cons] at hticks ⊢
      obtain rfl := hnext.eq_count hreading (by omega)
      have hrest := ih hlater (by dsimp only; omega)
      rw [List.map_cons, List.range'_succ, hrest]
      rfl

end Series

end Stamp

end TbManager
