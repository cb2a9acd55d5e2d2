import Mathlib

/-!
# Unsigned machine integers under the two build profiles

Addition, subtraction and multiplication of fixed-width unsigned integers panic
on overflow in a build with overflow checks and wrap in a build without them.
`Delivers` states a property of a computation for both builds at once.
-/

namespace TbManager

abbrev U8 := BitVec 8
abbrev U16 := BitVec 16
abbrev U32 := BitVec 32
abbrev U64 := BitVec 64
abbrev U128 := BitVec 128

/-- `debug` has overflow checks, `release` wraps. -/
inductive Profile where
  | debug
  | release
  deriving DecidableEq, Repr

/-- A `Vec` holds at most `isize::MAX` bytes. -/
def FitsVec {α : Type*} (xs : List α) : Prop := xs.length < 2 ^ 63

instance {α : Type*} (xs : List α) : Decidable (FitsVec xs) :=
  inferInstanceAs (Decidable (xs.length < 2 ^ 63))

theorem FitsVec.filter {α : Type*} {xs : List α} (h : FitsVec xs) (p : α → Bool) :
    FitsVec (xs.filter p) :=
  (List.length_filter_le p xs).trans_lt h

theorem FitsVec.toNat_length {α : Type*} {xs : List α} (h : FitsVec xs) :
    (BitVec.ofNat 64 xs.length).toNat = xs.length :=
  Nat.mod_eq_of_lt (h.trans (by decide))

variable {w : ℕ}

/-- `checked_add`: no value on overflow, in every build. -/
def checkedAdd (a b : BitVec w) : Option (BitVec w) :=
  if a.toNat + b.toNat < 2 ^ w then some (a + b) else none

def checkedSub (a b : BitVec w) : Option (BitVec w) :=
  if b ≤ a then some (a - b) else none

def checkedMul (a b : BitVec w) : Option (BitVec w) :=
  if a.toNat * b.toNat < 2 ^ w then some (a * b) else none

def saturatingSub (a b : BitVec w) : BitVec w := if b ≤ a then a - b else 0#w

theorem toNat_saturatingSub (a b : BitVec w) :
    (saturatingSub a b).toNat = a.toNat - b.toNat := by
  unfold saturatingSub
  split_ifs with h
  · exact BitVec.toNat_sub_of_le h
  · rw [BitVec.le_def, not_le] at h
    rw [BitVec.toNat_zero]
    omega

def saturatingAdd (a b : BitVec w) : BitVec w :=
  if a.toNat + b.toNat < 2 ^ w then a + b else BitVec.allOnes w

theorem checkedAdd_eq_some_iff (a b c : BitVec w) :
    checkedAdd a b = some c ↔ c.toNat = a.toNat + b.toNat := by
  unfold checkedAdd
  constructor
  · intro h
    split_ifs at h with hlt
    rw [← Option.some.inj h, BitVec.toNat_add_of_lt hlt]
  · intro h
    have hlt : a.toNat + b.toNat < 2 ^ w := h ▸ c.isLt
    rw [if_pos hlt, Option.some.injEq]
    apply BitVec.eq_of_toNat_eq
    rw [BitVec.toNat_add_of_lt hlt, h]

namespace Profile

/-- The result of an operation whose wrapped value is `wrapped` and whose value
within range, if there is one, is `checked`. No value is the panic. -/
def arith (prof : Profile) (checked : Option (BitVec w)) (wrapped : BitVec w) :
    Option (BitVec w) :=
  match prof with
  | .debug => checked
  | .release => some wrapped

def add (prof : Profile) (a b : BitVec w) : Option (BitVec w) :=
  prof.arith (checkedAdd a b) (a + b)

def sub (prof : Profile) (a b : BitVec w) : Option (BitVec w) :=
  prof.arith (checkedSub a b) (a - b)

def mul (prof : Profile) (a b : BitVec w) : Option (BitVec w) :=
  prof.arith (checkedMul a b) (a * b)

/-- `debug_assert!`: checked in the debug build only. -/
def debugAssert (prof : Profile) (condition : Bool) : Option Unit :=
  match prof with
  | .debug => if condition then some () else none
  | .release => some ()

@[simp] theorem release_add (a b : BitVec w) : release.add a b = some (a + b) := rfl

@[simp] theorem release_sub (a b : BitVec w) : release.sub a b = some (a - b) := rfl

@[simp] theorem release_mul (a b : BitVec w) : release.mul a b = some (a * b) := rfl

theorem add_of_lt (prof : Profile) {a b : BitVec w} (h : a.toNat + b.toNat < 2 ^ w) :
    prof.add a b = some (a + b) := by
  cases prof with
  | debug => exact if_pos h
  | release => rfl

theorem sub_of_le (prof : Profile) {a b : BitVec w} (h : b ≤ a) :
    prof.sub a b = some (a - b) := by
  cases prof with
  | debug => exact if_pos h
  | release => rfl

theorem mul_of_lt (prof : Profile) {a b : BitVec w} (h : a.toNat * b.toNat < 2 ^ w) :
    prof.mul a b = some (a * b) := by
  cases prof with
  | debug => exact if_pos h
  | release => rfl

theorem debugAssert_of_true (prof : Profile) {condition : Bool} (h : condition = true) :
    prof.debugAssert condition = some () := by
  cases prof with
  | debug => exact if_pos h
  | release => rfl

/-- The number as a machine integer, as sums and products of unsigned numbers give it. -/
def fit (prof : Profile) (n : ℕ) : Option (BitVec w) :=
  prof.arith (if n < 2 ^ w then some (BitVec.ofNat w n) else none) (BitVec.ofNat w n)

theorem mul_eq_fit (prof : Profile) (a b : BitVec w) :
    prof.mul a b = prof.fit (a.toNat * b.toNat) := by
  have hmul : a * b = BitVec.ofNat w (a.toNat * b.toNat) := by
    apply BitVec.eq_of_toNat_eq
    rw [BitVec.toNat_mul, BitVec.toNat_ofNat]
  rw [mul, fit, checkedMul, hmul]

theorem add_eq_fit (prof : Profile) (a b : BitVec w) :
    prof.add a b = prof.fit (a.toNat + b.toNat) := by
  have hadd : a + b = BitVec.ofNat w (a.toNat + b.toNat) := by
    apply BitVec.eq_of_toNat_eq
    rw [BitVec.toNat_add, BitVec.toNat_ofNat]
  rw [add, fit, checkedAdd, hadd]

theorem toNat_of_fit {prof : Profile} {n : ℕ} {a : BitVec w} (h : prof.fit n = some a) :
    a.toNat = n % 2 ^ w := by
  cases prof with
  | debug =>
      change (if n < 2 ^ w then some (BitVec.ofNat w n) else none) = some a at h
      split_ifs at h
      rw [← Option.some.inj h, BitVec.toNat_ofNat]
  | release => rw [← Option.some.inj h, BitVec.toNat_ofNat]

theorem fit_of_lt (prof : Profile) {n : ℕ} (h : n < 2 ^ w) :
    prof.fit n = some (BitVec.ofNat w n) := by
  cases prof with
  | debug => exact if_pos h
  | release => rfl

/-- Only a build with overflow checks has no value, and only on overflow. -/
theorem fit_eq_none_iff {prof : Profile} {n : ℕ} :
    (prof.fit n : Option (BitVec w)) = none ↔ prof = .debug ∧ 2 ^ w ≤ n := by
  cases prof with
  | debug =>
      change (if n < 2 ^ w then some (BitVec.ofNat w n) else none) = none ↔ _
      split_ifs with h
      · simp only [true_and, false_iff, not_le]
        exact h
      · simpa using h
  | release => simp [fit, arith]

theorem fit_add (prof : Profile) (m n : ℕ) :
    (prof.fit m >>= fun a => prof.fit n >>= fun b => prof.add a b) =
      (prof.fit (m + n) : Option (BitVec w)) := by
  cases prof with
  | debug =>
      have hnone : ∀ k, 2 ^ w ≤ k → (debug.fit k : Option (BitVec w)) = none :=
        fun k hk => fit_eq_none_iff.2 ⟨rfl, hk⟩
      by_cases hm : m < 2 ^ w
      · by_cases hn : n < 2 ^ w
        · rw [fit_of_lt _ hm, fit_of_lt _ hn]
          change debug.add _ _ = _
          rw [add_eq_fit, BitVec.toNat_ofNat, BitVec.toNat_ofNat, Nat.mod_eq_of_lt hm,
            Nat.mod_eq_of_lt hn]
        · rw [fit_of_lt _ hm, hnone n (not_lt.1 hn), hnone (m + n) (by omega)]
          rfl
      · rw [hnone m (not_lt.1 hm), hnone (m + n) (by omega)]
        rfl
  | release =>
      apply congrArg some
      apply BitVec.eq_of_toNat_eq
      rw [BitVec.toNat_add, BitVec.toNat_ofNat, BitVec.toNat_ofNat, BitVec.toNat_ofNat,
        ← Nat.add_mod]

theorem fit_add_of {prof : Profile} {m : ℕ} {a : BitVec w} (h : prof.fit m = some a) (n : ℕ) :
    (prof.fit n >>= fun b => prof.add a b) = prof.fit (m + n) := by
  have hadd := prof.fit_add (w := w) m n
  rwa [h] at hadd

theorem mod_of_fit_debug {n : ℕ} {a : BitVec w} (h : debug.fit n = some a) : n % 2 ^ w = n := by
  apply Nat.mod_eq_of_lt
  by_contra hover
  rw [fit_eq_none_iff.2 ⟨rfl, not_lt.1 hover⟩] at h
  cases h

theorem mul_ofNat (prof : Profile) {n : ℕ} {b : BitVec w} (hn : n < 2 ^ w)
    (h : n * b.toNat < 2 ^ w) :
    prof.mul (BitVec.ofNat w n) b = some (BitVec.ofNat w (n * b.toNat)) := by
  rw [mul_eq_fit, BitVec.toNat_ofNat, Nat.mod_eq_of_lt hn]
  exact prof.fit_of_lt h

theorem add_ofNat (prof : Profile) {a : BitVec w} {n : ℕ} (h : a.toNat + n < 2 ^ w) :
    prof.add a (BitVec.ofNat w n) = some (BitVec.ofNat w (a.toNat + n)) := by
  rw [add_eq_fit, BitVec.toNat_ofNat, Nat.mod_eq_of_lt (by omega)]
  exact prof.fit_of_lt h

theorem eq_of_add_eq_some {prof : Profile} {a b c : BitVec w} (h : prof.add a b = some c) :
    c = a + b := by
  cases prof with
  | debug =>
      have hc := (checkedAdd_eq_some_iff a b c).1 h
      apply BitVec.eq_of_toNat_eq
      rw [BitVec.toNat_add_of_lt (hc ▸ c.isLt), hc]
  | release => exact (Option.some.inj h).symm

end Profile

/-- Every build that returns a value returns one with the property, and the
release build returns. -/
def Delivers {α : Type*} (run : Profile → Option α) (P : α → Prop) : Prop :=
  (∃ a, run .release = some a) ∧ ∀ prof a, run prof = some a → P a

theorem Delivers.mono {α : Type*} {run : Profile → Option α} {P Q : α → Prop}
    (h : Delivers run P) (hpq : ∀ a, P a → Q a) : Delivers run Q :=
  ⟨h.1, fun prof a ha => hpq a (h.2 prof a ha)⟩

end TbManager
