import TbManager.CsvPreflight

/-!
# Decimal numbers as text

A string denotes a number by its decimal digits, with a plus sign before them or not. Parsing
accepts exactly the strings that denote a number of 128 bits, and reads back what is printed.
-/

namespace TbManager

/-! ## What a string denotes -/

/-- The number whose decimal digits the string consists of, after a plus sign or not. -/
def Denotes (s : String) (n : ℕ) : Prop :=
  ∃ digits : List Char, digits ≠ [] ∧ (∀ c ∈ digits, c.isDigit = true) ∧
    (s.toList = digits ∨ s.toList = '+' :: digits) ∧ n = Nat.ofDigitChars 10 digits 0

def withoutPlus : List Char → List Char
  | '+' :: rest => rest
  | cs => cs

theorem withoutPlus_of_digits {digits : List Char} (h : ∀ c ∈ digits, c.isDigit = true) :
    withoutPlus digits = digits := by
  cases digits with
  | nil => rfl
  | cons c cs =>
      have hc : c ≠ '+' := by
        rintro rfl
        exact absurd (h '+' List.mem_cons_self) (by decide)
      exact withoutPlus.eq_2 (c :: cs) fun rest hrest => hc (List.cons.inj hrest).1

theorem denotes_iff (s : String) (n : ℕ) :
    Denotes s n ↔ withoutPlus s.toList ≠ [] ∧ (∀ c ∈ withoutPlus s.toList, c.isDigit = true) ∧
      n = Nat.ofDigitChars 10 (withoutPlus s.toList) 0 := by
  constructor
  · rintro ⟨digits, hne, hdigits, hs, rfl⟩
    have hplus : withoutPlus s.toList = digits := by
      rcases hs with hs | hs
      · rw [hs, withoutPlus_of_digits hdigits]
      · rw [hs, withoutPlus]
    rw [hplus]
    exact ⟨hne, hdigits, rfl⟩
  · rintro ⟨hne, hdigits, hn⟩
    refine ⟨withoutPlus s.toList, hne, hdigits, ?_, hn⟩
    unfold withoutPlus
    split
    · exact .inr ‹_›
    · exact .inl rfl

theorem Denotes.unique {s : String} {n m : ℕ} (hn : Denotes s n) (hm : Denotes s m) : n = m := by
  rw [denotes_iff] at hn hm
  rw [hn.2.2, hm.2.2]

theorem denotes_toString (n : ℕ) : Denotes (toString n) n := by
  refine ⟨Nat.toDigits 10 n, Nat.toDigits_ne_nil, fun c hc => ?_, .inl ?_, ?_⟩
  · exact Nat.isDigit_of_mem_toDigits (by decide) (by decide) hc
  · rw [Nat.toString_eq_repr, Nat.toList_repr]
  · rw [Nat.ofDigitChars_ten_toDigits]

/-! ## What is parsed -/

theorem parseDigits_eq (value : ℕ) (cs : List Char) :
    parseDigits value cs =
      if ∀ c ∈ cs, c.isDigit = true then some (Nat.ofDigitChars 10 cs value) else none := by
  induction cs generalizing value with
  | nil => rw [parseDigits, if_pos (List.forall_mem_nil _), Nat.ofDigitChars_nil]
  | cons c cs ih =>
      rw [parseDigits, ih, Nat.ofDigitChars_cons]
      by_cases hc : c.isDigit = true
      · simp [hc]
      · simp [hc]

theorem parseU128_eq (s : String) : parseU128 s =
    if withoutPlus s.toList = [] then none
    else (parseDigits 0 (withoutPlus s.toList)).bind fun value =>
      if value < 2 ^ 128 then some (BitVec.ofNat 128 value) else none := rfl

/-- Exactly the strings that denote a number of 128 bits are parsed. -/
theorem parseU128_eq_some_iff (s : String) (x : U128) :
    parseU128 s = some x ↔ Denotes s x.toNat := by
  rw [denotes_iff, parseU128_eq, parseDigits_eq]
  by_cases hempty : withoutPlus s.toList = []
  · rw [if_pos hempty]
    exact ⟨fun h => (by cases h), fun h => absurd hempty h.1⟩
  · rw [if_neg hempty]
    by_cases hdigits : ∀ c ∈ withoutPlus s.toList, c.isDigit = true
    · rw [if_pos hdigits, Option.bind_some]
      constructor
      · intro h
        split_ifs at h with hlt
        rw [← Option.some.inj h, BitVec.toNat_ofNat, Nat.mod_eq_of_lt hlt]
        exact ⟨hempty, hdigits, rfl⟩
      · rintro ⟨-, -, hx⟩
        rw [← hx, if_pos x.isLt, BitVec.ofNat_toNat]
        rfl
    · rw [if_neg hdigits]
      exact ⟨fun h => (by cases h), fun h => absurd h.2.1 hdigits⟩

theorem parseU128_toString (x : U128) : parseU128 (toString x.toNat) = some x :=
  (parseU128_eq_some_iff _ x).2 (denotes_toString x.toNat)

def FitsU128 (s : String) : Prop := ∃ n < 2 ^ 128, Denotes s n

theorem fitsU128_iff (s : String) : FitsU128 s ↔ ∃ x, parseU128 s = some x := by
  constructor
  · rintro ⟨n, hn, hs⟩
    refine ⟨BitVec.ofNat 128 n, (parseU128_eq_some_iff s _).2 ?_⟩
    rwa [BitVec.toNat_ofNat, Nat.mod_eq_of_lt hn]
  · rintro ⟨x, hx⟩
    exact ⟨x.toNat, x.isLt, (parseU128_eq_some_iff s x).1 hx⟩

end TbManager
