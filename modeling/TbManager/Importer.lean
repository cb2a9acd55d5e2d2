import TbManager.PlanShape

/-!
# Conversion to the client's records

The client's account and transfer have the fields and the flag bits of the
reader's records. The importer marks every record as imported, keeps the
remaining flags and leaves the balances at zero.
-/

namespace TbManager

def setBit (raw : U16) (bit : ℕ) (on : Bool) : U16 := if on then raw ||| (1#16 <<< bit) else raw

theorem mask_ne_zero (raw : U16) (bit : ℕ) :
    (raw &&& (1#16 <<< bit) != 0) = raw.getLsbD bit := by
  rw [Bool.eq_iff_iff, bne_iff_ne]
  constructor
  · intro h
    by_contra hbit
    apply h
    apply BitVec.eq_of_getLsbD_eq
    intro i hi
    have hone : (1#16 <<< bit).getLsbD i = true → i = bit := by
      rw [BitVec.getLsbD_shiftLeft, BitVec.getLsbD_one]
      simp
      omega
    rw [BitVec.getLsbD_and, BitVec.ofNat_eq_ofNat, BitVec.getLsbD_zero]
    by_cases hib : i = bit
    · rw [hib, Bool.eq_false_iff.2 hbit, Bool.false_and]
    · rw [Bool.eq_false_iff.2 (mt hone hib), Bool.and_false]
  · intro h hzero
    have hlt := BitVec.lt_of_getLsbD h
    have hb := congrArg (fun x => BitVec.getLsbD x bit) hzero
    rw [BitVec.getLsbD_and, h, BitVec.getLsbD_shiftLeft, BitVec.getLsbD_one] at hb
    simp [hlt] at hb

theorem getLsbD_setBit (raw : U16) (bit i : ℕ) (on : Bool) (hbit : bit < 16) :
    (setBit raw bit on).getLsbD i = (raw.getLsbD i || (on && decide (i = bit))) := by
  cases on with
  | false => simp [setBit]
  | true =>
      rw [setBit, if_pos rfl, BitVec.getLsbD_or, BitVec.getLsbD_shiftLeft, BitVec.getLsbD_one]
      congr 1
      by_cases hi : i = bit
      · simp [hi, hbit]
      · have hne : i < bit ∨ bit < i := Nat.lt_or_gt_of_ne hi
        rcases hne with h | h
        · simp [hi, h]
        · have hsub : i - bit ≠ 0 := by omega
          simp [hi, hsub]

/-- `convert_account`: the record that creates an account on the target. -/
def convertAccount (acc : Account) (imported : Bool) : Account where
  id := acc.id
  debitsPending := 0
  debitsPosted := 0
  creditsPending := 0
  creditsPosted := 0
  userData128 := acc.userData128
  userData64 := acc.userData64
  userData32 := acc.userData32
  reserved := 0
  ledger := acc.ledger
  code := acc.code
  flags :=
    let raw := setBit 0 4 imported
    let raw := setBit raw 0 acc.flags.linked
    let raw := setBit raw 1 acc.flags.debitsMustNotExceedCredits
    let raw := setBit raw 2 acc.flags.creditsMustNotExceedDebits
    let raw := setBit raw 3 acc.flags.history
    ⟨setBit raw 5 acc.flags.closed⟩
  timestamp := if imported then acc.timestamp else 0

def convertTransfer (t : SyntheticTransfer) : Transfer where
  id := t.id
  debitAccountId := t.debitAccountId
  creditAccountId := t.creditAccountId
  amount := t.amount
  pendingId := 0
  userData128 := 0
  userData64 := 0
  userData32 := 0
  timeout := 0
  ledger := t.ledger
  code := t.code
  flags := ⟨1#16 <<< 8⟩
  timestamp := t.timestamp

/-- `convert_windowed_transfer`: an original transfer, marked as imported. -/
def convertWindowedTransfer (t : Transfer) : Transfer :=
  { t with
    flags :=
      let raw : U16 := 1#16 <<< 8
      let raw := setBit raw 0 t.flags.linked
      let raw := setBit raw 1 t.flags.pending
      let raw := setBit raw 2 t.flags.postPendingTransfer
      let raw := setBit raw 3 t.flags.voidPendingTransfer
      let raw := setBit raw 4 t.flags.balancingDebit
      let raw := setBit raw 5 t.flags.balancingCredit
      let raw := setBit raw 6 t.flags.closingDebit
      ⟨setBit raw 7 t.flags.closingCredit⟩ }

/-- Below the imported bit, the importer keeps every flag the account has. -/
theorem convertAccount_flag (acc : Account) (imported : Bool) {bit : ℕ} (hbit : bit < 4) :
    (convertAccount acc imported).flags.raw.getLsbD bit = acc.flags.raw.getLsbD bit := by
  simp only [convertAccount, getLsbD_setBit, AccountFlags.linked,
    AccountFlags.debitsMustNotExceedCredits, AccountFlags.creditsMustNotExceedDebits,
    AccountFlags.history, AccountFlags.closed, mask_ne_zero, Nat.reduceLT]
  interval_cases bit <;> simp

@[simp] theorem convertAccount_debitsMustNotExceedCredits (acc : Account) (imported : Bool) :
    (convertAccount acc imported).flags.debitsMustNotExceedCredits =
      acc.flags.debitsMustNotExceedCredits := by
  simp only [AccountFlags.debitsMustNotExceedCredits, mask_ne_zero]
  exact convertAccount_flag acc imported (by omega)

@[simp] theorem convertAccount_creditsMustNotExceedDebits (acc : Account) (imported : Bool) :
    (convertAccount acc imported).flags.creditsMustNotExceedDebits =
      acc.flags.creditsMustNotExceedDebits := by
  simp only [AccountFlags.creditsMustNotExceedDebits, mask_ne_zero]
  exact convertAccount_flag acc imported (by omega)

@[simp] theorem convertTransfer_posting (t : SyntheticTransfer) :
    (convertTransfer t).posting = t.posting := rfl

@[simp] theorem convertWindowedTransfer_posting (t : Transfer) :
    (convertWindowedTransfer t).posting = t.posting := rfl

end TbManager
