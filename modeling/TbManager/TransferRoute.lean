import TbManager.DecimalText
import TbManager.Importer

/-!
# Transfers by way of an uploaded file

A transfer that is exported and read back is itself but for its timeout, so both routes submit the
same event exactly if it has none. A record is taken exactly unless its code or its flags are cut
to 16 bits.
-/

namespace TbManager

def transferToProto (t : Transfer) : TransferRecord where
  id := toString t.id.toNat
  debitAccountId := toString t.debitAccountId.toNat
  creditAccountId := toString t.creditAccountId.toNat
  amount := toString t.amount.toNat
  pendingId := toString t.pendingId.toNat
  userData128 := toString t.userData128.toNat
  userData64 := t.userData64
  userData32 := t.userData32
  timeout := t.timeout
  ledger := t.ledger
  code := t.code.setWidth 32
  flags := t.flags.raw.setWidth 32
  timestamp := t.timestamp

/-! ## What a record is taken as -/

structure SameNumbers (r : TransferRecord) (t : Transfer) : Prop where
  id : Denotes r.id t.id.toNat
  debitAccountId : Denotes r.debitAccountId t.debitAccountId.toNat
  creditAccountId : Denotes r.creditAccountId t.creditAccountId.toNat
  amount : Denotes r.amount t.amount.toNat
  pendingId : Denotes r.pendingId t.pendingId.toNat
  userData128 : Denotes r.userData128 t.userData128.toNat
  userData64 : t.userData64 = r.userData64
  userData32 : t.userData32 = r.userData32
  ledger : t.ledger = r.ledger
  timestamp : t.timestamp = r.timestamp

/-- So, with the low 16 bits of code and flags, and no timeout. -/
structure TakenAs (r : TransferRecord) (t : Transfer) : Prop extends SameNumbers r t where
  timeout : t.timeout = 0
  code : t.code = r.code.setWidth 16
  flags : t.flags.raw = r.flags.setWidth 16

theorem parseField_eq_ok_iff (name value : String) (x : U128) :
    parseField name value = .ok x ↔ Denotes value x.toNat := by
  rw [← parseU128_eq_some_iff, parseField]
  cases parseU128 value with
  | none => exact ⟨fun h => (by cases h), fun h => (by cases h)⟩
  | some y => rw [Except.ok.injEq, Option.some.injEq]

theorem protoToTransfer_eq_ok_iff (r : TransferRecord) (t : Transfer) :
    protoToTransfer r = .ok t ↔ TakenAs r t := by
  simp only [protoToTransfer, exceptBind_eq_ok_iff, parseField_eq_ok_iff]
  constructor
  · rintro ⟨id, hid, debitAccountId, hdebit, creditAccountId, hcredit, amount, hamount, pendingId,
      hpending, userData128, huser, h⟩
    cases h
    exact ⟨⟨hid, hdebit, hcredit, hamount, hpending, huser, rfl, rfl, rfl, rfl⟩, rfl, rfl, rfl⟩
  · obtain ⟨id, debitAccountId, creditAccountId, amount, pendingId, userData128, userData64,
      userData32, timeout, ledger, code, ⟨flags⟩, timestamp⟩ := t
    rintro ⟨⟨hid, hdebit, hcredit, hamount, hpending, huser, h₆₄, h₃₂, hledger, htimestamp⟩,
      htimeout, hcode, hflags⟩
    refine ⟨id, hid, debitAccountId, hdebit, creditAccountId, hcredit, amount, hamount, pendingId,
      hpending, userData128, huser, ?_⟩
    dsimp only at h₆₄ h₃₂ htimeout hledger hcode hflags htimestamp
    rw [h₆₄, h₃₂, htimeout, hledger, hcode, hflags, htimestamp]
    rfl

/-! ## Both routes -/

theorem protoToTransfer_transferToProto (t : Transfer) :
    protoToTransfer (transferToProto t) = .ok { t with timeout := 0 } := by
  have hwidth : ∀ x : U16, x = (x.setWidth 32).setWidth 16 := fun x => by
    rw [BitVec.setWidth_setWidth_of_le x (by decide), BitVec.setWidth_eq]
  refine (protoToTransfer_eq_ok_iff _ _).2 ?_
  exact
    { id := denotes_toString _
      debitAccountId := denotes_toString _
      creditAccountId := denotes_toString _
      amount := denotes_toString _
      pendingId := denotes_toString _
      userData128 := denotes_toString _
      userData64 := rfl
      userData32 := rfl
      timeout := rfl
      ledger := rfl
      code := hwidth t.code
      flags := hwidth t.flags.raw
      timestamp := rfl }

structure IsImported (event : Transfer) : Prop where
  imported : event.flags.imported = true
  timeout : event.timeout = 0

theorem imported_convertWindowedTransfer (t : Transfer) :
    (convertWindowedTransfer t).flags.imported = true := by
  simp only [convertWindowedTransfer, TransferFlags.imported, mask_ne_zero, getLsbD_setBit,
    Nat.reduceLT]
  simp

/-- The transfer is read back from its export, and submitted alike from there and directly, as an
event that may be imported. -/
def RoutesAgree (t : Transfer) : Prop :=
  ∃ t', protoToTransfer (transferToProto t) = .ok t' ∧
    convertWindowedTransfer t' = convertWindowedTransfer t ∧
    IsImported (convertWindowedTransfer t') ∧ IsImported (convertWindowedTransfer t)

/-- Both routes submit the same event exactly for the transfers without a timeout. -/
theorem routesAgree_iff (t : Transfer) : RoutesAgree t ↔ t.timeout = 0 := by
  constructor
  · rintro ⟨t', -, -, -, himported⟩
    exact himported.timeout
  · intro htimeout
    have hsame : { t with timeout := 0 } = t := by
      rw [← htimeout]
    have himported : IsImported (convertWindowedTransfer t) :=
      ⟨imported_convertWindowedTransfer t, htimeout⟩
    exact ⟨t, (protoToTransfer_transferToProto t).trans (by rw [hsame]), rfl, himported, himported⟩

/-- A pending transfer with a timeout of 30 seconds. -/
def expiringTransfer : Transfer := { (.moving 1 7 8 50 1 2 4 : Transfer) with timeout := 30 }

theorem expiringTransfer_routes :
    (convertWindowedTransfer expiringTransfer).timeout = 30 ∧
    (∃ t', protoToTransfer (transferToProto expiringTransfer) = .ok t' ∧
      (convertWindowedTransfer t').timeout = 0) ∧
    ¬ RoutesAgree expiringTransfer := by
  refine ⟨rfl, ⟨_, protoToTransfer_transferToProto expiringTransfer, rfl⟩, ?_⟩
  rintro ⟨t', -, -, -, himported⟩
  exact absurd himported.timeout (by decide)

/-! ## Records that do not fit -/

section Records

variable (r : TransferRecord)

structure StringsFit : Prop where
  id : FitsU128 r.id
  debitAccountId : FitsU128 r.debitAccountId
  creditAccountId : FitsU128 r.creditAccountId
  amount : FitsU128 r.amount
  pendingId : FitsU128 r.pendingId
  userData128 : FitsU128 r.userData128

structure FitsTransfer : Prop where
  strings : StringsFit r
  code : r.code.toNat < 2 ^ 16
  flags : r.flags.toNat < 2 ^ 16

/-- The transfer has the values of the record, as numbers. -/
structure SameValues (t : Transfer) : Prop extends SameNumbers r t where
  code : t.code.toNat = r.code.toNat
  flags : t.flags.raw.toNat = r.flags.toNat

/-- An accepted record is taken with its values, one that does not fit is rejected. -/
structure TakenExactly : Prop where
  accepted : ∀ t, protoToTransfer r = .ok t → SameValues r t
  rejected : ¬ FitsTransfer r → ∃ e, protoToTransfer r = .error e

variable {r}

theorem stringsFit_iff : StringsFit r ↔ ∃ t, protoToTransfer r = .ok t := by
  constructor
  · rintro ⟨⟨id, hid, hid'⟩, ⟨debit, hdebit, hdebit'⟩, ⟨credit, hcredit, hcredit'⟩,
      ⟨amount, hamount, hamount'⟩, ⟨pending, hpending, hpending'⟩, ⟨user, huser, huser'⟩⟩
    have hfits : ∀ {n : ℕ}, n < 2 ^ 128 → (BitVec.ofNat 128 n).toNat = n := fun h => by
      rw [BitVec.toNat_ofNat, Nat.mod_eq_of_lt h]
    refine ⟨{ id := .ofNat 128 id, debitAccountId := .ofNat 128 debit,
              creditAccountId := .ofNat 128 credit, amount := .ofNat 128 amount,
              pendingId := .ofNat 128 pending, userData128 := .ofNat 128 user,
              userData64 := r.userData64, userData32 := r.userData32, timeout := 0,
              ledger := r.ledger, code := r.code.setWidth 16, flags := ⟨r.flags.setWidth 16⟩,
              timestamp := r.timestamp }, (protoToTransfer_eq_ok_iff _ _).2 ?_⟩
    exact ⟨⟨by rwa [hfits hid], by rwa [hfits hdebit], by rwa [hfits hcredit],
      by rwa [hfits hamount], by rwa [hfits hpending], by rwa [hfits huser], rfl, rfl, rfl, rfl⟩,
      rfl, rfl, rfl⟩
  · rintro ⟨t, ht⟩
    have htaken := (protoToTransfer_eq_ok_iff r t).1 ht
    exact ⟨⟨_, t.id.isLt, htaken.id⟩, ⟨_, t.debitAccountId.isLt, htaken.debitAccountId⟩,
      ⟨_, t.creditAccountId.isLt, htaken.creditAccountId⟩, ⟨_, t.amount.isLt, htaken.amount⟩,
      ⟨_, t.pendingId.isLt, htaken.pendingId⟩, ⟨_, t.userData128.isLt, htaken.userData128⟩⟩

theorem toNat_setWidth_iff (x : U32) : (x.setWidth 16).toNat = x.toNat ↔ x.toNat < 2 ^ 16 := by
  rw [BitVec.toNat_setWidth]
  omega

/-- A record is taken exactly, or rejected, unless its strings fit and its code or flags do not. -/
theorem takenExactly_iff (r : TransferRecord) :
    TakenExactly r ↔ (StringsFit r → r.code.toNat < 2 ^ 16 ∧ r.flags.toNat < 2 ^ 16) := by
  constructor
  · rintro h hstrings
    obtain ⟨t, ht⟩ := stringsFit_iff.1 hstrings
    have htaken := (protoToTransfer_eq_ok_iff r t).1 ht
    have hvalues := h.accepted t ht
    exact ⟨(toNat_setWidth_iff r.code).1 (htaken.code ▸ hvalues.code),
      (toNat_setWidth_iff r.flags).1 (htaken.flags ▸ hvalues.flags)⟩
  · intro h
    refine ⟨fun t ht => ?_, fun hfits => ?_⟩
    · have htaken := (protoToTransfer_eq_ok_iff r t).1 ht
      obtain ⟨hcode, hflags⟩ := h (stringsFit_iff.2 ⟨t, ht⟩)
      exact
        { htaken.toSameNumbers with
          code := by rw [htaken.code, (toNat_setWidth_iff r.code).2 hcode]
          flags := by rw [htaken.flags, (toNat_setWidth_iff r.flags).2 hflags] }
    · cases hproto : protoToTransfer r with
      | ok t =>
          have hstrings := stringsFit_iff.2 ⟨t, hproto⟩
          exact absurd ⟨hstrings, (h hstrings).1, (h hstrings).2⟩ hfits
      | error e => exact ⟨e, rfl⟩

end Records

theorem wideCode_accepted :
    let r := { csvRow "11" "7" "8" "50" 4 with code := 65537 }
    ¬ FitsTransfer r ∧
    protoToTransfer r = .ok { (.moving 11 7 8 50 1 0 4 : Transfer) with code := 1 } ∧
    ¬ TakenExactly r := by
  intro r
  have hwide : ¬ FitsTransfer r := fun h => absurd h.code (by decide)
  have haccepted : protoToTransfer r =
      .ok { (.moving 11 7 8 50 1 0 4 : Transfer) with code := 1 } := by decide +kernel
  refine ⟨hwide, haccepted, fun h => ?_⟩
  obtain ⟨e, he⟩ := h.rejected hwide
  rw [haccepted] at he
  cases he

end TbManager
