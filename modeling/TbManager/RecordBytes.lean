import TbManager.ByteLayout
import TbManager.ObjectIter

/-!
# The bytes of a record

An account and a transfer take a slot of 128 bytes each. Writing every field at its documented
offset is the inverse of decoding the slot.
-/

namespace TbManager

/-- A slot of a value block. -/
def Slot := { bytes : List U8 // bytes.length = recordSize }

def Slot.zero : Slot := ⟨List.replicate recordSize 0, List.length_replicate⟩

/-- The fields of a slot, from the documented table of an account or a transfer. -/
structure SlotLayout where
  fields : List ByteField
  tiles : Tiles 0 fields recordSize

namespace SlotLayout

variable (layout : SlotLayout)

/-- The slot with the numbers in its fields. -/
def encode (ws : List (ByteField × ℕ)) (hws : ws.map Prod.fst = layout.fields) : Slot :=
  ⟨writeAll ws Slot.zero.1, by
    rw [length_writeAll (hws ▸ layout.tiles) Slot.zero.2.ge, Slot.zero.2]⟩

variable {layout}

theorem leAt_encode {ws : List (ByteField × ℕ)} (hws : ws.map Prod.fst = layout.fields)
    {n off : ℕ} {x : BitVec (8 * n)} (hx : (⟨off, n⟩, x.toNat) ∈ ws) :
    leAt n (layout.encode ws hws).1 off = x :=
  leAt_writeAll (hws ▸ layout.tiles) Slot.zero.2.ge hx

/-- A slot is restored from the numbers in its fields. -/
theorem encode_eq {ws : List (ByteField × ℕ)} (hws : ws.map Prod.fst = layout.fields) {slot : Slot}
    (h : ws = layout.fields.map fun f => (f, f.read slot.1)) : layout.encode ws hws = slot := by
  apply Subtype.ext
  change writeAll ws Slot.zero.1 = slot.1
  rw [h, writeAll_read layout.tiles Slot.zero.2 slot.2]

/-- The fields cover the slot without gap or overlap. -/
theorem existsUnique_field (layout : SlotLayout) {i : ℕ} (hi : i < recordSize) :
    ∃! f, f ∈ layout.fields ∧ f.offset ≤ i ∧ i < f.stop :=
  layout.tiles.existsUnique (Nat.zero_le i) hi

end SlotLayout

namespace Account

def layout : SlotLayout where
  fields := [⟨0, 16⟩, ⟨16, 16⟩, ⟨32, 16⟩, ⟨48, 16⟩, ⟨64, 16⟩, ⟨80, 16⟩, ⟨96, 8⟩, ⟨104, 4⟩,
    ⟨108, 4⟩, ⟨112, 4⟩, ⟨116, 2⟩, ⟨118, 2⟩, ⟨120, 8⟩]
  tiles := by simp [Tiles, ByteField.stop, recordSize]

/-- The fields with their numbers. -/
def numbers (a : Account) : List (ByteField × ℕ) :=
  [(⟨0, 16⟩, a.id.toNat), (⟨16, 16⟩, a.debitsPending.toNat), (⟨32, 16⟩, a.debitsPosted.toNat),
    (⟨48, 16⟩, a.creditsPending.toNat), (⟨64, 16⟩, a.creditsPosted.toNat),
    (⟨80, 16⟩, a.userData128.toNat), (⟨96, 8⟩, a.userData64.toNat), (⟨104, 4⟩, a.userData32.toNat),
    (⟨108, 4⟩, a.reserved.toNat), (⟨112, 4⟩, a.ledger.toNat), (⟨116, 2⟩, a.code.toNat),
    (⟨118, 2⟩, a.flags.raw.toNat), (⟨120, 8⟩, a.timestamp.toNat)]

def toSlot (a : Account) : Slot := layout.encode a.numbers rfl

def ofSlot (slot : Slot) : Account := fromBytes slot.1

theorem ofSlot_toSlot (a : Account) : ofSlot a.toSlot = a := by
  have hread : ∀ {n off : ℕ} {x : BitVec (8 * n)}, (⟨off, n⟩, x.toNat) ∈ a.numbers →
      leAt n a.toSlot.1 off = x := fun hx => SlotLayout.leAt_encode rfl hx
  unfold ofSlot fromBytes
  rw [@hread 16 0 a.id (by simp [numbers]), @hread 16 16 a.debitsPending (by simp [numbers]),
    @hread 16 32 a.debitsPosted (by simp [numbers]),
    @hread 16 48 a.creditsPending (by simp [numbers]),
    @hread 16 64 a.creditsPosted (by simp [numbers]),
    @hread 16 80 a.userData128 (by simp [numbers]), @hread 8 96 a.userData64 (by simp [numbers]),
    @hread 4 104 a.userData32 (by simp [numbers]), @hread 4 108 a.reserved (by simp [numbers]),
    @hread 4 112 a.ledger (by simp [numbers]), @hread 2 116 a.code (by simp [numbers]),
    @hread 2 118 a.flags.raw (by simp [numbers]), @hread 8 120 a.timestamp (by simp [numbers])]

theorem numbers_ofSlot (slot : Slot) :
    (ofSlot slot).numbers = layout.fields.map fun f => (f, f.read slot.1) := by
  simp only [numbers, ofSlot, fromBytes, layout, List.map_cons, List.map_nil]
  simp only [toNat_leAt]

theorem toSlot_ofSlot (slot : Slot) : (ofSlot slot).toSlot = slot :=
  SlotLayout.encode_eq rfl (numbers_ofSlot slot)

end Account

namespace Transfer

def layout : SlotLayout where
  fields := [⟨0, 16⟩, ⟨16, 16⟩, ⟨32, 16⟩, ⟨48, 16⟩, ⟨64, 16⟩, ⟨80, 16⟩, ⟨96, 8⟩, ⟨104, 4⟩,
    ⟨108, 4⟩, ⟨112, 4⟩, ⟨116, 2⟩, ⟨118, 2⟩, ⟨120, 8⟩]
  tiles := by simp [Tiles, ByteField.stop, recordSize]

def numbers (t : Transfer) : List (ByteField × ℕ) :=
  [(⟨0, 16⟩, t.id.toNat), (⟨16, 16⟩, t.debitAccountId.toNat), (⟨32, 16⟩, t.creditAccountId.toNat),
    (⟨48, 16⟩, t.amount.toNat), (⟨64, 16⟩, t.pendingId.toNat), (⟨80, 16⟩, t.userData128.toNat),
    (⟨96, 8⟩, t.userData64.toNat), (⟨104, 4⟩, t.userData32.toNat), (⟨108, 4⟩, t.timeout.toNat),
    (⟨112, 4⟩, t.ledger.toNat), (⟨116, 2⟩, t.code.toNat), (⟨118, 2⟩, t.flags.raw.toNat),
    (⟨120, 8⟩, t.timestamp.toNat)]

def toSlot (t : Transfer) : Slot := layout.encode t.numbers rfl

def ofSlot (slot : Slot) : Transfer := fromBytes slot.1

theorem ofSlot_toSlot (t : Transfer) : ofSlot t.toSlot = t := by
  have hread : ∀ {n off : ℕ} {x : BitVec (8 * n)}, (⟨off, n⟩, x.toNat) ∈ t.numbers →
      leAt n t.toSlot.1 off = x := fun hx => SlotLayout.leAt_encode rfl hx
  unfold ofSlot fromBytes
  rw [@hread 16 0 t.id (by simp [numbers]), @hread 16 16 t.debitAccountId (by simp [numbers]),
    @hread 16 32 t.creditAccountId (by simp [numbers]), @hread 16 48 t.amount (by simp [numbers]),
    @hread 16 64 t.pendingId (by simp [numbers]), @hread 16 80 t.userData128 (by simp [numbers]),
    @hread 8 96 t.userData64 (by simp [numbers]), @hread 4 104 t.userData32 (by simp [numbers]),
    @hread 4 108 t.timeout (by simp [numbers]), @hread 4 112 t.ledger (by simp [numbers]),
    @hread 2 116 t.code (by simp [numbers]), @hread 2 118 t.flags.raw (by simp [numbers]),
    @hread 8 120 t.timestamp (by simp [numbers])]

theorem numbers_ofSlot (slot : Slot) :
    (ofSlot slot).numbers = layout.fields.map fun f => (f, f.read slot.1) := by
  simp only [numbers, ofSlot, fromBytes, layout, List.map_cons, List.map_nil]
  simp only [toNat_leAt]

theorem toSlot_ofSlot (slot : Slot) : (ofSlot slot).toSlot = slot :=
  SlotLayout.encode_eq rfl (numbers_ofSlot slot)

end Transfer

/-- Decoding a slot and encoding a record are inverse to each other, for accounts and transfers,
and every byte of a slot is in exactly one field. -/
theorem records_lossless :
    (Function.LeftInverse Account.ofSlot Account.toSlot ∧
      Function.RightInverse Account.ofSlot Account.toSlot ∧ Function.Bijective Account.ofSlot) ∧
    (Function.LeftInverse Transfer.ofSlot Transfer.toSlot ∧
      Function.RightInverse Transfer.ofSlot Transfer.toSlot ∧
      Function.Bijective Transfer.ofSlot) ∧
    ∀ i : Fin 128, (∃! f, f ∈ Account.layout.fields ∧ f.offset ≤ i ∧ i < f.stop) ∧
      ∃! f, f ∈ Transfer.layout.fields ∧ f.offset ≤ i ∧ i < f.stop := by
  refine ⟨⟨Account.ofSlot_toSlot, Account.toSlot_ofSlot, ?_⟩,
    ⟨Transfer.ofSlot_toSlot, Transfer.toSlot_ofSlot, ?_⟩, fun i => ?_⟩
  · exact Function.bijective_iff_has_inverse.2
      ⟨Account.toSlot, Account.toSlot_ofSlot, Account.ofSlot_toSlot⟩
  · exact Function.bijective_iff_has_inverse.2
      ⟨Transfer.toSlot, Transfer.toSlot_ofSlot, Transfer.ofSlot_toSlot⟩
  · exact ⟨Account.layout.existsUnique_field i.isLt, Transfer.layout.existsUnique_field i.isLt⟩

end TbManager
