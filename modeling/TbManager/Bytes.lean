import TbManager.MachineInt

/-!
# Little-endian fields of byte lists
-/

namespace TbManager

/-- The number whose little-endian digits are the given bytes. -/
def leNat : List U8 → ℕ
  | [] => 0
  | b :: bs => b.toNat + 256 * leNat bs

/-- `&b[off..off + len]`; no value where the range is out of bounds. -/
def slice (b : List U8) (off len : ℕ) : Option (List U8) :=
  if off + len ≤ b.length then some ((b.drop off).take len) else none

/-- `from_le_bytes` of the `n` bytes at an offset within bounds. -/
def leAt (n : ℕ) (b : List U8) (off : ℕ) : BitVec (8 * n) :=
  BitVec.ofNat (8 * n) (leNat ((b.drop off).take n))

def readU8 (b : List U8) (off : ℕ) : Option U8 := b[off]?

def readU32 (b : List U8) (off : ℕ) : Option U32 := (slice b off 4).map fun _ => leAt 4 b off

def readU64 (b : List U8) (off : ℕ) : Option U64 := (slice b off 8).map fun _ => leAt 8 b off

def readU128 (b : List U8) (off : ℕ) : Option U128 := (slice b off 16).map fun _ => leAt 16 b off

theorem slice_eq_some {b : List U8} {off len : ℕ} (h : off + len ≤ b.length) :
    slice b off len = some ((b.drop off).take len) := if_pos h

theorem readU8_of_lt {b : List U8} {off : ℕ} (h : off < b.length) : readU8 b off = some b[off] :=
  List.getElem?_eq_getElem h

theorem readU32_of_le {b : List U8} {off : ℕ} (h : off + 4 ≤ b.length) :
    readU32 b off = some (leAt 4 b off) := by
  rw [readU32, slice_eq_some h, Option.map_some]

theorem readU64_of_le {b : List U8} {off : ℕ} (h : off + 8 ≤ b.length) :
    readU64 b off = some (leAt 8 b off) := by
  rw [readU64, slice_eq_some h, Option.map_some]

theorem readU128_of_le {b : List U8} {off : ℕ} (h : off + 16 ≤ b.length) :
    readU128 b off = some (leAt 16 b off) := by
  rw [readU128, slice_eq_some h, Option.map_some]

end TbManager
