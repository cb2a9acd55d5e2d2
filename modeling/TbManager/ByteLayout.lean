import TbManager.Bytes

/-!
# Fields that tile a byte list

Numbers are written little-endian at their offsets. Where the fields lie next to each other, what
is written is read back, and a byte list is restored from the numbers in its fields.
-/

namespace TbManager

/-! ## Little-endian bytes -/

/-- The low `n` bytes of a number, the least significant one first. -/
def leBytes : ℕ → ℕ → List U8
  | 0, _ => []
  | n + 1, x => BitVec.ofNat 8 x :: leBytes n (x / 256)

@[simp] theorem length_leBytes (n x : ℕ) : (leBytes n x).length = n := by
  induction n generalizing x with
  | zero => rfl
  | succ n ih => rw [leBytes, List.length_cons, ih]

theorem leNat_leBytes (n x : ℕ) : leNat (leBytes n x) = x % 256 ^ n := by
  induction n generalizing x with
  | zero => rw [pow_zero, Nat.mod_one, leBytes, leNat]
  | succ n ih =>
      have hhead : (BitVec.ofNat 8 x).toNat = x % 256 := BitVec.toNat_ofNat x 8
      rw [leBytes, leNat, ih, hhead, pow_succ', Nat.mod_mul]

theorem leBytes_leNat (bs : List U8) : leBytes bs.length (leNat bs) = bs := by
  induction bs with
  | nil => rfl
  | cons b bs ih =>
      have hb : b.toNat < 256 := b.isLt
      have hhead : BitVec.ofNat 8 (b.toNat + 256 * leNat bs) = b := by
        apply BitVec.eq_of_toNat_eq
        rw [BitVec.toNat_ofNat]
        omega
      have htail : (b.toNat + 256 * leNat bs) / 256 = leNat bs := by omega
      rw [List.length_cons, leNat, leBytes, hhead, htail, ih]

theorem leNat_lt (bs : List U8) : leNat bs < 256 ^ bs.length := by
  induction bs with
  | nil => exact Nat.one_pos
  | cons b bs ih =>
      have hb : b.toNat < 256 := b.isLt
      rw [leNat, List.length_cons, pow_succ']
      omega

/-! ## One field -/

/-- The bytes of a number within a byte list. -/
structure ByteField where
  offset : ℕ
  width : ℕ
  deriving DecidableEq, Repr

namespace ByteField

variable (f : ByteField)

def stop : ℕ := f.offset + f.width

def read (b : List U8) : ℕ := leNat ((b.drop f.offset).take f.width)

def write (x : ℕ) (b : List U8) : List U8 :=
  b.take f.offset ++ (leBytes f.width x ++ b.drop f.stop)

variable {f} {b c : List U8}

theorem length_write (h : f.stop ≤ b.length) (x : ℕ) : (f.write x b).length = b.length := by
  unfold stop at h
  rw [write, List.length_append, List.length_append, List.length_take, length_leBytes,
    List.length_drop, stop]
  omega

theorem take_write (h : f.stop ≤ b.length) (x : ℕ) :
    (f.write x b).take f.offset = b.take f.offset := by
  have hlen : (b.take f.offset).length = f.offset := by
    rw [List.length_take, Nat.min_eq_left ((Nat.le_add_right _ _).trans h)]
  rw [write, List.take_left' hlen]

theorem read_write (h : f.stop ≤ b.length) (x : ℕ) :
    f.read (f.write x b) = x % 256 ^ f.width := by
  have hlen : (b.take f.offset).length = f.offset := by
    rw [List.length_take, Nat.min_eq_left ((Nat.le_add_right _ _).trans h)]
  rw [read, write, List.drop_left' hlen, List.take_left' (length_leBytes _ _), leNat_leBytes]

/-- The number depends on the bytes up to the end of the field only. -/
theorem read_eq_of_take {n : ℕ} (hn : f.stop ≤ n) (h : b.take n = c.take n) :
    f.read b = f.read c := by
  have hfield : ∀ d : List U8, ((d.take n).drop f.offset).take f.width =
      (d.drop f.offset).take f.width := fun d => by
    unfold stop at hn
    rw [List.drop_take, List.take_take, Nat.min_eq_left (by omega)]
  rw [read, read, ← hfield b, h, hfield c]

/-- Two lists that agree before the field agree up to its end, once the number of one is written
to the other. -/
theorem take_write_read (hc : f.stop ≤ c.length)
    (h : b.take f.offset = c.take f.offset) :
    (f.write (f.read c) b).take f.stop = c.take f.stop := by
  have hwidth : ((c.drop f.offset).take f.width).length = f.width := by
    unfold stop at hc
    rw [List.length_take, List.length_drop]
    omega
  have hfield : leBytes f.width (f.read c) = (c.drop f.offset).take f.width := by
    have := leBytes_leNat ((c.drop f.offset).take f.width)
    rwa [hwidth] at this
  have hstop : (c.take f.offset ++ (c.drop f.offset).take f.width).length = f.stop := by
    rw [List.length_append, hwidth, List.length_take, stop,
      Nat.min_eq_left ((Nat.le_add_right _ _).trans hc)]
  rw [write, hfield, h, ← List.append_assoc, List.take_left' hstop, stop, List.take_add]

end ByteField

theorem toNat_leAt (n : ℕ) (b : List U8) (off : ℕ) :
    (leAt n b off).toNat = ByteField.read ⟨off, n⟩ b := by
  have hlen : ((b.drop off).take n).length ≤ n := List.length_take_le n _
  have hlt := (leNat_lt ((b.drop off).take n)).trans_le (Nat.pow_le_pow_right (by decide) hlen)
  have hpow : 2 ^ (8 * n) = 256 ^ n := pow_mul 2 8 n
  rw [leAt, BitVec.toNat_ofNat, hpow, Nat.mod_eq_of_lt hlt, ByteField.read]

/-! ## Numbers in a row -/

theorem leAt_append_left {n off : ℕ} {b : List U8} (h : off + n ≤ b.length) (c : List U8) :
    leAt n (b ++ c) off = leAt n b off := by
  have hoff : off ≤ b.length := by omega
  have hlen : n ≤ (b.drop off).length := by rw [List.length_drop]; omega
  rw [leAt, leAt, List.drop_append_of_le_length hoff, List.take_append_of_le_length hlen]

def leWords {n : ℕ} (xs : List (BitVec (8 * n))) : List U8 := xs.flatMap fun x => leBytes n x.toNat

theorem length_leWords {n : ℕ} (xs : List (BitVec (8 * n))) :
    (leWords xs).length = xs.length * n := by
  induction xs with
  | nil => rw [List.length_nil, Nat.zero_mul]; rfl
  | cons x xs ih =>
      change (leBytes n x.toNat ++ leWords xs).length = _
      rw [List.length_append, length_leBytes, ih, List.length_cons]
      ring

theorem map_leAt_leWords {n : ℕ} (pre rest : List U8) (xs : List (BitVec (8 * n))) :
    ((List.range xs.length).map fun i =>
      leAt n (pre ++ (leWords xs ++ rest)) (pre.length + i * n)) = xs := by
  induction xs generalizing pre with
  | nil => rfl
  | cons x xs ih =>
      have hsplit : pre ++ (leWords (x :: xs) ++ rest) =
          (pre ++ leBytes n x.toNat) ++ (leWords xs ++ rest) := by
        change pre ++ (leBytes n x.toNat ++ leWords xs ++ rest) = _
        rw [List.append_assoc, List.append_assoc]
      have hlen : (pre ++ leBytes n x.toNat).length = pre.length + n := by
        rw [List.length_append, length_leBytes]
      have hpow : 2 ^ (8 * n) = 256 ^ n := pow_mul 2 8 n
      have hhead : leAt n (pre ++ (leBytes n x.toNat ++ (leWords xs ++ rest))) pre.length = x := by
        apply BitVec.eq_of_toNat_eq
        rw [toNat_leAt, ByteField.read, List.drop_left' rfl, List.take_left' (length_leBytes _ _),
          leNat_leBytes, ← hpow, Nat.mod_eq_of_lt x.isLt]
      have htail := ih (pre ++ leBytes n x.toNat)
      rw [hsplit, List.length_cons, List.range_succ_eq_map, List.map_cons, List.map_map,
        Nat.zero_mul, Nat.add_zero, List.append_assoc, hhead]
      refine congrArg (x :: ·) (Eq.trans (List.map_congr_left fun i _ => ?_) htail)
      have hoffset : pre.length + (i + 1) * n = pre.length + n + i * n := by ring
      rw [hlen, List.append_assoc]
      exact congrArg (leAt n _) hoffset

/-! ## Fields next to each other -/

/-- The fields lie next to each other, from one position to another. -/
def Tiles : ℕ → List ByteField → ℕ → Prop
  | start, [], stop => start = stop
  | start, f :: fs, stop => f.offset = start ∧ Tiles f.stop fs stop

def writeAll (ws : List (ByteField × ℕ)) (b : List U8) : List U8 :=
  ws.foldl (fun b w => w.1.write w.2 b) b

section Tiles

variable {start stop : ℕ}

theorem Tiles.le {fs : List ByteField} (h : Tiles start fs stop) : start ≤ stop := by
  induction fs generalizing start with
  | nil => exact h.le
  | cons f fs ih =>
      obtain ⟨rfl, hrest⟩ := h
      exact (Nat.le_add_right _ _).trans (ih hrest)

theorem Tiles.bounds {fs : List ByteField} (h : Tiles start fs stop) :
    ∀ f ∈ fs, start ≤ f.offset ∧ f.stop ≤ stop := by
  induction fs generalizing start with
  | nil => exact List.forall_mem_nil _
  | cons f fs ih =>
      obtain ⟨rfl, hrest⟩ := h
      refine List.forall_mem_cons.2 ⟨⟨le_rfl, hrest.le⟩, fun g hg => ?_⟩
      exact ⟨(Nat.le_add_right _ _).trans (ih hrest g hg).1, (ih hrest g hg).2⟩

/-- Every position is in exactly one field. -/
theorem Tiles.existsUnique {fs : List ByteField} (h : Tiles start fs stop) {i : ℕ}
    (hstart : start ≤ i) (hstop : i < stop) :
    ∃! f, f ∈ fs ∧ f.offset ≤ i ∧ i < f.stop := by
  induction fs generalizing start with
  | nil => exact absurd (hstart.trans_lt hstop) (not_lt.2 (ge_of_eq h))
  | cons f fs ih =>
      obtain ⟨rfl, hrest⟩ := h
      by_cases hi : i < f.stop
      · refine ⟨f, ⟨List.mem_cons_self, hstart, hi⟩, ?_⟩
        rintro g ⟨hg, hoffset, -⟩
        rcases List.mem_cons.1 hg with rfl | hg
        · rfl
        · exact absurd ((hrest.bounds g hg).1.trans hoffset) (not_le.2 hi)
      · obtain ⟨g, ⟨hg, hin⟩, hunique⟩ := ih hrest (not_lt.1 hi)
        refine ⟨g, ⟨List.mem_cons_of_mem f hg, hin⟩, ?_⟩
        rintro k ⟨hk, hkin⟩
        rcases List.mem_cons.1 hk with rfl | hk
        · exact absurd hkin.2 hi
        · exact hunique k ⟨hk, hkin⟩

variable {b c : List U8} {ws : List (ByteField × ℕ)}

theorem length_writeAll (h : Tiles start (ws.map Prod.fst) stop) (hb : stop ≤ b.length) :
    (writeAll ws b).length = b.length := by
  induction ws generalizing start b with
  | nil => rfl
  | cons w ws ih =>
      obtain ⟨rfl, hrest⟩ := h
      have hlen := w.1.length_write (hrest.le.trans hb) w.2
      exact (ih hrest (hlen ▸ hb)).trans hlen

theorem take_writeAll (h : Tiles start (ws.map Prod.fst) stop) (hb : stop ≤ b.length) :
    (writeAll ws b).take start = b.take start := by
  induction ws generalizing start b with
  | nil => rfl
  | cons w ws ih =>
      obtain ⟨rfl, hrest⟩ := h
      have hend := hrest.le.trans hb
      have hlen := w.1.length_write hend w.2
      have hlater := congrArg (List.take w.1.offset) (ih hrest (hlen ▸ hb))
      have hoffset : w.1.offset ≤ w.1.stop := Nat.le_add_right _ _
      rw [List.take_take, List.take_take, Nat.min_eq_left hoffset] at hlater
      exact hlater.trans (w.1.take_write hend w.2)

theorem read_writeAll (h : Tiles start (ws.map Prod.fst) stop) (hb : stop ≤ b.length) :
    ∀ w ∈ ws, w.1.read (writeAll ws b) = w.2 % 256 ^ w.1.width := by
  induction ws generalizing start b with
  | nil => exact List.forall_mem_nil _
  | cons w ws ih =>
      obtain ⟨rfl, hrest⟩ := h
      have hend := hrest.le.trans hb
      have hlen := w.1.length_write hend w.2
      refine List.forall_mem_cons.2 ⟨?_, ih hrest (hlen ▸ hb)⟩
      rw [← w.1.read_write hend]
      exact ByteField.read_eq_of_take le_rfl (take_writeAll hrest (hlen ▸ hb))

theorem leAt_writeAll (h : Tiles start (ws.map Prod.fst) stop) (hb : stop ≤ b.length) {n off : ℕ}
    {x : BitVec (8 * n)} (hw : (⟨off, n⟩, x.toNat) ∈ ws) : leAt n (writeAll ws b) off = x := by
  have hpow : 2 ^ (8 * n) = 256 ^ n := pow_mul 2 8 n
  apply BitVec.eq_of_toNat_eq
  rw [toNat_leAt, read_writeAll h hb _ hw, ← hpow, Nat.mod_eq_of_lt x.isLt]

theorem take_writeAll_read {fs : List ByteField} (h : Tiles start fs stop) (hb : stop ≤ b.length)
    (hc : stop ≤ c.length) (heq : b.take start = c.take start) :
    (writeAll (fs.map fun f => (f, f.read c)) b).take stop = c.take stop := by
  induction fs generalizing start b with
  | nil =>
      cases h
      exact heq
  | cons f fs ih =>
      obtain ⟨rfl, hrest⟩ := h
      have hend := hrest.le.trans hb
      have hlen := f.length_write hend (f.read c)
      exact ih hrest (hlen ▸ hb) (ByteField.take_write_read (hrest.le.trans hc) heq)

/-- A list is restored from the numbers in fields that tile it. -/
theorem writeAll_read {fs : List ByteField} (h : Tiles 0 fs stop) (hb : b.length = stop)
    (hc : c.length = stop) : writeAll (fs.map fun f => (f, f.read c)) b = c := by
  have htake := take_writeAll_read h hb.ge hc.ge rfl
  have hmap : (fs.map fun f => (f, f.read c)).map Prod.fst = fs := by
    rw [List.map_map]
    exact List.map_id fs
  have hlen := length_writeAll (hmap.symm ▸ h) hb.ge
  rwa [List.take_of_length_le (by rw [hlen, hb]), List.take_of_length_le hc.le] at htake

end Tiles

end TbManager
