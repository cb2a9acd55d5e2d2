import TbManager.ReaderSurvival
import TbManager.WalSlots

/-!
# The elected superblock copy

For every layout whose copies hold a whole header, the reader returns the fields of the first
copy with the greatest sequence number; the order of copies with distinct sequence numbers does
not matter.
-/

namespace TbManager

open SuperblockInfo

def copyAt (config : TBConfig) (file : DataFile) (n : ℕ) : Option (List U8) :=
  file.bytesAt (n * config.superblockCopySize.toNat) 8192

def storedCopies (config : TBConfig) (file : DataFile) : Option (List (List U8)) :=
  (List.range config.superblockCopies.toNat).mapM (copyAt config file)

def sequenceOf (copy : List U8) : ℕ := (leAt 8 copy 40).toNat

/-- One of the 12 members of the cluster. -/
def memberOf (copy : List U8) (i : ℕ) : U128 := leAt 16 copy (1136 + i * 16)

def replicaIdOf (copy : List U8) : U128 := leAt 16 copy 1120

/-- The index is the least of a member with the replica's id. -/
def IsReplica (copy : List U8) (i : ℕ) : Prop :=
  i < 12 ∧ memberOf copy i = replicaIdOf copy ∧ ∀ j < i, memberOf copy j ≠ replicaIdOf copy

structure TakenFrom (copy : List U8) (info : SuperblockInfo) : Prop where
  sequence : info.sequence.toNat = sequenceOf copy
  clusterId : info.clusterId = leAt 16 copy 48
  replicaCount : copy[1364]? = some info.replicaCount
  replica : ∀ i : U8, info.replica = some i ↔ IsReplica copy i.toNat
  newest : info.manifestNewestAddress = leAt 8 copy 656
  blockCount : info.manifestBlockCount = leAt 4 copy 704
  checkpointOp : info.checkpointOp = leAt 8 copy 320

def IsElected (copies : List (List U8)) (copy : List U8) : Prop :=
  ∃ before after, copies = before ++ copy :: after ∧
    (∀ other ∈ before, sequenceOf other < sequenceOf copy) ∧
    ∀ other ∈ after, sequenceOf other ≤ sequenceOf copy

/-! ## The fields of a copy -/

theorem find_member {copy : List U8} (hlen : copy.length = 8192) (i : ℕ) :
    ((List.range 12).find? fun i =>
      readU128 copy (1136 + i * 16) = some (leAt 16 copy 1120)) = some i ↔ IsReplica copy i := by
  have hread : ∀ j < 12, readU128 copy (1136 + j * 16) = some (memberOf copy j) := fun j hj =>
    readU128_of_le (by omega)
  rw [List.range_eq_range', List.find?_range'_eq_some, List.mem_range'_1]
  constructor
  · rintro ⟨hfound, ⟨-, hlt⟩, hleast⟩
    have hi : i < 12 := by omega
    rw [decide_eq_true_eq, hread i hi, Option.some.injEq] at hfound
    refine ⟨hi, hfound, fun j hj heq => ?_⟩
    have hnot := hleast j (Nat.zero_le j) hj
    rw [hread j (hj.trans hi), heq] at hnot
    simp [replicaIdOf] at hnot
  · rintro ⟨hi, hfound, hleast⟩
    refine ⟨?_, ⟨Nat.zero_le i, by omega⟩, fun j _ hj => ?_⟩
    · rw [decide_eq_true_eq, hread i hi, hfound]
      rfl
    · rw [hread j (hj.trans hi), Bool.not_eq_true', decide_eq_false_iff_not, Option.some.injEq]
      exact hleast j hj

theorem takenFrom_ofCopy {copy : List U8} (hlen : copy.length = 8192) :
    TakenFrom copy (ofCopy copy) where
  sequence := rfl
  clusterId := rfl
  replicaCount := by
    rw [ofCopy, readU8_of_lt (by omega), Option.getD_some]
    exact List.getElem?_eq_getElem _
  replica i := by
    rw [← find_member hlen, ofCopy, Option.map_eq_some_iff]
    constructor
    · rintro ⟨n, hn, rfl⟩
      have hlt := ((find_member hlen n).1 hn).1
      rw [hn, BitVec.toNat_ofNat, Nat.mod_eq_of_lt (by omega)]
    · intro hfound
      exact ⟨i.toNat, hfound, BitVec.eq_of_toNat_eq (by simp)⟩
  newest := rfl
  blockCount := rfl
  checkpointOp := rfl

/-! ## The fold over the copies -/

theorem elect_none (copy : List U8) :
    elect none copy = if sequenceOf copy ≠ 0 then some (ofCopy copy) else none := by
  have hpos : (0 : U64) < leAt 8 copy 40 ↔ 0 < sequenceOf copy := BitVec.lt_def
  by_cases hzero : sequenceOf copy = 0
  · rw [if_neg (not_not_intro hzero)]
    exact if_neg fun h => (hpos.1 h).ne' hzero
  · rw [if_pos hzero]
    exact if_pos (hpos.2 (Nat.pos_of_ne_zero hzero))

theorem elect_some (best copy : List U8) :
    elect (some (ofCopy best)) copy =
      some (ofCopy (if sequenceOf best < sequenceOf copy then copy else best)) := by
  have hlt : (ofCopy best).sequence < leAt 8 copy 40 ↔ sequenceOf best < sequenceOf copy :=
    BitVec.lt_def
  by_cases hless : sequenceOf best < sequenceOf copy
  · rw [if_pos hless]
    exact if_pos (hlt.2 hless)
  · rw [if_neg hless]
    exact if_neg (mt hlt.1 hless)

theorem elected_some (copy : List U8) :
    ((some copy).filter fun copy => sequenceOf copy ≠ 0).map ofCopy =
      if sequenceOf copy ≠ 0 then some (ofCopy copy) else none := by
  by_cases hzero : sequenceOf copy = 0
  · rw [if_neg (not_not_intro hzero), Option.filter_some_neg (by simp [hzero])]
    rfl
  · rw [if_pos hzero, Option.filter_some_pos (by simp [hzero])]
    rfl

/-- The first copy with the greatest sequence number stays the best, unless that is zero. -/
theorem foldl_elect (copies : List (List U8)) :
    copies.foldl elect none =
      ((copies.argmax sequenceOf).filter fun copy => sequenceOf copy ≠ 0).map ofCopy := by
  induction copies using List.reverseRecOn with
  | nil => rfl
  | append_singleton copies copy ih =>
      rw [List.foldl_concat, ih, List.argmax_concat]
      cases copies.argmax sequenceOf with
      | none =>
          dsimp only
          rw [elected_some]
          exact elect_none copy
      | some best =>
          dsimp only
          rw [← apply_ite some, elected_some, elected_some]
          by_cases hzero : sequenceOf best = 0
          · rw [if_neg (not_not_intro hzero), elect_none]
            by_cases hcopy : sequenceOf copy = 0
            · rw [hzero, hcopy, if_neg (lt_irrefl 0), if_neg (not_not_intro rfl),
                if_neg (not_not_intro hzero)]
            · rw [hzero, if_pos (Nat.pos_of_ne_zero hcopy)]
          · have hmax : sequenceOf (if sequenceOf best < sequenceOf copy then copy else best) ≠ 0 := by
              split_ifs
              · omega
              · exact hzero
            rw [if_pos hzero, elect_some, if_pos hmax]

theorem isElected_of_argmax {copies : List (List U8)} {copy : List U8}
    (h : copies.argmax sequenceOf = some copy) : IsElected copies copy := by
  induction copies using List.reverseRecOn generalizing copy with
  | nil => cases h
  | append_singleton copies last ih =>
      rw [List.argmax_concat] at h
      cases hbest : copies.argmax sequenceOf with
      | none =>
          rw [hbest] at h
          cases h
          rw [List.argmax_eq_none.1 hbest]
          exact ⟨[], [], rfl, List.forall_mem_nil _, List.forall_mem_nil _⟩
      | some best =>
          rw [hbest] at h
          dsimp only at h
          by_cases hless : sequenceOf best < sequenceOf last
          · rw [if_pos hless] at h
            cases h
            refine ⟨copies, [], rfl, fun other hother => ?_, List.forall_mem_nil _⟩
            exact (List.le_of_mem_argmax hother hbest).trans_lt hless
          · rw [if_neg hless] at h
            cases h
            obtain ⟨before, after, rfl, hbefore, hafter⟩ := ih hbest
            refine ⟨before, after ++ [last], by simp, hbefore, ?_⟩
            rw [List.forall_mem_append, List.forall_mem_singleton]
            exact ⟨hafter, not_lt.1 hless⟩

theorem IsElected.mem {copies : List (List U8)} {copy : List U8} (h : IsElected copies copy) :
    copy ∈ copies := by
  obtain ⟨before, after, rfl, -⟩ := h
  exact List.mem_append_right before List.mem_cons_self

theorem argmax_perm {copies copies' : List (List U8)} (hperm : copies'.Perm copies)
    (hnodup : (copies.map sequenceOf).Nodup) :
    copies'.argmax sequenceOf = copies.argmax sequenceOf := by
  cases hcopy : copies.argmax sequenceOf with
  | none =>
      rw [List.argmax_eq_none] at hcopy ⊢
      rw [hcopy] at hperm
      exact hperm.eq_nil
  | some copy =>
      have hmem := List.argmax_mem hcopy
      cases hcopy' : copies'.argmax sequenceOf with
      | none =>
          rw [List.argmax_eq_none.1 hcopy'] at hperm
          rw [hperm.symm.eq_nil] at hmem
          cases hmem
      | some copy' =>
          have hmem' := hperm.mem_iff.1 (List.argmax_mem hcopy')
          have hle := List.le_of_mem_argmax (hperm.mem_iff.2 hmem) hcopy'
          have hge := List.le_of_mem_argmax hmem' hcopy
          rw [List.inj_on_of_nodup_map hnodup hmem' hmem (le_antisymm hge hle)]

/-! ## The loop over the copies -/

section Copies

variable {config : TBConfig} {file : DataFile}

theorem superblockCopyOffset_of_copyAt {n : ℕ} {copy : List U8}
    (hn : n < config.superblockCopies.toNat) (h : copyAt config file n = some copy)
    (prof : Profile) : ∃ offset,
      config.superblockCopyOffset prof (BitVec.ofNat 64 n) = some offset ∧
        file.seek offset = .ok () ∧ file.readExact offset 8192 = .ok copy := by
  have hlength := file.length_lt
  have hcount := config.superblockCopies.isLt
  have hindex : (BitVec.ofNat 64 n).toNat = n := by
    rw [BitVec.toNat_ofNat, Nat.mod_eq_of_lt (by omega)]
  have hfits : n * config.superblockCopySize.toNat + 8192 ≤ file.bytes.length := by
    unfold copyAt DataFile.bytesAt at h
    split_ifs at h with hend
    exact hend
  have hmul : (BitVec.ofNat 64 n).toNat * config.superblockCopySize.toNat < 2 ^ 64 := by
    rw [hindex]
    omega
  have hoffset : (BitVec.ofNat 64 n * config.superblockCopySize).toNat =
      n * config.superblockCopySize.toNat := by
    rw [BitVec.toNat_mul_of_lt hmul, hindex]
  have hassert : decide (BitVec.ofNat 64 n < config.superblockCopies) = true := by
    rwa [decide_eq_true_eq, BitVec.lt_def, hindex]
  refine ⟨BitVec.ofNat 64 n * config.superblockCopySize, ?_, ?_⟩
  · rw [TBConfig.superblockCopyOffset, prof.debugAssert_of_true hassert, prof.mul_of_lt hmul]
    rfl
  · rcases file.seek_readExact_cases (BitVec.ofNat 64 n * config.superblockCopySize)
      (by decide : 0 < 8192) with ⟨bytes, hbytes, hseek, hread⟩ | ⟨hnone, -⟩
    · rw [hoffset, ← copyAt, h, Option.some.injEq] at hbytes
      exact ⟨hseek, hbytes ▸ hread⟩
    · rw [hoffset, ← copyAt, h] at hnone
      cases hnone

theorem readCopies_of_stored (hsize : 8192 ≤ config.superblockCopySize.toNat) (prof : Profile)
    (remaining : ℕ) {n : ℕ} (hn : n + remaining = config.superblockCopies.toNat)
    {copies : List (List U8)}
    (h : (List.range' n remaining).mapM (copyAt config file) = some copies)
    (best : Option SuperblockInfo) :
    readCopies prof config file remaining (BitVec.ofNat 64 n) best =
      .ok (copies.foldl elect best) := by
  induction remaining generalizing n copies best with
  | zero =>
      cases h
      rfl
  | succ remaining ih =>
      have hnext : BitVec.ofNat 64 n + 1 = BitVec.ofNat 64 (n + 1) := by
        rw [BitVec.ofNat_add]
        rfl
      rw [List.range'_succ, List.mapM_cons] at h
      simp only [Option.bind_eq_bind, Option.bind_eq_some_iff] at h
      obtain ⟨copy, hcopy, rest, hrest, hcopies⟩ := h
      cases hcopies
      obtain ⟨offset, hoffset, hseek, hread⟩ :=
        superblockCopyOffset_of_copyAt (by omega) hcopy prof
      rw [readCopies, hoffset, Outcome.ofOption_some, Outcome.ok_bind, hseek,
        Nat.min_eq_left hsize, hread]
      change (electCopy copy best >>= fun best => _) = _
      rw [electCopy_eq (DataFile.length_of_bytesAt hcopy), Outcome.ok_bind, hnext,
        ih (by omega) hrest, List.foldl_cons]

/-- What the reader returns is a function of the first copy with the greatest sequence number. -/
theorem readSuperblock_of_stored (hsize : 8192 ≤ config.superblockCopySize.toNat)
    {copies : List (List U8)} (h : storedCopies config file = some copies) (prof : Profile) :
    readSuperblock prof config file =
      Outcome.okOr (((copies.argmax sequenceOf).filter fun copy => sequenceOf copy ≠ 0).map ofCopy)
        (.invalidSuperblock ("all 4 superblock copies have sequence=0; " ++
          "the file may be unformatted or corrupted")) := by
  rw [storedCopies, List.range_eq_range'] at h
  rw [readSuperblock, ← foldl_elect]
  change (readCopies prof config file _ (BitVec.ofNat 64 0) none >>= _) = _
  rw [readCopies_of_stored hsize prof _ (Nat.zero_add _) h, Outcome.ok_bind]
  cases copies.foldl elect none with
  | none => rfl
  | some info => rfl

theorem length_of_stored {copies : List (List U8)} (h : storedCopies config file = some copies) :
    ∀ copy ∈ copies, copy.length = 8192 := by
  intro copy hcopy
  obtain ⟨n, -, hn⟩ := exists_of_mem_mapM h hcopy
  exact DataFile.length_of_bytesAt hn

/-- Every build fails exactly if no copy has a sequence number, and returns the fields of the
elected copy otherwise. The order of copies with distinct sequence numbers does not matter. -/
theorem readSuperblock_elects (hsize : 8192 ≤ config.superblockCopySize.toNat)
    {copies : List (List U8)} (hstored : storedCopies config file = some copies) (prof : Profile) :
    ((∃ e, readSuperblock prof config file = .err e) ↔ ∀ copy ∈ copies, sequenceOf copy = 0) ∧
    ((∃ copy ∈ copies, sequenceOf copy ≠ 0) → ∃ copy info, IsElected copies copy ∧
      TakenFrom copy info ∧ readSuperblock prof config file = .ok info) ∧
    ∀ (config' : TBConfig) (file' : DataFile) (copies' : List (List U8)),
      8192 ≤ config'.superblockCopySize.toNat → storedCopies config' file' = some copies' →
      copies'.Perm copies → (copies.map sequenceOf).Nodup →
        readSuperblock prof config' file' = readSuperblock prof config file := by
  have hread := readSuperblock_of_stored hsize hstored prof
  have hfound : (∃ copy ∈ copies, sequenceOf copy ≠ 0) → ∃ copy info, IsElected copies copy ∧
      TakenFrom copy info ∧ readSuperblock prof config file = .ok info := by
    rintro ⟨other, hother, hne⟩
    cases hcopy : copies.argmax sequenceOf with
    | none =>
        rw [List.argmax_eq_none.1 hcopy] at hother
        cases hother
    | some copy =>
        have hle := List.le_of_mem_argmax hother hcopy
        have helected := isElected_of_argmax hcopy
        refine ⟨copy, ofCopy copy, helected,
          takenFrom_ofCopy (length_of_stored hstored copy helected.mem), ?_⟩
        have hpos : sequenceOf copy ≠ 0 := by omega
        rw [hread, hcopy, elected_some, if_pos hpos]
        rfl
  refine ⟨⟨?_, fun hzero => ?_⟩, hfound, fun config' file' copies' hsize' hstored' hperm hnodup => ?_⟩
  · rintro ⟨e, he⟩
    by_contra hsome
    push Not at hsome
    obtain ⟨copy, info, -, -, hok⟩ := hfound hsome
    rw [he] at hok
    cases hok
  · rw [hread]
    cases hcopy : copies.argmax sequenceOf with
    | none => exact ⟨_, rfl⟩
    | some copy =>
        rw [elected_some, if_neg (not_not_intro (hzero copy (List.argmax_mem hcopy)))]
        exact ⟨_, rfl⟩
  · rw [hread, readSuperblock_of_stored hsize' hstored' prof, argmax_perm hperm hnodup]

end Copies

def twoCopies : TBConfig where
  blockSize := 512
  superblockCopySize := 8192
  superblockCopies := 2
  gridZoneStart := 16384
  journalSlotCount := 0
  messageSizeMax := 0

def secondCopyFile : DataFile where
  bytes := List.replicate 8192 0 ++ Manifest.sparse 8192 [(40, 3)]
  length_lt := by
    rw [List.length_append, List.length_replicate, Manifest.length_sparse]
    omega

theorem storedCopies_secondCopyFile : storedCopies twoCopies secondCopyFile =
    some [List.replicate 8192 0, Manifest.sparse 8192 [(40, 3)]] := by
  have hlen : (List.replicate 8192 (0 : U8)).length = 8192 := List.length_replicate
  have hlen' := Manifest.length_sparse 8192 [(40, 3)]
  have hend : secondCopyFile.bytes.length = 16384 := by
    rw [secondCopyFile, List.length_append, hlen, hlen']
  have hsize : twoCopies.superblockCopySize.toNat = 8192 := rfl
  have hfirst : copyAt twoCopies secondCopyFile 0 = some (List.replicate 8192 0) := by
    rw [copyAt, DataFile.bytesAt, hend, hsize, if_pos (by omega), Nat.zero_mul, List.drop_zero,
      secondCopyFile, List.take_left' hlen]
  have hsecond : copyAt twoCopies secondCopyFile 1 = some (Manifest.sparse 8192 [(40, 3)]) := by
    rw [copyAt, DataFile.bytesAt, hend, hsize, if_pos (by omega), Nat.one_mul, secondCopyFile,
      List.drop_left' hlen, List.take_of_length_le hlen'.le]
  have hrange : List.range twoCopies.superblockCopies.toNat = [0, 1] := rfl
  rw [storedCopies, hrange, List.mapM_cons, List.mapM_cons, hfirst, hsecond]
  rfl

theorem readSuperblock_secondCopy :
    ¬ ∃ e, readSuperblock .release twoCopies secondCopyFile = .err e := by
  have hsize : 8192 ≤ twoCopies.superblockCopySize.toNat := by decide
  rw [(readSuperblock_elects hsize storedCopies_secondCopyFile .release).1]
  intro hzero
  have hsequence : sequenceOf (Manifest.sparse 8192 [(40, 3)]) = 3 := by decide +kernel
  have := hzero _ (List.mem_cons_of_mem _ List.mem_cons_self)
  omega

end TbManager
