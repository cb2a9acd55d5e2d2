import TbManager.Bytes
import TbManager.Outcome
import TbManager.ReaderResult

/-!
# The data file: layout, blocks and superblock

A data file is a list of bytes. A seek fails beyond the signed offsets of the
operating system, a read fails beyond the end of the file.
-/

namespace TbManager

structure TBConfig where
  blockSize : U64
  superblockCopySize : U64
  superblockCopies : U64
  gridZoneStart : U64
  journalSlotCount : U64
  messageSizeMax : U64
  deriving DecidableEq, Repr

namespace TBConfig

def production : TBConfig where
  blockSize := 524288
  superblockCopySize := 24576
  superblockCopies := 4
  gridZoneStart := 1141374976
  journalSlotCount := 1024
  messageSizeMax := 1048576

def blockOffset (config : TBConfig) (prof : Profile) (address : U64) : Option U64 := do
  prof.debugAssert (0 < address)
  let index ← prof.sub address 1
  let offset ← prof.mul index config.blockSize
  prof.add config.gridZoneStart offset

/-- The address is not null and its offset is a 64-bit number. -/
def HasOffset (config : TBConfig) (address : U64) : Prop :=
  address ≠ 0 ∧ config.gridZoneStart.toNat + (address.toNat - 1) * config.blockSize.toNat < 2 ^ 64

instance (config : TBConfig) (address : U64) : Decidable (config.HasOffset address) :=
  inferInstanceAs (Decidable (_ ∧ _))

theorem blockOffset_of_hasOffset {config : TBConfig} {address : U64}
    (h : config.HasOffset address) : ∃ offset : U64,
    offset.toNat = config.gridZoneStart.toNat + (address.toNat - 1) * config.blockSize.toNat ∧
      ∀ prof, config.blockOffset prof address = some offset := by
  obtain ⟨haddress, hlt⟩ := h
  have hle : (1 : U64) ≤ address := by bv_omega
  have hindex : (address - 1).toNat = address.toNat - 1 := by bv_omega
  have hmul : (address - 1).toNat * config.blockSize.toNat < 2 ^ 64 := by rw [hindex]; omega
  have hoffset : ((address - 1) * config.blockSize).toNat =
      (address.toNat - 1) * config.blockSize.toNat := by
    rw [BitVec.toNat_mul_of_lt hmul, hindex]
  have hadd : config.gridZoneStart.toNat + ((address - 1) * config.blockSize).toNat < 2 ^ 64 := by
    rwa [hoffset]
  refine ⟨config.gridZoneStart + (address - 1) * config.blockSize, ?_, fun prof => ?_⟩
  · rw [BitVec.toNat_add_of_lt hadd, hoffset]
  · have hpos : decide (0 < address) = true := by
      rw [decide_eq_true_eq]
      bv_omega
    simp only [blockOffset, prof.debugAssert_of_true hpos, prof.sub_of_le hle,
      prof.mul_of_lt hmul, prof.add_of_lt hadd, Option.bind_eq_bind, Option.bind_some]

theorem blockOffset_debug {config : TBConfig} {address : U64} (h : ¬ config.HasOffset address) :
    config.blockOffset .debug address = none := by
  by_contra hne
  obtain ⟨offset, hoffset⟩ := Option.ne_none_iff_exists'.1 hne
  simp only [blockOffset, Option.bind_eq_bind, Option.bind_eq_some_iff] at hoffset
  obtain ⟨_, hassert, index, hsub, product, hmul, hadd⟩ := hoffset
  have hpos : decide (0 < address) = true := by
    by_contra hzero
    change (if decide (0 < address) = true then some () else none) = _ at hassert
    rw [if_neg hzero] at hassert
    cases hassert
  rw [decide_eq_true_eq] at hpos
  have hindex : index.toNat = address.toNat - 1 := by
    change checkedSub address 1 = some index at hsub
    rw [checkedSub, if_pos (by bv_omega)] at hsub
    rw [← Option.some.inj hsub]
    bv_omega
  have hproduct : product.toNat = index.toNat * config.blockSize.toNat := by
    change checkedMul index config.blockSize = some product at hmul
    unfold checkedMul at hmul
    split_ifs at hmul with hlt
    rw [← Option.some.inj hmul, BitVec.toNat_mul_of_lt hlt]
  have hsum := (checkedAdd_eq_some_iff _ _ _).1 hadd
  have hoffset := offset.isLt
  rw [hsum, hproduct, hindex] at hoffset
  exact h ⟨by bv_omega, hoffset⟩

def superblockCopyOffset (config : TBConfig) (prof : Profile) (n : U64) : Option U64 := do
  prof.debugAssert (n < config.superblockCopies)
  prof.mul n config.superblockCopySize

end TBConfig

structure DataFile where
  bytes : List U8
  length_lt : bytes.length < 2 ^ 63
  deriving DecidableEq, Repr

namespace DataFile

def seek (_file : DataFile) (offset : U64) : Except String Unit :=
  if offset.toNat < 2 ^ 63 then .ok () else .error "Invalid argument (os error 22)"

/-- `read_exact` into a buffer of `n` bytes, after a seek. -/
def readExact (file : DataFile) (offset : U64) (n : ℕ) : Except String (List U8) :=
  if n = 0 then .ok []
  else if offset.toNat + n ≤ file.bytes.length then
    .ok ((file.bytes.drop offset.toNat).take n)
  else .error "failed to fill whole buffer"

theorem length_of_readExact {file : DataFile} {offset : U64} {n : ℕ} {bytes : List U8}
    (h : file.readExact offset n = .ok bytes) : bytes.length = n := by
  unfold readExact at h
  split_ifs at h with hzero hend
  · cases h
    exact hzero.symm
  · cases h
    rw [List.length_take, List.length_drop]
    omega

def blockAt (file : DataFile) (config : TBConfig) (address : U64) : Option (List U8) :=
  let offset := config.gridZoneStart.toNat + (address.toNat - 1) * config.blockSize.toNat
  if address ≠ 0 ∧ offset + config.blockSize.toNat ≤ file.bytes.length then
    some ((file.bytes.drop offset).take config.blockSize.toNat)
  else none

variable {file : DataFile} {config : TBConfig} {address : U64} {block : List U8}

theorem hasOffset_of_blockAt (h : file.blockAt config address = some block) :
    config.HasOffset address := by
  unfold blockAt at h
  dsimp only at h
  split_ifs at h with hstored
  have hlength := file.length_lt
  exact ⟨hstored.1, by omega⟩

theorem readExact_cases (file : DataFile) (h : config.HasOffset address) : ∃ offset,
    (∀ prof, config.blockOffset prof address = some offset) ∧
      ((∃ block, file.blockAt config address = some block ∧ file.seek offset = .ok () ∧
          file.readExact offset config.blockSize.toNat = .ok block) ∨
        file.blockAt config address = none ∧
          ((∃ e, file.seek offset = .error e) ∨
            file.seek offset = .ok () ∧
              ((∃ e, file.readExact offset config.blockSize.toNat = .error e) ∨
                file.readExact offset config.blockSize.toNat = .ok []))) := by
  obtain ⟨offset, htoNat, hoffset⟩ := TBConfig.blockOffset_of_hasOffset h
  refine ⟨offset, hoffset, ?_⟩
  have hlength := file.length_lt
  unfold blockAt readExact seek
  dsimp only
  rw [← htoNat]
  by_cases hstored : offset.toNat + config.blockSize.toNat ≤ file.bytes.length
  · left
    rw [if_pos ⟨h.1, hstored⟩, if_pos (by omega)]
    refine ⟨_, rfl, rfl, ?_⟩
    split_ifs with hzero
    · rw [hzero, List.take_zero]
    · rfl
  · right
    rw [if_neg fun hboth => hstored hboth.2, if_neg hstored]
    refine ⟨rfl, ?_⟩
    by_cases hseek : offset.toNat < 2 ^ 63
    · rw [if_pos hseek]
      refine .inr ⟨rfl, ?_⟩
      split_ifs
      · exact .inr rfl
      · exact .inl ⟨_, rfl⟩
    · rw [if_neg hseek]
      exact .inl ⟨_, rfl⟩

theorem blockOffset_of_blockAt (prof : Profile) (h : file.blockAt config address = some block) :
    ∃ offset, config.blockOffset prof address = some offset ∧ file.seek offset = .ok () ∧
      file.readExact offset config.blockSize.toNat = .ok block := by
  obtain ⟨offset, hoffset, ⟨block', hblock, hseek, hread⟩ | ⟨hnone, -⟩⟩ :=
    readExact_cases file (hasOffset_of_blockAt h)
  · rw [h, Option.some.injEq] at hblock
    subst block'
    exact ⟨offset, hoffset prof, hseek, hread⟩
  · rw [h] at hnone
    cases hnone

theorem length_of_blockAt (h : file.blockAt config address = some block) :
    block.length = config.blockSize.toNat := by
  unfold blockAt at h
  dsimp only at h
  split_ifs at h with hstored
  rw [← Option.some.inj h, List.length_take, List.length_drop]
  omega

theorem blockSize_lt_of_blockAt (h : file.blockAt config address = some block) :
    config.blockSize.toNat < 2 ^ 63 := by
  unfold blockAt at h
  dsimp only at h
  split_ifs at h with hstored
  have := file.length_lt
  omega

end DataFile

/-- `vec![0u8; n]` panics above the largest size of an allocation. -/
def allocate (n : U64) : Outcome ReaderError Unit :=
  if n.toNat < 2 ^ 63 then .ok () else .panic

/-! ## Block headers -/

def headerSize : ℕ := 256

structure BlockHeader where
  size : U32
  blockType : U8
  deriving DecidableEq, Repr

namespace BlockHeader

def manifest : U8 := 3
def index : U8 := 4
def value : U8 := 5

/-- The checks on the first 256 bytes of a block. -/
def parse (block : List U8) : Outcome ReaderError BlockHeader :=
  if block.length < headerSize then
    .err (.invalidBlock ("block too short: " ++ toString block.length ++ " < 256"))
  else do
    let command ← .ofOption (readU8 block 114)
    if command ≠ 20 then
      .err (.invalidBlock ("expected command=block(20), got " ++ toString command.toNat))
    else do
      let size ← .ofOption (readU32 block 96)
      if size.toNat < headerSize then
        .err (.invalidBlock
          ("block header.size=" ++ toString size.toNat ++ " < HEADER_SIZE=256"))
      else if block.length < size.toNat then
        .err (.invalidBlock ("block header.size=" ++ toString size.toNat ++
          " > buffer len " ++ toString block.length))
      else do
        let address ← .ofOption (readU64 block 224)
        if address = 0 then .err (.invalidBlock "block address is 0 (null sentinel)")
        else do
          let blockType ← .ofOption (readU8 block 240)
          .ok ⟨size, blockType⟩

def bodySize (header : BlockHeader) : ℕ := header.size.toNat - headerSize

theorem size_le_of_parse {block : List U8} {header : BlockHeader}
    (h : parse block = .ok header) :
    headerSize ≤ header.size.toNat ∧ header.size.toNat ≤ block.length := by
  unfold parse at h
  split_ifs at h with hshort
  obtain ⟨command, -, h⟩ := Outcome.bind_eq_ok_iff.1 h
  split_ifs at h with hcommand
  obtain ⟨size, -, h⟩ := Outcome.bind_eq_ok_iff.1 h
  split_ifs at h with hsmall hlarge
  obtain ⟨address, -, h⟩ := Outcome.bind_eq_ok_iff.1 h
  split_ifs at h with hnull
  obtain ⟨blockType, -, h⟩ := Outcome.bind_eq_ok_iff.1 h
  cases h
  exact ⟨not_lt.1 hsmall, not_lt.1 hlarge⟩

theorem parse_cases (block : List U8) :
    (∃ header, parse block = .ok header) ∨ ∃ e, parse block = .err e := by
  by_cases hshort : block.length < headerSize
  · exact .inr ⟨_, if_pos hshort⟩
  · have hlong : 256 ≤ block.length := not_lt.1 hshort
    rw [parse, if_neg hshort, readU8_of_lt (by omega), readU32_of_le (by omega),
      readU64_of_le (by omega), readU8_of_lt (by omega)]
    simp only [Outcome.ofOption_some, Outcome.ok_bind]
    split_ifs
    · exact .inr ⟨_, rfl⟩
    · exact .inr ⟨_, rfl⟩
    · exact .inr ⟨_, rfl⟩
    · exact .inr ⟨_, rfl⟩
    · exact .inl ⟨_, rfl⟩

end BlockHeader

/-! ## Superblock -/

structure SuperblockInfo where
  sequence : U64
  clusterId : U128
  replicaCount : U8
  replica : Option U8
  manifestNewestAddress : U64
  manifestBlockCount : U32
  checkpointOp : U64
  deriving DecidableEq, Repr

namespace SuperblockInfo

def parseCopy (buf : List U8) (sequence : U64) : Outcome ReaderError SuperblockInfo := do
  let replicaId ← .ofOption (readU128 buf 1120)
  let replicaCount ← .ofOption (readU8 buf 1364)
  let replica := (List.range 12).find? fun i => readU128 buf (1136 + i * 16) = some replicaId
  let clusterId ← .ofOption (readU128 buf 48)
  let newest ← .ofOption (readU64 buf 656)
  let count ← .ofOption (readU32 buf 704)
  let checkpointOp ← .ofOption (readU64 buf 320)
  .ok
    { sequence := sequence
      clusterId := clusterId
      replicaCount := replicaCount
      replica := replica.map (BitVec.ofNat 8)
      manifestNewestAddress := newest
      manifestBlockCount := count
      checkpointOp := checkpointOp }

/-- A copy with a greater sequence number than the best so far replaces it. -/
def electCopy (buf : List U8) (best : Option SuperblockInfo) :
    Outcome ReaderError (Option SuperblockInfo) := do
  let sequence ← .ofOption (readU64 buf 40)
  if sequence = 0 then .ok best
  else if best.elim 0 SuperblockInfo.sequence < sequence then do
    let info ← parseCopy buf sequence
    .ok (some info)
  else .ok best

def readCopies (prof : Profile) (config : TBConfig) (file : DataFile) :
    ℕ → U64 → Option SuperblockInfo → Outcome ReaderError (Option SuperblockInfo)
  | 0, _, best => .ok best
  | remaining + 1, n, best => do
    let offset ← .ofOption (config.superblockCopyOffset prof n)
    .ofExcept ((file.seek offset).mapError .io)
    let buf ← .ofExcept
      ((file.readExact offset (min 8192 config.superblockCopySize.toNat)).mapError .io)
    let best ← electCopy buf best
    readCopies prof config file remaining (n + 1) best

end SuperblockInfo

def readSuperblock (prof : Profile) (config : TBConfig) (file : DataFile) :
    Outcome ReaderError SuperblockInfo := do
  let best ← SuperblockInfo.readCopies prof config file config.superblockCopies.toNat 0 none
  match best with
  | some info => .ok info
  | none => .err (.invalidSuperblock ("all 4 superblock copies have sequence=0; " ++
      "the file may be unformatted or corrupted"))

end TbManager
