import TbManager.ByteLayout
import TbManager.EagerRead
import TbManager.ManifestLog

/-!
# Index blocks and the addresses that they encode

An index block that is laid out as its metadata says decodes to its non-zero addresses. A block
with more addresses than there is room for, or with addresses beyond its end, is rejected, unless
the sections before the addresses end beyond 64 bits.
-/

namespace TbManager

/-- An index block, laid out as its metadata says: checksums, the smallest and the largest keys,
and the addresses of the value blocks. -/
structure IndexBlock where
  header : List U8
  checksums : List U8
  keys : List U8
  addrs : List U64
  rest : List U8
  header_length : header.length = headerSize
  count_eq : valueCount header = addrs.length
  count_le : addrs.length ≤ valueCountMax header
  checksums_length : checksums.length = valueCountMax header * 32
  keys_length : keys.length = 2 * (valueCountMax header * keySize header)
  command : header[114]? = some 20
  size_ge : headerSize ≤ (leAt 4 header 96).toNat
  size_le : (leAt 4 header 96).toNat ≤
    headerSize + checksums.length + keys.length + addrs.length * 8 + rest.length
  address : leAt 8 header 224 ≠ 0
  blockType : header[240]? = some BlockHeader.index

namespace IndexBlock

variable (b : IndexBlock)

def sections : List U8 := b.header ++ (b.checksums ++ b.keys)

def encode : List U8 := b.sections ++ (@leWords 8 b.addrs ++ b.rest)

variable {b}

theorem length_sections : b.sections.length = headerSize + b.checksums.length + b.keys.length := by
  rw [sections, List.length_append, List.length_append, b.header_length, Nat.add_assoc]

theorem length_encode : b.encode.length =
    headerSize + b.checksums.length + b.keys.length + b.addrs.length * 8 + b.rest.length := by
  rw [encode, List.length_append, List.length_append, length_sections, length_leWords,
    Nat.add_assoc _ _ b.rest.length]

theorem encode_eq : ∃ body, b.encode = b.header ++ body := by
  rw [encode, sections, List.append_assoc]
  exact ⟨_, rfl⟩

theorem leAt_encode {n off : ℕ} (h : off + n ≤ headerSize) :
    leAt n b.encode off = leAt n b.header off := by
  obtain ⟨body, hbody⟩ := b.encode_eq
  rw [hbody, leAt_append_left (b.header_length ▸ h)]

theorem readU8_encode {off : ℕ} (h : off < headerSize) :
    readU8 b.encode off = b.header[off]? := by
  obtain ⟨body, hbody⟩ := b.encode_eq
  rw [hbody, readU8, List.getElem?_append_left (b.header_length ▸ h)]

theorem valueCount_encode : valueCount b.encode = b.addrs.length := by
  rw [← b.count_eq, valueCount, valueCount, leAt_encode (by decide)]

theorem valueCountMax_encode : valueCountMax b.encode = valueCountMax b.header := by
  rw [valueCountMax, valueCountMax, leAt_encode (by decide)]

theorem keySize_encode : keySize b.encode = keySize b.header := by
  rw [keySize, keySize, leAt_encode (by decide)]

/-- The addresses start where the sections end. -/
theorem addressSection_encode : addressSection b.encode = b.sections.length := by
  rw [addressSection, valueCountMax_encode, keySize_encode, length_sections, b.checksums_length,
    b.keys_length]
  omega

theorem parse_encode : ∃ header, BlockHeader.parse b.encode = .ok header ∧
    header.blockType = BlockHeader.index := by
  have hsize : (leAt 4 b.header 96).toNat ≤ b.encode.length := by
    rw [length_encode]
    exact b.size_le
  have hlong : headerSize ≤ b.encode.length := b.size_ge.trans hsize
  have hlong' : 256 ≤ b.encode.length := hlong
  rw [BlockHeader.parse, if_neg (not_lt.2 hlong), readU8_encode (by decide), b.command,
    readU32_of_le (by omega), leAt_encode (by decide), readU64_of_le (by omega),
    leAt_encode (by decide), readU8_encode (by decide), b.blockType]
  simp only [Outcome.ofOption_some, Outcome.ok_bind]
  rw [if_neg (not_not_intro rfl), if_neg (not_lt.2 b.size_ge), if_neg (not_lt.2 hsize),
    if_neg b.address]
  exact ⟨_, rfl, rfl⟩

theorem indexBlockAddrs_encode :
    indexBlockAddrs b.encode = some (b.addrs.filter fun addr => addr ≠ 0) := by
  obtain ⟨header, hparse, htype⟩ := b.parse_encode
  have hend : b.sections.length + b.addrs.length * 8 ≤ b.encode.length := by
    rw [length_encode, length_sections]
    omega
  have haddrs := @map_leAt_leWords 8 b.sections b.rest b.addrs
  unfold indexBlockAddrs
  rw [hparse]
  dsimp only
  rw [valueCount_encode, valueCountMax_encode, addressSection_encode,
    if_pos ⟨htype, b.count_le, hend⟩]
  exact congrArg (fun addrs => some (addrs.filter fun addr => addr ≠ 0)) haddrs

end IndexBlock

/-! ## Loading a stored block -/

section Load

variable (prof : Profile) (config : TBConfig) (file : DataFile) (address : U64) (it : ObjectIter)

/-- If the block encodes addresses, those that are not zero are loaded. If it has more addresses
than there is room for, or addresses beyond its end, it is rejected. -/
structure DecodesIndex (block : List U8) : Prop where
  loads : ∀ b : IndexBlock, b.encode = block →
    ∃ it', ObjectIter.loadIndexBlock prof config file address it = .ok it' ∧
      it'.valueAddrs = b.addrs.filter fun addr => addr ≠ 0
  rejects : valueCountMax block < valueCount block ∨
      block.length < addressSection block + valueCount block * 8 →
    ∃ e, ObjectIter.loadIndexBlock prof config file address it = .err e

end Load

variable {config : TBConfig} {file : DataFile} {address : U64} {block : List U8}

theorem valid_of_indexBlockAddrs {addrs : List U64} (h : indexBlockAddrs block = some addrs) :
    valueCount block ≤ valueCountMax block ∧
      addressSection block + valueCount block * 8 ≤ block.length := by
  unfold indexBlockAddrs at h
  split at h
  · split_ifs at h with hvalid
    exact hvalid.2
  · cases h

theorem decodesIndex_of_fit (hblock : file.blockAt config address = some block)
    (hfit : SectionsFit block) (prof : Profile) (it : ObjectIter) :
    DecodesIndex prof config file address it block := by
  have hload : ObjectIter.loadIndexBlock prof config file address it =
      parseIndexBlock prof address block >>= fun addrs =>
        .ok { it with block := block, valueAddrs := addrs, recordCount := 0, recordIdx := 0 } := by
    rw [ObjectIter.loadIndexBlock, ObjectIter.seekAndRead_of_blockAt prof hblock, Outcome.ok_bind]
  have hlength := ObjectIter.length_lt_of_blockAt hblock
  rcases parseIndexBlock_of_fit address hlength hfit with ⟨addrs, haddrs, hparse⟩ | ⟨hnone, e, hparse⟩
  · rw [hparse, Outcome.ok_bind] at hload
    refine ⟨?_, fun hinvalid => ?_⟩
    · rintro b rfl
      rw [IndexBlock.indexBlockAddrs_encode, Option.some.injEq] at haddrs
      exact ⟨_, hload, haddrs.symm⟩
    · have hvalid := valid_of_indexBlockAddrs haddrs
      omega
  · rw [hparse] at hload
    refine ⟨?_, fun _ => ⟨e, hload⟩⟩
    rintro b rfl
    rw [IndexBlock.indexBlockAddrs_encode] at hnone
    cases hnone

/-- Every build decodes a stored index block exactly if the sections before its addresses end at
a 64-bit offset. -/
theorem decodesIndex_iff (hblock : file.blockAt config address = some block) (it : ObjectIter) :
    (∀ prof, DecodesIndex prof config file address it block) ↔ SectionsFit block := by
  constructor
  · intro h
    by_contra hfit
    have hlength := ObjectIter.length_lt_of_blockAt hblock
    have hbeyond : block.length < addressSection block + valueCount block * 8 := by
      unfold SectionsFit at hfit
      push Not at hfit
      obtain ⟨-, -, -, -, hover⟩ := hfit
      omega
    obtain ⟨e, he⟩ := (h .debug).rejects (.inr hbeyond)
    rw [ObjectIter.loadIndexBlock, ObjectIter.seekAndRead_of_blockAt .debug hblock, Outcome.ok_bind,
      parseIndexBlock_overflow address hfit] at he
    cases he
  · exact fun hfit prof => decodesIndex_of_fit hblock hfit prof it

def oneAddressBlocks : TBConfig where
  blockSize := 264
  superblockCopySize := 0
  superblockCopies := 0
  gridZoneStart := 0
  journalSlotCount := 0
  messageSizeMax := 0

/-- One index block with address 7 at byte 256, one value block and the given further metadata. -/
def oneAddressFile (metadata : List (ℕ × U8)) : DataFile where
  bytes := Manifest.sparse 264
    ([(96, 8), (97, 1), (114, 20), (128, 1), (224, 1), (240, 4), (256, 7)] ++ metadata)
  length_lt := by
    rw [Manifest.length_sparse]
    omega

def noIndexBlocks : ObjectIter := ⟨[], [], [], 0, 0, false⟩

theorem decodesIndex_iff_short :
    (oneAddressFile [(132, 1)]).blockAt oneAddressBlocks 1 =
      some (oneAddressFile [(132, 1)]).bytes ∧
    SectionsFit (oneAddressFile [(132, 1)]).bytes ∧
    ∀ prof, DecodesIndex prof oneAddressBlocks (oneAddressFile [(132, 1)]) 1 noIndexBlocks
      (oneAddressFile [(132, 1)]).bytes := by
  have hblock : (oneAddressFile [(132, 1)]).blockAt oneAddressBlocks 1 =
      some (oneAddressFile [(132, 1)]).bytes := by
    decide +kernel
  have hsection : addressSection (oneAddressFile [(132, 1)]).bytes = 288 := by decide +kernel
  have hfit : SectionsFit (oneAddressFile [(132, 1)]).bytes := fun _ _ _ _ => by omega
  exact ⟨hblock, hfit, (decodesIndex_iff hblock noIndexBlocks).2 hfit⟩

/-- Room for 2^31 addresses with keys of 2^32 - 16 bytes: the addresses start at 2^64 + 256. The
checked build panics, the release build loads the address at byte 256. -/
theorem wrappedSections_loaded :
    let file := oneAddressFile [(135, 0x80), (136, 0xF0), (137, 0xFF), (138, 0xFF), (139, 0xFF)]
    file.blockAt oneAddressBlocks 1 = some file.bytes ∧
    addressSection file.bytes = 2 ^ 64 + 256 ∧
    ObjectIter.loadIndexBlock .debug oneAddressBlocks file 1 noIndexBlocks = .panic ∧
    ObjectIter.loadIndexBlock .release oneAddressBlocks file 1 noIndexBlocks =
      .ok { noIndexBlocks with block := file.bytes, valueAddrs := [7] } ∧
    ¬ ∀ prof, DecodesIndex prof oneAddressBlocks file 1 noIndexBlocks file.bytes := by
  intro file
  have hsection : addressSection file.bytes = 2 ^ 64 + 256 := by decide +kernel
  have hdebug : ObjectIter.loadIndexBlock .debug oneAddressBlocks file 1 noIndexBlocks =
      .panic := by
    decide +kernel
  refine ⟨by decide +kernel, hsection, hdebug, by decide +kernel, fun h => ?_⟩
  have hlength : file.bytes.length = 264 := Manifest.length_sparse 264 _
  obtain ⟨e, he⟩ := (h .debug).rejects (.inr (by omega))
  rw [hdebug] at he
  cases he

end TbManager
