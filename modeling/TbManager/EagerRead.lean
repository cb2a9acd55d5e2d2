import TbManager.ObjectIter

/-!
# The eager read of the tables

Read at once, the tables are the records of the value blocks of their index
blocks, in exact arithmetic, up to the first block that cannot be read or
validated. The streaming iterator produces the same items as long as no offset
and no section size leaves the range of 64-bit numbers.
-/

namespace TbManager

/-! ## Index blocks and value blocks -/

def valueCount (block : List U8) : ℕ := (leAt 4 block 128).toNat

def valueCountMax (block : List U8) : ℕ := (leAt 4 block 132).toNat

def keySize (block : List U8) : ℕ := (leAt 4 block 136).toNat

def addressSection (block : List U8) : ℕ :=
  headerSize + valueCountMax block * 32 + valueCountMax block * keySize block +
    valueCountMax block * keySize block

def indexBlockAddrs (block : List U8) : Option (List U64) :=
  match BlockHeader.parse block with
  | .ok header =>
      if header.blockType = BlockHeader.index ∧ valueCount block ≤ valueCountMax block ∧
          addressSection block + valueCount block * 8 ≤ block.length then
        some (((List.range (valueCount block)).map fun i =>
          leAt 8 block (addressSection block + i * 8)).filter fun addr => addr ≠ 0)
      else none
  | _ => none

def valueBlockSlots (block : List U8) : Option ℕ :=
  match BlockHeader.parse block with
  | .ok header =>
      if header.blockType = BlockHeader.value then some (header.bodySize / recordSize) else none
  | _ => none

/-- The sections of an index block end at a 64-bit offset. -/
def SectionsFit (block : List U8) : Prop :=
  ∀ header, BlockHeader.parse block = .ok header → header.blockType = BlockHeader.index →
    valueCount block ≤ valueCountMax block → addressSection block < 2 ^ 64

theorem parseValueBlock_cases (address : U64) (block : List U8) :
    (∃ count, valueBlockSlots block = some count ∧ parseValueBlock address block = .ok count) ∨
      valueBlockSlots block = none ∧ ∃ e, parseValueBlock address block = .err e := by
  unfold valueBlockSlots parseValueBlock
  rcases BlockHeader.parse_cases block with ⟨header, hheader⟩ | ⟨e, he⟩
  · rw [hheader, Outcome.ok_bind]
    by_cases htype : header.blockType = BlockHeader.value
    · exact .inl ⟨_, if_pos htype, if_neg (not_not.2 htype)⟩
    · exact .inr ⟨if_neg htype, _, if_pos htype⟩
  · rw [he]
    exact .inr ⟨rfl, e, rfl⟩

section IndexBlock

variable {block : List U8}

theorem sections_mul (block : List U8) :
    ∃ checksumSection keysSection addrSectionSize : U64,
      checkedMul ((leAt 4 block 132).setWidth 64) 32#64 = some checksumSection ∧
      checkedMul ((leAt 4 block 132).setWidth 64) ((leAt 4 block 136).setWidth 64) =
        some keysSection ∧
      (∀ prof : Profile, prof.mul ((leAt 4 block 128).setWidth 64) 8#64 = some addrSectionSize) ∧
      checksumSection.toNat = valueCountMax block * 32 ∧
      keysSection.toNat = valueCountMax block * keySize block ∧
      addrSectionSize.toNat = valueCount block * 8 := by
  have hcount : ((leAt 4 block 128).setWidth 64).toNat = valueCount block :=
    BitVec.toNat_setWidth_of_le (by omega)
  have hmax : ((leAt 4 block 132).setWidth 64).toNat = valueCountMax block :=
    BitVec.toNat_setWidth_of_le (by omega)
  have hkey : ((leAt 4 block 136).setWidth 64).toNat = keySize block :=
    BitVec.toNat_setWidth_of_le (by omega)
  have hcountLt : valueCount block < 2 ^ 32 := (leAt 4 block 128).isLt
  have hmaxLt : valueCountMax block < 2 ^ 32 := (leAt 4 block 132).isLt
  have hkeyLt : keySize block < 2 ^ 32 := (leAt 4 block 136).isLt
  have hchecksums : ((leAt 4 block 132).setWidth 64).toNat * (32#64).toNat < 2 ^ 64 := by
    rw [hmax]
    change valueCountMax block * 32 < 2 ^ 64
    omega
  have hkeys : ((leAt 4 block 132).setWidth 64).toNat * ((leAt 4 block 136).setWidth 64).toNat <
      2 ^ 64 := by
    rw [hmax, hkey]
    exact (Nat.mul_lt_mul'' hmaxLt hkeyLt).trans_eq (by norm_num)
  have haddrs : ((leAt 4 block 128).setWidth 64).toNat * (8#64).toNat < 2 ^ 64 := by
    rw [hcount]
    change valueCount block * 8 < 2 ^ 64
    omega
  refine ⟨_, _, _, if_pos hchecksums, if_pos hkeys, fun prof => prof.mul_of_lt haddrs, ?_, ?_, ?_⟩
  · rw [BitVec.toNat_mul_of_lt hchecksums, hmax]
    rfl
  · rw [BitVec.toNat_mul_of_lt hkeys, hmax, hkey]
  · rw [BitVec.toNat_mul_of_lt haddrs, hcount]
    rfl

def addrSectionOffset (prof : Profile) (checksumSection keysSection : U64) : Option U64 := do
  let checksumsEnd ← prof.add (BitVec.ofNat 64 headerSize) checksumSection
  let minKeysEnd ← prof.add checksumsEnd keysSection
  prof.add minKeysEnd keysSection

theorem addrSectionOffset_of_fit {checksumSection keysSection : U64}
    (hfit : headerSize + checksumSection.toNat + keysSection.toNat + keysSection.toNat < 2 ^ 64) :
    ∃ off : U64, (∀ prof, addrSectionOffset prof checksumSection keysSection = some off) ∧
      off.toNat = headerSize + checksumSection.toNat + keysSection.toNat + keysSection.toNat := by
  have hheader : (BitVec.ofNat 64 headerSize).toNat = headerSize := rfl
  have hfirst : (BitVec.ofNat 64 headerSize).toNat + checksumSection.toNat < 2 ^ 64 := by omega
  have hend := BitVec.toNat_add_of_lt hfirst
  have hsecond : (BitVec.ofNat 64 headerSize + checksumSection).toNat + keysSection.toNat <
      2 ^ 64 := by omega
  have hminKeys := BitVec.toNat_add_of_lt hsecond
  have hthird : (BitVec.ofNat 64 headerSize + checksumSection + keysSection).toNat +
      keysSection.toNat < 2 ^ 64 := by omega
  refine ⟨BitVec.ofNat 64 headerSize + checksumSection + keysSection + keysSection,
    fun prof => ?_, ?_⟩
  · simp only [addrSectionOffset, prof.add_of_lt hfirst, prof.add_of_lt hsecond,
      prof.add_of_lt hthird, Option.bind_eq_bind, Option.bind_some]
  · rw [BitVec.toNat_add_of_lt hthird]
    omega

theorem addrSectionOffset_overflow {checksumSection keysSection : U64}
    (hover : 2 ^ 64 ≤
      headerSize + checksumSection.toNat + keysSection.toNat + keysSection.toNat) :
    addrSectionOffset .debug checksumSection keysSection = none := by
  by_contra hne
  obtain ⟨off, hoff⟩ := Option.ne_none_iff_exists'.1 hne
  simp only [addrSectionOffset, Option.bind_eq_bind, Option.bind_eq_some_iff] at hoff
  obtain ⟨checksumsEnd, hfirst, minKeysEnd, hsecond, hthird⟩ := hoff
  -- in range, the sums would be exact
  have h₁ := (checkedAdd_eq_some_iff _ _ _).1 hfirst
  have h₂ := (checkedAdd_eq_some_iff _ _ _).1 hsecond
  have h₃ := (checkedAdd_eq_some_iff _ _ _).1 hthird
  have hheader : (BitVec.ofNat 64 headerSize).toNat = headerSize := rfl
  have hlt := off.isLt
  omega

def readAddrSection (address : U64) (block : List U8) (offset size : U64) :
    Outcome ReaderError (List U64) := do
  let addrSectionEnd ← .okOr (checkedAdd offset size)
    (.invalidBlock "index block: address section end overflow")
  if block.length < addrSectionEnd.toNat then
    .err (.invalidBlock ("index block " ++ toString address.toNat ++ ": address section end (" ++
      toString addrSectionEnd.toNat ++ ") exceeds block size (" ++ toString block.length ++ ")"))
  else do
    let addrs ← .ofOption ((List.range (leAt 4 block 128).toNat).mapM fun i =>
      readU64 block (offset.toNat + i * 8))
    .ok (addrs.filter fun addr => addr ≠ 0)

/-- An index block is refused before its sections are added up, or every build adds them up in
its own way and goes on alike. -/
theorem parseIndexBlock_cases (address : U64) (block : List U8) :
    (indexBlockAddrs block = none ∧ SectionsFit block ∧
        ∃ e, ∀ prof, parseIndexBlock prof address block = .err e) ∨
      ∃ header checksumSection keysSection addrSectionSize,
        BlockHeader.parse block = .ok header ∧ header.blockType = BlockHeader.index ∧
        valueCount block ≤ valueCountMax block ∧
        headerSize + checksumSection.toNat + keysSection.toNat + keysSection.toNat =
          addressSection block ∧
        addrSectionSize.toNat = valueCount block * 8 ∧
        ∀ prof, parseIndexBlock prof address block =
          .ofOption (addrSectionOffset prof checksumSection keysSection) >>= fun offset =>
            readAddrSection address block offset addrSectionSize := by
  unfold indexBlockAddrs parseIndexBlock
  rcases BlockHeader.parse_cases block with ⟨header, hheader⟩ | ⟨e, he⟩
  · have hlong : 256 ≤ block.length := by
      have hsize := BlockHeader.size_le_of_parse hheader
      exact hsize.1.trans hsize.2
    have hsame : ∀ header', BlockHeader.parse block = .ok header' → header' = header := by
      intro header' hheader'
      rw [hheader, Outcome.ok.injEq] at hheader'
      exact hheader'.symm
    have h₁ : readU32 block 128 = some (leAt 4 block 128) := readU32_of_le (by omega)
    have h₂ : readU32 block 132 = some (leAt 4 block 132) := readU32_of_le (by omega)
    have h₃ : readU32 block 136 = some (leAt 4 block 136) := readU32_of_le (by omega)
    rw [hheader]
    by_cases htype : header.blockType = BlockHeader.index
    · by_cases hcount : valueCount block ≤ valueCountMax block
      · right
        obtain ⟨checksumSection, keysSection, addrSectionSize, hchecksums, hkeys, haddrs, hc, hk,
          ha⟩ := sections_mul block
        have hle : ¬ leAt 4 block 132 < leAt 4 block 128 := not_lt.2 hcount
        refine ⟨header, checksumSection, keysSection, addrSectionSize, rfl, htype, hcount, ?_, ha,
          fun prof => ?_⟩
        · rw [hc, hk]
          rfl
        · simp only [Outcome.ok_bind, if_neg (not_not.2 htype), h₁, h₂, h₃, Outcome.ofOption_some]
          rw [if_neg hle, hchecksums, hkeys]
          simp only [Outcome.okOr, Outcome.ok_bind, haddrs, Outcome.ofOption_some,
            addrSectionOffset, readAddrSection, Option.bind_eq_bind]
          cases prof.add (BitVec.ofNat 64 headerSize) checksumSection with
          | none => rfl
          | some checksumsEnd =>
              rw [Outcome.ofOption_some, Outcome.ok_bind, Option.bind_some]
              cases prof.add checksumsEnd keysSection with
              | none => rfl
              | some minKeysEnd => rw [Outcome.ofOption_some, Outcome.ok_bind, Option.bind_some]
      · left
        have hlt : leAt 4 block 132 < leAt 4 block 128 := not_le.1 hcount
        refine ⟨if_neg fun h => hcount h.2.1, fun _ _ _ h => absurd h hcount, ?_⟩
        simp only [Outcome.ok_bind, if_neg (not_not.2 htype), h₁, h₂, h₃, Outcome.ofOption_some]
        exact ⟨_, fun _ => if_pos hlt⟩
    · left
      refine ⟨if_neg fun h => htype h.1, fun header' hheader' htype' => ?_, _, fun _ =>
        if_pos htype⟩
      exact absurd (hsame header' hheader' ▸ htype') htype
  · left
    rw [he]
    refine ⟨rfl, fun header hheader => ?_, e, fun _ => rfl⟩
    rw [he] at hheader
    cases hheader

theorem readAddrs {off count : ℕ} (h : off + count * 8 ≤ block.length) :
    ((List.range count).mapM fun i => readU64 block (off + i * 8)) =
      some ((List.range count).map fun i => leAt 8 block (off + i * 8)) := by
  apply mapM_eq_some_map
  intro i hi
  rw [List.mem_range] at hi
  exact readU64_of_le (by omega)

/-- Where the sections fit, every build validates an index block exactly. -/
theorem parseIndexBlock_of_fit (address : U64) (hlen : block.length < 2 ^ 64)
    (hfit : SectionsFit block) :
    (∃ addrs, indexBlockAddrs block = some addrs ∧
        ∀ prof, parseIndexBlock prof address block = .ok addrs) ∨
      indexBlockAddrs block = none ∧
        ∃ e, ∀ prof, parseIndexBlock prof address block = .err e := by
  rcases parseIndexBlock_cases address block with ⟨haddrs, -, e, hparse⟩ |
    ⟨header, checksumSection, keysSection, addrSectionSize, hheader, htype, hcount, hsections, hsize,
      hparse⟩
  · exact .inr ⟨haddrs, e, hparse⟩
  · have hsection := hfit header hheader htype hcount
    rw [← hsections] at hsection
    obtain ⟨off, hoffset, hoff⟩ := addrSectionOffset_of_fit hsection
    rw [hsections] at hoff
    have hread : ∀ prof, parseIndexBlock prof address block =
        readAddrSection address block off addrSectionSize := by
      intro prof
      rw [hparse, hoffset, Outcome.ofOption_some, Outcome.ok_bind]
    simp only [hread]
    unfold indexBlockAddrs readAddrSection
    rw [hheader]
    by_cases hend : addressSection block + valueCount block * 8 ≤ block.length
    · left
      have hsum : off.toNat + addrSectionSize.toNat < 2 ^ 64 := by omega
      have hchecked : checkedAdd off addrSectionSize = some (off + addrSectionSize) := if_pos hsum
      have htoNat := BitVec.toNat_add_of_lt hsum
      have haddrs := readAddrs hend
      refine ⟨_, if_pos ⟨htype, hcount, hend⟩, fun _ => ?_⟩
      unfold valueCount at haddrs ⊢
      rw [hchecked, Outcome.okOr, Outcome.ok_bind, if_neg (by omega), hoff, haddrs]
      rfl
    · right
      refine ⟨if_neg fun h => hend h.2.2, ?_⟩
      cases hchecked : checkedAdd off addrSectionSize with
      | none => exact ⟨_, fun _ => rfl⟩
      | some addrSectionEnd =>
          have htoNat := (checkedAdd_eq_some_iff _ _ _).1 hchecked
          exact ⟨_, fun _ => if_pos (by omega)⟩

theorem parseIndexBlock_overflow (address : U64) (hfit : ¬ SectionsFit block) :
    parseIndexBlock .debug address block = .panic := by
  rcases parseIndexBlock_cases address block with ⟨-, hfits, -⟩ |
    ⟨header, checksumSection, keysSection, addrSectionSize, hheader, htype, hcount, hsections, -,
      hparse⟩
  · exact absurd hfits hfit
  · have hover : 2 ^ 64 ≤ addressSection block := by
      by_contra hlt
      exact hfit fun _ _ _ _ => Nat.not_le.1 hlt
    rw [← hsections] at hover
    rw [hparse, addrSectionOffset_overflow hover]
    rfl

end IndexBlock

/-! ## The tables of a file -/

section Tables

variable (config : TBConfig) (file : DataFile)

/-- The number of slots of the value block at an address, if it can be read and is valid. -/
def storedSlots (address : U64) : Option ℕ := (file.blockAt config address).bind valueBlockSlots

def storedAddrs (address : U64) : Option (List U64) :=
  (file.blockAt config address).bind indexBlockAddrs

/-- Up to the first value block that cannot be read or validated, every address has an offset. -/
def ValuesAddressed : List U64 → Prop
  | [] => True
  | address :: addrs =>
      config.HasOffset address ∧
        ((storedSlots config file address).isSome → ValuesAddressed addrs)

/-- The index block has an offset, and if it is stored its sections fit, and so for its value
blocks. -/
structure TableAddressed (address : U64) : Prop where
  hasOffset : config.HasOffset address
  sectionsFit : ∀ block, file.blockAt config address = some block → SectionsFit block
  values : ∀ addrs, storedAddrs config file address = some addrs →
    ValuesAddressed config file addrs

def TableReadable (address : U64) : Prop :=
  ∃ addrs, storedAddrs config file address = some addrs ∧
    ∀ value ∈ addrs, (storedSlots config file value).isSome

/-- So for every table up to the first that is not readable. -/
def TablesAddressed : List U64 → Prop
  | [] => True
  | address :: addrs =>
      TableAddressed config file address ∧
        (TableReadable config file address → TablesAddressed addrs)

variable {α : Type} [TBObject α]

def eagerValue (address : U64) : Reading Unit α :=
  match file.blockAt config address with
  | none => .failed ()
  | some block =>
      match valueBlockSlots block with
      | none => .failed ()
      | some count => .ofItems (ObjectIter.slotRecords block 0 count)

def eagerTable (address : U64) : Reading Unit α :=
  match storedAddrs config file address with
  | none => .failed ()
  | some addrs => .join (addrs.map (eagerValue config file))

/-- The records of all tables, up to the first failure. -/
def eagerRead (indexAddrs : List U64) : Reading Unit α :=
  .join (indexAddrs.map (eagerTable config file))

end Tables

theorem finished_eagerRead {α : Type} [TBObject α] (config : TBConfig) (file : DataFile)
    (indexAddrs : List U64) :
    (eagerRead config file indexAddrs : Reading Unit α).stop.Finished := by
  have hvalue : ∀ r ∈ Set.range (eagerValue (α := α) config file), r.stop.Finished := by
    rintro _ ⟨address, rfl⟩
    unfold eagerValue
    cases file.blockAt config address with
    | none => trivial
    | some block => cases hslots : valueBlockSlots block <;> simp only [hslots] <;> trivial
  have htable : ∀ r ∈ Set.range (eagerTable (α := α) config file), r.stop.Finished := by
    rintro _ ⟨address, rfl⟩
    unfold eagerTable
    cases storedAddrs config file address with
    | none => trivial
    | some addrs =>
        apply Reading.finished_join
        intro r hr
        obtain ⟨value, -, rfl⟩ := List.mem_map.1 hr
        exact hvalue _ ⟨value, rfl⟩
  apply Reading.finished_join
  intro r hr
  obtain ⟨address, -, rfl⟩ := List.mem_map.1 hr
  exact htable _ ⟨address, rfl⟩

namespace ObjectIter

variable {α : Type} [TBObject α] {config : TBConfig} {file : DataFile} {address : U64}

theorem seekAndRead_debug (h : ¬ config.HasOffset address) :
    seekAndRead .debug config file address = .panic := by
  rw [seekAndRead, TBConfig.blockOffset_debug h]
  rfl

theorem seekAndRead_cases (file : DataFile) (h : config.HasOffset address) :
    (∃ block, file.blockAt config address = some block ∧
        ∀ prof, seekAndRead prof config file address = .ok block) ∨
      file.blockAt config address = none ∧
        ((∃ e, ∀ prof, seekAndRead prof config file address = .err e) ∨
          ∀ prof, seekAndRead prof config file address = .ok []) := by
  obtain ⟨offset, hoffset, ⟨block, hblock, hseek, hread⟩ | ⟨hnone, ⟨e, hseek⟩ | ⟨hseek, hread⟩⟩⟩ :=
    DataFile.readExact_cases file h
  · exact .inl ⟨block, hblock, fun prof => seekAndRead_of_blockAt prof hblock⟩
  · have hfail : ∃ e, ∀ prof, seekAndRead prof config file address = .err e := by
      simp only [seekAndRead, hoffset, Outcome.ofOption_some, Outcome.ok_bind, hseek]
      exact ⟨_, fun _ => rfl⟩
    exact .inr ⟨hnone, .inl hfail⟩
  · refine .inr ⟨hnone, ?_⟩
    rcases hread with ⟨e, hread⟩ | hread
    · left
      simp only [seekAndRead, hoffset, Outcome.ofOption_some, Outcome.ok_bind, hseek, hread]
      exact ⟨_, fun _ => rfl⟩
    · right
      simp only [seekAndRead, hoffset, Outcome.ofOption_some, Outcome.ok_bind, hseek, hread]
      exact fun _ => rfl

/-! ## Value blocks -/

theorem stop_eagerValue (config : TBConfig) (file : DataFile) (address : U64) :
    (eagerValue config file address : Reading Unit α).stop = .ok () ↔
      (storedSlots config file address).isSome := by
  unfold eagerValue storedSlots
  cases file.blockAt config address with
  | none => simp [Reading.failed]
  | some block =>
      rw [Option.bind_some]
      cases hslots : valueBlockSlots block with
      | none => simp [hslots, Reading.failed]
      | some count => simp [hslots, Reading.ofItems]

theorem valueReading_settles (h : config.HasOffset address) :
    Reading.Settles (fun prof => (valueReading prof config file address : Reading ReaderError α))
      (eagerValue config file address) := by
  unfold valueReading eagerValue
  rcases seekAndRead_cases file h with ⟨block, hblock, hread⟩ | ⟨hnone, ⟨e, hread⟩ | hread⟩
  · rw [hblock]
    rcases parseValueBlock_cases address block with ⟨count, hslots, hparse⟩ | ⟨hslots, e, hparse⟩
    · refine ⟨.ofItems (slotRecords block 0 count), fun prof => ?_, ?_⟩
      · dsimp only
        rw [hread, Outcome.ok_bind, hparse]
        rfl
      · simp only [hslots]
        rfl
    · refine ⟨.failed e, fun prof => ?_, ?_⟩
      · dsimp only
        rw [hread, Outcome.ok_bind, hparse]
        rfl
      · simp only [hslots]
        rfl
  · rw [hnone]
    refine ⟨.failed e, fun prof => ?_, rfl⟩
    dsimp only
    rw [hread]
    rfl
  · obtain ⟨e, hempty⟩ : ∃ e, BlockHeader.parse [] = .err e := ⟨_, rfl⟩
    rw [hnone]
    refine ⟨.failed e, fun prof => ?_, rfl⟩
    dsimp only
    rw [hread, Outcome.ok_bind, parseValueBlock, hempty]
    rfl

theorem valueReading_debug (h : ¬ config.HasOffset address) :
    (valueReading .debug config file address : Reading ReaderError α).stop = .panic := by
  rw [valueReading, seekAndRead_debug h]
  rfl

theorem values_settle {addrs : List U64} (h : ValuesAddressed config file addrs) :
    Reading.Settles
      (fun prof => .join (addrs.map (valueReading (α := α) prof config file)))
      (.join (addrs.map (eagerValue config file))) := by
  induction addrs with
  | nil => exact ⟨.nil, fun _ => rfl, rfl⟩
  | cons address addrs ih =>
      obtain ⟨hoffset, hrest⟩ := h
      refine (valueReading_settles hoffset).append fun hstop => ih (hrest ?_)
      exact (stop_eagerValue config file address).1 hstop

/-- The checked build panics at the first address without an offset. -/
theorem values_panic {addrs : List U64} (h : ¬ ValuesAddressed config file addrs) :
    (Reading.join (addrs.map (valueReading (α := α) .debug config file))).stop = .panic := by
  induction addrs with
  | nil => exact absurd trivial h
  | cons address addrs ih =>
      apply Reading.stop_append_panic
      by_cases hoffset : config.HasOffset address
      · right
        simp only [ValuesAddressed, hoffset, true_and, Classical.not_imp] at h
        have hstop := (@valueReading_settles α _ config file address hoffset).stop_iff .debug
        exact ⟨hstop.2 ((stop_eagerValue config file address).2 h.1), ih h.2⟩
      · exact .inl (valueReading_debug hoffset)

/-! ## Tables -/

theorem stop_eagerTable (config : TBConfig) (file : DataFile) (address : U64) :
    (eagerTable config file address : Reading Unit α).stop = .ok () ↔
      TableReadable config file address := by
  unfold eagerTable TableReadable
  cases storedAddrs config file address with
  | none => simp [Reading.failed]
  | some addrs =>
      simp only [Reading.stop_join_iff, List.forall_mem_map, stop_eagerValue, Option.some.injEq,
        exists_eq_left']

theorem length_lt_of_blockAt {block : List U8} (h : file.blockAt config address = some block) :
    block.length < 2 ^ 64 := by
  rw [DataFile.length_of_blockAt h]
  exact (DataFile.blockSize_lt_of_blockAt h).trans (by norm_num)

theorem tableAddressed_iff_of_blockAt {block : List U8}
    (h : file.blockAt config address = some block) :
    TableAddressed config file address ↔ SectionsFit block ∧
      ∀ addrs, indexBlockAddrs block = some addrs → ValuesAddressed config file addrs := by
  have hstored : storedAddrs config file address = indexBlockAddrs block := by
    rw [storedAddrs, h, Option.bind_some]
  constructor
  · intro haddressed
    exact ⟨haddressed.sectionsFit block h, fun addrs haddrs =>
      haddressed.values addrs (hstored.trans haddrs)⟩
  · rintro ⟨hfit, hvalues⟩
    refine ⟨DataFile.hasOffset_of_blockAt h, fun block' hblock' => ?_, fun addrs haddrs =>
      hvalues addrs (hstored.symm.trans haddrs)⟩
    rw [h, Option.some.injEq] at hblock'
    exact hblock' ▸ hfit

theorem tableReading_settles (h : TableAddressed config file address) :
    Reading.Settles (fun prof => (tableReading prof config file address : Reading ReaderError α))
      (eagerTable config file address) := by
  unfold tableReading eagerTable storedAddrs
  rcases seekAndRead_cases file h.hasOffset with
    ⟨block, hblock, hread⟩ | ⟨hnone, ⟨e, hread⟩ | hread⟩
  · rw [hblock, Option.bind_some]
    obtain ⟨hfit, hvalues⟩ := (tableAddressed_iff_of_blockAt hblock).1 h
    rcases parseIndexBlock_of_fit address (length_lt_of_blockAt hblock) hfit with
      ⟨addrs, haddrs, hparse⟩ | ⟨haddrs, e, hparse⟩
    · obtain ⟨r, hr, hmap⟩ := values_settle (α := α) (hvalues addrs haddrs)
      refine ⟨r, fun prof => ?_, ?_⟩
      · dsimp only
        rw [hread, Outcome.ok_bind, hparse]
        exact hr prof
      · simp only [haddrs]
        exact hmap
    · refine ⟨.failed e, fun prof => ?_, ?_⟩
      · dsimp only
        rw [hread, Outcome.ok_bind, hparse]
        rfl
      · simp only [haddrs]
        rfl
  · rw [hnone]
    refine ⟨.failed e, fun prof => ?_, rfl⟩
    dsimp only
    rw [hread]
    rfl
  · obtain ⟨e, hempty⟩ : ∃ e, BlockHeader.parse [] = .err e := ⟨_, rfl⟩
    rw [hnone]
    refine ⟨.failed e, fun prof => ?_, rfl⟩
    dsimp only
    rw [hread, Outcome.ok_bind, parseIndexBlock, hempty]
    rfl

theorem tableReading_panic (h : ¬ TableAddressed config file address) :
    (tableReading .debug config file address : Reading ReaderError α).stop = .panic := by
  rw [tableReading]
  by_cases hoffset : config.HasOffset address
  · rcases seekAndRead_cases file hoffset with ⟨block, hblock, hread⟩ | ⟨hnone, -⟩
    · rw [hread, Outcome.ok_bind]
      rw [tableAddressed_iff_of_blockAt hblock] at h
      by_cases hfit : SectionsFit block
      · rcases parseIndexBlock_of_fit address (length_lt_of_blockAt hblock) hfit with
          ⟨addrs, haddrs, hparse⟩ | ⟨hnone, -⟩
        · rw [hparse]
          apply values_panic
          intro hvalues
          refine h ⟨hfit, fun addrs' haddrs' => ?_⟩
          rw [haddrs, Option.some.injEq] at haddrs'
          exact haddrs' ▸ hvalues
        · refine absurd ⟨hfit, fun addrs haddrs => ?_⟩ h
          rw [hnone] at haddrs
          cases haddrs
      · rw [parseIndexBlock_overflow address hfit]
        rfl
    · refine absurd ⟨hoffset, fun block hblock => ?_, fun addrs haddrs => ?_⟩ h
      · rw [hnone] at hblock
        cases hblock
      · rw [storedAddrs, hnone] at haddrs
        cases haddrs
  · rw [seekAndRead_debug hoffset]
    rfl

theorem tables_settle {addrs : List U64} (h : TablesAddressed config file addrs) :
    Reading.Settles
      (fun prof => .join (addrs.map (tableReading (α := α) prof config file)))
      (eagerRead config file addrs) := by
  induction addrs with
  | nil => exact ⟨.nil, fun _ => rfl, rfl⟩
  | cons address addrs ih =>
      obtain ⟨htable, hrest⟩ := h
      refine (tableReading_settles htable).append fun hstop => ih (hrest ?_)
      exact (stop_eagerTable config file address).1 hstop

theorem tables_panic {addrs : List U64} (h : ¬ TablesAddressed config file addrs) :
    (Reading.join (addrs.map (tableReading (α := α) .debug config file))).stop = .panic := by
  induction addrs with
  | nil => exact absurd trivial h
  | cons address addrs ih =>
      apply Reading.stop_append_panic
      by_cases htable : TableAddressed config file address
      · right
        simp only [TablesAddressed, htable, true_and, Classical.not_imp] at h
        have hstop := (tableReading_settles (α := α) htable).stop_iff .debug
        exact ⟨hstop.2 ((stop_eagerTable config file address).2 h.1), ih h.2⟩
      · exact .inl (tableReading_panic htable)

/-- A new iterator has the readings of its tables before it. -/
theorem rest_new (prof : Profile) (hsize : config.blockSize.toNat < 2 ^ 63) (file : DataFile)
    (addrs : List U64) :
    ∃ it, new config addrs = .ok it ∧ it.InBlock ∧
      (rest prof config file it : Reading ReaderError α) =
        .join (addrs.map (tableReading prof config file)) := by
  have hnew : new config addrs = .ok
      { block := List.replicate config.blockSize.toNat 0
        indexAddrs := addrs
        valueAddrs := []
        recordCount := 0
        recordIdx := 0
        done := false } := by
    rw [new, allocate, if_pos hsize, Outcome.ok_bind]
  exact ⟨_, hnew, ⟨Nat.le_refl 0, fun hlt => absurd hlt (Nat.lt_irrefl 0)⟩, rfl⟩

theorem new_panic (hsize : ¬ config.blockSize.toNat < 2 ^ 63) (addrs : List U64) :
    new config addrs = .panic := by
  rw [new, allocate, if_neg hsize]
  rfl

end ObjectIter

/-- The calls of the iterator produce the items of the eager read, and nothing after them; the
text of the error is not compared. -/
def RefinesEager (α : Type) [TBObject α] (prof : Profile) (config : TBConfig) (file : DataFile)
    (indexAddrs : List U64) : Prop :=
  ∃ it xs, ObjectIter.new config indexAddrs = .ok it ∧
    Outcome.Produces (ObjectIter.next (α := α) prof config file) it xs ∧
    xs.map (Except.mapError fun _ => ()) = (eagerRead config file indexAddrs).results

theorem refinesEager_of_addressed (α : Type) [TBObject α] (prof : Profile) {config : TBConfig}
    {file : DataFile} {indexAddrs : List U64} (hsize : config.blockSize.toNat < 2 ^ 63)
    (h : TablesAddressed config file indexAddrs) : RefinesEager α prof config file indexAddrs := by
  obtain ⟨it, hnew, hit, hrest⟩ := ObjectIter.rest_new (α := α) prof hsize file indexAddrs
  obtain ⟨r, hr, hmap⟩ := ObjectIter.tables_settle (α := α) h
  refine ⟨it, r.results, hnew, ?_, ?_⟩
  · refine (ObjectIter.next_simulates prof config file).produces ⟨hit, hrest.trans (hr prof)⟩ ?_
    have hfinished := finished_eagerRead config file indexAddrs (α := α)
    rw [← hmap] at hfinished
    exact Reading.finished_of_mapErr hfinished
  · rw [← Reading.results_mapErr, hmap]

theorem nextCalls_panic (α : Type) [TBObject α] {config : TBConfig} {file : DataFile}
    {indexAddrs : List U64} (h : ¬ TablesAddressed config file indexAddrs) {it : ObjectIter}
    (hnew : ObjectIter.new config indexAddrs = .ok it) :
    ∃ n, Outcome.nextCalls (ObjectIter.next (α := α) .debug config file) n it = .panic := by
  have hsize : config.blockSize.toNat < 2 ^ 63 := by
    by_contra hsize
    rw [ObjectIter.new_panic hsize] at hnew
    cases hnew
  obtain ⟨it', hnew', hit, hrest⟩ := ObjectIter.rest_new (α := α) .debug hsize file indexAddrs
  rw [hnew, Outcome.ok.injEq] at hnew'
  subst it'
  have hstop := ObjectIter.tables_panic (α := α) h
  rw [← hrest] at hstop
  exact ⟨_, (ObjectIter.next_simulates .debug config file).nextCalls_panic ⟨hit, rfl⟩ hstop⟩

/-- For every file and every list of index-block addresses, the iterator of every build refines
the eager read exactly when a block can be allocated and, up to the first block that cannot be
read or validated, every address has an offset and the sections of every index block fit. -/
theorem refinesEager_iff (α : Type) [TBObject α] (config : TBConfig) (file : DataFile)
    (indexAddrs : List U64) :
    (∀ prof, RefinesEager α prof config file indexAddrs) ↔
      config.blockSize.toNat < 2 ^ 63 ∧ TablesAddressed config file indexAddrs := by
  constructor
  · intro hrefines
    obtain ⟨it, xs, hnew, hproduces, -⟩ := hrefines .debug
    constructor
    · by_contra hsize
      rw [ObjectIter.new_panic hsize] at hnew
      cases hnew
    · by_contra haddressed
      obtain ⟨n, hn⟩ := nextCalls_panic α haddressed hnew
      rw [hproduces n] at hn
      cases hn
  · rintro ⟨hsize, haddressed⟩ prof
    exact refinesEager_of_addressed α prof hsize haddressed

def emptyFile : DataFile := ⟨[], by decide⟩

/-- A live table with the null address: the eager read has one error, the checked build panics. -/
theorem nullTable_not_refined :
    (eagerRead .production emptyFile [0] : Reading Unit Account).results = [.error ()] ∧
      ¬ RefinesEager Account .debug .production emptyFile [0] := by
  refine ⟨rfl, ?_⟩
  rintro ⟨it, xs, hnew, hproduces, -⟩
  have hnull : ¬ TablesAddressed .production emptyFile [0] := fun h => h.1.hasOffset.1 rfl
  obtain ⟨n, hn⟩ := nextCalls_panic Account hnull hnew
  rw [hproduces n] at hn
  cases hn

end TbManager
