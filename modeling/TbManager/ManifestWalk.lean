import TbManager.ManifestLog

/-!
# The manifest walk over any file

A chain that is not well formed ends the walk with an error, and one that is
longer than the superblock says meets the guard. Only an address without an
offset and a block count at the edge of 32 bits make the checked build panic.
-/

namespace TbManager.Manifest

theorem entrySlices_eq_some {block : List U8} {entryCount : ℕ}
    (h : headerSize + entryCount * tableInfoSize ≤ block.length) :
    ∃ slices, entrySlices block entryCount = some slices := by
  refine ⟨_, mapM_eq_some_map (g := fun i =>
    (block.drop (headerSize + i * tableInfoSize)).take tableInfoSize) fun i hi => slice_eq_some ?_⟩
  rw [List.mem_range] at hi
  have hmul : (i + 1) * tableInfoSize ≤ entryCount * tableInfoSize := Nat.mul_le_mul_right _ hi
  rw [Nat.add_mul] at hmul
  omega

theorem parseBlock_cases (address : U64) (block : List U8) :
    (∃ r, parseBlock address block = .ok r) ∨ ∃ e, parseBlock address block = .err e := by
  unfold parseBlock
  rcases BlockHeader.parse_cases block with ⟨header, hheader⟩ | ⟨e, he⟩
  · have hlong : 256 ≤ block.length := by
      have hsize := BlockHeader.size_le_of_parse hheader
      exact hsize.1.trans hsize.2
    rw [hheader, Outcome.ok_bind]
    by_cases htype : header.blockType = BlockHeader.manifest
    · rw [if_neg (not_not.2 htype), readU64_of_le (by omega), readU32_of_le (by omega)]
      simp only [Outcome.ofOption_some, Outcome.ok_bind]
      by_cases hcount : (block.length - headerSize) / tableInfoSize < (leAt 4 block 168).toNat
      · exact .inr ⟨_, if_pos hcount⟩
      · have hfits := Nat.mul_le_of_le_div _ _ _ (not_lt.1 hcount)
        obtain ⟨slices, hslices⟩ := @entrySlices_eq_some block (leAt 4 block 168).toNat (by
          change 256 + _ ≤ _
          change _ ≤ block.length - 256 at hfits
          omega)
        rw [if_neg hcount, hslices]
        exact .inl ⟨_, rfl⟩
    · exact .inr ⟨_, if_pos htype⟩
  · rw [he]
    exact .inr ⟨e, rfl⟩

section Walk

variable (config : TBConfig) (file : DataFile)

/-- The previous address and the entries of the manifest block at an address, if it can be read
and is valid. -/
def storedManifest (address : U64) : Option (U64 × List TableInfo) :=
  (file.blockAt config address).bind fun block =>
    match parseBlock address block with
    | .ok r => some r
    | _ => none

/-- Up to the end of the chain, or the first block that cannot be read or is not valid, the
addresses of that many blocks have an offset. -/
def ChainAddressed : ℕ → U64 → Prop
  | 0, _ => True
  | n + 1, address =>
      address = 0 ∨ config.HasOffset address ∧
        ∀ r, storedManifest config file address = some r → ChainAddressed n r.1

/-- The chain has more than that many valid blocks or ends in one more address. -/
def ChainLonger : ℕ → U64 → Prop
  | 0, address => address ≠ 0
  | n + 1, address =>
      address ≠ 0 ∧ ∃ r, storedManifest config file address = some r ∧ ChainLonger n r.1

/-- The blocks that the guard lets the walk visit have an offset, and neither the bound of the
guard nor the number of visited blocks leaves the range of 32-bit numbers. -/
structure WalkAddressed (info : SuperblockInfo) : Prop where
  bound : info.manifestBlockCount.toNat + 1 < 2 ^ 32
  chain : ChainAddressed config file (info.manifestBlockCount.toNat + 1) info.manifestNewestAddress
  visited : info.manifestBlockCount.toNat + 2 < 2 ^ 32 ∨
    ¬ ChainLonger config file (info.manifestBlockCount.toNat + 1) info.manifestNewestAddress

variable {config file} {address : U64}

theorem readBlock_cases (file : DataFile) (h : config.HasOffset address) :
    (∃ r block, storedManifest config file address = some r ∧
        file.blockAt config address = some block ∧ parseBlock address block = .ok r ∧
        ∀ prof, readBlock prof config file address = .ok r) ∨
      storedManifest config file address = none ∧
        ∃ e, ∀ prof, readBlock prof config file address = .err e := by
  unfold storedManifest
  obtain ⟨offset, hoffset, ⟨block, hblock, hseek, hread⟩ | ⟨hnone, hfail⟩⟩ :=
    DataFile.readExact_cases file h
  · have hreadBlock : ∀ prof, readBlock prof config file address = parseBlock address block :=
      fun prof => readBlock_of_blockAt prof hblock
    rw [hblock, Option.bind_some]
    rcases parseBlock_cases address block with ⟨r, hr⟩ | ⟨e, he⟩
    · exact .inl ⟨r, block, by rw [hr], rfl, hr, fun prof => (hreadBlock prof).trans hr⟩
    · exact .inr ⟨by rw [he], e, fun prof => (hreadBlock prof).trans he⟩
  · right
    rw [hnone]
    refine ⟨rfl, ?_⟩
    unfold readBlock
    simp only [hoffset, Outcome.ofOption_some, Outcome.ok_bind]
    rcases hfail with ⟨e, hseek⟩ | ⟨hseek, ⟨e, hread⟩ | hread⟩
    · rw [hseek]
      exact ⟨_, fun _ => rfl⟩
    · rw [hseek, hread]
      exact ⟨_, fun _ => rfl⟩
    · rw [hseek, hread]
      exact ⟨_, fun _ => rfl⟩

theorem readBlock_debug (h : ¬ config.HasOffset address) :
    readBlock .debug config file address = .panic := by
  rw [readBlock, TBConfig.blockOffset_debug h]
  rfl

variable {count : U32}

/-- One round of the walk, where the counters do not overflow. -/
theorem walk_round (prof : Profile) (visit : HashMap U64 Bool → List TableInfo → HashMap U64 Bool)
    (fuel : ℕ) {visited : U32} (seen : HashMap U64 Bool) (haddress : address ≠ 0)
    (hcount : count.toNat + 1 < 2 ^ 32) (hvisited : visited.toNat + 1 < 2 ^ 32) :
    walk prof config file count visit (fuel + 1) address visited seen =
      if count.toNat + 1 < visited.toNat + 1 then
        .err (.invalidBlock ("manifest chain longer than manifest_block_count=" ++
          toString count.toNat ++ " (possible loop)"))
      else readBlock prof config file address >>= fun block =>
        walk prof config file count visit fuel block.1 (visited + 1) (visit seen block.2) := by
  have hnext : prof.add visited 1 = some (visited + 1) := prof.add_of_lt hvisited
  have hbound : prof.add count 1 = some (count + 1) := prof.add_of_lt hcount
  have hlt : count + 1 < visited + 1 ↔ count.toNat + 1 < visited.toNat + 1 := by
    rw [BitVec.lt_def, BitVec.toNat_add_of_lt hcount, BitVec.toNat_add_of_lt hvisited]
    rfl
  rw [walk, if_neg haddress, hnext, hbound]
  simp only [Outcome.ofOption_some, Outcome.ok_bind, hlt]

theorem walk_null (prof : Profile) (visit : HashMap U64 Bool → List TableInfo → HashMap U64 Bool)
    (visited : U32) (seen : HashMap U64 Bool) {fuel : ℕ} (hfuel : 0 < fuel) :
    walk prof config file count visit fuel 0 visited seen = .ok seen := by
  obtain ⟨fuel, rfl⟩ : ∃ m, fuel = m + 1 := ⟨fuel - 1, by omega⟩
  rw [walk]
  exact if_pos rfl

/-- Every build walks a chain whose addresses have offsets: to its end, or to an error. -/
theorem walk_cases (hcount : count.toNat + 1 < 2 ^ 32) (n : ℕ) {address : U64} {visited : U32}
    (hvisited : visited.toNat + n = count.toNat + 1)
    (hchain : ChainAddressed config file n address)
    (hguard : count.toNat + 2 < 2 ^ 32 ∨ ¬ ChainLonger config file n address) :
    (∃ blocks, Chain file config address blocks ∧ blocks.length ≤ n ∧
        ∀ prof visit seen fuel, n + 2 ≤ fuel →
          walk prof config file count visit fuel address visited seen =
            .ok (blocks.foldl visit seen)) ∨
      ∃ e, ∀ prof visit seen fuel, n + 2 ≤ fuel →
        walk prof config file count visit fuel address visited seen = .err e := by
  have hnull : ∀ (n : ℕ) (visited : U32), ∃ blocks, Chain file config 0 blocks ∧
      blocks.length ≤ n ∧ ∀ prof visit seen fuel, n + 2 ≤ fuel →
        walk prof config file count visit fuel 0 visited seen = .ok (blocks.foldl visit seen) :=
    fun n visited => ⟨[], Chain.nil, Nat.zero_le n, fun prof visit seen fuel hfuel =>
      walk_null prof visit visited seen (by omega)⟩
  induction n generalizing address visited with
  | zero =>
      by_cases haddress : address = 0
      · subst address
        exact .inl (hnull 0 visited)
      · right
        have hlt : visited.toNat + 1 < 2 ^ 32 := by
          rcases hguard with hguard | hguard
          · omega
          · exact absurd haddress hguard
        refine ⟨.invalidBlock ("manifest chain longer than manifest_block_count=" ++
          toString count.toNat ++ " (possible loop)"), fun prof visit seen fuel hfuel => ?_⟩
        obtain ⟨fuel, rfl⟩ : ∃ m, fuel = m + 1 := ⟨fuel - 1, by omega⟩
        rw [walk_round prof visit fuel seen haddress hcount hlt]
        exact if_pos (by omega)
  | succ n ih =>
      by_cases haddress : address = 0
      · subst address
        exact .inl (hnull (n + 1) visited)
      · obtain ⟨hoffset, hrest⟩ := hchain.resolve_left haddress
        have hlt : visited.toNat + 1 < 2 ^ 32 := by omega
        have hnext : (visited + 1).toNat = visited.toNat + 1 := BitVec.toNat_add_of_lt hlt
        have hround : ∀ prof visit seen fuel,
            walk prof config file count visit (fuel + 1) address visited seen =
              readBlock prof config file address >>= fun block =>
                walk prof config file count visit fuel block.1 (visited + 1)
                  (visit seen block.2) := by
          intro prof visit seen fuel
          rw [walk_round prof visit fuel seen haddress hcount hlt, if_neg (by omega)]
        rcases readBlock_cases file hoffset with
          ⟨r, block, hstored, hblock, hparse, hread⟩ | ⟨-, e, hread⟩
        · have hguard' : count.toNat + 2 < 2 ^ 32 ∨ ¬ ChainLonger config file n r.1 :=
            hguard.imp_right fun hshort hlonger => hshort ⟨haddress, r, hstored, hlonger⟩
          rcases @ih r.1 (visited + 1) (by omega) (hrest r hstored) hguard' with
            ⟨blocks, hblocks, hlength, hwalk⟩ | ⟨e, hwalk⟩
          · refine .inl ⟨r.2 :: blocks, Chain.cons hblock hparse hblocks,
              Nat.succ_le_succ hlength, fun prof visit seen fuel hfuel => ?_⟩
            obtain ⟨fuel, rfl⟩ : ∃ m, fuel = m + 1 := ⟨fuel - 1, by omega⟩
            rw [hround, hread, Outcome.ok_bind, hwalk _ _ _ _ (by omega), List.foldl_cons]
          · refine .inr ⟨e, fun prof visit seen fuel hfuel => ?_⟩
            obtain ⟨fuel, rfl⟩ : ∃ m, fuel = m + 1 := ⟨fuel - 1, by omega⟩
            rw [hround, hread, Outcome.ok_bind, hwalk _ _ _ _ (by omega)]
        · refine .inr ⟨e, fun prof visit seen fuel hfuel => ?_⟩
          obtain ⟨fuel, rfl⟩ : ∃ m, fuel = m + 1 := ⟨fuel - 1, by omega⟩
          rw [hround, hread, Outcome.err_bind]

/-- The checked build panics at an address without an offset, or when it counts a block more than
32 bits hold. -/
theorem walk_panic (hcount : count.toNat + 1 < 2 ^ 32) (n : ℕ) {address : U64} {visited : U32}
    (hvisited : visited.toNat + n = count.toNat + 1)
    (hbad : ¬ ChainAddressed config file n address ∨
      count.toNat + 2 = 2 ^ 32 ∧ ChainLonger config file n address)
    (visit : HashMap U64 Bool → List TableInfo → HashMap U64 Bool) (seen : HashMap U64 Bool)
    {fuel : ℕ} (hfuel : n + 2 ≤ fuel) :
    walk .debug config file count visit fuel address visited seen = .panic := by
  induction n generalizing address visited seen fuel with
  | zero =>
      obtain ⟨hmax, haddress⟩ := hbad.resolve_left (not_not.2 trivial)
      obtain ⟨fuel, rfl⟩ : ∃ m, fuel = m + 1 := ⟨fuel - 1, by omega⟩
      have hover : Profile.debug.add visited 1 = none := if_neg (by
        change ¬ visited.toNat + 1 < 2 ^ 32
        omega)
      rw [walk, if_neg haddress, hover]
      rfl
  | succ n ih =>
      have haddress : address ≠ 0 := by
        rintro rfl
        rcases hbad with hbad | ⟨-, hlonger⟩
        · exact hbad (.inl rfl)
        · exact hlonger.1 rfl
      obtain ⟨fuel, rfl⟩ : ∃ m, fuel = m + 1 := ⟨fuel - 1, by omega⟩
      have hlt : visited.toNat + 1 < 2 ^ 32 := by omega
      have hnext : (visited + 1).toNat = visited.toNat + 1 := BitVec.toNat_add_of_lt hlt
      rw [walk_round .debug visit fuel seen haddress hcount hlt, if_neg (by omega)]
      by_cases hoffset : config.HasOffset address
      · rcases readBlock_cases file hoffset with ⟨r, block, hstored, -, -, hread⟩ | ⟨hnone, -⟩
        · rw [hread, Outcome.ok_bind]
          refine ih (by omega) ?_ _ (by omega)
          rcases hbad with hbad | ⟨hmax, -, r', hstored', hlonger⟩
          · refine .inl fun hrest => hbad (.inr ⟨hoffset, fun r' hstored' => ?_⟩)
            rw [hstored, Option.some.injEq] at hstored'
            rwa [← hstored']
          · rw [hstored, Option.some.injEq] at hstored'
            exact .inr ⟨hmax, hstored' ▸ hlonger⟩
        · exfalso
          rcases hbad with hbad | ⟨-, -, r', hstored', -⟩
          · refine hbad (.inr ⟨hoffset, fun r' hstored' => ?_⟩)
            rw [hnone] at hstored'
            cases hstored'
          · rw [hnone] at hstored'
            cases hstored'
      · rw [readBlock_debug hoffset]
        rfl

variable {info : SuperblockInfo}

def HasLog (info : SuperblockInfo) : Prop :=
  info.manifestNewestAddress ≠ 0 ∧ info.manifestBlockCount ≠ 0

theorem walkLog_of_hasLog (prof : Profile) (hsize : config.blockSize.toNat < 2 ^ 63)
    (hlog : HasLog info) (visit : HashMap U64 Bool → List TableInfo → HashMap U64 Bool) (fuel : ℕ) :
    walkLog prof config file info visit fuel =
      walk prof config file info.manifestBlockCount visit fuel info.manifestNewestAddress 0 ∅ := by
  rw [walkLog, if_neg (not_or.2 hlog), allocate, if_pos hsize, Outcome.ok_bind]

theorem walkLog_of_not_hasLog (prof : Profile) (h : ¬ HasLog info)
    (visit : HashMap U64 Bool → List TableInfo → HashMap U64 Bool) (fuel : ℕ) :
    walkLog prof config file info visit fuel = .ok ∅ := by
  have hnone : info.manifestNewestAddress = 0 ∨ info.manifestBlockCount = 0 := by
    by_contra hsome
    exact h (not_or.1 hsome)
  rw [walkLog, if_pos hnone]

theorem returns_walkLog_of_not_hasLog (prof : Profile) (h : ¬ HasLog info)
    (visit : HashMap U64 Bool → List TableInfo → HashMap U64 Bool) :
    Outcome.Returns (walkLog prof config file info visit) (.ok ∅) :=
  ⟨0, fun fuel _ => walkLog_of_not_hasLog prof h visit fuel⟩

/-- Where the walk is addressed, every build returns from it alike. -/
theorem walkLog_cases (file : DataFile) (hsize : config.blockSize.toNat < 2 ^ 63)
    (hlog : HasLog info) (h : WalkAddressed config file info) :
    (∃ blocks, Chain file config info.manifestNewestAddress blocks ∧
        blocks.length ≤ info.manifestBlockCount.toNat + 1 ∧ ∀ prof visit,
          Outcome.Returns (walkLog prof config file info visit) (.ok (blocks.foldl visit ∅))) ∨
      ∃ e, ∀ prof visit, Outcome.Returns (walkLog prof config file info visit) (.err e) := by
  have hzero : (0 : U32).toNat + (info.manifestBlockCount.toNat + 1) =
      info.manifestBlockCount.toNat + 1 := Nat.zero_add _
  rcases walk_cases h.bound _ hzero h.chain h.visited with
    ⟨blocks, hblocks, hlength, hwalk⟩ | ⟨e, hwalk⟩
  · refine .inl ⟨blocks, hblocks, hlength, fun prof visit =>
      ⟨info.manifestBlockCount.toNat + 1 + 2, fun fuel hfuel => ?_⟩⟩
    rw [walkLog_of_hasLog prof hsize hlog]
    exact hwalk prof visit ∅ fuel hfuel
  · refine .inr ⟨e, fun prof visit =>
      ⟨info.manifestBlockCount.toNat + 1 + 2, fun fuel hfuel => ?_⟩⟩
    rw [walkLog_of_hasLog prof hsize hlog]
    exact hwalk prof visit ∅ fuel hfuel

theorem walkLog_panic (hsize : config.blockSize.toNat < 2 ^ 63) (hlog : HasLog info)
    (h : ¬ WalkAddressed config file info)
    (visit : HashMap U64 Bool → List TableInfo → HashMap U64 Bool) :
    Outcome.Returns (walkLog .debug config file info visit) .panic := by
  refine ⟨info.manifestBlockCount.toNat + 1 + 2, fun fuel hfuel => ?_⟩
  rw [walkLog_of_hasLog .debug hsize hlog]
  by_cases hbound : info.manifestBlockCount.toNat + 1 < 2 ^ 32
  · refine walk_panic hbound _ (Nat.zero_add _) ?_ visit ∅ hfuel
    by_contra hgood
    rw [not_or, not_not, not_and] at hgood
    refine h ⟨hbound, hgood.1, ?_⟩
    by_cases hmax : info.manifestBlockCount.toNat + 2 = 2 ^ 32
    · exact .inr (hgood.2 hmax)
    · exact .inl (by omega)
  · obtain ⟨fuel, rfl⟩ : ∃ m, fuel = m + 1 := ⟨fuel - 1, by omega⟩
    have hover : Profile.debug.add info.manifestBlockCount 1 = none := if_neg hbound
    rw [walk, if_neg hlog.1, hover]
    rfl

end Walk

end TbManager.Manifest
