import TbManager.DataFile
import TbManager.Readings
import TbManager.Records

/-!
# The streaming iterator over the records of tables

The iterator holds one block, which is either an index block or a value block,
and what is left of the addresses in the current index block and of the index
blocks themselves.
-/

namespace TbManager

def recordSize : ℕ := 128

class TBObject (α : Type) where
  fromBytes : List U8 → α
  isPadding : α → Bool

def Account.fromBytes (b : List U8) : Account where
  id := leAt 16 b 0
  debitsPending := leAt 16 b 16
  debitsPosted := leAt 16 b 32
  creditsPending := leAt 16 b 48
  creditsPosted := leAt 16 b 64
  userData128 := leAt 16 b 80
  userData64 := leAt 8 b 96
  userData32 := leAt 4 b 104
  reserved := leAt 4 b 108
  ledger := leAt 4 b 112
  code := leAt 2 b 116
  flags := ⟨leAt 2 b 118⟩
  timestamp := leAt 8 b 120

def Transfer.fromBytes (b : List U8) : Transfer where
  id := leAt 16 b 0
  debitAccountId := leAt 16 b 16
  creditAccountId := leAt 16 b 32
  amount := leAt 16 b 48
  pendingId := leAt 16 b 64
  userData128 := leAt 16 b 80
  userData64 := leAt 8 b 96
  userData32 := leAt 4 b 104
  timeout := leAt 4 b 108
  ledger := leAt 4 b 112
  code := leAt 2 b 116
  flags := ⟨leAt 2 b 118⟩
  timestamp := leAt 8 b 120

instance : TBObject Account := ⟨Account.fromBytes, Account.isPadding⟩

instance : TBObject Transfer := ⟨Transfer.fromBytes, Transfer.isPadding⟩

def seekAndRead (prof : Profile) (config : TBConfig) (file : DataFile) (address : U64) :
    Outcome ReaderError (List U8) := do
  let offset ← .ofOption (config.blockOffset prof address)
  .ofExcept ((file.seek offset).mapError fun e =>
    .io ("seek to block " ++ toString address.toNat ++ " (offset " ++ toString offset.toNat ++
      "): " ++ e))
  .ofExcept ((file.readExact offset config.blockSize.toNat).mapError fun e =>
    .io ("read block " ++ toString address.toNat ++ ": " ++ e))

/-- The value-block addresses of an index block; zero addresses are skipped. -/
def parseIndexBlock (prof : Profile) (address : U64) (block : List U8) :
    Outcome ReaderError (List U64) := do
  let header ← BlockHeader.parse block
  if header.blockType ≠ BlockHeader.index then
    .err (.invalidBlock ("expected index block at address " ++ toString address.toNat ++
      ", got block_type=" ++ toString header.blockType.toNat))
  else do
    let valueCount ← .ofOption (readU32 block 128)
    let valueCountMax ← .ofOption (readU32 block 132)
    let keySize ← .ofOption (readU32 block 136)
    if valueCountMax < valueCount then
      .err (.invalidBlock ("index block " ++ toString address.toNat ++ ": value_count=" ++
        toString valueCount.toNat ++ " exceeds value_count_max=" ++ toString valueCountMax.toNat))
    else do
      let checksumSection ← .okOr (checkedMul (valueCountMax.setWidth 64) 32#64)
        (.invalidBlock "index block: checksum section overflow")
      let keysSection ← .okOr (checkedMul (valueCountMax.setWidth 64) (keySize.setWidth 64))
        (.invalidBlock "index block: keys section overflow")
      let checksumsEnd ← .ofOption (prof.add (BitVec.ofNat 64 headerSize) checksumSection)
      let minKeysEnd ← .ofOption (prof.add checksumsEnd keysSection)
      let addrSectionOffset ← .ofOption (prof.add minKeysEnd keysSection)
      let addrSectionSize ← .ofOption (prof.mul (valueCount.setWidth 64) 8#64)
      let addrSectionEnd ← .okOr (checkedAdd addrSectionOffset addrSectionSize)
        (.invalidBlock "index block: address section end overflow")
      if block.length < addrSectionEnd.toNat then
        .err (.invalidBlock ("index block " ++ toString address.toNat ++
          ": address section end (" ++ toString addrSectionEnd.toNat ++
          ") exceeds block size (" ++ toString block.length ++ ")"))
      else do
        let addrs ← .ofOption ((List.range valueCount.toNat).mapM fun i =>
          readU64 block (addrSectionOffset.toNat + i * 8))
        .ok (addrs.filter fun addr => addr ≠ 0)

def parseValueBlock (address : U64) (block : List U8) : Outcome ReaderError ℕ := do
  let header ← BlockHeader.parse block
  if header.blockType ≠ BlockHeader.value then
    .err (.invalidBlock ("expected value block at address " ++ toString address.toNat ++
      ", got block_type=" ++ toString header.blockType.toNat))
  else .ok (header.bodySize / recordSize)

structure ObjectIter where
  block : List U8
  indexAddrs : List U64
  valueAddrs : List U64
  recordCount : ℕ
  recordIdx : ℕ
  done : Bool
  deriving DecidableEq, Repr

namespace ObjectIter

def new (config : TBConfig) (indexAddrs : List U64) : Outcome ReaderError ObjectIter := do
  allocate config.blockSize
  .ok
    { block := List.replicate config.blockSize.toNat 0
      indexAddrs := indexAddrs
      valueAddrs := []
      recordCount := 0
      recordIdx := 0
      done := false }

variable {α : Type} [TBObject α] (prof : Profile) (config : TBConfig) (file : DataFile)

def loadIndexBlock (address : U64) (it : ObjectIter) : Outcome ReaderError ObjectIter := do
  let block ← seekAndRead prof config file address
  let addrs ← parseIndexBlock prof address block
  .ok
    { it with
      block := block
      valueAddrs := addrs
      recordCount := 0
      recordIdx := 0 }

def loadValueBlock (address : U64) (it : ObjectIter) : Outcome ReaderError ObjectIter := do
  let block ← seekAndRead prof config file address
  let count ← parseValueBlock address block
  .ok
    { it with
      block := block
      recordCount := count
      recordIdx := 0 }

def nextRecord : ℕ → ObjectIter → Outcome ReaderError (Option α × ObjectIter)
  | 0, it => .ok (none, it)
  | left + 1, it => do
    let bytes ← .ofOption (slice it.block (headerSize + it.recordIdx * recordSize) recordSize)
    let record : α := TBObject.fromBytes bytes
    let it := { it with recordIdx := it.recordIdx + 1 }
    if TBObject.isPadding record then nextRecord left it else .ok (some record, it)

def nextOfTable : List U64 → ObjectIter →
    Outcome ReaderError (Option (Except ReaderError α) × ObjectIter)
  | [], it => do
    let r ← nextRecord (it.recordCount - it.recordIdx) it
    .ok (r.1.map .ok, { r.2 with valueAddrs := [] })
  | addr :: addrs, it => do
    let r ← nextRecord (it.recordCount - it.recordIdx) it
    match r with
    | (some record, it) => .ok (some (.ok record), { it with valueAddrs := addr :: addrs })
    | (none, it) => do
      let loaded ← (loadValueBlock prof config file addr it).attempt
      match loaded with
      | .ok it => nextOfTable addrs it
      | .error e =>
        .ok (some (.error e),
          { it with
            valueAddrs := addrs
            done := true })

/-- The next record of the current table and of the tables in the list. -/
def nextOfTables : List U64 → ObjectIter →
    Outcome ReaderError (Option (Except ReaderError α) × ObjectIter)
  | [], it => do
    let r ← nextOfTable prof config file it.valueAddrs it
    .ok (r.1, { r.2 with indexAddrs := [] })
  | addr :: addrs, it => do
    let r ← nextOfTable prof config file it.valueAddrs it
    match r with
    | (some item, it) => .ok (some item, { it with indexAddrs := addr :: addrs })
    | (none, it) => do
      let loaded ← (loadIndexBlock prof config file addr it).attempt
      match loaded with
      | .ok it => nextOfTables addrs it
      | .error e =>
        .ok (some (.error e),
          { it with
            indexAddrs := addrs
            done := true })

def next (it : ObjectIter) : Outcome ReaderError (Option (Except ReaderError α) × ObjectIter) :=
  if it.done then .ok (none, it) else nextOfTables prof config file it.indexAddrs it

/-! ## What the iterator yields -/

def slotRecord (block : List U8) (i : ℕ) : α :=
  TBObject.fromBytes ((block.drop (headerSize + i * recordSize)).take recordSize)

/-- The records in that many slots from one on, padding left out. -/
def slotRecords (block : List U8) (first left : ℕ) : List α :=
  ((List.range' first left).map (slotRecord block)).filter fun record =>
    !TBObject.isPadding record

/-- The value block at the address holds the records. -/
def ValueHolds (address : U64) (records : List α) : Prop :=
  ∃ block count, file.blockAt config address = some block ∧
    parseValueBlock address block = .ok count ∧ records = slotRecords block 0 count

/-- The table with its index block at the address holds the records. -/
def TableHolds (address : U64) (records : List α) : Prop :=
  ∃ block addrs parts, file.blockAt config address = some block ∧
    parseIndexBlock prof address block = .ok addrs ∧
    List.Forall₂ (ValueHolds config file) addrs parts ∧ records = parts.flatten

def current (it : ObjectIter) : List α :=
  slotRecords it.block it.recordIdx (it.recordCount - it.recordIdx)

def InBlock (it : ObjectIter) : Prop :=
  it.recordIdx ≤ it.recordCount ∧
    (it.recordIdx < it.recordCount → headerSize + it.recordCount * recordSize ≤ it.block.length)

def RestOfTable (it : ObjectIter) (records : List α) : Prop :=
  it.InBlock ∧ ∃ parts, List.Forall₂ (ValueHolds config file) it.valueAddrs parts ∧
    records = current it ++ parts.flatten

def Rest (it : ObjectIter) (records : List α) : Prop :=
  it.done = false ∧ ∃ ofTable tables, RestOfTable config file it ofTable ∧
    List.Forall₂ (TableHolds prof config file) it.indexAddrs tables ∧
    records = ofTable ++ tables.flatten

def valueReading (address : U64) : Reading ReaderError α :=
  .ofOutcome (do
    let block ← seekAndRead prof config file address
    let count ← parseValueBlock address block
    .ok (slotRecords block 0 count)) .ofItems

def tableReading (address : U64) : Reading ReaderError α :=
  .ofOutcome (do
    let block ← seekAndRead prof config file address
    parseIndexBlock prof address block) fun addrs => .join (addrs.map (valueReading prof config file))

/-- What is left of the current table, as the build reads it. -/
def restOfTable (it : ObjectIter) : Reading ReaderError α :=
  .ofItems (current it) ++ .join (it.valueAddrs.map (valueReading prof config file))

/-- What is left of all tables. -/
def rest (it : ObjectIter) : Reading ReaderError α :=
  if it.done then .nil
  else restOfTable prof config file it ++ .join (it.indexAddrs.map (tableReading prof config file))

variable {prof config file} {address : U64} {block : List U8}

theorem seekAndRead_of_blockAt (prof : Profile) (h : file.blockAt config address = some block) :
    seekAndRead prof config file address = .ok block := by
  obtain ⟨offset, hoffset, hseek, hread⟩ := DataFile.blockOffset_of_blockAt prof h
  rw [seekAndRead, hoffset, Outcome.ofOption_some, Outcome.ok_bind, hseek, hread]
  rfl

theorem length_of_parseValueBlock {count : ℕ} (h : parseValueBlock address block = .ok count) :
    headerSize + count * recordSize ≤ block.length := by
  obtain ⟨header, hheader, h⟩ := Outcome.bind_eq_ok_iff.1 h
  split_ifs at h with htype
  cases h
  obtain ⟨hsmall, hlarge⟩ := BlockHeader.size_le_of_parse hheader
  have := Nat.div_mul_le_self header.bodySize recordSize
  unfold BlockHeader.bodySize at this ⊢
  omega

theorem loadValueBlock_loads (address : U64) (it : ObjectIter) :
    Reading.Loads
      (fun it' r => it'.InBlock ∧ it'.done = it.done ∧ r = .ofItems (current (α := α) it'))
      (loadValueBlock prof config file address it) (valueReading prof config file address) := by
  unfold loadValueBlock valueReading
  cases seekAndRead prof config file address with
  | ok block =>
      rw [Outcome.ok_bind, Outcome.ok_bind]
      cases hparse : parseValueBlock address block with
      | ok count =>
          exact .ok ⟨⟨Nat.zero_le count, fun _ => length_of_parseValueBlock hparse⟩, rfl, rfl⟩
      | err e => exact .err
      | panic => exact .panic
      | running => exact .running
  | err e => exact .err
  | panic => exact .panic
  | running => exact .running

theorem loadIndexBlock_loads (address : U64) (it : ObjectIter) :
    Reading.Loads
      (fun it' r => it'.InBlock ∧ it'.done = it.done ∧
        r = restOfTable (α := α) prof config file it')
      (loadIndexBlock prof config file address it) (tableReading prof config file address) := by
  unfold loadIndexBlock tableReading
  cases seekAndRead prof config file address with
  | ok block =>
      rw [Outcome.ok_bind, Outcome.ok_bind]
      cases parseIndexBlock prof address block with
      | ok addrs =>
          exact .ok ⟨⟨Nat.le_refl 0, fun hlt => absurd hlt (Nat.lt_irrefl 0)⟩, rfl, rfl⟩
      | err e => exact .err
      | panic => exact .panic
      | running => exact .running
  | err e => exact .err
  | panic => exact .panic
  | running => exact .running

theorem nextRecord_cases (left : ℕ) (it : ObjectIter)
    (hfits : 0 < left → headerSize + (it.recordIdx + left) * recordSize ≤ it.block.length) :
    ((slotRecords it.block it.recordIdx left : List α) = [] ∧
      nextRecord (α := α) left it = .ok (none, { it with recordIdx := it.recordIdx + left })) ∨
    ∃ record idx left', nextRecord left it = .ok (some record, { it with recordIdx := idx }) ∧
      idx + left' = it.recordIdx + left ∧
      (slotRecords it.block it.recordIdx left : List α) =
        record :: slotRecords it.block idx left' := by
  induction left generalizing it with
  | zero => exact .inl ⟨rfl, rfl⟩
  | succ left ih =>
      have hblock := hfits (Nat.succ_pos left)
      have hslot : headerSize + it.recordIdx * recordSize + recordSize ≤ it.block.length := by
        rw [Nat.add_mul] at hblock
        have : recordSize ≤ (left + 1) * recordSize := Nat.le_mul_of_pos_left _ (Nat.succ_pos left)
        omega
      have hslots : (slotRecords it.block it.recordIdx (left + 1) : List α) =
          if TBObject.isPadding (slotRecord it.block it.recordIdx : α) then
            slotRecords it.block (it.recordIdx + 1) left
          else slotRecord it.block it.recordIdx :: slotRecords it.block (it.recordIdx + 1) left := by
        unfold slotRecords
        rw [List.range'_succ, List.map_cons, List.filter_cons]
        cases TBObject.isPadding (slotRecord it.block it.recordIdx : α) <;> rfl
      have hnext : nextRecord (α := α) (left + 1) it =
          if TBObject.isPadding (slotRecord it.block it.recordIdx : α) then
            nextRecord left { it with recordIdx := it.recordIdx + 1 }
          else .ok (some (slotRecord it.block it.recordIdx),
            { it with recordIdx := it.recordIdx + 1 }) := by
        rw [nextRecord, slice_eq_some hslot]
        rfl
      have hidx : it.recordIdx + (left + 1) = it.recordIdx + 1 + left := by omega
      rw [hslots, hnext]
      by_cases hpad : TBObject.isPadding (slotRecord it.block it.recordIdx : α) = true
      · rw [if_pos hpad, if_pos hpad, hidx]
        exact ih { it with recordIdx := it.recordIdx + 1 } fun _ => hidx ▸ hblock
      · rw [if_neg hpad, if_neg hpad]
        exact .inr ⟨_, it.recordIdx + 1, left, rfl, hidx.symm, rfl⟩

/-- Either the current value block is used up or its next record comes first. -/
theorem nextOfTable_current (addrs : List U64) (it : ObjectIter) (hit : it.InBlock) :
    ((current it : List α) = [] ∧
      nextRecord (α := α) (it.recordCount - it.recordIdx) it =
        .ok (none, { it with recordIdx := it.recordCount })) ∨
    ∃ (record : α) (it' : ObjectIter), it'.indexAddrs = it.indexAddrs ∧ it'.done = it.done ∧
      it'.valueAddrs = addrs ∧ it'.InBlock ∧ current it = record :: current it' ∧
      nextOfTable prof config file addrs it = .ok (some (.ok record), it') := by
  obtain ⟨hidx, hfits⟩ := hit
  have hsum : it.recordIdx + (it.recordCount - it.recordIdx) = it.recordCount :=
    Nat.add_sub_cancel' hidx
  have hslots : 0 < it.recordCount - it.recordIdx →
      headerSize + (it.recordIdx + (it.recordCount - it.recordIdx)) * recordSize ≤
        it.block.length := by
    intro hpos
    rw [hsum]
    exact hfits (by omega)
  rcases nextRecord_cases (α := α) _ it hslots with
    ⟨hnil, hnext⟩ | ⟨record, idx, left, hnext, hleft, hcons⟩
  · left
    rw [hsum] at hnext
    exact ⟨hnil, hnext⟩
  · right
    refine ⟨record, { it with recordIdx := idx, valueAddrs := addrs }, rfl, rfl, rfl, ?_, ?_, ?_⟩
    · refine ⟨by dsimp only; omega, fun _ => hfits ?_⟩
      by_contra hend
      have hnone : it.recordCount - it.recordIdx = 0 := by omega
      rw [hnone] at hcons
      cases hcons
    · have hrest : it.recordCount - idx = left := by omega
      unfold current
      rw [hcons]
      dsimp only
      rw [hrest]
    · cases addrs with
      | nil =>
          rw [nextOfTable, hnext]
          rfl
      | cons addr addrs => rw [nextOfTable, hnext, Outcome.ok_bind]

/-- A call takes the next record of the current table, if there is one left. -/
theorem nextOfTable_takes (addrs : List U64) (it : ObjectIter) (hit : it.InBlock) :
    Reading.Takes
      (fun it' r => it'.InBlock ∧ it'.done = it.done ∧ restOfTable prof config file it' = r)
      (fun it' => it'.InBlock ∧ it'.done = true) (nextOfTable (α := α) prof config file addrs it)
      (.ofItems (current it) ++ .join (addrs.map (valueReading prof config file))) := by
  induction addrs generalizing it with
  | nil =>
      rcases @nextOfTable_current α _ prof config file [] it hit with
        ⟨hnil, hnext⟩ | ⟨record, it', -, hdone, hvalues, hit', hcons, hnext⟩
      · have hstep : nextOfTable (α := α) prof config file [] it =
            .ok (none, { it with recordIdx := it.recordCount, valueAddrs := [] }) := by
          rw [nextOfTable, hnext]
          rfl
        rw [hstep, hnil]
        refine .finish ⟨⟨le_rfl, fun hlt => absurd hlt (Nat.lt_irrefl _)⟩, rfl, ?_⟩
        unfold restOfTable current
        dsimp only
        rw [Nat.sub_self]
        rfl
      · rw [hnext, hcons]
        refine .item ⟨hit', hdone, ?_⟩
        rw [restOfTable, hvalues]
        rfl
  | cons addr addrs ih =>
      rcases @nextOfTable_current α _ prof config file (addr :: addrs) it hit with
        ⟨hnil, hnext⟩ | ⟨record, it', -, hdone, hvalues, hit', hcons, hnext⟩
      · have hstep : nextOfTable (α := α) prof config file (addr :: addrs) it =
            (loadValueBlock prof config file addr
              { it with recordIdx := it.recordCount }).attempt >>= fun loaded =>
            match loaded with
            | .ok it => nextOfTable prof config file addrs it
            | .error e => .ok (some (.error e),
                { it with recordIdx := it.recordCount, valueAddrs := addrs, done := true }) := by
          rw [nextOfTable, hnext, Outcome.ok_bind]
        rw [hstep, hnil, List.map_cons, Reading.join_cons]
        apply (loadValueBlock_loads addr { it with recordIdx := it.recordCount }).takes
        · rintro it' ⟨hit', hdone, hreading⟩
          rw [hreading]
          exact (ih it' hit').mono (fun _ _ h => ⟨h.1, h.2.1.trans hdone, h.2.2⟩) fun _ h => h
        · exact fun e => .fail ⟨⟨le_rfl, fun hlt => absurd hlt (Nat.lt_irrefl _)⟩, rfl⟩
      · rw [hnext, hcons]
        refine .item ⟨hit', hdone, ?_⟩
        rw [restOfTable, hvalues]
        rfl

/-- A call takes the next record of the tables, if there is one left. -/
theorem nextOfTables_takes (addrs : List U64) (it : ObjectIter) (hit : it.InBlock)
    (hdone : it.done = false) :
    Reading.Takes (fun it' r => it'.InBlock ∧ rest prof config file it' = r)
      (fun it' => it'.InBlock ∧ rest (α := α) prof config file it' = .nil)
      (nextOfTables (α := α) prof config file addrs it)
      (restOfTable prof config file it ++ .join (addrs.map (tableReading prof config file))) := by
  have hlive : ∀ (it : ObjectIter) (addrs : List U64) (r : Reading ReaderError α),
      it.done = false → restOfTable prof config file it = r →
        rest prof config file { it with indexAddrs := addrs } =
          r ++ .join (addrs.map (tableReading prof config file)) := by
    rintro it addrs _ hdone rfl
    exact if_neg (Bool.not_eq_true _ ▸ hdone)
  have hdead : ∀ it : ObjectIter, it.done = true →
      (rest prof config file it : Reading ReaderError α) = .nil := fun it hdone => if_pos hdone
  induction addrs generalizing it with
  | nil =>
      refine (nextOfTable_takes it.valueAddrs it hit).append ?_ ?_ ?_
      · exact fun a it' r h => .item ⟨h.1, hlive it' [] r (h.2.1.trans hdone) h.2.2⟩
      · exact fun it' h => .finish ⟨h.1, hlive it' [] .nil (h.2.1.trans hdone) h.2.2⟩
      · exact fun e it' h => .fail ⟨h.1, hdead _ h.2⟩
  | cons addr addrs ih =>
      refine (nextOfTable_takes it.valueAddrs it hit).append ?_ ?_ ?_
      · exact fun a it' r h => .item ⟨h.1, hlive it' (addr :: addrs) r (h.2.1.trans hdone) h.2.2⟩
      · intro it' h
        rw [List.map_cons, Reading.join_cons]
        apply (loadIndexBlock_loads addr it').takes
        · rintro it₁ ⟨hit₁, hdone₁, hreading⟩
          rw [hreading]
          exact ih it₁ hit₁ (hdone₁.trans (h.2.1.trans hdone))
        · exact fun e => .fail ⟨h.1, hdead _ rfl⟩
      · exact fun e it' h => .fail ⟨h.1, hdead _ h.2⟩

/-- The iterator takes what it has before it, record by record. -/
theorem next_simulates (prof : Profile) (config : TBConfig) (file : DataFile) :
    Reading.Simulates (next (α := α) prof config file) fun it r =>
      it.InBlock ∧ rest prof config file it = r := by
  rintro it _ ⟨hit, rfl⟩
  rw [next, rest]
  split_ifs with hdone
  · refine .finish ⟨hit, ?_⟩
    rw [rest]
    exact if_pos hdone
  · exact nextOfTables_takes it.indexAddrs it hit (Bool.not_eq_true _ ▸ hdone)

theorem valueReading_of_holds (prof : Profile) {records : List α}
    (h : ValueHolds config file address records) :
    valueReading prof config file address = .ofItems records := by
  obtain ⟨block, count, hblock, hparse, rfl⟩ := h
  rw [valueReading, seekAndRead_of_blockAt prof hblock, Outcome.ok_bind, hparse]
  rfl

theorem join_valueReading_of_holds (prof : Profile) {addrs : List U64} {parts : List (List α)}
    (h : List.Forall₂ (ValueHolds config file) addrs parts) :
    .join (addrs.map (valueReading prof config file)) =
      (.ofItems parts.flatten : Reading ReaderError α) := by
  rw [← Reading.join_ofItems]
  congr 1
  induction h with
  | nil => rfl
  | cons hvalue _ ih => rw [List.map_cons, List.map_cons, valueReading_of_holds prof hvalue, ih]

theorem tableReading_of_holds {records : List α} (h : TableHolds prof config file address records) :
    tableReading prof config file address = .ofItems records := by
  obtain ⟨block, addrs, parts, hblock, hparse, hparts, rfl⟩ := h
  rw [tableReading, seekAndRead_of_blockAt prof hblock, Outcome.ok_bind, hparse]
  exact join_valueReading_of_holds prof hparts

theorem join_tableReading_of_holds {addrs : List U64} {tables : List (List α)}
    (h : List.Forall₂ (TableHolds prof config file) addrs tables) :
    .join (addrs.map (tableReading prof config file)) =
      (.ofItems tables.flatten : Reading ReaderError α) := by
  rw [← Reading.join_ofItems]
  congr 1
  induction h with
  | nil => rfl
  | cons htable _ ih => rw [List.map_cons, List.map_cons, tableReading_of_holds htable, ih]

/-- A readable iterator yields exactly what is left of its tables. -/
theorem yields_of_rest {it : ObjectIter} {records : List α}
    (h : Rest prof config file it records) :
    Outcome.Yields (next prof config file) it (records.map .ok) := by
  obtain ⟨hdone, ofTable, tables, ⟨hit, parts, hparts, rfl⟩, htables, rfl⟩ := h
  have hrest : rest prof config file it =
      .ofItems (current it ++ parts.flatten ++ tables.flatten) := by
    rw [rest, if_neg (Bool.not_eq_true _ ▸ hdone), restOfTable,
      join_valueReading_of_holds prof hparts, join_tableReading_of_holds htables]
    rfl
  have hyields := (next_simulates prof config file).yields ⟨hit, hrest⟩ trivial
  rwa [Reading.results, Reading.ofItems, List.append_nil] at hyields

theorem rest_of_new (hsize : config.blockSize.toNat < 2 ^ 63) {addrs : List U64}
    {tables : List (List α)} (htables : List.Forall₂ (TableHolds prof config file) addrs tables) :
    ∃ it, new config addrs = .ok it ∧ Rest prof config file it tables.flatten := by
  have hnew : new config addrs = .ok
      { block := List.replicate config.blockSize.toNat 0
        indexAddrs := addrs
        valueAddrs := []
        recordCount := 0
        recordIdx := 0
        done := false } := by
    rw [new, allocate, if_pos hsize, Outcome.ok_bind]
  exact ⟨_, hnew, rfl, [], tables, ⟨⟨Nat.le_refl 0, fun hlt => absurd hlt (Nat.lt_irrefl 0)⟩, [],
    List.Forall₂.nil, rfl⟩, htables, rfl⟩

end ObjectIter

end TbManager
