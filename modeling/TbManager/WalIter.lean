import TbManager.ObjectIter

/-!
# The streaming iterator over the write-ahead log

The log is a ring of slots. Each has a header in one zone and a message in
another; the iterator scans the headers and reads the bodies of the messages
that hold records of its type and are newer than the checkpoint.
-/

namespace TbManager

class WalObject (α : Type) where
  walOperation : U8

instance : WalObject Account := ⟨138⟩

instance : WalObject Transfer := ⟨139⟩

namespace TBConfig

def walHeadersStart (config : TBConfig) (prof : Profile) : Option U64 :=
  prof.mul config.superblockCopies config.superblockCopySize

def walPreparesStart (config : TBConfig) (prof : Profile) : Option U64 := do
  let headersStart ← config.walHeadersStart prof
  let headersSize ← prof.mul config.journalSlotCount 256
  prof.add headersStart headersSize

end TBConfig

structure WalObjectIter where
  checkpointOp : U64
  slot : ℕ
  body : List U8
  recordCount : ℕ
  recordIdx : ℕ
  done : Bool
  deriving DecidableEq, Repr

namespace WalObjectIter

def new (checkpointOp : U64) : WalObjectIter where
  checkpointOp := checkpointOp
  slot := 0
  body := []
  recordCount := 0
  recordIdx := 0
  done := false

variable (prof : Profile) (config : TBConfig) (file : DataFile)

/-- The body of the message in a slot and the number of its records, none if the slot does not
match. -/
def readSlot (operation : U8) (checkpointOp headersStart preparesStart : U64) (slot : ℕ) :
    Outcome ReaderError (Option (List U8 × ℕ)) := do
  let hdrSkipped ← .ofOption (prof.mul (BitVec.ofNat 64 slot) 256)
  let hdrOffset ← .ofOption (prof.add headersStart hdrSkipped)
  .ofExcept ((file.seek hdrOffset).mapError fun e =>
    .io ("WAL header seek slot " ++ toString slot ++ ": " ++ e))
  let hdr ← .ofExcept ((file.readExact hdrOffset 256).mapError fun e =>
    .io ("WAL header read slot " ++ toString slot ++ ": " ++ e))
  let found ← .ofOption (readU8 hdr 252)
  if found ≠ operation then .ok none
  else do
    let op ← .ofOption (readU64 hdr 224)
    if op = 0 ∨ op ≤ checkpointOp then .ok none
    else do
      let msgSize ← .ofOption (readU32 hdr 96)
      if msgSize.toNat ≤ 256 then .ok none
      else
        let bodySize := msgSize.toNat - 256
        let recordCount := bodySize / recordSize
        if recordCount = 0 then .ok none
        else do
          let skipped ← .ofOption (prof.mul (BitVec.ofNat 64 slot) config.messageSizeMax)
          let slotStart ← .ofOption (prof.add preparesStart skipped)
          let bodyOffset ← .ofOption (prof.add slotStart 256)
          .ofExcept ((file.seek bodyOffset).mapError fun e =>
            .io ("WAL body seek slot " ++ toString slot ++ ": " ++ e))
          let body ← .ofExcept ((file.readExact bodyOffset bodySize).mapError fun e =>
            .io ("WAL body read slot " ++ toString slot ++ ": " ++ e))
          .ok (some (body, recordCount))

def scanSlots (operation : U8) (headersStart preparesStart : U64) :
    ℕ → WalObjectIter → Outcome ReaderError (Bool × WalObjectIter)
  | 0, it => .ok (false, it)
  | left + 1, it => do
    let found ← readSlot prof config file operation it.checkpointOp headersStart preparesStart it.slot
    match found with
    | none => scanSlots operation headersStart preparesStart left { it with slot := it.slot + 1 }
    | some (body, recordCount) =>
      .ok (true,
        { it with
          slot := it.slot + 1
          body := body
          recordCount := recordCount
          recordIdx := 0 })

def loadNextMatchingSlot (operation : U8) (it : WalObjectIter) :
    Outcome ReaderError (Bool × WalObjectIter) := do
  let headersStart ← .ofOption (config.walHeadersStart prof)
  let preparesStart ← .ofOption (config.walPreparesStart prof)
  scanSlots prof config file operation headersStart preparesStart
    (config.journalSlotCount.toNat - it.slot) it

variable {α : Type} [TBObject α]

def nextRecord : ℕ → WalObjectIter → Outcome ReaderError (Option α × WalObjectIter)
  | 0, it => .ok (none, it)
  | left + 1, it => do
    let bytes ← .ofOption (slice it.body (it.recordIdx * recordSize) recordSize)
    let record : α := TBObject.fromBytes bytes
    let it := { it with recordIdx := it.recordIdx + 1 }
    if TBObject.isPadding record then nextRecord left it else .ok (some record, it)

/-- The records in that many places of a body from one on, padding left out. -/
def bodyRecords (body : List U8) (first left : ℕ) : List α :=
  ((List.range' first left).map fun i =>
    TBObject.fromBytes ((body.drop (i * recordSize)).take recordSize)).filter fun record =>
      !TBObject.isPadding record

theorem nextRecord_cases (left : ℕ) (it : WalObjectIter)
    (hfits : (it.recordIdx + left) * recordSize ≤ it.body.length) :
    ((bodyRecords it.body it.recordIdx left : List α) = [] ∧
      nextRecord (α := α) left it = .ok (none, { it with recordIdx := it.recordIdx + left })) ∨
    ∃ record idx left', nextRecord left it = .ok (some record, { it with recordIdx := idx }) ∧
      idx + left' = it.recordIdx + left ∧
      (bodyRecords it.body it.recordIdx left : List α) =
        record :: bodyRecords it.body idx left' := by
  induction left generalizing it with
  | zero => exact .inl ⟨rfl, rfl⟩
  | succ left ih =>
      have hslot : it.recordIdx * recordSize + recordSize ≤ it.body.length := by
        rw [Nat.add_mul] at hfits
        have : recordSize ≤ (left + 1) * recordSize := Nat.le_mul_of_pos_left _ (Nat.succ_pos left)
        omega
      let record : α := TBObject.fromBytes ((it.body.drop (it.recordIdx * recordSize)).take recordSize)
      have hrecords : (bodyRecords it.body it.recordIdx (left + 1) : List α) =
          if TBObject.isPadding record then bodyRecords it.body (it.recordIdx + 1) left
          else record :: bodyRecords it.body (it.recordIdx + 1) left := by
        unfold bodyRecords
        rw [List.range'_succ, List.map_cons, List.filter_cons]
        change (if (!TBObject.isPadding record) = true then record :: _ else _) = _
        cases TBObject.isPadding record <;> rfl
      have hnext : nextRecord (α := α) (left + 1) it =
          if TBObject.isPadding record then
            nextRecord left { it with recordIdx := it.recordIdx + 1 }
          else .ok (some record, { it with recordIdx := it.recordIdx + 1 }) := by
        rw [nextRecord, slice_eq_some hslot]
        rfl
      have hidx : it.recordIdx + (left + 1) = it.recordIdx + 1 + left := by omega
      rw [hrecords, hnext]
      by_cases hpad : TBObject.isPadding record = true
      · rw [if_pos hpad, if_pos hpad, hidx]
        exact ih { it with recordIdx := it.recordIdx + 1 } (hidx ▸ hfits)
      · rw [if_neg hpad, if_neg hpad]
        exact .inr ⟨_, it.recordIdx + 1, left, rfl, hidx.symm, rfl⟩

variable [WalObject α]

/-- The rounds of the loop of `next`. -/
def nextOfSlots : ℕ → WalObjectIter → Outcome ReaderError (Option (Except ReaderError α) × WalObjectIter)
  | 0, _ => .running
  | rounds + 1, it => do
    let r ← nextRecord (it.recordCount - it.recordIdx) it
    match r with
    | (some record, it) => .ok (some (.ok record), it)
    | (none, it) => do
      let loaded ← (loadNextMatchingSlot prof config file (WalObject.walOperation α) it).attempt
      match loaded with
      | .ok (true, it) => nextOfSlots rounds it
      | .ok (false, it) => .ok (none, it)
      | .error e => .ok (some (.error e), { it with done := true })

def next (it : WalObjectIter) :
    Outcome ReaderError (Option (Except ReaderError α) × WalObjectIter) :=
  if it.done then .ok (none, it)
  else nextOfSlots prof config file (config.journalSlotCount.toNat - it.slot + 1) it

/-! ## What the iterator yields -/

def current (it : WalObjectIter) : List α :=
  bodyRecords it.body it.recordIdx (it.recordCount - it.recordIdx)

def InBody (it : WalObjectIter) : Prop :=
  it.recordIdx ≤ it.recordCount ∧ it.recordCount * recordSize ≤ it.body.length

def slotReading (checkpointOp headersStart preparesStart : U64) (slot : ℕ) :
    Reading ReaderError α :=
  .ofOutcome (readSlot prof config file (WalObject.walOperation α) checkpointOp headersStart
    preparesStart slot) fun found =>
      match found with
      | none => .nil
      | some (body, recordCount) => .ofItems (bodyRecords body 0 recordCount)

def slotsReading (checkpointOp headersStart preparesStart : U64) (slot : ℕ) :
    Reading ReaderError α :=
  .join ((List.range' slot (config.journalSlotCount.toNat - slot)).map
    (slotReading prof config file checkpointOp headersStart preparesStart))

def logReading (checkpointOp : U64) (slot : ℕ) : Reading ReaderError α :=
  .ofOutcome (.ofOption (config.walHeadersStart prof)) fun headersStart =>
    .ofOutcome (.ofOption (config.walPreparesStart prof)) fun preparesStart =>
      slotsReading prof config file checkpointOp headersStart preparesStart slot

def rest (it : WalObjectIter) : Reading ReaderError α :=
  if it.done then .nil
  else .ofItems (current it) ++ logReading prof config file it.checkpointOp it.slot

variable {prof config file}

/-- The body of a slot is read at an offset that has not overflowed, with the records that fit
in it. -/
theorem loaded_of_readSlot {operation : U8} {checkpointOp headersStart preparesStart : U64}
    {slot : ℕ} {body : List U8} {recordCount : ℕ}
    (h : readSlot prof config file operation checkpointOp headersStart preparesStart slot =
      .ok (some (body, recordCount))) :
    ∃ skipped slotStart bodyOffset,
      prof.mul (BitVec.ofNat 64 slot) config.messageSizeMax = some skipped ∧
      prof.add preparesStart skipped = some slotStart ∧
      prof.add slotStart 256 = some bodyOffset ∧
      file.readExact bodyOffset body.length = .ok body ∧
      recordCount = body.length / recordSize := by
  obtain ⟨hdrSkipped, -, h⟩ := Outcome.bind_eq_ok_iff.1 h
  obtain ⟨hdrOffset, -, h⟩ := Outcome.bind_eq_ok_iff.1 h
  obtain ⟨-, -, h⟩ := Outcome.bind_eq_ok_iff.1 h
  obtain ⟨hdr, -, h⟩ := Outcome.bind_eq_ok_iff.1 h
  obtain ⟨found, -, h⟩ := Outcome.bind_eq_ok_iff.1 h
  split_ifs at h with hfound
  · cases h
  obtain ⟨op, -, h⟩ := Outcome.bind_eq_ok_iff.1 h
  split_ifs at h with hop
  · cases h
  obtain ⟨msgSize, -, h⟩ := Outcome.bind_eq_ok_iff.1 h
  dsimp only at h
  split_ifs at h with hsmall hnone
  · cases h
  · cases h
  obtain ⟨skipped, hskipped, h⟩ := Outcome.bind_eq_ok_iff.1 h
  obtain ⟨slotStart, hslotStart, h⟩ := Outcome.bind_eq_ok_iff.1 h
  obtain ⟨bodyOffset, hbodyOffset, h⟩ := Outcome.bind_eq_ok_iff.1 h
  obtain ⟨-, -, h⟩ := Outcome.bind_eq_ok_iff.1 h
  obtain ⟨read, hread, h⟩ := Outcome.bind_eq_ok_iff.1 h
  cases h
  have hread := Outcome.ofExcept_mapError_ok hread
  refine ⟨skipped, slotStart, bodyOffset, Outcome.ofOption_eq_ok hskipped,
    Outcome.ofOption_eq_ok hslotStart, Outcome.ofOption_eq_ok hbodyOffset, ?_, ?_⟩
  · exact (DataFile.length_of_readExact hread).symm ▸ hread
  · exact congrArg (· / recordSize) (DataFile.length_of_readExact hread).symm

theorem length_of_readSlot {operation : U8} {checkpointOp headersStart preparesStart : U64}
    {slot : ℕ} {body : List U8} {recordCount : ℕ}
    (h : readSlot prof config file operation checkpointOp headersStart preparesStart slot =
      .ok (some (body, recordCount))) : recordCount * recordSize ≤ body.length := by
  obtain ⟨_, _, _, -, -, -, -, hcount⟩ := loaded_of_readSlot h
  rw [hcount]
  exact Nat.div_mul_le_self _ _

/-- What a scan of the slots below `n` finds: the body of a slot, or nothing. -/
inductive Scanned (prof : Profile) (config : TBConfig) (file : DataFile)
    (headersStart preparesStart : U64) (n : ℕ) (it : WalObjectIter) :
    Bool × WalObjectIter → Reading ReaderError α → Prop
  | found {it' : WalObjectIter} (hcheckpoint : it'.checkpointOp = it.checkpointOp)
      (hdone : it'.done = it.done) (hbody : it'.InBody) (hlt : it.slot < it'.slot)
      (hle : it'.slot ≤ n) :
      Scanned prof config file headersStart preparesStart n it (true, it')
        (.ofItems (current it') ++ .join ((List.range' it'.slot (n - it'.slot)).map
          (slotReading prof config file it.checkpointOp headersStart preparesStart)))
  | exhausted :
      Scanned prof config file headersStart preparesStart n it (false, { it with slot := n }) .nil

theorem scanSlots_loads (headersStart preparesStart : U64) (left : ℕ) (it : WalObjectIter) :
    Reading.Loads
      (Scanned (α := α) prof config file headersStart preparesStart (it.slot + left) it)
      (scanSlots prof config file (WalObject.walOperation α) headersStart preparesStart left it)
      (.join ((List.range' it.slot left).map
        (slotReading prof config file it.checkpointOp headersStart preparesStart))) := by
  induction left generalizing it with
  | zero => exact .ok .exhausted
  | succ left ih =>
      rw [List.range'_succ, List.map_cons, Reading.join_cons, slotReading, scanSlots]
      cases hslot : readSlot prof config file (WalObject.walOperation α) it.checkpointOp
          headersStart preparesStart it.slot with
      | ok found =>
          rw [Outcome.ok_bind]
          cases found with
          | none =>
              have hnext : it.slot + 1 + left = it.slot + (left + 1) := by omega
              refine Reading.Loads.mono (ih { it with slot := it.slot + 1 }) fun st r h => ?_
              rw [← hnext]
              cases h with
              | found hcheckpoint hdone hbody hlt hle =>
                  exact .found hcheckpoint hdone hbody (Nat.lt_of_succ_lt hlt) hle
              | exhausted => exact .exhausted
          | some message =>
              obtain ⟨body, recordCount⟩ := message
              have hrest : it.slot + (left + 1) - (it.slot + 1) = left := by omega
              have hscanned := @Scanned.found α _ _ prof config file headersStart preparesStart
                (it.slot + (left + 1)) it
                { it with
                  slot := it.slot + 1
                  body := body
                  recordCount := recordCount
                  recordIdx := 0 }
                rfl rfl ⟨Nat.zero_le _, length_of_readSlot hslot⟩ (Nat.lt_succ_self _) (by
                  dsimp only
                  omega)
              dsimp only at hscanned
              rw [hrest] at hscanned
              exact .ok hscanned
      | err e => exact .err
      | panic => exact .panic
      | running => exact .running

/-- Loading a slot takes it off the log. -/
theorem loadNextMatchingSlot_loads (it : WalObjectIter) (hdone : it.done = false)
    (hslot : it.slot ≤ config.journalSlotCount.toNat) :
    Reading.Loads
      (fun st r =>
        (st.1 = true ∧ st.2.InBody ∧ st.2.done = false ∧ it.slot < st.2.slot ∧
          st.2.slot ≤ config.journalSlotCount.toNat ∧ r = rest (α := α) prof config file st.2) ∨
        (st.1 = false ∧ st.2 = { it with slot := config.journalSlotCount.toNat } ∧
          r = logReading prof config file it.checkpointOp config.journalSlotCount.toNat ∧ r = .nil))
      (loadNextMatchingSlot prof config file (WalObject.walOperation α) it)
      (logReading prof config file it.checkpointOp it.slot) := by
  unfold loadNextMatchingSlot
  have hlog : ∀ slot, (logReading prof config file it.checkpointOp slot : Reading ReaderError α) =
      .ofOutcome (.ofOption (config.walHeadersStart prof)) fun headersStart =>
        .ofOutcome (.ofOption (config.walPreparesStart prof)) fun preparesStart =>
          slotsReading prof config file it.checkpointOp headersStart preparesStart slot :=
    fun _ => rfl
  cases hheaders : config.walHeadersStart prof with
  | none =>
      have hpanic := hlog it.slot
      rw [hheaders] at hpanic
      rw [hpanic]
      exact .panic
  | some headersStart =>
      cases hprepares : config.walPreparesStart prof with
      | none =>
          have hpanic := hlog it.slot
          rw [hheaders, hprepares] at hpanic
          rw [hpanic]
          exact .panic
      | some preparesStart =>
          have hslots : ∀ slot, (logReading prof config file it.checkpointOp slot :
              Reading ReaderError α) =
              slotsReading prof config file it.checkpointOp headersStart preparesStart slot := by
            intro slot
            rw [hlog, hheaders, hprepares]
            rfl
          have hscan := @scanSlots_loads prof config file α _ _ headersStart preparesStart
            (config.journalSlotCount.toNat - it.slot) it
          rw [Nat.add_sub_cancel' hslot] at hscan
          rw [hslots it.slot]
          refine hscan.mono fun st r h => ?_
          cases h with
          | @found it' hcheckpoint hdone' hbody hlt hle =>
              refine .inl ⟨rfl, hbody, hdone'.trans hdone, hlt, hle, ?_⟩
              rw [rest, if_neg (by rw [hdone', hdone]; decide), hcheckpoint, hslots]
              rfl
          | exhausted =>
              refine .inr ⟨rfl, rfl, ?_, rfl⟩
              rw [hslots, slotsReading, Nat.sub_self]
              rfl

/-- A call takes the next record of the log, if the rounds suffice for its slots. -/
theorem nextOfSlots_takes (rounds : ℕ) (it : WalObjectIter) (hbody : it.InBody)
    (hdone : it.done = false) (hslot : it.slot ≤ config.journalSlotCount.toNat)
    (hrounds : config.journalSlotCount.toNat - it.slot < rounds) :
    Reading.Takes
      (fun it' r => (it'.InBody ∧ it'.slot ≤ config.journalSlotCount.toNat) ∧
        rest prof config file it' = r)
      (fun it' => (it'.InBody ∧ it'.slot ≤ config.journalSlotCount.toNat) ∧
        rest (α := α) prof config file it' = .nil)
      (nextOfSlots (α := α) prof config file rounds it) (rest prof config file it) := by
  have hlive : ∀ it : WalObjectIter, it.done = false → (rest prof config file it :
      Reading ReaderError α) =
        .ofItems (current it) ++ logReading prof config file it.checkpointOp it.slot :=
    fun it hdone => if_neg (Bool.not_eq_true _ ▸ hdone)
  induction rounds generalizing it with
  | zero => cases hrounds
  | succ rounds ih =>
      obtain ⟨hidx, hfits⟩ := hbody
      have hsum : it.recordIdx + (it.recordCount - it.recordIdx) = it.recordCount :=
        Nat.add_sub_cancel' hidx
      rw [nextOfSlots, hlive it hdone]
      rcases nextRecord_cases (α := α) _ it (hsum.symm ▸ hfits) with
        ⟨hnil, hnext⟩ | ⟨record, idx, left, hnext, hleft, hcons⟩
      · rw [hnext, hsum, Outcome.ok_bind, current, hnil]
        have hload := @loadNextMatchingSlot_loads prof config file α _ _
          { it with recordIdx := it.recordCount } hdone hslot
        have hend : InBody { it with recordIdx := it.recordCount } := ⟨le_rfl, hfits⟩
        change Reading.Takes _ _ _ (logReading prof config file it.checkpointOp it.slot)
        rw [← Reading.append_nil (logReading prof config file it.checkpointOp it.slot)]
        apply hload.takes
        · rintro ⟨found, it'⟩ (⟨hfound, hbody', hdone', hlt, hle, hr⟩ | ⟨hfound, hit', hr, hnil'⟩)
          · dsimp only at hfound hbody' hdone' hlt hle hr
            subst found
            rw [hr, Reading.append_nil]
            exact ih it' hbody' hdone' hle (by omega)
          · dsimp only at hfound hit'
            subst found it'
            rw [hnil']
            refine .finish ⟨⟨hend, le_rfl⟩, ?_⟩
            refine (hlive { it with
              slot := config.journalSlotCount.toNat
              recordIdx := it.recordCount } hdone).trans ?_
            rw [current, ← hnil', hr]
            dsimp only
            rw [Nat.sub_self]
            rfl
        · exact fun e => .fail ⟨⟨hend, hslot⟩, if_pos rfl⟩
      · rw [hnext, Outcome.ok_bind, current, hcons]
        have hrest : it.recordCount - idx = left := by omega
        refine .item ⟨⟨⟨by dsimp only; omega, hfits⟩, hslot⟩, ?_⟩
        refine (hlive { it with recordIdx := idx } hdone).trans ?_
        rw [current]
        dsimp only
        rw [hrest]
        rfl

/-- The iterator takes what is left of the log, record by record. -/
theorem next_simulates (prof : Profile) (config : TBConfig) (file : DataFile) :
    Reading.Simulates (next (α := α) prof config file) fun it r =>
      (it.InBody ∧ it.slot ≤ config.journalSlotCount.toNat) ∧ rest prof config file it = r := by
  rintro it _ ⟨⟨hbody, hslot⟩, rfl⟩
  rw [next]
  split_ifs with hdone
  · rw [rest, if_pos hdone]
    refine .finish ⟨⟨hbody, hslot⟩, ?_⟩
    rw [rest]
    exact if_pos hdone
  · exact nextOfSlots_takes _ it hbody (Bool.not_eq_true _ ▸ hdone) hslot (Nat.lt_succ_self _)

end WalObjectIter

/-- `iter_wal_accounts` and `iter_wal_transfers`: the iterator over the log. -/
def iterWalObjects (prof : Profile) (config : TBConfig) (file : DataFile) :
    Outcome ReaderError WalObjectIter := do
  let sb ← readSuperblock prof config file
  .ok (WalObjectIter.new sb.checkpointOp)

def iterWalAccounts (prof : Profile) (config : TBConfig) (file : DataFile) :
    Outcome ReaderError WalObjectIter := iterWalObjects prof config file

def iterWalTransfers (prof : Profile) (config : TBConfig) (file : DataFile) :
    Outcome ReaderError WalObjectIter := iterWalObjects prof config file

def readWalPage {α : Type} [TBObject α] [WalObject α] (prof : Profile) (config : TBConfig)
    (file : DataFile) (page limit : U64) : Outcome ReaderError (List α) := do
  let iter ← iterWalObjects prof config file
  let skipped ← .ofOption (prof.mul page limit)
  Outcome.pageItems (WalObjectIter.next prof config file) skipped.toNat limit.toNat iter

def readWalAccounts (prof : Profile) (config : TBConfig) (file : DataFile) (page limit : U64) :
    Outcome ReaderError (List Account) := readWalPage prof config file page limit

def readWalTransfers (prof : Profile) (config : TBConfig) (file : DataFile) (page limit : U64) :
    Outcome ReaderError (List Transfer) := readWalPage prof config file page limit

/-! ## The default layout -/

namespace WalObjectIter

theorem walHeadersStart_production (prof : Profile) :
    TBConfig.production.walHeadersStart prof = some 98304 := by
  cases prof <;> rfl

theorem walPreparesStart_production (prof : Profile) :
    TBConfig.production.walPreparesStart prof = some 360448 := by
  cases prof <;> rfl

theorem slotOffsets_production {slot : ℕ} (hslot : slot < 1024) :
    ∃ hdrSkipped hdrOffset skipped slotStart bodyOffset : U64, ∀ prof : Profile,
      prof.mul (BitVec.ofNat 64 slot) 256 = some hdrSkipped ∧
      prof.add 98304 hdrSkipped = some hdrOffset ∧
      prof.mul (BitVec.ofNat 64 slot) TBConfig.production.messageSizeMax = some skipped ∧
      prof.add 360448 skipped = some slotStart ∧ prof.add slotStart 256 = some bodyOffset := by
  have hlt : slot < 2 ^ 64 := by omega
  have hhdr : slot * (256 : U64).toNat < 2 ^ 64 := by
    change slot * 256 < 2 ^ 64
    omega
  have hhdrAdd : (98304 : U64).toNat + slot * (256 : U64).toNat < 2 ^ 64 := by
    change 98304 + slot * 256 < 2 ^ 64
    omega
  have hmsg : slot * TBConfig.production.messageSizeMax.toNat < 2 ^ 64 := by
    change slot * 1048576 < 2 ^ 64
    omega
  have hmsgAdd : (360448 : U64).toNat + slot * TBConfig.production.messageSizeMax.toNat <
      2 ^ 64 := by
    change 360448 + slot * 1048576 < 2 ^ 64
    omega
  have hbodyAdd : (BitVec.ofNat 64 ((360448 : U64).toNat +
      slot * TBConfig.production.messageSizeMax.toNat)).toNat + 256 < 2 ^ 64 := by
    rw [BitVec.toNat_ofNat, Nat.mod_eq_of_lt hmsgAdd]
    change 360448 + slot * 1048576 + 256 < 2 ^ 64
    omega
  exact ⟨_, _, _, _, _, fun prof => ⟨prof.mul_ofNat hlt hhdr, prof.add_ofNat hhdrAdd,
    prof.mul_ofNat hlt hmsg, prof.add_ofNat hmsgAdd, prof.add_ofNat hbodyAdd⟩⟩

theorem readSlot_settled (file : DataFile) (operation : U8) (checkpointOp : U64) {slot : ℕ}
    (hslot : slot < 1024) :
    Outcome.Settled fun prof =>
      readSlot prof .production file operation checkpointOp 98304 360448 slot := by
  obtain ⟨hdrSkipped, hdrOffset, skipped, slotStart, bodyOffset, hoffsets⟩ :=
    slotOffsets_production hslot
  have h₁ := fun prof => (hoffsets prof).1
  have h₂ := fun prof => (hoffsets prof).2.1
  have h₃ := fun prof => (hoffsets prof).2.2.1
  have h₄ := fun prof => (hoffsets prof).2.2.2.1
  have h₅ := fun prof => (hoffsets prof).2.2.2.2
  simp only [readSlot, h₁, h₂, h₃, h₄, h₅, Outcome.ofOption_some, Outcome.ok_bind]
  apply Outcome.settled_of_finished
  refine (Outcome.finished_ofExcept _).bind fun _ _ => ?_
  refine (Outcome.finished_ofExcept _).bind fun hdr hread => ?_
  have hlen := DataFile.length_of_readExact (Outcome.ofExcept_mapError_ok hread)
  rw [readU8_of_lt (by omega), Outcome.ofOption_some, Outcome.ok_bind]
  split_ifs
  · trivial
  rw [readU64_of_le (by omega), Outcome.ofOption_some, Outcome.ok_bind]
  split_ifs
  · trivial
  rw [readU32_of_le (by omega), Outcome.ofOption_some, Outcome.ok_bind]
  split_ifs
  · trivial
  · trivial
  refine Outcome.Finished.bind (Outcome.finished_ofExcept _) fun _ _ => ?_
  generalize file.readExact _ _ = read
  exact (Outcome.finished_ofExcept _).bind fun _ _ => trivial

variable {α : Type} [TBObject α] [WalObject α]

theorem logReading_steady (file : DataFile) (checkpointOp : U64) :
    Reading.Steady fun prof =>
      (logReading prof .production file checkpointOp 0 : Reading ReaderError α) := by
  simp only [logReading, walHeadersStart_production, walPreparesStart_production]
  apply Reading.steady_join
  intro slot hslot
  rw [List.mem_range'_1] at hslot
  have hlt : slot < 0 + (1024 - 0) := hslot.2
  apply Reading.steady_ofOutcome (readSlot_settled file _ checkpointOp (by omega))
  rintro (_ | ⟨body, recordCount⟩)
  · trivial
  · trivial

end WalObjectIter

end TbManager
