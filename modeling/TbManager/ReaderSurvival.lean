import TbManager.EagerRead
import TbManager.LsmPages
import TbManager.ManifestWalk
import TbManager.WalIter

/-!
# The reader over any file

Every entry point of the reader returns a value or an error, the same in every
build, exactly when no address that it follows lacks an offset, no index block
has sections beyond 64 bits and the guard of the manifest walk does not
overflow.
-/

namespace TbManager

open Manifest

structure CapacityStats where
  dataFileSizeBytes : U64
  gridBlocksTotal : U64
  gridBlocksUsed : U64
  deriving DecidableEq, Repr

/-- A division by a block size of zero panics. -/
def capacityStats (prof : Profile) (config : TBConfig) (file : DataFile) (fuel : ℕ) :
    Outcome ReaderError CapacityStats :=
  let fileSize := BitVec.ofNat 64 file.bytes.length
  let gridBytes := saturatingSub fileSize config.gridZoneStart
  if config.blockSize = 0 then .panic
  else do
    let sb ← readSuperblock prof config file
    let gridBlocksUsed ← countLiveIndexBlocks prof config file sb fuel
    .ok
      { dataFileSizeBytes := fileSize
        gridBlocksTotal := gridBytes / config.blockSize
        gridBlocksUsed := BitVec.ofNat 64 gridBlocksUsed }

/-! ## The superblock of the default layout -/

namespace SuperblockInfo

def ofCopy (buf : List U8) : SuperblockInfo where
  sequence := leAt 8 buf 40
  clusterId := leAt 16 buf 48
  replicaCount := (readU8 buf 1364).getD 0
  replica := ((List.range 12).find? fun i =>
    readU128 buf (1136 + i * 16) = some (leAt 16 buf 1120)).map (BitVec.ofNat 8)
  manifestNewestAddress := leAt 8 buf 656
  manifestBlockCount := leAt 4 buf 704
  checkpointOp := leAt 8 buf 320

/-- The first copy with the greatest sequence number, if that is not zero. -/
def elect (best : Option SuperblockInfo) (buf : List U8) : Option SuperblockInfo :=
  if best.elim 0 SuperblockInfo.sequence < leAt 8 buf 40 then some (ofCopy buf) else best

theorem electCopy_eq {buf : List U8} (hlen : buf.length = 8192) (best : Option SuperblockInfo) :
    electCopy buf best = .ok (elect best buf) := by
  unfold electCopy elect parseCopy
  rw [readU64_of_le (by omega), Outcome.ofOption_some, Outcome.ok_bind]
  by_cases hzero : leAt 8 buf 40 = 0
  · rw [if_pos hzero, if_neg (by rw [hzero]; exact BitVec.not_lt_zero)]
  · rw [if_neg hzero]
    split_ifs
    · have hcount : (readU8 buf 1364).getD 0 = buf[1364] := by
        rw [readU8_of_lt (by omega)]
        rfl
      rw [readU128_of_le (by omega), readU8_of_lt (by omega), readU128_of_le (by omega),
        readU64_of_le (by omega), readU32_of_le (by omega), readU64_of_le (by omega)]
      simp only [Outcome.ofOption_some, Outcome.ok_bind, ofCopy, hcount]
    · rfl

end SuperblockInfo

def superblockCopy (file : DataFile) (n : ℕ) : Option (List U8) :=
  if n * 24576 + 8192 ≤ file.bytes.length then some ((file.bytes.drop (n * 24576)).take 8192)
  else none

def electedSuperblock (file : DataFile) : Option SuperblockInfo :=
  ((List.range 4).mapM (superblockCopy file)).bind fun copies =>
    copies.foldl SuperblockInfo.elect none

theorem superblockCopyOffset_production (prof : Profile) {n : ℕ} (hn : n < 4) :
    TBConfig.production.superblockCopyOffset prof (BitVec.ofNat 64 n) =
      some (BitVec.ofNat 64 (n * 24576)) := by
  interval_cases n <;> cases prof <;> rfl

theorem readExact_superblockCopy (file : DataFile) {n : ℕ} (hn : n < 4) :
    file.seek (BitVec.ofNat 64 (n * 24576)) = .ok () ∧
      ((∃ buf, superblockCopy file n = some buf ∧ buf.length = 8192 ∧
          file.readExact (BitVec.ofNat 64 (n * 24576)) 8192 = .ok buf) ∨
        superblockCopy file n = none ∧
          ∃ e, file.readExact (BitVec.ofNat 64 (n * 24576)) 8192 = .error e) := by
  have htoNat : (BitVec.ofNat 64 (n * 24576)).toNat = n * 24576 := by
    rw [BitVec.toNat_ofNat]
    exact Nat.mod_eq_of_lt (by omega)
  have hne : (8192 : ℕ) ≠ 0 := by decide
  unfold DataFile.seek DataFile.readExact superblockCopy
  rw [htoNat, if_neg hne]
  refine ⟨if_pos (by omega), ?_⟩
  by_cases hstored : n * 24576 + 8192 ≤ file.bytes.length
  · left
    rw [if_pos hstored, if_pos hstored]
    refine ⟨_, rfl, ?_, rfl⟩
    rw [List.length_take, List.length_drop]
    omega
  · right
    rw [if_neg hstored, if_neg hstored]
    exact ⟨rfl, _, rfl⟩

theorem readCopies_cases (file : DataFile) (remaining : ℕ) {n : ℕ} (hn : n + remaining = 4)
    (best : Option SuperblockInfo) :
    (∃ copies, (List.range' n remaining).mapM (superblockCopy file) = some copies ∧ ∀ prof,
        SuperblockInfo.readCopies prof .production file remaining (BitVec.ofNat 64 n) best =
          .ok (copies.foldl SuperblockInfo.elect best)) ∨
      (List.range' n remaining).mapM (superblockCopy file) = none ∧ ∃ e, ∀ prof,
        SuperblockInfo.readCopies prof .production file remaining (BitVec.ofNat 64 n) best =
          .err e := by
  induction remaining generalizing n best with
  | zero => exact .inl ⟨[], rfl, fun _ => rfl⟩
  | succ remaining ih =>
      have hlt : n < 4 := by omega
      have hnext : BitVec.ofNat 64 n + 1 = BitVec.ofNat 64 (n + 1) := by
        apply BitVec.eq_of_toNat_eq
        rw [BitVec.toNat_add, BitVec.toNat_ofNat, BitVec.toNat_ofNat]
        change (n % 2 ^ 64 + 1) % 2 ^ 64 = _
        omega
      have hsize : min 8192 TBConfig.production.superblockCopySize.toNat = 8192 := rfl
      rw [List.range'_succ, List.mapM_cons]
      obtain ⟨hseek, ⟨buf, hcopy, hlen, hread⟩ | ⟨hcopy, e, hread⟩⟩ :=
        readExact_superblockCopy file hlt
      · have hstep : ∀ prof,
            SuperblockInfo.readCopies prof .production file (remaining + 1) (BitVec.ofNat 64 n)
              best = SuperblockInfo.readCopies prof .production file remaining
                (BitVec.ofNat 64 (n + 1)) (SuperblockInfo.elect best buf) := by
          intro prof
          rw [SuperblockInfo.readCopies, superblockCopyOffset_production prof hlt,
            Outcome.ofOption_some, Outcome.ok_bind, hseek, hsize, hread, ← hnext]
          change (SuperblockInfo.electCopy buf best >>= fun best => _) = _
          rw [SuperblockInfo.electCopy_eq hlen, Outcome.ok_bind]
        rw [hcopy]
        rcases @ih (n + 1) (by omega) (SuperblockInfo.elect best buf) with
          ⟨copies, hcopies, hrest⟩ | ⟨hnone, e, hrest⟩
        · exact .inl ⟨buf :: copies, by rw [hcopies]; rfl, fun prof => (hstep prof).trans (hrest prof)⟩
        · exact .inr ⟨by rw [hnone]; rfl, e, fun prof => (hstep prof).trans (hrest prof)⟩
      · rw [hcopy]
        refine .inr ⟨rfl, .io e, fun prof => ?_⟩
        rw [SuperblockInfo.readCopies, superblockCopyOffset_production prof hlt,
          Outcome.ofOption_some, Outcome.ok_bind, hseek, hsize, hread]
        rfl

theorem readSuperblock_cases (file : DataFile) :
    (∃ info, electedSuperblock file = some info ∧
        ∀ prof, readSuperblock prof .production file = .ok info) ∨
      electedSuperblock file = none ∧
        ∃ e, ∀ prof, readSuperblock prof .production file = .err e := by
  unfold electedSuperblock readSuperblock
  have hcopies : TBConfig.production.superblockCopies.toNat = 4 := rfl
  rw [List.range_eq_range', hcopies]
  rcases readCopies_cases file 4 (Nat.zero_add 4) none with ⟨copies, hstored, hread⟩ | ⟨hstored, e, hread⟩
  · rw [hstored, Option.bind_some]
    cases helected : copies.foldl SuperblockInfo.elect none with
    | none =>
        refine .inr ⟨rfl, .invalidSuperblock ("all 4 superblock copies have sequence=0; " ++
          "the file may be unformatted or corrupted"), fun prof => ?_⟩
        rw [helected] at hread
        exact congrArg (fun x => x >>= _) (hread prof)
    | some info =>
        refine .inl ⟨info, rfl, fun prof => ?_⟩
        rw [helected] at hread
        exact congrArg (fun x => x >>= _) (hread prof)
  · rw [hstored]
    exact .inr ⟨rfl, e, fun prof => congrArg (fun x => x >>= _) (hread prof)⟩

theorem readSuperblock_of_elected {file : DataFile} {info : SuperblockInfo}
    (h : electedSuperblock file = some info) (prof : Profile) :
    readSuperblock prof .production file = .ok info := by
  rcases readSuperblock_cases file with ⟨info', helected, hread⟩ | ⟨hnone, -⟩
  · rw [h, Option.some.injEq] at helected
    exact helected ▸ hread prof
  · rw [h] at hnone
    cases hnone

/-! ## What the reader follows -/

/-- The first event of the table that the walk meets is insert or update. -/
def FirstLive (treeId : U16) (blocks : List (List TableInfo)) (address : U64) : Prop :=
  ∃ e, (eventsOf treeId address blocks.flatten).head? = some e ∧ e.live = true

theorem mem_liveAddresses_iff (ord : IterOrder U64 Bool) (treeId : U16)
    (blocks : List (List TableInfo)) (address : U64) :
    address ∈ liveAddresses ord (blocks.foldl (visitTree treeId) ∅) ↔
      FirstLive treeId blocks address := by
  rw [mem_liveAddresses, foldl_visitTree, lookup_visitTree, Option.map_eq_some_iff]
  rfl

/-- Every table of a tree that the walk of a chain finds live is addressed. -/
def TreeAddressed (file : DataFile) (info : SuperblockInfo) (treeId : U16) : Prop :=
  ∀ blocks, Chain file .production info.manifestNewestAddress blocks →
    blocks.length ≤ info.manifestBlockCount.toNat + 1 →
      ∀ address, FirstLive treeId blocks address → TableAddressed .production file address

/-- If the file elects a superblock with a manifest log, the walk of the log and the tables of the
two trees are addressed. -/
def FileAddressed (file : DataFile) : Prop :=
  ∀ info, electedSuperblock file = some info → HasLog info →
    WalkAddressed .production file info ∧ TreeAddressed file info accountObjectsTreeId ∧
      TreeAddressed file info transferObjectsTreeId

theorem blockSize_production : TBConfig.production.blockSize.toNat < 2 ^ 63 := by decide

variable {file : DataFile} {info : SuperblockInfo} {treeId : U16}

theorem tablesAddressed_of_forall {config : TBConfig} {addrs : List U64}
    (h : ∀ address ∈ addrs, TableAddressed config file address) :
    TablesAddressed config file addrs := by
  induction addrs with
  | nil => trivial
  | cons address addrs ih =>
      rw [List.forall_mem_cons] at h
      exact ⟨h.1, fun _ => ih h.2⟩

theorem collectIndexBlocksForTree_cases (ord : IterOrder U64 Bool)
    (h : HasLog info → WalkAddressed .production file info ∧ TreeAddressed file info treeId) :
    (∃ addrs, TablesAddressed .production file addrs ∧ ∀ prof, Outcome.Returns
        (collectIndexBlocksForTree prof ord .production file info treeId) (.ok addrs)) ∨
      ∃ e, ∀ prof, Outcome.Returns
        (collectIndexBlocksForTree prof ord .production file info treeId) (.err e) := by
  by_cases hlog : HasLog info
  · obtain ⟨hwalk, htree⟩ := h hlog
    rcases walkLog_cases file blockSize_production hlog hwalk with
      ⟨blocks, hblocks, hlength, hreturns⟩ | ⟨e, hreturns⟩
    · refine .inl ⟨liveAddresses ord (blocks.foldl (visitTree treeId) ∅), ?_, fun prof => ?_⟩
      · apply tablesAddressed_of_forall
        intro address haddress
        exact htree blocks hblocks hlength address ((mem_liveAddresses_iff ord treeId blocks
          address).1 haddress)
      · exact (hreturns prof (visitTree treeId)).bind (Outcome.returns_const _)
    · exact .inr ⟨e, fun prof => (hreturns prof (visitTree treeId)).bind_err⟩
  · refine .inl ⟨liveAddresses ord ∅, ?_, fun prof => ⟨0, fun fuel _ => ?_⟩⟩
    · apply tablesAddressed_of_forall
      intro address haddress
      rw [mem_liveAddresses, AList.lookup_empty] at haddress
      cases haddress
    · rw [collectIndexBlocksForTree, walkLog_of_not_hasLog prof hlog]
      rfl

/-! ## The entry points -/

section EntryPoints

variable {α : Type} [TBObject α]

theorem opens_of_tables {addrs : List U64} (h : TablesAddressed .production file addrs)
    {run : Profile → ℕ → Outcome ReaderError ObjectIter}
    (hrun : ∀ prof, Outcome.Returns (run prof) (ObjectIter.new .production addrs)) :
    Outcome.Opens run fun prof => ObjectIter.next (α := α) prof .production file := by
  have hsteady := (ObjectIter.tables_settle (α := α) h).steady
    (finished_eagerRead .production file addrs)
  refine Reading.opens_of_steady
    (fun prof => ObjectIter.next_simulates prof .production file) (fun prof => ?_) hsteady
  obtain ⟨it, hnew, hit, hrest⟩ :=
    ObjectIter.rest_new (α := α) prof blockSize_production file addrs
  exact ⟨it, hnew ▸ hrun prof, hit, hrest⟩

theorem iterObjects_eq (prof : Profile) (ord : IterOrder U64 Bool)
    (hread : readSuperblock prof .production file = .ok info) (hcount : info.manifestBlockCount ≠ 0) :
    iterObjects prof .production file treeId ord = fun fuel =>
      collectIndexBlocksForTree prof ord .production file info treeId fuel >>=
        ObjectIter.new .production := by
  funext fuel
  rw [iterObjects, hread, Outcome.ok_bind, if_neg hcount]

theorem iterObjects_opens (ord : IterOrder U64 Bool)
    (h : ∀ info, electedSuperblock file = some info → HasLog info →
      WalkAddressed .production file info ∧ TreeAddressed file info treeId) :
    Outcome.Opens (fun prof => iterObjects prof .production file treeId ord) fun prof =>
      ObjectIter.next (α := α) prof .production file := by
  rcases readSuperblock_cases file with ⟨info, helected, hread⟩ | ⟨-, e, hread⟩
  · by_cases hcount : info.manifestBlockCount = 0
    · by_cases hsequence : 0 < info.sequence
      · refine .inl ⟨.notCheckpointed info.sequence, fun prof => ⟨0, fun fuel _ => ?_⟩⟩
        dsimp only
        rw [iterObjects, hread, Outcome.ok_bind, if_pos hcount, if_pos hsequence]
      · refine @opens_of_tables file α _ [] trivial _ fun prof => ⟨0, fun fuel _ => ?_⟩
        rw [iterObjects, hread, Outcome.ok_bind, if_pos hcount, if_neg hsequence]
    · have hiter := fun prof => @iterObjects_eq file info treeId prof ord (hread prof) hcount
      rcases collectIndexBlocksForTree_cases ord (h info helected) with
        ⟨addrs, haddrs, hcollect⟩ | ⟨e, hcollect⟩
      · refine opens_of_tables haddrs fun prof => ?_
        rw [hiter prof]
        exact (hcollect prof).bind (Outcome.returns_const _)
      · refine .inl ⟨e, fun prof => ?_⟩
        dsimp only
        rw [hiter prof]
        exact (hcollect prof).bind_err
  · refine .inl ⟨e, fun prof => ⟨0, fun fuel _ => ?_⟩⟩
    dsimp only
    rw [iterObjects, hread]
    rfl

theorem pageOf_survives {run : Profile → ℕ → Outcome ReaderError ObjectIter}
    (h : Outcome.Opens run fun prof => ObjectIter.next (α := α) prof .production file)
    {page limit : U64} (hskip : page.toNat * limit.toNat < 2 ^ 64) :
    Outcome.Survives fun prof fuel =>
      pageOf (α := α) prof .production file page limit (run prof fuel) := by
  rcases h with ⟨e, hrun⟩ | ⟨xs, hopened⟩
  · have hpage : ∃ r, ∀ prof, pageOf (α := α) prof .production file page limit (.err e) =
        .ofExcept r := by
      cases e with
      | notCheckpointed sequence => exact ⟨.ok [], fun _ => rfl⟩
      | io text => exact ⟨.error (.io text), fun _ => rfl⟩
      | invalidSuperblock text => exact ⟨.error (.invalidSuperblock text), fun _ => rfl⟩
      | invalidBlock text => exact ⟨.error (.invalidBlock text), fun _ => rfl⟩
    obtain ⟨r, hr⟩ := hpage
    refine ⟨r, fun prof => ?_⟩
    obtain ⟨n, hn⟩ := hrun prof
    refine ⟨n, fun fuel hfuel => ?_⟩
    dsimp only
    rw [hn fuel hfuel, hr]
  · refine ⟨((xs.drop (page * limit).toNat).take limit.toNat).mapM id, fun prof => ?_⟩
    obtain ⟨it, ⟨n, hn⟩, hyields⟩ := hopened prof
    refine ⟨n, fun fuel hfuel => ?_⟩
    dsimp only
    rw [hn fuel hfuel, pageOf, Outcome.attempt_ok, Outcome.ok_bind]
    dsimp only
    rw [prof.mul_of_lt hskip, Outcome.ofOption_some, Outcome.ok_bind,
      Outcome.pageItems_of_yields hyields]

variable [WalObject α]

theorem iterWalObjects_opens (file : DataFile) :
    Outcome.Opens (fun prof _ => iterWalObjects prof .production file) fun prof =>
      WalObjectIter.next (α := α) prof .production file := by
  rcases readSuperblock_cases file with ⟨info, -, hread⟩ | ⟨-, e, hread⟩
  · refine Reading.opens_of_steady
      (fun prof => WalObjectIter.next_simulates prof .production file) (fun prof => ?_)
      (WalObjectIter.logReading_steady file info.checkpointOp)
    refine ⟨WalObjectIter.new info.checkpointOp, ?_, ⟨⟨le_rfl, ?_⟩, Nat.zero_le _⟩, rfl⟩
    · rw [iterWalObjects, hread]
      exact Outcome.returns_const _
    · change 0 * recordSize ≤ 0
      rw [Nat.zero_mul]
  · refine .inl ⟨e, fun prof => ?_⟩
    dsimp only
    rw [iterWalObjects, hread]
    exact Outcome.returns_const _

theorem readWalPage_survives (file : DataFile) {page limit : U64}
    (hskip : page.toNat * limit.toNat < 2 ^ 64) :
    Outcome.Survives fun prof (_ : ℕ) =>
      readWalPage (α := α) prof .production file page limit := by
  have hpage : ∀ prof, readWalPage (α := α) prof .production file page limit =
      iterWalObjects prof .production file >>= Outcome.pageItems
        (WalObjectIter.next prof .production file) (page * limit).toNat limit.toNat := by
    intro prof
    rw [readWalPage, prof.mul_of_lt hskip]
    rfl
  simp only [hpage]
  exact (iterWalObjects_opens file).survives_page _ _

end EntryPoints

theorem readSuperblock_survives (file : DataFile) :
    Outcome.Survives fun prof (_ : ℕ) => readSuperblock prof .production file := by
  rcases readSuperblock_cases file with ⟨info, -, hread⟩ | ⟨-, e, hread⟩
  · exact Outcome.Settled.survives ⟨.ok info, hread⟩
  · exact Outcome.Settled.survives ⟨.error e, hread⟩

theorem capacityStats_eq (prof : Profile) (fuel : ℕ)
    (hread : readSuperblock prof .production file = .ok info) :
    capacityStats prof .production file fuel =
      walkLog prof .production file info visitAll fuel >>= fun seen =>
        .ok
          { dataFileSizeBytes := BitVec.ofNat 64 file.bytes.length
            gridBlocksTotal := saturatingSub (BitVec.ofNat 64 file.bytes.length)
              TBConfig.production.gridZoneStart / TBConfig.production.blockSize
            gridBlocksUsed := BitVec.ofNat 64 (seen.entries.countP Sigma.snd) } := by
  have hsize : TBConfig.production.blockSize ≠ 0 := by decide
  unfold capacityStats countLiveIndexBlocks
  dsimp only
  rw [if_neg hsize, hread, Outcome.ok_bind]
  cases walkLog prof .production file info visitAll fuel <;> rfl

theorem capacityStats_survives
    (h : ∀ info, electedSuperblock file = some info → HasLog info →
      WalkAddressed .production file info) :
    Outcome.Survives fun prof => capacityStats prof .production file := by
  rcases readSuperblock_cases file with ⟨info, helected, hread⟩ | ⟨-, e, hread⟩
  · have hcapacity := fun prof => funext fun fuel => capacityStats_eq prof fuel (hread prof)
    simp only [hcapacity]
    refine Outcome.Survives.bind ?_ fun seen _ => (Outcome.Settled.survives ⟨.ok _, fun _ => rfl⟩)
    by_cases hlog : HasLog info
    · rcases walkLog_cases file blockSize_production hlog (h info helected hlog) with
        ⟨blocks, -, -, hreturns⟩ | ⟨e, hreturns⟩
      · exact ⟨.ok _, fun prof => hreturns prof visitAll⟩
      · exact ⟨.error e, fun prof => hreturns prof visitAll⟩
    · exact ⟨.ok ∅, fun prof => returns_walkLog_of_not_hasLog prof hlog visitAll⟩
  · have hsize : TBConfig.production.blockSize ≠ 0 := by decide
    refine ⟨.error e, fun prof => ⟨0, fun fuel _ => ?_⟩⟩
    unfold capacityStats
    dsimp only
    rw [if_neg hsize, hread]
    rfl

/-- Every entry point of the reader, driven to its end, returns a value or an error, the same in
every build. -/
structure ReaderSurvives (file : DataFile) : Prop where
  superblock : Outcome.Survives fun prof (_ : ℕ) => readSuperblock prof .production file
  capacity : Outcome.Survives fun prof => capacityStats prof .production file
  accounts (ord : IterOrder U64 Bool) : Outcome.Survives fun prof fuel =>
    iterAccounts prof .production file ord fuel >>=
      Outcome.drain (ObjectIter.next (α := Account) prof .production file) fuel
  transfers (ord : IterOrder U64 Bool) : Outcome.Survives fun prof fuel =>
    iterTransfers prof .production file ord fuel >>=
      Outcome.drain (ObjectIter.next (α := Transfer) prof .production file) fuel
  walAccounts : Outcome.Survives fun prof fuel => iterWalAccounts prof .production file >>=
    Outcome.drain (WalObjectIter.next (α := Account) prof .production file) fuel
  walTransfers : Outcome.Survives fun prof fuel => iterWalTransfers prof .production file >>=
    Outcome.drain (WalObjectIter.next (α := Transfer) prof .production file) fuel
  accountPages (ord : IterOrder U64 Bool) (page limit : U64)
    (hskip : page.toNat * limit.toNat < 2 ^ 64) :
    Outcome.Survives fun prof => readLsmAccounts prof .production file ord page limit
  transferPages (ord : IterOrder U64 Bool) (page limit : U64)
    (hskip : page.toNat * limit.toNat < 2 ^ 64) :
    Outcome.Survives fun prof => readLsmTransfers prof .production file ord page limit
  walAccountPages (page limit : U64) (hskip : page.toNat * limit.toNat < 2 ^ 64) :
    Outcome.Survives fun prof (_ : ℕ) => readWalAccounts prof .production file page limit
  walTransferPages (page limit : U64) (hskip : page.toNat * limit.toNat < 2 ^ 64) :
    Outcome.Survives fun prof (_ : ℕ) => readWalTransfers prof .production file page limit

theorem readerSurvives_of_fileAddressed (h : FileAddressed file) : ReaderSurvives file where
  superblock := readSuperblock_survives file
  capacity := capacityStats_survives fun info helected hlog => (h info helected hlog).1
  accounts ord := (iterObjects_opens ord fun info helected hlog =>
    ⟨(h info helected hlog).1, (h info helected hlog).2.1⟩).survives_drain
  transfers ord := (iterObjects_opens ord fun info helected hlog =>
    ⟨(h info helected hlog).1, (h info helected hlog).2.2⟩).survives_drain
  walAccounts := (iterWalObjects_opens file).survives_drain
  walTransfers := (iterWalObjects_opens file).survives_drain
  accountPages ord _ _ hskip := pageOf_survives (iterObjects_opens ord fun info helected hlog =>
    ⟨(h info helected hlog).1, (h info helected hlog).2.1⟩) hskip
  transferPages ord _ _ hskip := pageOf_survives (iterObjects_opens ord fun info helected hlog =>
    ⟨(h info helected hlog).1, (h info helected hlog).2.2⟩) hskip
  walAccountPages _ _ hskip := readWalPage_survives file hskip
  walTransferPages _ _ hskip := readWalPage_survives file hskip

/-! ## Where the checked build panics -/

/-- A walk that is not addressed panics already where only the tables are counted. -/
theorem capacityStats_panic (helected : electedSuperblock file = some info) (hlog : HasLog info)
    (h : ¬ WalkAddressed .production file info) :
    Outcome.Returns (capacityStats .debug .production file) .panic := by
  have hread := readSuperblock_of_elected helected .debug
  have hcapacity := funext fun fuel => capacityStats_eq .debug fuel hread
  change Outcome.Returns (fun fuel => capacityStats .debug .production file fuel) .panic
  rw [hcapacity]
  exact (walkLog_panic blockSize_production hlog h visitAll).bind_panic

/-- A table that is not addressed is the first one under some order. -/
theorem drain_panic {α : Type} [TBObject α] (helected : electedSuperblock file = some info)
    (hlog : HasLog info) (hwalk : WalkAddressed .production file info)
    (h : ¬ TreeAddressed file info treeId) : ∃ ord, Outcome.Returns
      (fun fuel => iterObjects .debug .production file treeId ord fuel >>=
        Outcome.drain (ObjectIter.next (α := α) .debug .production file) fuel) .panic := by
  simp only [TreeAddressed, not_forall] at h
  obtain ⟨blocks, hblocks, hlength, address, hlive, htable⟩ := h
  have hmem := (mem_liveAddresses_iff .stored treeId blocks address).2 hlive
  obtain ⟨ord, hord⟩ := exists_order_of_perm (List.perm_cons_erase hmem).symm
  have hbound := hwalk.bound
  have hcollect : Outcome.Returns
      (collectIndexBlocksForTree .debug ord .production file info treeId)
      (.ok (address :: (liveAddresses .stored (blocks.foldl (visitTree treeId) ∅)).erase
        address)) := by
    refine ⟨blocks.length + 1, fun fuel hfuel => ?_⟩
    obtain ⟨extra, rfl⟩ := Nat.exists_eq_add_of_le hfuel
    have hzero : (0 : U32).toNat = 0 := rfl
    have hcount : CountInRange info := by
      unfold CountInRange
      omega
    rw [collectIndexBlocksForTree, walkLog_of_hasLog .debug blockSize_production hlog,
      walk_chain .debug hcount (visitTree treeId) hblocks extra 0 ∅ (by omega), Outcome.ok_bind,
      hord]
  obtain ⟨it, hnew, hit, hrest⟩ := ObjectIter.rest_new (α := α) .debug blockSize_production file
    (address :: (liveAddresses .stored (blocks.foldl (visitTree treeId) ∅)).erase address)
  have hiter : Outcome.Returns (iterObjects .debug .production file treeId ord) (.ok it) := by
    rw [iterObjects_eq .debug ord (readSuperblock_of_elected helected .debug) hlog.2, ← hnew]
    exact hcollect.bind (Outcome.returns_const _)
  have hstop := @ObjectIter.tables_panic α _ .production file
    (address :: (liveAddresses .stored (blocks.foldl (visitTree treeId) ∅)).erase address)
    fun haddressed => htable haddressed.1
  rw [← hrest] at hstop
  refine ⟨ord, hiter.bind ⟨(ObjectIter.rest (α := α) .debug .production file it).items.length + 1,
    fun fuel hfuel => ?_⟩⟩
  exact (ObjectIter.next_simulates .debug .production file).drain_panic ⟨hit, rfl⟩ hstop hfuel

/-- Every entry point of the reader returns a value or an error, the same in every build, exactly
when the elected superblock has no manifest log or the walk of its log and its live tables are
addressed. -/
theorem readerSurvives_iff (file : DataFile) : ReaderSurvives file ↔ FileAddressed file := by
  constructor
  · intro hsurvives info helected hlog
    have hwalk : WalkAddressed .production file info := by
      by_contra hwalk
      have hpanic := capacityStats_panic helected hlog hwalk
      exact absurd hsurvives.capacity (Outcome.not_survives_of_panic hpanic)
    refine ⟨hwalk, ?_, ?_⟩
    · by_contra htree
      obtain ⟨ord, hpanic⟩ := drain_panic (α := Account) helected hlog hwalk htree
      exact Outcome.not_survives_of_panic hpanic (hsurvives.accounts ord)
    · by_contra htree
      obtain ⟨ord, hpanic⟩ := drain_panic (α := Transfer) helected hlog hwalk htree
      exact Outcome.not_survives_of_panic hpanic (hsurvives.transfers ord)
  · exact readerSurvives_of_fileAddressed

/-! ## A manifest block beyond 64 bits -/

def farManifestCopy : List U8 := sparse 8192 [(40, 1), (663, 1), (704, 1)]

def farManifestFile : DataFile where
  bytes := farManifestCopy ++ List.replicate 73728 0
  length_lt := by
    rw [List.length_append, farManifestCopy, length_sparse, List.length_replicate]
    omega

def farManifestInfo : SuperblockInfo where
  sequence := 1
  clusterId := 0
  replicaCount := 0
  replica := some 0
  manifestNewestAddress := 72057594037927936
  manifestBlockCount := 1
  checkpointOp := 0

theorem farManifestFile_elected : electedSuperblock farManifestFile = some farManifestInfo := by
  have hlen : farManifestCopy.length = 8192 := length_sparse _ _
  have hlength : farManifestFile.bytes.length = 81920 := by
    unfold farManifestFile
    rw [List.length_append, hlen, List.length_replicate]
  have hfirst : superblockCopy farManifestFile 0 = some farManifestCopy := by
    rw [superblockCopy, if_pos (by omega), Nat.zero_mul, List.drop_zero]
    exact congrArg some (List.take_left' hlen)
  have hrest : ∀ n, 0 < n → n < 4 →
      superblockCopy farManifestFile n = some (List.replicate 8192 0) := by
    intro n hpos hn
    have hdrop : farManifestCopy.drop (n * 24576) = [] := List.drop_eq_nil_of_le (by omega)
    have hmin : min 8192 (73728 - (n * 24576 - 8192)) = 8192 := by omega
    rw [superblockCopy, if_pos (by omega)]
    unfold farManifestFile
    dsimp only
    rw [List.drop_append, hdrop, List.nil_append, hlen, List.drop_replicate, List.take_replicate,
      hmin]
  have hzero : leAt 8 (List.replicate 8192 0) 40 = 0 := by decide +kernel
  have helect : ∀ best : SuperblockInfo,
      SuperblockInfo.elect (some best) (List.replicate 8192 0) = some best := by
    intro best
    rw [SuperblockInfo.elect, hzero]
    exact if_neg (BitVec.not_lt_zero)
  have hcopy : SuperblockInfo.elect none farManifestCopy = some farManifestInfo := by
    decide +kernel
  have hcopies : (List.range 4).mapM (superblockCopy farManifestFile) =
      some [farManifestCopy, List.replicate 8192 0, List.replicate 8192 0,
        List.replicate 8192 0] := by
    simp only [List.range_succ, List.range_zero, List.nil_append, List.cons_append,
      List.mapM_cons, List.mapM_nil, hfirst, hrest 1 (by decide) (by decide),
      hrest 2 (by decide) (by decide), hrest 3 (by decide) (by decide)]
    rfl
  rw [electedSuperblock, hcopies, Option.bind_some]
  simp only [List.foldl_cons, List.foldl_nil, hcopy, helect]

/-- Counting the tables of the file panics in the checked build. -/
theorem farManifestFile_not_survived :
    Outcome.Returns (capacityStats .debug .production farManifestFile) .panic ∧
      ¬ ReaderSurvives farManifestFile := by
  have hlog : HasLog farManifestInfo := ⟨by decide, by decide⟩
  have hwalk : ¬ WalkAddressed .production farManifestFile farManifestInfo := by
    intro hwalk
    rcases hwalk.chain with hnull | ⟨hoffset, -⟩
    · exact absurd hnull (by decide)
    · exact absurd hoffset (by decide)
  have hpanic := capacityStats_panic farManifestFile_elected hlog hwalk
  exact ⟨hpanic, fun hsurvives =>
    absurd hsurvives.capacity (Outcome.not_survives_of_panic hpanic)⟩

end TbManager
