import TbManager.ManifestLog
import TbManager.ObjectIter
import TbManager.Paging

/-!
# Pages of the checkpointed records

Every call for a page opens the file, walks the manifest log and visits the live
tables in the order of a new hash map.
-/

namespace TbManager

open Manifest Paging

def iterObjects (prof : Profile) (config : TBConfig) (file : DataFile) (treeId : U16)
    (ord : IterOrder U64 Bool) (fuel : ℕ) : Outcome ReaderError ObjectIter := do
  let sb ← readSuperblock prof config file
  if sb.manifestBlockCount = 0 then
    if 0 < sb.sequence then .err (.notCheckpointed sb.sequence)
    else ObjectIter.new config []
  else do
    let indexAddrs ← collectIndexBlocksForTree prof ord config file sb treeId fuel
    ObjectIter.new config indexAddrs

def iterAccounts (prof : Profile) (config : TBConfig) (file : DataFile) (ord : IterOrder U64 Bool)
    (fuel : ℕ) : Outcome ReaderError ObjectIter :=
  iterObjects prof config file accountObjectsTreeId ord fuel

def iterTransfers (prof : Profile) (config : TBConfig) (file : DataFile) (ord : IterOrder U64 Bool)
    (fuel : ℕ) : Outcome ReaderError ObjectIter :=
  iterObjects prof config file transferObjectsTreeId ord fuel

/-- A page of what an opened iterator yields, empty if there is no checkpoint. -/
def pageOf {α : Type} [TBObject α] (prof : Profile) (config : TBConfig) (file : DataFile)
    (page limit : U64) (opened : Outcome ReaderError ObjectIter) :
    Outcome ReaderError (List α) := do
  let opened ← opened.attempt
  match opened with
  | .ok iter => do
    let skipped ← .ofOption (prof.mul page limit)
    Outcome.pageItems (ObjectIter.next prof config file) skipped.toNat limit.toNat iter
  | .error (.notCheckpointed _) => .ok []
  | .error e => .err e

def readLsmAccounts (prof : Profile) (config : TBConfig) (file : DataFile)
    (ord : IterOrder U64 Bool) (page limit : U64) (fuel : ℕ) :
    Outcome ReaderError (List Account) :=
  pageOf prof config file page limit (iterAccounts prof config file ord fuel)

def readLsmTransfers (prof : Profile) (config : TBConfig) (file : DataFile)
    (ord : IterOrder U64 Bool) (page limit : U64) (fuel : ℕ) :
    Outcome ReaderError (List Transfer) :=
  pageOf prof config file page limit (iterTransfers prof config file ord fuel)

def readLsmPage {α : Type} [TBObject α] (prof : Profile) (config : TBConfig) (file : DataFile)
    (treeId : U16) (ord : IterOrder U64 Bool) (page limit : U64) (fuel : ℕ) :
    Outcome ReaderError (List α) :=
  pageOf prof config file page limit (iterObjects prof config file treeId ord fuel)

section Pages

variable {α : Type}

def PageRead (read : IterOrder U64 Bool → U64 → U64 → ℕ → Outcome ReaderError (List α))
    (ords : ℕ → IterOrder U64 Bool) (limit : U64) (p : ℕ) (items : List α) : Prop :=
  ∃ page : U64, page.toNat = p ∧ Outcome.Returns (read (ords p) page limit) (.ok items)

/-- In whatever order each call visits the tables, the pages up to the first
empty one hold the records as often as they are stored. -/
def ReadsPartition (read : IterOrder U64 Bool → U64 → U64 → ℕ → Outcome ReaderError (List α))
    (limit : U64) (records : List α) : Prop :=
  ∀ ords : ℕ → IterOrder U64 Bool,
    ∃ all, PagesFrom (PageRead read ords limit) 0 all ∧ all.Perm records

/-- No page offset overflows and no page depends on the order of the tables. -/
def PagesIndependent (limit : U64) (tables : List (List α)) : Prop :=
  pageCount limit.toNat tables.flatten.length * limit.toNat < 2 ^ 64 ∧
    PagesAgree limit.toNat tables

def skippedRecords (prof : Profile) (limit : U64) (p : ℕ) : Option ℕ :=
  if p < 2 ^ 64 then (prof.mul (BitVec.ofNat 64 p) limit).map BitVec.toNat else none

theorem skippedRecords_eq_fit (prof : Profile) (limit : U64) {p : ℕ} (hp : p < 2 ^ 64) :
    skippedRecords prof limit p = (prof.fit (p * limit.toNat) : Option U64).map BitVec.toNat := by
  rw [skippedRecords, if_pos hp, prof.mul_eq_fit, BitVec.toNat_ofNat, Nat.mod_eq_of_lt hp]

theorem skippedRecords_wraps (prof : Profile) {limit : U64} (hlimit : 0 < limit) :
    Wraps (skippedRecords prof limit) limit.toNat (2 ^ 64) := by
  have hpos : 0 < limit.toNat := by bv_omega
  constructor
  · intro p hp
    have hlt : p < 2 ^ 64 := (Nat.le_mul_of_pos_right p hpos).trans_lt hp
    rw [skippedRecords_eq_fit prof limit hlt, prof.fit_of_lt hp, Option.map_some,
      BitVec.toNat_ofNat, Nat.mod_eq_of_lt hp]
  · intro p o hover h
    have hlt : p < 2 ^ 64 := by
      by_contra hge
      rw [skippedRecords, if_neg hge] at h
      cases h
    rw [skippedRecords_eq_fit prof limit hlt] at h
    obtain ⟨skipped, hskipped, rfl⟩ := Option.map_eq_some_iff.1 h
    exact Profile.toNat_of_fit hskipped

/-- Every arrangement of the live addresses is the order of some map. -/
theorem exists_order_of_perm {seen : HashMap U64 Bool} {addrs : List U64}
    (h : addrs.Perm (liveAddresses .stored seen)) : ∃ ord, liveAddresses ord seen = addrs := by
  have hlive : ∀ es : List (Σ _ : U64, Bool),
      (es.filterMap fun e => if e.2 then some e.1 else none).map (fun a => ⟨a, true⟩) =
        es.filter Sigma.snd := by
    intro es
    induction es with
    | nil => rfl
    | cons e es ih =>
        obtain ⟨a, live⟩ := e
        cases live with
        | true => exact congrArg (List.cons _) ih
        | false => exact ih
  have hdead : (seen.entries.filter fun e => !e.2).filterMap
      (fun e => if e.2 then some e.1 else none) = [] := by
    rw [List.filterMap_eq_nil_iff]
    intro e he
    have := List.of_mem_filter he
    simp_all
  have hperm : (addrs.map (fun a => (⟨a, true⟩ : Σ _ : U64, Bool)) ++
      seen.entries.filter fun e => !e.2).Perm seen.entries := by
    refine ((h.map _).append_right _).trans ?_
    have hstored := hlive seen.entries
    change (liveAddresses .stored seen).map _ = _ at hstored
    rw [hstored]
    exact List.filter_append_perm _ _
  refine ⟨IterOrder.showing seen.entries _ hperm, ?_⟩
  rw [liveAddresses, HashMap.iter, IterOrder.showing_arrange, List.filterMap_append, hdead,
    List.append_nil, List.filterMap_map]
  simp

theorem pagesIndependent_nil {limit : U64} (hlimit : 0 < limit) :
    PagesIndependent (α := α) limit [] := by
  have hpos : 0 < limit.toNat := by bv_omega
  constructor
  · have hzero : pageCount limit.toNat ([] : List (List α)).flatten.length = 0 :=
      Nat.div_eq_of_lt (by simpa using hpos)
    rw [hzero]
    omega
  · intro a b ha hb p
    rw [List.perm_nil.1 ha, List.perm_nil.1 hb]

variable [TBObject α]

/-- The live tables of a tree and their records, in the order in which the map
of the walk stores them; there is none before the first checkpoint. -/
inductive StoresTables (prof : Profile) (config : TBConfig) (file : DataFile) (treeId : U16) :
    List (List α) → Prop
  | unchecked {sb : SuperblockInfo} (hsize : config.blockSize.toNat < 2 ^ 63)
      (hsb : readSuperblock prof config file = .ok sb) (hcount : sb.manifestBlockCount = 0) :
      StoresTables prof config file treeId []
  | checkpointed {sb : SuperblockInfo} {seen : HashMap U64 Bool} {tables : List (List α)}
      (hsize : config.blockSize.toNat < 2 ^ 63) (hsb : readSuperblock prof config file = .ok sb)
      (hcount : sb.manifestBlockCount ≠ 0)
      (hwalk : Outcome.Returns (walkLog prof config file sb (visitTree treeId)) (.ok seen))
      (htables : List.Forall₂ (ObjectIter.TableHolds prof config file)
        (liveAddresses .stored seen) tables) :
      StoresTables prof config file treeId tables

variable {prof : Profile} {config : TBConfig} {file : DataFile} {treeId : U16}
  {tables : List (List α)} {sb : SuperblockInfo} {seen : HashMap U64 Bool}

def Shows (prof : Profile) (config : TBConfig) (file : DataFile) (treeId : U16)
    (ord : IterOrder U64 Bool) (arr : List (List α)) : Prop :=
  ∀ page limit, Outcome.Returns (readLsmPage prof config file treeId ord page limit)
    (Outcome.ofOption ((prof.mul page limit).map fun skipped =>
      (arr.flatten.drop skipped.toNat).take limit.toNat))

theorem shows_of_tableHolds (hsize : config.blockSize.toNat < 2 ^ 63)
    (hsb : readSuperblock prof config file = .ok sb) (hcount : sb.manifestBlockCount ≠ 0)
    (hwalk : Outcome.Returns (walkLog prof config file sb (visitTree treeId)) (.ok seen))
    {ord : IterOrder U64 Bool} {arr : List (List α)}
    (harr : List.Forall₂ (ObjectIter.TableHolds prof config file) (liveAddresses ord seen) arr) :
    Shows prof config file treeId ord arr := by
  obtain ⟨n, hn⟩ := hwalk
  obtain ⟨it, hnew, hrest⟩ := ObjectIter.rest_of_new hsize harr
  refine fun page limit => ⟨n, fun fuel hfuel => ?_⟩
  have hcollect : collectIndexBlocksForTree prof ord config file sb treeId fuel =
      .ok (liveAddresses ord seen) := by
    rw [collectIndexBlocksForTree, hn fuel hfuel, Outcome.ok_bind]
  have hiter : iterObjects prof config file treeId ord fuel = .ok it := by
    rw [iterObjects, hsb, Outcome.ok_bind, if_neg hcount, hcollect, Outcome.ok_bind, hnew]
  rw [readLsmPage, pageOf, hiter, Outcome.attempt_ok, Outcome.ok_bind]
  dsimp only
  cases prof.mul page limit with
  | none => rfl
  | some skipped =>
      rw [Outcome.ofOption_some, Outcome.ok_bind, Option.map_some, Outcome.ofOption_some]
      exact Outcome.pageItems_eq (ObjectIter.yields_of_rest hrest) _ _

theorem shows_arrangements (hsize : config.blockSize.toNat < 2 ^ 63)
    (hsb : readSuperblock prof config file = .ok sb) (hcount : sb.manifestBlockCount ≠ 0)
    (hwalk : Outcome.Returns (walkLog prof config file sb (visitTree treeId)) (.ok seen))
    (htables : List.Forall₂ (ObjectIter.TableHolds prof config file)
      (liveAddresses .stored seen) tables) :
    (∀ ord, ∃ arr : List (List α), arr.Perm tables ∧ Shows prof config file treeId ord arr) ∧
      ∀ arr : List (List α), arr.Perm tables → ∃ ord, Shows prof config file treeId ord arr := by
  constructor
  · intro ord
    have hperm : (liveAddresses ord seen).Perm (liveAddresses .stored seen) :=
      (HashMap.iter_perm seen ord).filterMap _
    obtain ⟨arr, harr, harrperm⟩ := List.perm_comp_forall₂ hperm htables
    exact ⟨arr, harrperm, shows_of_tableHolds hsize hsb hcount hwalk harr⟩
  · intro arr hperm
    obtain ⟨addrs, haddrs, haddrsperm⟩ := List.perm_comp_forall₂ hperm htables.flip
    obtain ⟨ord, hord⟩ := exists_order_of_perm haddrsperm
    refine ⟨ord, shows_of_tableHolds hsize hsb hcount hwalk ?_⟩
    rw [hord]
    exact haddrs.flip

/-- What a call returns is a page of the arrangement that it sees. -/
theorem pageRead_iff {ords : ℕ → IterOrder U64 Bool} {arr : ℕ → List (List α)}
    (h : ∀ p, Shows prof config file treeId (ords p) (arr p)) {limit : U64} {p : ℕ}
    {items : List α} :
    PageRead (readLsmPage prof config file treeId) ords limit p items ↔
      Reads (skippedRecords prof limit) limit.toNat (fun p => (arr p).flatten) p items := by
  constructor
  · rintro ⟨page, rfl, hreturns⟩
    have heq := hreturns.unique (h page.toNat page limit)
    have hofNat : BitVec.ofNat 64 page.toNat = page := by
      rw [BitVec.ofNat_toNat, BitVec.setWidth_eq]
    cases hmul : prof.mul page limit with
    | none =>
        rw [hmul] at heq
        cases heq
    | some skipped =>
        rw [hmul, Option.map_some, Outcome.ofOption_some, Outcome.ok.injEq] at heq
        refine ⟨skipped.toNat, ?_, heq⟩
        rw [skippedRecords, if_pos page.isLt, hofNat, hmul, Option.map_some]
  · rintro ⟨o, ho, rfl⟩
    unfold skippedRecords at ho
    split_ifs at ho with hlt
    have htoNat : (BitVec.ofNat 64 p).toNat = p :=
      (BitVec.toNat_ofNat p 64).trans (Nat.mod_eq_of_lt hlt)
    refine ⟨BitVec.ofNat 64 p, htoNat, ?_⟩
    obtain ⟨skipped, hmul, rfl⟩ := Option.map_eq_some_iff.1 ho
    have hreturns := h p (BitVec.ofNat 64 p) limit
    rw [hmul] at hreturns
    exact hreturns

theorem readsPartition_of_unchecked (hsize : config.blockSize.toNat < 2 ^ 63)
    (hsb : readSuperblock prof config file = .ok sb) (hcount : sb.manifestBlockCount = 0)
    (limit : U64) :
    ReadsPartition (α := α) (readLsmPage prof config file treeId) limit [] := by
  intro ords
  refine ⟨[], PagesFrom.last ⟨0, rfl, 0, fun fuel _ => ?_⟩, List.Perm.refl []⟩
  by_cases hsequence : 0 < sb.sequence
  · have hiter : iterObjects prof config file treeId (ords 0) fuel =
        .err (.notCheckpointed sb.sequence) := by
      rw [iterObjects, hsb, Outcome.ok_bind, if_pos hcount, if_pos hsequence]
    rw [readLsmPage, pageOf, hiter]
    rfl
  · obtain ⟨it, hnew, hrest⟩ :=
      @ObjectIter.rest_of_new α _ prof config file hsize [] [] List.Forall₂.nil
    have hiter : iterObjects prof config file treeId (ords 0) fuel = .ok it := by
      rw [iterObjects, hsb, Outcome.ok_bind, if_pos hcount, if_neg hsequence, hnew]
    have hmul : prof.mul 0 limit = some (0 * limit) := prof.mul_of_lt (by simp)
    rw [readLsmPage, pageOf, hiter, Outcome.attempt_ok, Outcome.ok_bind]
    dsimp only
    rw [hmul, Outcome.ofOption_some, Outcome.ok_bind,
      Outcome.pageItems_eq (ObjectIter.yields_of_rest hrest)]
    simp

theorem readLsmPage_partition_iff (h : StoresTables prof config file treeId tables) {limit : U64}
    (hlimit : 0 < limit) :
    ReadsPartition (readLsmPage prof config file treeId) limit tables.flatten ↔
      PagesIndependent limit tables := by
  cases h with
  | unchecked hsize hsb hcount =>
      exact iff_of_true (readsPartition_of_unchecked hsize hsb hcount limit)
        (pagesIndependent_nil hlimit)
  | checkpointed hsize hsb hcount hwalk htables =>
      obtain ⟨hseen, hshown⟩ := shows_arrangements hsize hsb hcount hwalk htables
      have hiff : ReadsPartition (readLsmPage prof config file treeId) limit tables.flatten ↔
          PagesPartition (skippedRecords prof limit) limit.toNat tables := by
        constructor
        · intro hreads arr harr
          choose ords hords using fun p => hshown (arr p) (harr p)
          obtain ⟨all, hall, hperm⟩ := hreads ords
          exact ⟨all, hall.mono fun p items => (pageRead_iff hords).1, hperm⟩
        · intro hpages ords
          choose arr harr hords using fun p => hseen (ords p)
          obtain ⟨all, hall, hperm⟩ := hpages arr harr
          exact ⟨all, hall.mono fun p items => (pageRead_iff hords).2, hperm⟩
      have hpos : 0 < limit.toNat := by bv_omega
      exact hiff.trans (pagesPartition_iff (skippedRecords_wraps prof hlimit) hpos limit.isLt)

/-- Fewer than 2^63 distinct records: all are on one page, or in one table. -/
theorem pagesIndependent_iff_of_nodup {β : Type} {tables : List (List β)} {limit : U64} (hlimit : 0 < limit)
    (hnodup : tables.flatten.Nodup) (htotal : tables.flatten.length < 2 ^ 63) :
    PagesIndependent limit tables ↔
      tables.flatten.length ≤ limit.toNat ∨ (tables.filter fun t => t ≠ []).length ≤ 1 := by
  have hpos : 0 < limit.toNat := by bv_omega
  have hbound : pageCount limit.toNat tables.flatten.length * limit.toNat < 2 ^ 64 := by
    have hle := Nat.div_mul_le_self (tables.flatten.length + limit.toNat - 1) limit.toNat
    have hlt := limit.isLt
    unfold pageCount
    by_cases hone : tables.flatten.length ≤ limit.toNat
    · have hcount : (tables.flatten.length + limit.toNat - 1) / limit.toNat ≤ 1 := by
        rw [← Nat.lt_succ_iff, Nat.div_lt_iff_lt_mul hpos]
        omega
      have := Nat.mul_le_mul_right limit.toNat hcount
      omega
    · omega
  exact (and_iff_right hbound).trans (pagesAgree_iff_of_nodup hnodup hpos)

end Pages

/-- For every readable data file and page size, the pages of the accounts, and
those of the transfers, partition the records of the live tables in all orders
exactly when no page offset overflows and no page depends on the order of the
tables; for distinct records, exactly when they fit on one page or in one table. -/
theorem readLsm_pages_partition_iff (prof : Profile) (config : TBConfig) (file : DataFile)
    (limit : U64) (accounts : List (List Account)) (transfers : List (List Transfer))
    (hlimit : 0 < limit)
    (haccounts : StoresTables prof config file accountObjectsTreeId accounts)
    (htransfers : StoresTables prof config file transferObjectsTreeId transfers) :
    ((ReadsPartition (readLsmAccounts prof config file) limit accounts.flatten ↔
        PagesIndependent limit accounts) ∧
      (accounts.flatten.Nodup → accounts.flatten.length < 2 ^ 63 →
        (ReadsPartition (readLsmAccounts prof config file) limit accounts.flatten ↔
          accounts.flatten.length ≤ limit.toNat ∨
            (accounts.filter fun t => t ≠ []).length ≤ 1))) ∧
      (ReadsPartition (readLsmTransfers prof config file) limit transfers.flatten ↔
        PagesIndependent limit transfers) ∧
      (transfers.flatten.Nodup → transfers.flatten.length < 2 ^ 63 →
        (ReadsPartition (readLsmTransfers prof config file) limit transfers.flatten ↔
          transfers.flatten.length ≤ limit.toNat ∨
            (transfers.filter fun t => t ≠ []).length ≤ 1)) := by
  have ha := readLsmPage_partition_iff haccounts hlimit
  have ht := readLsmPage_partition_iff htransfers hlimit
  exact ⟨⟨ha, fun hnodup htotal => ha.trans (pagesIndependent_iff_of_nodup hlimit hnodup htotal)⟩,
    ht, fun hnodup htotal => ht.trans (pagesIndependent_iff_of_nodup hlimit hnodup htotal)⟩

/-! ## Two tables of one account each -/

def smallGrid : TBConfig where
  blockSize := 512
  superblockCopySize := 1536
  superblockCopies := 1
  gridZoneStart := 1536
  journalSlotCount := 0
  messageSizeMax := 0

def indexBlock (address value : U8) : List U8 :=
  sparse 512 [(97, 2), (114, 20), (128, 1), (132, 1), (136, 8), (224, address), (240, 4),
    (304, value)]

def valueBlock (address id : U8) : List U8 :=
  sparse 512 [(96, 128), (97, 1), (114, 20), (224, address), (240, 5), (256, id)]

def twoTablesManifest : List U8 :=
  sparse 512 [(97, 2), (114, 20), (168, 2), (224, 1), (240, 3), (352, 2), (380, 7), (382, 0x40),
    (480, 3), (508, 7), (510, 0x40)]

def twoTablesFile : DataFile where
  bytes := sparse 1536 [(40, 1), (656, 1), (704, 1)] ++ twoTablesManifest ++ indexBlock 2 4 ++
    indexBlock 3 5 ++ valueBlock 4 1 ++ valueBlock 5 2
  length_lt := by
    simp only [List.length_append, twoTablesManifest, indexBlock, valueBlock, length_sparse]
    omega

def twoTablesInfo : SuperblockInfo where
  sequence := 1
  clusterId := 0
  replicaCount := 0
  replica := some 0
  manifestNewestAddress := 1
  manifestBlockCount := 1
  checkpointOp := 0

def twoTables : List (List Account) := [[.holding 2 0 0 0 0], [.holding 1 0 0 0 0]]

theorem twoTablesFile_superblock :
    readSuperblock .debug smallGrid twoTablesFile = .ok twoTablesInfo := by
  decide +kernel

theorem twoTablesFile_chain :
    Chain twoTablesFile smallGrid twoTablesInfo.manifestNewestAddress
      [[⟨2, 7, .insert⟩, ⟨3, 7, .insert⟩]] :=
  @Chain.cons _ _ _ 0 twoTablesManifest _ _ (by decide +kernel) (by decide +kernel) Chain.nil

theorem twoTablesFile_valueHolds (address id : U8)
    (h : (address, id) = (4, 1) ∨ (address, id) = (5, 2)) :
    ObjectIter.ValueHolds smallGrid twoTablesFile (address.setWidth 64)
      [Account.holding (id.setWidth 128) 0 0 0 0] := by
  refine ⟨valueBlock address id, 1, ?_⟩
  rcases h with h | h
  · cases h
    decide +kernel
  · cases h
    decide +kernel

theorem twoTablesFile_tableHolds (address value id : U8)
    (h : (address, value, id) = (2, 4, 1) ∨ (address, value, id) = (3, 5, 2)) :
    ObjectIter.TableHolds .debug smallGrid twoTablesFile (address.setWidth 64)
      [Account.holding (id.setWidth 128) 0 0 0 0] := by
  have hvalue : ObjectIter.ValueHolds smallGrid twoTablesFile (value.setWidth 64)
      [Account.holding (id.setWidth 128) 0 0 0 0] := by
    apply twoTablesFile_valueHolds
    rcases h with h | h
    · cases h
      exact .inl rfl
    · cases h
      exact .inr rfl
  refine ⟨indexBlock address value, [value.setWidth 64], _, ?_, ?_,
    List.Forall₂.cons hvalue List.Forall₂.nil, rfl⟩
  · rcases h with h | h
    · cases h
      decide +kernel
    · cases h
      decide +kernel
  · rcases h with h | h
    · cases h
      decide +kernel
    · cases h
      decide +kernel

theorem twoTablesFile_walk (treeId : U16) :
    Outcome.Returns (walkLog .debug smallGrid twoTablesFile twoTablesInfo (visitTree treeId))
      (.ok (visitTree treeId ∅ [⟨2, 7, .insert⟩, ⟨3, 7, .insert⟩])) :=
  returns_walkLog .debug (visitTree treeId) twoTablesFile_chain (le_refl 1) (.inr (by decide))

theorem twoTablesFile_accounts :
    StoresTables .debug smallGrid twoTablesFile accountObjectsTreeId twoTables := by
  refine StoresTables.checkpointed (by decide) twoTablesFile_superblock (by decide)
    (twoTablesFile_walk _) ?_
  have hlive : liveAddresses .stored
      (visitTree accountObjectsTreeId ∅ [⟨2, 7, .insert⟩, ⟨3, 7, .insert⟩]) = [3, 2] := by
    decide +kernel
  rw [hlive]
  exact .cons (twoTablesFile_tableHolds 3 5 2 (.inr rfl))
    (.cons (twoTablesFile_tableHolds 2 4 1 (.inl rfl)) .nil)

theorem twoTablesFile_transfers :
    StoresTables (α := Transfer) .debug smallGrid twoTablesFile transferObjectsTreeId [] := by
  refine StoresTables.checkpointed (by decide) twoTablesFile_superblock (by decide)
    (twoTablesFile_walk _) ?_
  have hlive : liveAddresses .stored
      (visitTree transferObjectsTreeId ∅ [⟨2, 7, .insert⟩, ⟨3, 7, .insert⟩]) = [] := by
    decide +kernel
  rw [hlive]
  exact .nil

theorem readLsm_pages_partition_iff_twoTables :
    (0 : U64) < 2 ∧
      StoresTables .debug smallGrid twoTablesFile accountObjectsTreeId twoTables ∧
      StoresTables (α := Transfer) .debug smallGrid twoTablesFile transferObjectsTreeId [] ∧
      ReadsPartition (readLsmAccounts .debug smallGrid twoTablesFile) 2 twoTables.flatten ∧
      ReadsPartition (readLsmTransfers .debug smallGrid twoTablesFile) 2 [] := by
  obtain ⟨⟨-, haccounts⟩, -, htransfers⟩ := readLsm_pages_partition_iff .debug smallGrid
    twoTablesFile 2 twoTables [] (by decide) twoTablesFile_accounts twoTablesFile_transfers
  exact ⟨by decide, twoTablesFile_accounts, twoTablesFile_transfers,
    (haccounts (by decide) (by decide)).2 (.inl (by decide)),
    (htransfers List.nodup_nil (by decide)).2 (.inl (by decide))⟩

/-- With pages of one record, a call that sees the tables in the other order
repeats one account and the other is skipped. -/
theorem twoTablesFile_not_partitioned :
    StoresTables .debug smallGrid twoTablesFile accountObjectsTreeId twoTables ∧
      ¬ ReadsPartition (readLsmAccounts .debug smallGrid twoTablesFile) 1 twoTables.flatten := by
  refine ⟨twoTablesFile_accounts, fun hpartition => ?_⟩
  have hindependent := (readLsmPage_partition_iff twoTablesFile_accounts (by decide)).1 hpartition
  have hagree := hindependent.2 twoTables twoTables.reverse (List.Perm.refl _)
    (List.reverse_perm _) 0
  revert hagree
  decide

end TbManager
