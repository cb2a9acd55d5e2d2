import TbManager.Manifest

/-!
# The live tables of the manifest log

The log is read oldest block first and each block from its first entry; a table
is live if its last event is insert or update. The walk visits the blocks
newest first but each block from its first entry, and keeps the first event of
each address.
-/

namespace TbManager.Manifest

/-- The blocks of a well-formed chain from an address on, newest first. -/
inductive Chain (file : DataFile) (config : TBConfig) : U64 → List (List TableInfo) → Prop
  | nil : Chain file config 0 []
  | cons {address previous : U64} {block : List U8} {es : List TableInfo}
      {older : List (List TableInfo)} (hblock : file.blockAt config address = some block)
      (hparse : parseBlock address block = .ok (previous, es))
      (hrest : Chain file config previous older) : Chain file config address (es :: older)

def logOf (blocks : List (List TableInfo)) : List TableInfo := blocks.reverse.flatten

def eventsOf (treeId : U16) (address : U64) (es : List TableInfo) : List TableInfo :=
  es.filter fun e => e.treeId = treeId ∧ e.address = address

/-- The last event of the table is insert or update. -/
def LiveIn (treeId : U16) (log : List TableInfo) (address : U64) : Prop :=
  ∃ e, (eventsOf treeId address log).getLast? = some e ∧ e.live = true

/-- Exactly the live tables of the log, each once. -/
def ListsLive (treeId : U16) (log : List TableInfo) (addresses : List U64) : Prop :=
  addresses.Nodup ∧ ∀ address, address ∈ addresses ↔ LiveIn treeId log address

/-- The newest block with an event of the table. -/
def newestMention (treeId : U16) (address : U64) (blocks : List (List TableInfo)) :
    Option (List TableInfo) :=
  blocks.find? fun es => eventsOf treeId address es ≠ []

/-- In the newest block with events of a table, the first and the last of them
agree on whether the table is live. -/
def FirstAgreesWithLast (treeId : U16) (blocks : List (List TableInfo)) : Prop :=
  ∀ address es first last, newestMention treeId address blocks = some es →
    (eventsOf treeId address es).head? = some first →
    (eventsOf treeId address es).getLast? = some last → first.live = last.live

/-- The bound `manifest_block_count + 1` of the walk does not overflow. -/
def CountInRange (info : SuperblockInfo) : Prop := info.manifestBlockCount.toNat < 2 ^ 32 - 1

instance (info : SuperblockInfo) : Decidable (CountInRange info) :=
  inferInstanceAs (Decidable (_ < _))

section Events

variable (treeId : U16) (address : U64)

theorem eventsOf_append (es es' : List TableInfo) :
    eventsOf treeId address (es ++ es') =
      eventsOf treeId address es ++ eventsOf treeId address es' := List.filter_append ..

/-- The first event seen by the walk is in the newest block with any. -/
theorem head_eventsOf_flatten (blocks : List (List TableInfo)) :
    (eventsOf treeId address blocks.flatten).head? =
      (newestMention treeId address blocks).bind fun es => (eventsOf treeId address es).head? := by
  induction blocks with
  | nil => rfl
  | cons es older ih =>
      rw [List.flatten_cons, eventsOf_append, List.head?_append, ih]
      by_cases hes : eventsOf treeId address es = []
      · simp [newestMention, hes]
      · obtain ⟨e, rest, hcons⟩ := List.exists_cons_of_ne_nil hes
        simp [newestMention, hcons]

theorem getLast_eventsOf_logOf (blocks : List (List TableInfo)) :
    (eventsOf treeId address (logOf blocks)).getLast? =
      (newestMention treeId address blocks).bind fun es =>
        (eventsOf treeId address es).getLast? := by
  induction blocks with
  | nil => rfl
  | cons es older ih =>
      have hlog : logOf (es :: older) = logOf older ++ es := by simp [logOf]
      rw [hlog, eventsOf_append, List.getLast?_append, ih]
      by_cases hes : eventsOf treeId address es = []
      · simp [newestMention, hes]
      · have hlast := List.getLast?_eq_some_getLast hes
        simp [newestMention, hes, hlast]

theorem exists_first_last {blocks : List (List TableInfo)} {es : List TableInfo}
    (h : newestMention treeId address blocks = some es) :
    ∃ first last, (eventsOf treeId address es).head? = some first ∧
      (eventsOf treeId address es).getLast? = some last := by
  have hes : eventsOf treeId address es ≠ [] := by
    have := List.find?_some h
    rwa [decide_eq_true_eq] at this
  exact ⟨_, _, List.head?_eq_some_head hes, List.getLast?_eq_some_getLast hes⟩

end Events

/-! ## The map of first events -/

theorem foldl_visitTree (treeId : U16) (blocks : List (List TableInfo))
    (seen : HashMap U64 Bool) :
    blocks.foldl (visitTree treeId) seen = visitTree treeId seen blocks.flatten := by
  induction blocks generalizing seen with
  | nil => rfl
  | cons es older ih =>
      rw [List.foldl_cons, ih, List.flatten_cons]
      unfold visitTree HashMap.orInsertAll
      rw [List.filter_append, List.foldl_append]

theorem lookup_visitTree (treeId : U16) (es : List TableInfo) (address : U64) :
    (visitTree treeId ∅ es).lookup address =
      (eventsOf treeId address es).head?.map TableInfo.live := by
  unfold visitTree eventsOf
  rw [HashMap.lookup_orInsertAll, AList.lookup_empty, Option.none_or, ← List.head?_filter,
    List.filter_filter]
  congr 3
  funext e
  rw [Bool.decide_and, Bool.and_comm]

theorem mem_liveAddresses (ord : IterOrder U64 Bool) (seen : HashMap U64 Bool) (address : U64) :
    address ∈ liveAddresses ord seen ↔ seen.lookup address = some true := by
  unfold liveAddresses
  rw [List.mem_filterMap, ← HashMap.mem_entries_iff]
  constructor
  · rintro ⟨⟨a, live⟩, he, hlive⟩
    rw [(HashMap.iter_perm seen ord).mem_iff] at he
    cases live with
    | true => rwa [← Option.some.inj hlive]
    | false => cases hlive
  · intro h
    exact ⟨⟨address, true⟩, (HashMap.iter_perm seen ord).mem_iff.2 h, rfl⟩

theorem nodup_liveAddresses (ord : IterOrder U64 Bool) (seen : HashMap U64 Bool) :
    (liveAddresses ord seen).Nodup := by
  have hsub : (liveAddresses ord seen).Sublist ((HashMap.iter seen ord).map Sigma.fst) := by
    unfold liveAddresses
    induction HashMap.iter seen ord with
    | nil => exact List.Sublist.slnil
    | cons e es ih =>
        obtain ⟨a, live⟩ := e
        cases live with
        | true => exact ih.cons_cons a
        | false => exact ih.cons a
  apply hsub.nodup
  rw [((HashMap.iter_perm seen ord).map Sigma.fst).nodup_iff]
  exact seen.nodupKeys

/-! ## The walk -/

variable {file : DataFile} {config : TBConfig} {info : SuperblockInfo} {address previous : U64}
  {block : List U8} {blocks : List (List TableInfo)}

theorem readBlock_of_blockAt (prof : Profile) (h : file.blockAt config address = some block) :
    readBlock prof config file address = parseBlock address block := by
  obtain ⟨offset, hoffset, hseek, hread⟩ := DataFile.blockOffset_of_blockAt prof h
  rw [readBlock, hoffset, Outcome.ofOption_some, Outcome.ok_bind, hseek, hread]
  rfl

theorem address_ne_zero (h : file.blockAt config address = some block) : address ≠ 0 := by
  unfold DataFile.blockAt at h
  dsimp only at h
  split_ifs at h with hstored
  exact hstored.1

theorem walk_succ (prof : Profile) (hcount : CountInRange info)
    (visit : HashMap U64 Bool → List TableInfo → HashMap U64 Bool) (fuel : ℕ) {visited : U32}
    (seen : HashMap U64 Bool) {es : List TableInfo}
    (hvisited : visited.toNat ≤ info.manifestBlockCount.toNat)
    (hblock : file.blockAt config address = some block)
    (hparse : parseBlock address block = .ok (previous, es)) :
    walk prof config file info.manifestBlockCount visit (fuel + 1) address visited seen =
      walk prof config file info.manifestBlockCount visit fuel previous (visited + 1)
        (visit seen es) := by
  unfold CountInRange at hcount
  have hone : (1 : U32).toNat = 1 := rfl
  have hnext : prof.add visited 1 = some (visited + 1) := prof.add_of_lt (by omega)
  have hbound : prof.add info.manifestBlockCount 1 = some (info.manifestBlockCount + 1) :=
    prof.add_of_lt (by omega)
  have hle : ¬ info.manifestBlockCount + 1 < visited + 1 := by bv_omega
  rw [walk, if_neg (address_ne_zero hblock), hnext, hbound, readBlock_of_blockAt prof hblock,
    hparse]
  simp only [Outcome.ofOption_some, Outcome.ok_bind, if_neg hle]

theorem walk_chain (prof : Profile) (hcount : CountInRange info)
    (visit : HashMap U64 Bool → List TableInfo → HashMap U64 Bool)
    (hchain : Chain file config address blocks) (fuel : ℕ) (visited : U32)
    (seen : HashMap U64 Bool)
    (hlen : visited.toNat + blocks.length ≤ info.manifestBlockCount.toNat + 1) :
    walk prof config file info.manifestBlockCount visit (blocks.length + 1 + fuel) address
      visited seen = .ok (blocks.foldl visit seen) := by
  induction hchain generalizing visited seen with
  | nil =>
      rw [List.length_nil, Nat.zero_add, Nat.add_comm, walk]
      exact if_pos rfl
  | cons hblock hparse hrest ih =>
      rw [List.length_cons] at hlen ⊢
      have hfuel : ∀ n, n + 1 + 1 + fuel = n + 1 + fuel + 1 := by omega
      have hnext : (visited + 1).toNat = visited.toNat + 1 := by
        unfold CountInRange at hcount
        bv_omega
      rw [hfuel, walk_succ prof hcount visit _ seen (by omega) hblock hparse,
        ih (visited + 1) (visit seen _) (by omega)]
      rfl

theorem eq_nil_of_address_zero (h : Chain file config 0 blocks) : blocks = [] := by
  cases h with
  | nil => rfl
  | cons hblock _ _ => exact absurd rfl (address_ne_zero hblock)

theorem allocate_of_chain (h : Chain file config address blocks) (hne : blocks ≠ []) :
    allocate config.blockSize = .ok () := by
  cases h with
  | nil => exact absurd rfl hne
  | cons hblock _ _ => exact if_pos (DataFile.blockSize_lt_of_blockAt hblock)

theorem walkLog_chain (prof : Profile)
    (visit : HashMap U64 Bool → List TableInfo → HashMap U64 Bool)
    (hchain : Chain file config info.manifestNewestAddress blocks)
    (hlen : blocks.length ≤ info.manifestBlockCount.toNat)
    (hcount : blocks = [] ∨ CountInRange info) (fuel : ℕ) :
    walkLog prof config file info visit (blocks.length + 1 + fuel) =
      .ok (blocks.foldl visit ∅) := by
  unfold walkLog
  by_cases hnil : blocks = []
  · subst blocks
    have hzero : info.manifestNewestAddress = 0 := by
      generalize info.manifestNewestAddress = address at hchain
      cases hchain
      rfl
    rw [if_pos (Or.inl hzero)]
    rfl
  · have hpos : 0 < blocks.length := List.length_pos_of_ne_nil hnil
    have hnewest : info.manifestNewestAddress ≠ 0 := by
      intro hzero
      rw [hzero] at hchain
      exact hnil (eq_nil_of_address_zero hchain)
    have hblocks : info.manifestBlockCount ≠ 0 := by
      intro hzero
      rw [hzero] at hlen
      change blocks.length ≤ 0 at hlen
      omega
    rw [if_neg (by tauto), allocate_of_chain hchain hnil, Outcome.ok_bind]
    have hzero : (0 : U32).toNat = 0 := rfl
    exact walk_chain prof (hcount.resolve_left hnil) visit hchain fuel 0 ∅ (by omega)

theorem returns_walkLog (prof : Profile)
    (visit : HashMap U64 Bool → List TableInfo → HashMap U64 Bool)
    (hchain : Chain file config info.manifestNewestAddress blocks)
    (hlen : blocks.length ≤ info.manifestBlockCount.toNat)
    (hcount : blocks = [] ∨ CountInRange info) :
    Outcome.Returns (walkLog prof config file info visit) (.ok (blocks.foldl visit ∅)) := by
  refine ⟨blocks.length + 1, fun fuel hfuel => ?_⟩
  obtain ⟨extra, rfl⟩ := Nat.exists_eq_add_of_le hfuel
  exact walkLog_chain prof visit hchain hlen hcount extra

/-- With the largest block count the first round panics or refuses the chain. -/
theorem walkLog_ne_ok (prof : Profile)
    (visit : HashMap U64 Bool → List TableInfo → HashMap U64 Bool)
    (hchain : Chain file config info.manifestNewestAddress blocks) (hne : blocks ≠ [])
    (hcount : ¬ CountInRange info) (fuel : ℕ) (seen : HashMap U64 Bool) :
    walkLog prof config file info visit fuel ≠ .ok seen := by
  intro hok
  have hmax : info.manifestBlockCount = 4294967295 := by
    unfold CountInRange at hcount
    bv_omega
  have hnewest : info.manifestNewestAddress ≠ 0 := by
    intro hzero
    rw [hzero] at hchain
    exact hne (eq_nil_of_address_zero hchain)
  have hblocks : info.manifestBlockCount ≠ 0 := by
    rw [hmax]
    decide
  unfold walkLog at hok
  rw [if_neg (by tauto), allocate_of_chain hchain hne, Outcome.ok_bind, hmax] at hok
  cases fuel with
  | zero => cases hok
  | succ fuel =>
      rw [walk, if_neg hnewest] at hok
      cases prof with
      | debug => cases hok
      | release => cases hok

/-! ## The live tables -/

def CollectsLive (prof : Profile) (ord : IterOrder U64 Bool) (config : TBConfig)
    (file : DataFile) (info : SuperblockInfo) (treeId : U16)
    (blocks : List (List TableInfo)) : Prop :=
  ∃ addresses,
    Outcome.Returns (collectIndexBlocksForTree prof ord config file info treeId) (.ok addresses) ∧
      ListsLive treeId (logOf blocks) addresses

theorem returns_collectIndexBlocksForTree (prof : Profile) (ord : IterOrder U64 Bool)
    (treeId : U16) (hchain : Chain file config info.manifestNewestAddress blocks)
    (hlen : blocks.length ≤ info.manifestBlockCount.toNat)
    (hcount : blocks = [] ∨ CountInRange info) :
    Outcome.Returns (collectIndexBlocksForTree prof ord config file info treeId)
      (.ok (liveAddresses ord (visitTree treeId ∅ blocks.flatten))) := by
  obtain ⟨n, hn⟩ := returns_walkLog prof (visitTree treeId) hchain hlen hcount
  refine ⟨n, fun fuel hfuel => ?_⟩
  rw [collectIndexBlocksForTree, hn fuel hfuel, foldl_visitTree]
  rfl

/-- The first event of an address decides whether it is collected, the last
whether it is live. -/
theorem listsLive_iff (ord : IterOrder U64 Bool) (treeId : U16)
    (blocks : List (List TableInfo)) :
    ListsLive treeId (logOf blocks) (liveAddresses ord (visitTree treeId ∅ blocks.flatten)) ↔
      FirstAgreesWithLast treeId blocks := by
  have hmem : ∀ address,
      address ∈ liveAddresses ord (visitTree treeId ∅ blocks.flatten) ↔
        ∃ es, newestMention treeId address blocks = some es ∧
          ∃ first, (eventsOf treeId address es).head? = some first ∧ first.live = true := by
    intro address
    rw [mem_liveAddresses, lookup_visitTree, head_eventsOf_flatten]
    simp only [Option.map_eq_some_iff, Option.bind_eq_some_iff]
    tauto
  have hlive : ∀ address, LiveIn treeId (logOf blocks) address ↔
      ∃ es, newestMention treeId address blocks = some es ∧
        ∃ last, (eventsOf treeId address es).getLast? = some last ∧ last.live = true := by
    intro address
    unfold LiveIn
    rw [getLast_eventsOf_logOf]
    simp only [Option.bind_eq_some_iff]
    tauto
  constructor
  · rintro ⟨-, hiff⟩ address es first last hes hfirst hlast
    have hagree := hiff address
    rw [hmem, hlive] at hagree
    simp only [hes, hfirst, hlast, Option.some.injEq, exists_eq_left'] at hagree
    exact Bool.eq_iff_iff.2 hagree
  · intro hagree
    refine ⟨nodup_liveAddresses ord _, fun address => ?_⟩
    rw [hmem, hlive]
    apply exists_congr
    intro es
    apply and_congr_right
    intro hes
    obtain ⟨first, last, hfirst, hlast⟩ := exists_first_last treeId address hes
    have hsame := hagree address es first last hes hfirst hlast
    simp [hfirst, hlast, hsame]

/-- For every well-formed chain no longer than the superblock says, the walk
returns exactly the live tables if and only if the bound of the walk does not
overflow and, for each table, the newest block that mentions it does not change
whether it is live between its first and its last event there. -/
theorem collectsLive_iff (prof : Profile) (ord : IterOrder U64 Bool) (config : TBConfig)
    (file : DataFile) (info : SuperblockInfo) (treeId : U16) (blocks : List (List TableInfo))
    (hchain : Chain file config info.manifestNewestAddress blocks)
    (hlen : blocks.length ≤ info.manifestBlockCount.toNat) :
    CollectsLive prof ord config file info treeId blocks ↔
      (blocks = [] ∨ CountInRange info) ∧ FirstAgreesWithLast treeId blocks := by
  by_cases hcount : blocks = [] ∨ CountInRange info
  · have hreturns := returns_collectIndexBlocksForTree prof ord treeId hchain hlen hcount
    rw [and_iff_right hcount, ← listsLive_iff ord]
    constructor
    · rintro ⟨addresses, hother, hlists⟩
      have heq := hother.unique hreturns
      rw [Outcome.ok.injEq] at heq
      rwa [← heq]
    · intro hlists
      exact ⟨_, hreturns, hlists⟩
  · rw [not_or] at hcount
    have hfalse : ¬ CollectsLive prof ord config file info treeId blocks := by
      rintro ⟨addresses, ⟨fuel, hfuel⟩, -⟩
      obtain ⟨seen, hseen, -⟩ := Outcome.bind_eq_ok_iff.1 (hfuel fuel le_rfl)
      exact walkLog_ne_ok prof _ hchain hcount.1 hcount.2 fuel seen hseen
    tauto

/-! ## A table removed in the block that inserted it -/

def smallBlocks : TBConfig where
  blockSize := 512
  superblockCopySize := 512
  superblockCopies := 1
  gridZoneStart := 0
  journalSlotCount := 0
  messageSizeMax := 0

/-- Zero bytes, but for the given ones. -/
def sparse (n : ℕ) (written : List (ℕ × U8)) : List U8 :=
  written.foldl (fun bytes w => bytes.set w.1 w.2) (List.replicate n 0)

theorem length_sparse (n : ℕ) (written : List (ℕ × U8)) : (sparse n written).length = n := by
  have hset : ∀ bytes : List U8,
      (written.foldl (fun bytes w => bytes.set w.1 w.2) bytes).length = bytes.length := by
    induction written with
    | nil => exact fun _ => rfl
    | cons w written ih => exact fun bytes => (ih _).trans List.length_set
  exact (hset _).trans List.length_replicate

/-- One manifest block with an insert of table 5 of tree 7 and then an event of
the given label. -/
def twoEventsFile (label : U8) : DataFile where
  bytes := sparse 512
    [(97, 2), (114, 20), (168, 2), (224, 1), (240, 3), (352, 5), (380, 7), (382, 0x40),
      (480, 5), (508, 7), (510, label)]
  length_lt := by
    rw [length_sparse]
    omega

def oneBlockInfo : SuperblockInfo where
  sequence := 1
  clusterId := 0
  replicaCount := 1
  replica := some 0
  manifestNewestAddress := 1
  manifestBlockCount := 1
  checkpointOp := 1

def twoEvents (event : ManifestEvent) : List TableInfo := [⟨5, 7, .insert⟩, ⟨5, 7, event⟩]

theorem twoEventsFile_updated :
    Chain (twoEventsFile 0x80) smallBlocks oneBlockInfo.manifestNewestAddress
      [twoEvents .update] :=
  @Chain.cons _ _ _ 0 (twoEventsFile 0x80).bytes _ _ (by decide +kernel) (by decide +kernel)
    Chain.nil

theorem twoEventsFile_removed :
    Chain (twoEventsFile 0xC0) smallBlocks oneBlockInfo.manifestNewestAddress
      [twoEvents .remove] :=
  @Chain.cons _ _ _ 0 (twoEventsFile 0xC0).bytes _ _ (by decide +kernel) (by decide +kernel)
    Chain.nil

theorem collectsLive_iff_updated :
    Chain (twoEventsFile 0x80) smallBlocks oneBlockInfo.manifestNewestAddress
        [twoEvents .update] ∧
      [twoEvents .update].length ≤ oneBlockInfo.manifestBlockCount.toNat ∧
      CollectsLive .debug .stored smallBlocks (twoEventsFile 0x80) oneBlockInfo
        accountObjectsTreeId [twoEvents .update] := by
  refine ⟨twoEventsFile_updated, le_rfl, ?_⟩
  apply (collectsLive_iff .debug .stored smallBlocks (twoEventsFile 0x80) oneBlockInfo
    accountObjectsTreeId [twoEvents .update] twoEventsFile_updated le_rfl).2
  refine ⟨.inr (by decide), fun address es first last hes hfirst hlast => ?_⟩
  have hmem := List.mem_of_find?_eq_some hes
  rw [List.mem_singleton] at hmem
  subst es
  have hall : ∀ e ∈ twoEvents .update, e.live = true := by decide
  rw [hall first (List.mem_of_mem_filter (List.mem_of_head? hfirst)),
    hall last (List.mem_of_mem_filter (List.mem_of_getLast? hlast))]

/-- The walk returns a table that the log has removed. -/
theorem removedTable_not_collectsLive :
    Chain (twoEventsFile 0xC0) smallBlocks oneBlockInfo.manifestNewestAddress
        [twoEvents .remove] ∧
      [twoEvents .remove].length ≤ oneBlockInfo.manifestBlockCount.toNat ∧
      Outcome.Returns (collectAccountIndexBlocks .release .stored smallBlocks
        (twoEventsFile 0xC0) oneBlockInfo) (.ok [5]) ∧
      ¬ LiveIn accountObjectsTreeId (logOf [twoEvents .remove]) 5 ∧
      ¬ CollectsLive .release .stored smallBlocks (twoEventsFile 0xC0) oneBlockInfo
        accountObjectsTreeId [twoEvents .remove] := by
  have hreturns := returns_collectIndexBlocksForTree .release .stored accountObjectsTreeId
    twoEventsFile_removed (le_refl 1) (.inr (by decide))
  have hseen : liveAddresses .stored
      (visitTree accountObjectsTreeId ∅ [twoEvents .remove].flatten) = [5] := by decide +kernel
  rw [hseen] at hreturns
  have hdead : ¬ LiveIn accountObjectsTreeId (logOf [twoEvents .remove]) 5 := by
    rintro ⟨e, he, hlive⟩
    have hlast : (eventsOf accountObjectsTreeId 5 (logOf [twoEvents .remove])).getLast? =
        some ⟨5, 7, .remove⟩ := by decide +kernel
    rw [hlast] at he
    rw [← Option.some.inj he] at hlive
    exact absurd hlive (by decide)
  refine ⟨twoEventsFile_removed, le_rfl, hreturns, hdead, ?_⟩
  rintro ⟨addresses, hother, -, hiff⟩
  have heq := hother.unique hreturns
  rw [Outcome.ok.injEq] at heq
  subst addresses
  exact hdead ((hiff 5).1 List.mem_cons_self)

end TbManager.Manifest
