import TbManager.FileRecords
import TbManager.PendingWindow
import TbManager.RecordBytes
import TbManager.TwoStepMigration

/-!
# From the bytes of a data file to the target

A data file whose tables hold the accounts and the transfers of a cluster, and whose log has
nothing newer, is migrated: from the bytes of the file, through the plan and any run of the
import, to the balances on the target.
-/

namespace TbManager

open Manifest Outcome HashMap

section Stored

variable {α : Type} [TBObject α] {prof : Profile} {config : TBConfig} {file : DataFile}
  {treeId : U16} {stored : List (List α)} {records : List α}

theorem opensAs_of_tableHolds {sb : SuperblockInfo} {seen : HashMap U64 Bool}
    {tables : IterOrder U64 Bool} {arr : List (List α)} (hsize : config.blockSize.toNat < 2 ^ 63)
    (hsb : readSuperblock prof config file = .ok sb) (hcount : sb.manifestBlockCount ≠ 0)
    (hwalk : Returns (walkLog prof config file sb (visitTree treeId)) (.ok seen))
    (harr : List.Forall₂ (ObjectIter.TableHolds prof config file) (liveAddresses tables seen) arr) :
    OpensAs (ObjectIter.next prof config file) (iterObjects prof config file treeId tables)
      (.ok (arr.flatten.map .ok)) := by
  obtain ⟨it, hnew, hrest⟩ := ObjectIter.rest_of_new hsize harr
  obtain ⟨n, hn⟩ := hwalk
  have hopened : Returns (iterObjects prof config file treeId tables) (.ok it) := by
    refine ⟨n, fun fuel hfuel => ?_⟩
    rw [iterObjects, hsb, Outcome.ok_bind, if_neg hcount, collectIndexBlocksForTree,
      hn fuel hfuel, Outcome.ok_bind, Outcome.ok_bind, hnew]
  exact .opened hopened (ObjectIter.yields_of_rest hrest)

theorem StoresTables.opensAs (h : StoresTables prof config file treeId stored)
    (tables : IterOrder U64 Bool) :
    ∃ stream, OpensAs (ObjectIter.next prof config file)
        (iterObjects prof config file treeId tables) stream ∧
      ∃ lsm : List α, lsm.Perm stored.flatten ∧ ∀ what, readLsm what stream = .ok lsm := by
  cases h with
  | @unchecked sb hsize hsb hcount =>
      by_cases hsequence : 0 < sb.sequence
      · refine ⟨.error (.notCheckpointed sb.sequence), .failed ⟨0, fun fuel _ => ?_⟩, [],
          List.Perm.refl _, fun _ => rfl⟩
        rw [iterObjects, hsb, Outcome.ok_bind, if_pos hcount, if_pos hsequence]
      · obtain ⟨it, hnew, hrest⟩ :=
          @ObjectIter.rest_of_new α _ prof config file hsize [] [] List.Forall₂.nil
        refine ⟨.ok [], .opened ⟨0, fun fuel _ => ?_⟩ (ObjectIter.yields_of_rest hrest), [],
          List.Perm.refl _, fun _ => rfl⟩
        rw [iterObjects, hsb, Outcome.ok_bind, if_pos hcount, if_neg hsequence, hnew]
  | @checkpointed sb seen _ hsize hsb hcount hwalk htables =>
      have hperm : (liveAddresses tables seen).Perm (liveAddresses .stored seen) :=
        (HashMap.iter_perm seen tables).filterMap _
      obtain ⟨arr, harr, harrperm⟩ := List.perm_comp_forall₂ hperm htables
      exact ⟨_, opensAs_of_tableHolds hsize hsb hcount hwalk harr, arr.flatten, harrperm.flatten,
        fun what => readLsm_ok what arr.flatten⟩

variable [WalObject α]

/-- The records of a type that the log holds of operations after the checkpoint. -/
inductive StoresLog (prof : Profile) (config : TBConfig) (file : DataFile) (records : List α) : Prop
  | intro {sb : SuperblockInfo} (hsb : readSuperblock prof config file = .ok sb)
      (haddressed : WalObjectIter.JournalAddressed config file (WalObject.walOperation α)
        sb.checkpointOp)
      (hlogged : WalObjectIter.journalReading α config file sb.checkpointOp = .ofItems records) :
      StoresLog prof config file records

theorem StoresLog.opensAs (h : StoresLog prof config file records) :
    OpensAs (WalObjectIter.next prof config file) (fun _ => iterWalObjects prof config file)
      (.ok (records.map .ok)) := by
  obtain ⟨hsb, haddressed, hlogged⟩ := h
  obtain ⟨xs, hproduces, hxs⟩ := WalObjectIter.refinesJournal_of_addressed α prof haddressed
  rw [hlogged, Reading.results, Reading.ofItems, List.append_nil] at hxs
  rw [← eq_map_ok_of_mapError hxs]
  refine .opened ?_ hproduces.yields
  rw [iterWalObjects, hsb]
  exact returns_const _

theorem exists_storedStreams {logged : List α} (h : StoresTables prof config file treeId stored)
    (hlog : StoresLog prof config file logged) (tables : IterOrder U64 Bool) :
    ∃ streams : Except ReaderError (RecordStreams α),
      YieldsStreams prof config treeId ⟨.ok file, tables⟩ streams ∧
      ∃ lsm : List α, lsm.Perm stored.flatten ∧
        ∀ what, RecordStreams.read what streams = .ok (lsm, logged) := by
  obtain ⟨stream, hstream, lsm, hperm, hlsm⟩ := h.opensAs tables
  refine ⟨.ok ⟨stream, .ok (logged.map .ok)⟩, .opened hstream hlog.opensAs, lsm, hperm,
    fun what => ?_⟩
  change (readLsm what stream >>= fun lsm => readWal what (.ok (logged.map .ok)) >>= fun wal =>
    Except.ok (lsm, wal)) = _
  rw [hlsm what, readWal_ok]
  rfl

end Stored

/-! ## A checkpoint of a cluster -/

/-- The tables hold the accounts and the transfers of a cluster, the log nothing newer. -/
structure HoldsCluster (prof : Profile) (config : TBConfig) (file : DataFile) (s : Cluster) :
    Prop where
  accounts : ∃ stored, StoresTables prof config file accountObjectsTreeId stored ∧
    stored.flatten.Perm s.accounts
  transfers : ∃ stored, StoresTables prof config file transferObjectsTreeId stored ∧
    stored.flatten.Perm s.transfers
  noAccounts : StoresLog (α := Account) prof config file []
  noTransfers : StoresLog (α := Transfer) prof config file []

section Read

variable {prof : Profile} {config : TBConfig} {file : DataFile} {s : Cluster}

theorem HoldsCluster.exists_reads (h : HoldsCluster prof config file s)
    (hids : (s.transfers.map Transfer.id).Nodup) (accountTables transferTables : IterOrder U64 Bool)
    (orders : HashOrders) (cutoffTs : U64) :
    ∃ reads : FileReads,
      YieldsStreams prof config accountObjectsTreeId ⟨.ok file, accountTables⟩ reads.accounts ∧
      YieldsStreams prof config transferObjectsTreeId ⟨.ok file, transferTables⟩ reads.transfers ∧
      (∃ accounts, readAllAccounts orders.accounts reads.accounts = .ok accounts ∧
        accounts.Perm s.accounts) ∧
      ∃ window, readAllTransfersSince orders.transfers reads.transfers cutoffTs = .ok window ∧
        window.Perm (s.transfersFrom cutoffTs) := by
  obtain ⟨storedAccounts, hstoredAccounts, hpermAccounts⟩ := h.accounts
  obtain ⟨storedTransfers, hstoredTransfers, hpermTransfers⟩ := h.transfers
  obtain ⟨accountStreams, haccounts, lsmAccounts, hlsmAccounts, hreadAccounts⟩ :=
    exists_storedStreams hstoredAccounts h.noAccounts accountTables
  obtain ⟨transferStreams, htransfers, lsmTransfers, hlsmTransfers, hreadTransfers⟩ :=
    exists_storedStreams hstoredTransfers h.noTransfers transferTables
  have hperm := hlsmTransfers.trans hpermTransfers
  refine ⟨⟨accountStreams, transferStreams⟩, haccounts, htransfers, ⟨lsmAccounts, ?_,
    hlsmAccounts.trans hpermAccounts⟩, BalancePlan.sortByTimestamp ((mergeById Transfer.id
      orders.transfers lsmTransfers []).filter fun t => cutoffTs ≤ t.timestamp), ?_, ?_⟩
  · rw [readAllAccounts_eq_read, hreadAccounts]
    rfl
  · rw [readAllTransfersSince_eq_read, hreadTransfers]
    rfl
  · have hdistinct : (lsmTransfers.map Transfer.id).Nodup :=
      (hperm.map Transfer.id).nodup_iff.2 hids
    have hmerged : (mergeById Transfer.id orders.transfers lsmTransfers []).Perm lsmTransfers := by
      rw [mergeById_eq, List.append_nil]
      apply (List.perm_ext_iff_of_nodup (nodup_values_indexBy Transfer.id _ _).of_map
        hdistinct.of_map).2
      intro t
      rw [mem_values_indexBy]
      exact ⟨fun ht => (mem_of_latest ht).1, latest_of_nodup hdistinct⟩
    exact (BalancePlan.sortByTimestamp_stablySorted _).perm.trans ((hmerged.trans hperm).filter _)

end Read

theorem Within.perm {accounts accounts' : List Account} {book : Book U128 ℕ}
    (h : Within accounts book) (hperm : accounts.Perm accounts') : Within accounts' book where
  known i hi := by
    rcases h.known i hi with ⟨l, hl, hgenesis⟩ | hmem
    · exact .inl ⟨l, (hperm.map Account.ledger).mem_iff.1 hl, hgenesis⟩
    · exact .inr ((hperm.map Account.id).mem_iff.1 hmem)
  bounded a ha := h.bounded a (hperm.mem_iff.2 ha)

theorem AvoidGenesisIds.perm {accounts accounts' : List Account} (h : AvoidGenesisIds accounts)
    (hperm : accounts'.Perm accounts) : AvoidGenesisIds accounts' :=
  fun a ha b hb => h a (hperm.mem_iff.1 ha) b (hperm.mem_iff.1 hb)

namespace Delivery

/-- From the bytes of a file to the target: throughout the migration of a file that holds a cluster
the target stays within the balances of the cluster, and a success that a living task stands for
leaves these balances on it. -/
theorem file_delivered {events : List Event} {s : Cluster}
    (hsource : Cluster.empty.run events = some s) (hgen : AvoidGenesisIds s.accounts)
    {cutoffTs : U64} (hsingle : 0 < cutoffTs → ∀ t ∈ s.transfers, t.SinglePhase)
    {prof : Profile} {config : TBConfig} {file : DataFile}
    (hfile : HoldsCluster prof config file s) {accountTables transferTables : IterOrder U64 Bool}
    {orders : HashOrders} {plan : BalancePlan}
    (hplan : Returns (fun fuel => (FileOpenings.ofFile file accountTables
      transferTables).executeMigration prof config orders cutoffTs fuel false) (.ok plan))
    {xs : List (MigrationAction × List Event)} {d : Delivery}
    (hrun : runFrom step (start [] plan) xs = some d) :
    ∃ book, d.target = some book ∧ Within s.accounts book ∧
      (d.migration.Succeeded → d.migration.task ≠ .died →
        ∀ a ∈ s.accounts, book a.id = some a.postedTotals) := by
  have hi := Cluster.inv_run Cluster.inv_empty hsource
  have hids := (Cluster.paired_run Cluster.paired_empty hsource).ids
  obtain ⟨reads, haccounts, htransfers, ⟨accounts, hread, hperm⟩, window, hwindow, hwperm⟩ :=
    hfile.exists_reads hids accountTables transferTables orders cutoffTs
  have hreturns := @FileOpenings.returns_executeMigration prof config orders
    (FileOpenings.ofFile file accountTables transferTables) reads cutoffTs false haccounts
    fun _ => htransfers
  have hexecuted := ofResult_eq_ok (hplan.unique hreturns).symm
  have hbuild := SharedTarget.buildFor_of_executeMigrationPlan hexecuted hread
  have hgen' := hgen.perm hperm
  by_cases hcutoff : 0 < cutoffTs
  · rw [BalancePlan.buildFor, if_pos hcutoff, hwindow] at hbuild
    obtain ⟨_, hwindowed, ⟨⟩⟩ := Option.map_eq_some_iff.1 hbuild
    obtain ⟨book, hbook, hwithin, hrestored⟩ :=
      windowed_delivered hsource (hsingle hcutoff) hperm hgen' hwperm hwindowed hrun
    exact ⟨book, hbook, hwithin.perm hperm, fun hsuccess halive a ha =>
      (hrestored hsuccess halive).account a (hperm.mem_iff.2 ha)⟩
  · rw [BalancePlan.buildFor, if_neg hcutoff] at hbuild
    obtain ⟨_, hsnapshot, ⟨⟩⟩ := Option.map_eq_some_iff.1 hbuild
    have hfresh : FreshIds accounts := ⟨(hperm.map Account.id).nodup_iff.2 hi.ids, hgen'⟩
    obtain ⟨book, hbook, hwithin, hrebuilt⟩ := snapshot_delivered hsnapshot hfresh hrun
    exact ⟨book, hbook, hwithin.perm hperm, fun hsuccess halive a ha =>
      (hrebuilt hsuccess halive).account a (hperm.mem_iff.2 ha)⟩

end Delivery

/-! ## The file of a history that goes on after its cutoff -/

theorem length_flatten_of_forall {α : Type} {parts : List (List α)} {n : ℕ}
    (h : ∀ part ∈ parts, part.length = n) : parts.flatten.length = parts.length * n := by
  rw [List.length_flatten, List.map_congr_left h, List.map_const', List.sum_replicate, smul_eq_mul]

/-- In a file of blocks each block is at its address. -/
theorem DataFile.blockAt_of_blocks {file : DataFile} {config : TBConfig} {front : List U8}
    {blocks : List (List U8)} (hbytes : file.bytes = front ++ blocks.flatten)
    (hfront : front.length = config.gridZoneStart.toNat)
    (hblocks : ∀ block ∈ blocks, block.length = config.blockSize.toNat) {i : ℕ} {block : List U8}
    (hi : blocks[i]? = some block) {address : U64} (haddress : address.toNat = i + 1) :
    file.blockAt config address = some block := by
  obtain ⟨hlt, hblock⟩ := List.getElem?_eq_some_iff.1 hi
  have hsplit : blocks = blocks.take i ++ block :: blocks.drop (i + 1) := by
    rw [← hblock, List.getElem_cons_drop, List.take_append_drop]
  have hlength : (blocks.take i).flatten.length = i * config.blockSize.toNat := by
    rw [length_flatten_of_forall fun b hb => hblocks b (List.mem_of_mem_take hb), List.length_take,
      Nat.min_eq_left hlt.le]
  have hsize := hblocks block (hblock ▸ List.getElem_mem hlt)
  have hne : address ≠ 0 := by
    rintro rfl
    cases haddress
  have hbefore : (front ++ (blocks.take i).flatten).length =
      config.gridZoneStart.toNat + i * config.blockSize.toNat := by
    rw [List.length_append, hfront, hlength]
  have hstored : file.bytes = (front ++ (blocks.take i).flatten) ++
      (block ++ (blocks.drop (i + 1)).flatten) := by
    rw [hbytes, List.append_assoc, ← List.flatten_cons (l := block), ← List.flatten_append,
      ← hsplit]
  have hend : config.gridZoneStart.toNat + i * config.blockSize.toNat + config.blockSize.toNat ≤
      file.bytes.length := by
    rw [hstored, List.length_append, hbefore, List.length_append]
    omega
  unfold blockAt
  dsimp only
  rw [haddress, Nat.add_sub_cancel, if_pos ⟨hne, hend⟩, ← hbefore, hstored, List.drop_left, ← hsize,
    List.take_left]

def midwayGrid : TBConfig := { smallGrid with blockSize := 1024 }

/-- The accounts are in the table at block 2, the transfers in that at block 3. -/
def midwayManifest : List U8 :=
  sparse 1024 [(97, 2), (114, 20), (168, 2), (224, 1), (240, 3), (352, 2), (380, 7), (382, 0x40),
    (480, 3), (508, 18), (510, 0x40)]

def midwayIndex (address value : U8) : List U8 :=
  sparse 1024 [(97, 2), (114, 20), (128, 1), (132, 1), (136, 8), (224, address), (240, 4),
    (304, value)]

def midwayAccountBlock : List U8 :=
  sparse 256 [(96, 128), (97, 2), (114, 20), (224, 4), (240, 5)] ++
    (BalancePlan.midwayCluster.accounts.flatMap fun a => a.toSlot.1) ++ List.replicate 384 0

def midwayTransferBlock : List U8 :=
  sparse 256 [(97, 2), (114, 20), (224, 5), (240, 5)] ++
    (BalancePlan.midwayCluster.transfers.flatMap fun t => t.toSlot.1) ++ List.replicate 512 0

def midwayBlocks : List (List U8) :=
  [midwayManifest, midwayIndex 2 4, midwayIndex 3 5, midwayAccountBlock, midwayTransferBlock]

theorem length_midwayBlocks : ∀ block ∈ midwayBlocks, block.length = 1024 := by
  have haccounts : (BalancePlan.midwayCluster.accounts.flatMap fun a => a.toSlot.1).length =
      3 * recordSize :=
    length_flatten_of_forall (List.forall_mem_map.2 fun a _ => a.toSlot.2)
  have htransfers : (BalancePlan.midwayCluster.transfers.flatMap fun t => t.toSlot.1).length =
      2 * recordSize :=
    length_flatten_of_forall (List.forall_mem_map.2 fun t _ => t.toSlot.2)
  have haccountBlock : midwayAccountBlock.length = 1024 := by
    rw [midwayAccountBlock, List.length_append, List.length_append, length_sparse, haccounts,
      List.length_replicate]
    rfl
  have htransferBlock : midwayTransferBlock.length = 1024 := by
    rw [midwayTransferBlock, List.length_append, List.length_append, length_sparse, htransfers,
      List.length_replicate]
    rfl
  simp only [midwayBlocks, List.forall_mem_cons]
  exact ⟨length_sparse _ _, length_sparse _ _, length_sparse _ _, haccountBlock, htransferBlock,
    List.forall_mem_nil _⟩

def midwayDataFile : DataFile where
  bytes := sparse 1536 [(40, 1), (656, 1), (704, 1)] ++ midwayBlocks.flatten
  length_lt := by
    rw [List.length_append, length_sparse, length_flatten_of_forall length_midwayBlocks]
    decide

theorem midwayDataFile_blockAt {i : ℕ} {block : List U8} (hi : midwayBlocks[i]? = some block)
    {address : U64} (haddress : address.toNat = i + 1) :
    midwayDataFile.blockAt midwayGrid address = some block :=
  DataFile.blockAt_of_blocks rfl (length_sparse _ _) length_midwayBlocks hi haddress

theorem midwayDataFile_superblock :
    readSuperblock .release midwayGrid midwayDataFile = .ok twoTablesInfo := by
  decide +kernel

theorem midwayDataFile_chain :
    Chain midwayDataFile midwayGrid twoTablesInfo.manifestNewestAddress
      [[⟨2, 7, .insert⟩, ⟨3, 18, .insert⟩]] :=
  @Chain.cons _ _ _ 0 midwayManifest _ _ (midwayDataFile_blockAt (i := 0) rfl rfl)
    (by decide +kernel) Chain.nil

theorem midwayDataFile_walk (treeId : U16) :
    Returns (walkLog .release midwayGrid midwayDataFile twoTablesInfo (visitTree treeId))
      (.ok (visitTree treeId ∅ [⟨2, 7, .insert⟩, ⟨3, 18, .insert⟩])) :=
  returns_walkLog .release (visitTree treeId) midwayDataFile_chain (le_refl 1) (.inr (by decide))

theorem midwayDataFile_accounts : List.Forall₂
    (ObjectIter.TableHolds .release midwayGrid midwayDataFile)
    (liveAddresses .stored (visitTree accountObjectsTreeId ∅
      [⟨2, 7, .insert⟩, ⟨3, 18, .insert⟩])) [BalancePlan.midwayCluster.accounts] := by
  have hlive : liveAddresses .stored
      (visitTree accountObjectsTreeId ∅ [⟨2, 7, .insert⟩, ⟨3, 18, .insert⟩]) = [2] := by
    decide +kernel
  have hvalue : ObjectIter.ValueHolds midwayGrid midwayDataFile 4
      BalancePlan.midwayCluster.accounts :=
    ⟨midwayAccountBlock, 3, midwayDataFile_blockAt (i := 3) rfl rfl, by decide +kernel⟩
  rw [hlive]
  exact .cons ⟨midwayIndex 2 4, [4], _, midwayDataFile_blockAt (i := 1) rfl rfl, by decide +kernel,
    .cons hvalue .nil, rfl⟩ .nil

theorem midwayDataFile_transfers : List.Forall₂
    (ObjectIter.TableHolds .release midwayGrid midwayDataFile)
    (liveAddresses .stored (visitTree transferObjectsTreeId ∅
      [⟨2, 7, .insert⟩, ⟨3, 18, .insert⟩])) [BalancePlan.midwayCluster.transfers] := by
  have hlive : liveAddresses .stored
      (visitTree transferObjectsTreeId ∅ [⟨2, 7, .insert⟩, ⟨3, 18, .insert⟩]) = [3] := by
    decide +kernel
  have hvalue : ObjectIter.ValueHolds midwayGrid midwayDataFile 5
      BalancePlan.midwayCluster.transfers :=
    ⟨midwayTransferBlock, 2, midwayDataFile_blockAt (i := 4) rfl rfl, by decide +kernel⟩
  rw [hlive]
  exact .cons ⟨midwayIndex 3 5, [5], _, midwayDataFile_blockAt (i := 2) rfl rfl, by decide +kernel,
    .cons hvalue .nil, rfl⟩ .nil

theorem midwayDataFile_log (α : Type) [TBObject α] [WalObject α] :
    StoresLog (α := α) .release midwayGrid midwayDataFile [] :=
  .intro midwayDataFile_superblock ⟨by decide, fun slot hslot => absurd hslot (Nat.not_lt_zero _)⟩
    rfl

theorem midwayDataFile_holds :
    HoldsCluster .release midwayGrid midwayDataFile BalancePlan.midwayCluster where
  accounts := ⟨_, .checkpointed (by decide) midwayDataFile_superblock (by decide)
    (midwayDataFile_walk _) midwayDataFile_accounts, List.Perm.of_eq (List.append_nil _)⟩
  transfers := ⟨_, .checkpointed (by decide) midwayDataFile_superblock (by decide)
    (midwayDataFile_walk _) midwayDataFile_transfers, List.Perm.of_eq (List.append_nil _)⟩
  noAccounts := midwayDataFile_log Account
  noTransfers := midwayDataFile_log Transfer

namespace Delivery

theorem midwayDataFile_streams :
    YieldsStreams .release midwayGrid accountObjectsTreeId ⟨.ok midwayDataFile, .stored⟩
        midwayFile.accounts ∧
      YieldsStreams .release midwayGrid transferObjectsTreeId ⟨.ok midwayDataFile, .stored⟩
        midwayFile.transfers :=
  ⟨.opened (opensAs_of_tableHolds (by decide) midwayDataFile_superblock (by decide)
      (midwayDataFile_walk _) midwayDataFile_accounts) (midwayDataFile_log Account).opensAs,
    .opened (opensAs_of_tableHolds (by decide) midwayDataFile_superblock (by decide)
      (midwayDataFile_walk _) midwayDataFile_transfers) (midwayDataFile_log Transfer).opensAs⟩

theorem file_delivered_midway :
    Cluster.empty.run BalancePlan.midwayHistory = some BalancePlan.midwayCluster ∧
    HoldsCluster .release midwayGrid midwayDataFile BalancePlan.midwayCluster ∧
    Returns (fun fuel => (FileOpenings.ofFile midwayDataFile .stored .stored).executeMigration
      .release midwayGrid ⟨.stored, .stored, .stored⟩ 4 fuel false) (.ok midwayPlan) ∧
    runFrom step (start [] midwayPlan) (acceptedAll midwayPlan) = some midwayDelivered ∧
    ∃ book, midwayDelivered.target = some book ∧
      ∀ a ∈ BalancePlan.midwayCluster.accounts, book a.id = some a.postedTotals := by
  have hsource : Cluster.empty.run BalancePlan.midwayHistory = some BalancePlan.midwayCluster := by
    decide +kernel
  have hgen : AvoidGenesisIds BalancePlan.midwayCluster.accounts := by decide +kernel
  have hexecuted : BalancePlan.executeMigrationPlan .release ⟨.stored, .stored, .stored⟩ midwayFile
      4 false = some (.ok midwayPlan) := by decide +kernel
  have hplan : Returns (fun fuel =>
      (FileOpenings.ofFile midwayDataFile .stored .stored).executeMigration .release midwayGrid
        ⟨.stored, .stored, .stored⟩ 4 fuel false) (.ok midwayPlan) := by
    have hreturns := @FileOpenings.returns_executeMigration .release midwayGrid
      ⟨.stored, .stored, .stored⟩ (.ofFile midwayDataFile .stored .stored) midwayFile 4 false
      midwayDataFile_streams.1 fun _ => midwayDataFile_streams.2
    rwa [hexecuted] at hreturns
  have hrun : runFrom step (start [] midwayPlan) (acceptedAll midwayPlan) =
      some midwayDelivered := by decide +kernel
  obtain ⟨book, hbook, -, hbalances⟩ := file_delivered hsource hgen (fun _ => by decide)
    midwayDataFile_holds hplan hrun
  have hsuccess : midwayDelivered.migration.Succeeded := by decide +kernel
  have halive : midwayDelivered.migration.task ≠ .died := by decide +kernel
  exact ⟨hsource, midwayDataFile_holds, hplan, hrun, book, hbook, hbalances hsuccess halive⟩

end Delivery

end TbManager
