import TbManager.Collecting
import TbManager.MigrationPreflight
import TbManager.ReaderSurvival
import TbManager.WalSlots

/-!
# Migrations of a data file

`PlanMigration` and `ExecuteMigration` over the bytes of a data file. Each reading opens
the file anew and collects the iterators over its tables and its log. Where these yield
streams of records, both calls return what they return on the streams.
-/

namespace TbManager

open Manifest Outcome

/-! ## The readings of a file -/

section Readings

variable {α : Type} [TBObject α] [WalObject α] (prof : Profile) (config : TBConfig)

/-- Without a checkpoint there are no LSM records. -/
def collectLsm (file : DataFile) (what : String) (opened : Outcome ReaderError ObjectIter)
    (fuel : ℕ) : Outcome String (List α) :=
  collectOpened (ObjectIter.next prof config file)
    (fun e => "read LSM " ++ what ++ ": " ++ e.message)
    (fun e => match e with
      | .notCheckpointed _ => .ok []
      | e => .error ("iter LSM " ++ what ++ ": " ++ e.message)) opened fuel

def collectWal (file : DataFile) (what : String) (opened : Outcome ReaderError WalObjectIter)
    (fuel : ℕ) : Outcome String (List α) :=
  collectOpened (WalObjectIter.next prof config file)
    (fun e => "read WAL " ++ what ++ ": " ++ e.message)
    (fun e => .error ("iter WAL " ++ what ++ ": " ++ e.message)) opened fuel

def readRecords (what : String) (treeId : U16) (tables : IterOrder U64 Bool)
    (opened : Except ReaderError DataFile) (fuel : ℕ) : Outcome String (List α × List α) := do
  let file ← .ofExcept (opened.mapError fun e => "open data file: " ++ e.message)
  let lsm ← collectLsm prof config file what (iterObjects prof config file treeId tables fuel) fuel
  let wal ← collectWal prof config file what (iterWalObjects prof config file) fuel
  .ok (lsm, wal)

end Readings

structure FileOpening where
  file : Except ReaderError DataFile
  tables : IterOrder U64 Bool

structure FileOpenings where
  accounts : FileOpening
  transfers : FileOpening

namespace FileOpenings

variable (prof : Profile) (config : TBConfig) (orders : HashOrders) (openings : FileOpenings)
  (cutoffTs : U64) (fuel : ℕ)

def readAllAccounts : Outcome String (List Account) := do
  let records ← readRecords prof config "accounts" accountObjectsTreeId openings.accounts.tables
    openings.accounts.file fuel
  if records.2.isEmpty then .ok records.1
  else .ok (mergeById Account.id orders.accounts records.1 records.2)

def readAllTransfersSince : Outcome String (List Transfer) := do
  let records ← readRecords prof config "transfers" transferObjectsTreeId
    openings.transfers.tables openings.transfers.file fuel
  .ok (((mergeById Transfer.id orders.transfers records.1 records.2).filter
    fun t => cutoffTs ≤ t.timestamp).insertionSort fun t u => t.timestamp ≤ u.timestamp)

def buildCounted (accounts : List Account) : Outcome String (BalancePlan × U64) :=
  if 0 < cutoffTs then do
    let windowed ← readAllTransfersSince prof config orders openings cutoffTs fuel
    let plan ← .ofOption (BalancePlan.buildWindowed prof orders.ledgers accounts windowed cutoffTs)
    .ok (plan, BitVec.ofNat 64 windowed.length)
  else do
    let plan ← .ofOption (BalancePlan.build prof orders.ledgers accounts)
    .ok (plan, 0)

def planMigration : Outcome String (PlanMigrationResponse × CachedMigrationPlan) := do
  let accounts ← readAllAccounts prof config orders openings fuel
  let ledgers ← .ofOption (ledgerMap prof Account.ledger
    (addPosted prof Account.debitsPosted Account.creditsPosted) accounts)
  let built ← buildCounted prof config orders openings cutoffTs fuel accounts
  .ok (BalancePlan.planResponse accounts ledgers built.1 built.2,
    { accounts := accounts
      syntheticTransfers := built.1.syntheticTransfers
      windowedTransfers := built.1.windowedTransfers })

def executeMigration (accountsOnly : Bool) : Outcome String BalancePlan := do
  let accounts ← readAllAccounts prof config orders openings fuel
  let pendingCount := (accounts.filter BalancePlan.hasPending).length
  if 0 < pendingCount then
    .err (toString pendingCount ++ " account(s) have non-zero pending balances. " ++
      "Void all pending transfers before migration.")
  else do
    let built ← buildCounted prof config orders openings cutoffTs fuel accounts
    .ok (if accountsOnly then BalancePlan.accountsOnlyPlan built.1 else built.1)

end FileOpenings

/-! ## Files and streams -/

theorem mapM_id_eq_collectResults {α : Type} (xs : List (Except ReaderError α)) :
    xs.mapM id = collectResults xs := by
  induction xs with
  | nil => rfl
  | cons x xs ih =>
      rw [List.mapM_cons, ih]
      cases x with
      | error e => rfl
      | ok a =>
          rw [collectResults]
          cases collectResults xs <;> rfl

section Streams

variable {α : Type} [TBObject α] {prof : Profile} {config : TBConfig} {file : DataFile}
  {stream : Except ReaderError (List (Except ReaderError α))}

theorem returns_collectLsm (what : String) {opened : ℕ → Outcome ReaderError ObjectIter}
    (h : OpensAs (ObjectIter.next prof config file) opened stream) :
    Returns (fun fuel => collectLsm prof config file what (opened fuel) fuel)
      (.ofExcept (readLsm what stream)) := by
  have hreturns := h.returns_collectOpened (fun e => "read LSM " ++ what ++ ": " ++ e.message)
    fun e => match e with
      | .notCheckpointed _ => .ok []
      | e => .error ("iter LSM " ++ what ++ ": " ++ e.message)
  cases stream with
  | ok xs =>
      rw [readLsm, ← mapM_id_eq_collectResults]
      exact hreturns
  | error e => cases e <;> exact hreturns

variable [WalObject α]

theorem returns_collectWal (what : String) {opened : ℕ → Outcome ReaderError WalObjectIter}
    (h : OpensAs (WalObjectIter.next prof config file) opened stream) :
    Returns (fun fuel => collectWal prof config file what (opened fuel) fuel)
      (.ofExcept (readWal what stream)) := by
  have hreturns := h.returns_collectOpened (fun e => "read WAL " ++ what ++ ": " ++ e.message)
    fun e => .error ("iter WAL " ++ what ++ ": " ++ e.message)
  cases stream with
  | ok xs =>
      rw [readWal, ← mapM_id_eq_collectResults]
      exact hreturns
  | error e => exact hreturns

inductive YieldsStreams (prof : Profile) (config : TBConfig) (treeId : U16) :
    FileOpening → Except ReaderError (RecordStreams α) → Prop
  | failed {e : ReaderError} {tables : IterOrder U64 Bool} :
      YieldsStreams prof config treeId ⟨.error e, tables⟩ (.error e)
  | opened {file : DataFile} {tables : IterOrder U64 Bool} {streams : RecordStreams α}
      (hlsm : OpensAs (ObjectIter.next prof config file)
        (iterObjects prof config file treeId tables) streams.lsm)
      (hwal : OpensAs (WalObjectIter.next prof config file)
        (fun _ => iterWalObjects prof config file) streams.wal) :
      YieldsStreams prof config treeId ⟨.ok file, tables⟩ (.ok streams)

def RecordStreams.read (what : String) (opened : Except ReaderError (RecordStreams α)) :
    Except String (List α × List α) := do
  let reader ← opened.mapError fun e => "open data file: " ++ e.message
  let lsm ← readLsm what reader.lsm
  let wal ← readWal what reader.wal
  .ok (lsm, wal)

variable {treeId : U16} {opening : FileOpening} {streams : Except ReaderError (RecordStreams α)}

theorem returns_readRecords (what : String) (h : YieldsStreams prof config treeId opening streams) :
    Returns (readRecords prof config what treeId opening.tables opening.file)
      (.ofExcept (RecordStreams.read what streams)) := by
  cases h with
  | failed => exact returns_const _
  | @opened file tables streams hlsm hwal =>
      have hread : ofExcept (RecordStreams.read what (.ok streams)) =
          ofExcept (readLsm what streams.lsm) >>= fun lsm =>
            ofExcept (readWal what streams.wal) >>= fun wal => ok (lsm, wal) := by
        unfold RecordStreams.read
        rw [ofExcept_bind]
        change ofExcept (readLsm what streams.lsm >>= fun lsm =>
          readWal what streams.wal >>= fun wal => Except.ok (lsm, wal)) = _
        simp only [ofExcept_bind]
        rfl
      rw [hread]
      refine (returns_collectLsm what hlsm).bind_ofExcept fun lsm _ => ?_
      refine (returns_collectWal what hwal).bind_ofExcept fun wal _ => ?_
      exact returns_const _

end Streams

theorem readAllAccounts_eq_read (ord : IterOrder U128 Account)
    (file : Except ReaderError (RecordStreams Account)) :
    readAllAccounts ord file = RecordStreams.read "accounts" file >>= fun records =>
      if records.2.isEmpty then .ok records.1
      else .ok (mergeById Account.id ord records.1 records.2) := by
  simp only [readAllAccounts, RecordStreams.read, bind_assoc]
  rfl

theorem readAllTransfersSince_eq_read (ord : IterOrder U128 Transfer)
    (file : Except ReaderError (RecordStreams Transfer)) (cutoffTs : U64) :
    readAllTransfersSince ord file cutoffTs = RecordStreams.read "transfers" file >>= fun records =>
      .ok (((mergeById Transfer.id ord records.1 records.2).filter
        fun t => cutoffTs ≤ t.timestamp).insertionSort fun t u => t.timestamp ≤ u.timestamp) := by
  simp only [readAllTransfersSince, RecordStreams.read, bind_assoc]
  rfl

namespace FileOpenings

variable {prof : Profile} {config : TBConfig} {orders : HashOrders} {openings : FileOpenings}
  {file : FileReads} {cutoffTs : U64}

theorem returns_readAllAccounts
    (h : YieldsStreams prof config accountObjectsTreeId openings.accounts file.accounts) :
    Returns (openings.readAllAccounts prof config orders)
      (.ofExcept (TbManager.readAllAccounts orders.accounts file.accounts)) := by
  rw [readAllAccounts_eq_read, ofExcept_bind]
  refine (returns_readRecords "accounts" h).bind_ofExcept fun records _ => ?_
  split_ifs <;> exact returns_const _

theorem returns_readAllTransfersSince
    (h : YieldsStreams prof config transferObjectsTreeId openings.transfers file.transfers) :
    Returns (openings.readAllTransfersSince prof config orders cutoffTs)
      (.ofExcept (TbManager.readAllTransfersSince orders.transfers file.transfers cutoffTs)) := by
  rw [readAllTransfersSince_eq_read, ofExcept_bind]
  exact (returns_readRecords "transfers" h).bind_ofExcept fun records _ => returns_const _

theorem returns_buildCounted {accounts : List Account}
    (h : 0 < cutoffTs →
      YieldsStreams prof config transferObjectsTreeId openings.transfers file.transfers) :
    Returns (fun fuel => openings.buildCounted prof config orders cutoffTs fuel accounts)
      (ofResult (BalancePlan.buildCounted prof orders file cutoffTs accounts)) := by
  by_cases hcutoff : 0 < cutoffTs
  · have hresult : ofResult (BalancePlan.buildCounted prof orders file cutoffTs accounts) =
        ofExcept (TbManager.readAllTransfersSince orders.transfers file.transfers cutoffTs) >>=
          fun windowed =>
            .ofOption (BalancePlan.buildWindowed prof orders.ledgers accounts windowed cutoffTs) >>=
              fun plan => ok (plan, BitVec.ofNat 64 windowed.length) := by
      rw [BalancePlan.buildCounted, if_pos hcutoff]
      cases TbManager.readAllTransfersSince orders.transfers file.transfers cutoffTs with
      | error e => rfl
      | ok windowed =>
          rw [ofExcept_ok, ok_bind]
          dsimp only
          cases BalancePlan.buildWindowed prof orders.ledgers accounts windowed cutoffTs <;> rfl
    rw [hresult]
    simp only [buildCounted, if_pos hcutoff]
    exact (returns_readAllTransfersSince (h hcutoff)).bind_ofExcept fun windowed _ =>
      returns_const _
  · simp only [buildCounted, BalancePlan.buildCounted, if_neg hcutoff]
    cases BalancePlan.build prof orders.ledgers accounts <;> exact returns_const _

theorem returns_planMigration
    (haccounts : YieldsStreams prof config accountObjectsTreeId openings.accounts file.accounts)
    (htransfers : 0 < cutoffTs →
      YieldsStreams prof config transferObjectsTreeId openings.transfers file.transfers) :
    Returns (openings.planMigration prof config orders cutoffTs)
      (ofResult (BalancePlan.planMigration prof orders file cutoffTs)) := by
  have hresult : ofResult (BalancePlan.planMigration prof orders file cutoffTs) =
      ofExcept (TbManager.readAllAccounts orders.accounts file.accounts) >>= fun accounts =>
        .ofOption (ledgerMap prof Account.ledger
          (addPosted prof Account.debitsPosted Account.creditsPosted) accounts) >>= fun ledgers =>
        ofResult (BalancePlan.buildCounted prof orders file cutoffTs accounts) >>= fun built =>
          ok (BalancePlan.planResponse accounts ledgers built.1 built.2,
            { accounts := accounts
              syntheticTransfers := built.1.syntheticTransfers
              windowedTransfers := built.1.windowedTransfers }) := by
    unfold BalancePlan.planMigration
    cases TbManager.readAllAccounts orders.accounts file.accounts with
    | error e => rfl
    | ok accounts =>
        dsimp only [ofExcept_ok, ok_bind]
        cases ledgerMap prof Account.ledger
          (addPosted prof Account.debitsPosted Account.creditsPosted) accounts with
        | none => rfl
        | some ledgers =>
            rcases BalancePlan.buildCounted prof orders file cutoffTs accounts with _ | (e | built)
              <;> rfl
  rw [hresult]
  refine (returns_readAllAccounts haccounts).bind_ofExcept fun accounts _ => ?_
  cases ledgerMap prof Account.ledger
      (addPosted prof Account.debitsPosted Account.creditsPosted) accounts with
  | none => exact returns_const _
  | some ledgers =>
      simp only [ofOption_some, ok_bind]
      exact (returns_buildCounted htransfers).andThen _

theorem returns_executeMigration {accountsOnly : Bool}
    (haccounts : YieldsStreams prof config accountObjectsTreeId openings.accounts file.accounts)
    (htransfers : 0 < cutoffTs →
      YieldsStreams prof config transferObjectsTreeId openings.transfers file.transfers) :
    Returns (fun fuel => openings.executeMigration prof config orders cutoffTs fuel accountsOnly)
      (ofResult (BalancePlan.executeMigrationPlan prof orders file cutoffTs accountsOnly)) := by
  have hresult :
      ofResult (BalancePlan.executeMigrationPlan prof orders file cutoffTs accountsOnly) =
        ofExcept (TbManager.readAllAccounts orders.accounts file.accounts) >>= fun accounts =>
        let pendingCount := (accounts.filter BalancePlan.hasPending).length
        if 0 < pendingCount then
          .err (toString pendingCount ++ " account(s) have non-zero pending balances. " ++
            "Void all pending transfers before migration.")
        else ofResult (BalancePlan.buildCounted prof orders file cutoffTs accounts) >>=
          fun built => ok (if accountsOnly then BalancePlan.accountsOnlyPlan built.1
            else built.1) := by
    unfold BalancePlan.executeMigrationPlan
    cases TbManager.readAllAccounts orders.accounts file.accounts with
    | error e => rfl
    | ok accounts =>
        dsimp only [ofExcept_ok, ok_bind]
        split_ifs
        · rfl
        · rw [BalancePlan.buildFor_eq_map]
          rcases BalancePlan.buildCounted prof orders file cutoffTs accounts with _ | (e | built)
            <;> rfl
        · rw [BalancePlan.buildFor_eq_map]
          rcases BalancePlan.buildCounted prof orders file cutoffTs accounts with _ | (e | built)
            <;> rfl
  rw [hresult]
  refine (returns_readAllAccounts haccounts).bind_ofExcept fun accounts _ => ?_
  dsimp only
  by_cases hpending : 0 < (accounts.filter BalancePlan.hasPending).length
  · simp only [if_pos hpending]
    exact returns_const _
  · simp only [if_neg hpending]
    exact (returns_buildCounted htransfers).andThen _

end FileOpenings

/-! ## Files whose blocks are addressed -/

theorem exists_streams {α : Type} [TBObject α] [WalObject α] (treeId : U16)
    (opening : FileOpening)
    (h : ∀ file, opening.file = .ok file → ∀ info, electedSuperblock file = some info →
      HasLog info → WalkAddressed .production file info ∧ TreeAddressed file info treeId) :
    ∃ streams : Except ReaderError (RecordStreams α), ∀ prof,
      YieldsStreams prof .production treeId opening streams := by
  obtain ⟨opened, tables⟩ := opening
  cases opened with
  | error e => exact ⟨.error e, fun _ => .failed⟩
  | ok file =>
      obtain ⟨lsm, hlsm⟩ := (iterObjects_opens (α := α) tables (h file rfl)).opensAs
      obtain ⟨wal, hwal⟩ := (iterWalObjects_opens (α := α) file).opensAs
      exact ⟨.ok ⟨lsm, wal⟩, fun prof => .opened (hlsm prof) (hwal prof)⟩

namespace FileOpenings

/-- What both calls return for a file is what they return for these streams of it. -/
structure Refines (openings : FileOpenings) (file : FileReads) : Prop where
  accounts (prof : Profile) :
    YieldsStreams prof .production accountObjectsTreeId openings.accounts file.accounts
  transfers (prof : Profile) :
    YieldsStreams prof .production transferObjectsTreeId openings.transfers file.transfers
  planned (prof : Profile) (orders : HashOrders) (cutoffTs : U64) :
    Returns (openings.planMigration prof .production orders cutoffTs)
      (ofResult (BalancePlan.planMigration prof orders file cutoffTs))
  executed (prof : Profile) (orders : HashOrders) (cutoffTs : U64) (accountsOnly : Bool) :
    Returns (fun fuel =>
        openings.executeMigration prof .production orders cutoffTs fuel accountsOnly)
      (ofResult (BalancePlan.executeMigrationPlan prof orders file cutoffTs accountsOnly))

theorem exists_refines (openings : FileOpenings)
    (haccounts : ∀ file, openings.accounts.file = .ok file → FileAddressed file)
    (htransfers : ∀ file, openings.transfers.file = .ok file → FileAddressed file) :
    ∃ file, openings.Refines file := by
  obtain ⟨accounts, ha⟩ := exists_streams (α := Account) accountObjectsTreeId openings.accounts
    fun file hfile info helected hlog =>
      ⟨(haccounts file hfile info helected hlog).1, (haccounts file hfile info helected hlog).2.1⟩
  obtain ⟨transfers, ht⟩ := exists_streams (α := Transfer) transferObjectsTreeId openings.transfers
    fun file hfile info helected hlog =>
      ⟨(htransfers file hfile info helected hlog).1,
        (htransfers file hfile info helected hlog).2.2⟩
  exact ⟨⟨accounts, transfers⟩, ha, ht,
    fun prof _ _ => returns_planMigration (ha prof) fun _ => ht prof,
    fun prof _ _ _ => returns_executeMigration (ha prof) fun _ => ht prof⟩

def ofFile (file : DataFile) (accountTables transferTables : IterOrder U64 Bool) :
    FileOpenings where
  accounts := ⟨.ok file, accountTables⟩
  transfers := ⟨.ok file, transferTables⟩

end FileOpenings

section Panic

variable {α : Type} [TBObject α] [WalObject α] {file : DataFile} {treeId : U16}

theorem YieldsStreams.returns_drain {tables : IterOrder U64 Bool}
    {streams : Except ReaderError (RecordStreams α)}
    (h : YieldsStreams .debug .production treeId ⟨.ok file, tables⟩ streams) :
    ∃ r : Except ReaderError (List (Except ReaderError α)), Returns (fun fuel =>
      iterObjects .debug .production file treeId tables fuel >>=
        drain (ObjectIter.next .debug .production file) fuel) (.ofExcept r) := by
  cases h with
  | opened hlsm hwal => exact ⟨_, hlsm.returns_drain⟩

/-- A file that yields streams of a tree in every order has its walk and that tree addressed. -/
theorem addressed_of_streams
    (h : ∀ tables, ∃ streams : Except ReaderError (RecordStreams α),
      YieldsStreams .debug .production treeId ⟨.ok file, tables⟩ streams)
    {info : SuperblockInfo} (helected : electedSuperblock file = some info) (hlog : HasLog info) :
    WalkAddressed .production file info ∧ TreeAddressed file info treeId := by
  have hreturns : ∀ tables, ¬ Returns (fun fuel =>
      iterObjects .debug .production file treeId tables fuel >>=
        drain (ObjectIter.next (α := α) .debug .production file) fuel) .panic := by
    intro tables hpanic
    obtain ⟨streams, hstreams⟩ := h tables
    obtain ⟨r, hr⟩ := hstreams.returns_drain
    have heq := hpanic.unique hr
    cases r <;> cases heq
  have hwalk : WalkAddressed .production file info := by
    by_contra hwalk
    have hread := readSuperblock_of_elected helected .debug
    have hiter := @iterObjects_eq file info treeId .debug .stored hread hlog.2
    refine hreturns .stored (Returns.bind_panic ?_)
    rw [hiter]
    exact (walkLog_panic blockSize_production hlog hwalk (visitTree treeId)).bind_panic.bind_panic
  refine ⟨hwalk, ?_⟩
  by_contra htree
  obtain ⟨tables, hpanic⟩ := drain_panic (α := α) helected hlog hwalk htree
  exact hreturns tables hpanic

end Panic

/-- `PlanMigration` and `ExecuteMigration` return for a file, in whatever order its live tables are
visited, what they return on streams of records, the same in every build, exactly when the blocks
of the file are addressed. -/
theorem migrationCalls_refine_iff (file : DataFile) :
    (∀ accountTables transferTables, ∃ reads,
      (FileOpenings.ofFile file accountTables transferTables).Refines reads) ↔
        FileAddressed file := by
  constructor
  · intro hrefines info helected hlog
    have haccounts := addressed_of_streams (α := Account) (fun tables =>
      let ⟨_, hreads⟩ := hrefines tables tables
      ⟨_, hreads.accounts .debug⟩) helected hlog
    have htransfers := addressed_of_streams (α := Transfer) (fun tables =>
      let ⟨_, hreads⟩ := hrefines tables tables
      ⟨_, hreads.transfers .debug⟩) helected hlog
    exact ⟨haccounts.1, haccounts.2, htransfers.2⟩
  · intro haddressed accountTables transferTables
    have hfile : ∀ file', (Except.ok file : Except ReaderError DataFile) = .ok file' →
        FileAddressed file' := by
      rintro _ ⟨⟩
      exact haddressed
    exact FileOpenings.exists_refines _ hfile hfile

end TbManager
