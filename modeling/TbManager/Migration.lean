import TbManager.ReadAll
import TbManager.SnapshotReplay
import TbManager.SourceHistory

/-!
# The plan of a migration

`ExecuteMigration` reads the accounts of the data file, refuses pending balances
and builds the plan. The transfers of the write-ahead log are only read for a
window; the balances of a snapshot are those of the checkpoint.
-/

namespace TbManager

attribute [local irreducible] genesisCreditId genesisDebitId

open HashMap BalancePlan Cluster

structure HashOrders where
  accounts : IterOrder U128 Account
  transfers : IterOrder U128 Transfer
  ledgers : IterOrder U32 (List Account)

structure FileReads where
  accounts : Except ReaderError (RecordStreams Account)
  transfers : Except ReaderError (RecordStreams Transfer)

namespace BalancePlan

def hasPending (a : Account) : Bool := 0 < a.debitsPending || 0 < a.creditsPending

def resetBalances (a : Account) : Account :=
  { a with debitsPosted := 0, creditsPosted := 0, debitsPending := 0, creditsPending := 0 }

/-- `accounts_only`: no genesis accounts, no transfers, no balances. -/
def accountsOnlyPlan (plan : BalancePlan) : BalancePlan where
  genesisAccounts := []
  regularAccounts := plan.regularAccounts.map resetBalances
  syntheticTransfers := []
  windowedTransfers := []

def buildFor (prof : Profile) (orders : HashOrders) (file : FileReads) (cutoffTs : U64)
    (accounts : List Account) : Option (Except String BalancePlan) :=
  if 0 < cutoffTs then
    match readAllTransfersSince orders.transfers file.transfers cutoffTs with
    | .error e => some (.error e)
    | .ok windowed => (buildWindowed prof orders.ledgers accounts windowed cutoffTs).map .ok
  else (build prof orders.ledgers accounts).map .ok

/-- The plan of `execute_migration`, or the reason of its refusal. -/
def executeMigrationPlan (prof : Profile) (orders : HashOrders) (file : FileReads)
    (cutoffTs : U64) (accountsOnly : Bool) : Option (Except String BalancePlan) :=
  match readAllAccounts orders.accounts file.accounts with
  | .error e => some (.error e)
  | .ok accounts =>
    let pendingCount := (accounts.filter hasPending).length
    if 0 < pendingCount then
      some (.error (toString pendingCount ++ " account(s) have non-zero pending balances. " ++
        "Void all pending transfers before migration."))
    else
      (buildFor prof orders file cutoffTs accounts).map fun result =>
        result.map fun plan => if accountsOnly then accountsOnlyPlan plan else plan

end BalancePlan

/-! ## A file with operations after its checkpoint -/

namespace Cluster

def postedAt (s : Cluster) (i : U128) : Totals ℕ :=
  ((s.accounts.find? fun a => a.id = i).map Account.postedTotals).getD ⟨0, 0⟩

theorem postedAt_of_mem {s : Cluster} (h : (s.accounts.map Account.id).Nodup) {a : Account}
    (ha : a ∈ s.accounts) : s.postedAt a.id = a.postedTotals := by
  have hsome : (s.accounts.find? fun b => b.id = a.id).isSome :=
    List.find?_isSome.2 ⟨a, ha, by simp⟩
  obtain ⟨b, hb⟩ := Option.isSome_iff_exists.1 hsome
  have hid : b.id = a.id := by simpa using List.find?_some hb
  have hba : b = a := List.inj_on_of_nodup_map h (List.mem_of_find?_eq_some hb) ha hid
  rw [postedAt, hb, hba]
  rfl

theorem postedAt_of_not_mem {s : Cluster} {i : U128} (h : i ∉ s.accounts.map Account.id) :
    s.postedAt i = ⟨0, 0⟩ := by
  have hnone : (s.accounts.find? fun a => a.id = i) = none := by
    apply List.find?_eq_none.2
    intro a ha heq
    exact h (List.mem_map.2 ⟨a, ha, by simpa using heq⟩)
  rw [postedAt, hnone]
  rfl

theorem tracks_start {s : Cluster} (h : (s.accounts.map Account.id).Nodup) :
    Tracks s.postedAt [] s := by
  constructor
  · exact h
  · intro a ha
    rw [postedAt_of_mem h ha]
    rfl
  · intro a ha
    rw [postedAt_of_mem h ha]
    rfl
  · intro t ht
    cases ht
  · exact fun i hi => postedAt_of_not_mem hi

end Cluster

/-- A data file between two checkpoints: the LSM holds the accounts of the
checkpoint, the log the requests committed since. -/
structure CheckpointedFile where
  checkpoint : Cluster
  events : List Event
  current : Cluster
  lsm : List Account
  wal : List Account
  distinct : (checkpoint.accounts.map Account.id).Nodup
  committed : checkpoint.run events = some current
  singlePhase : ∀ t ∈ events.filterMap Event.transfer?, t.SinglePhase
  stored : lsm.Perm checkpoint.accounts
  submitted : (wal.map Account.untimed).Perm
    ((events.filterMap Event.account?).map Account.untimed)

namespace CheckpointedFile

variable (f : CheckpointedFile)

def logged : List Transfer := f.events.filterMap Event.transfer?

theorem tracks : Tracks f.checkpoint.postedAt f.logged f.current :=
  tracks_run (tracks_start f.distinct) f.committed

theorem ids_perm : ((f.lsm ++ f.wal).map Account.id).Perm (f.current.accounts.map Account.id) := by
  have hcurrent := congrArg (List.map Account.id) (run_accounts f.committed)
  rw [List.map_append, List.map_map, List.map_map, List.map_map] at hcurrent
  have hwal := f.submitted.map Account.id
  rw [List.map_map, List.map_map] at hwal
  rw [List.map_append]
  exact ((f.stored.map Account.id).append hwal).trans (List.Perm.of_eq hcurrent.symm)

theorem distinct_read : ((f.lsm ++ f.wal).map Account.id).Nodup :=
  f.ids_perm.nodup_iff.2 f.tracks.ids

theorem totals_read {r : Account} (hr : r ∈ f.lsm ++ f.wal) :
    r.postedTotals = f.checkpoint.postedAt r.id := by
  rcases List.mem_append.1 hr with hr' | hr'
  · exact (postedAt_of_mem f.distinct (f.stored.mem_iff.1 hr')).symm
  · have hnot : r.id ∉ f.checkpoint.accounts.map Account.id := by
      intro hmem
      have hdisjoint := List.nodup_append.1 (List.map_append ▸ f.distinct_read)
      exact hdisjoint.2.2 r.id ((f.stored.map Account.id).mem_iff.2 hmem) r.id
        (List.mem_map_of_mem hr') rfl
    rw [postedAt_of_not_mem hnot]
    obtain ⟨a, ha, har⟩ := List.mem_map.1
      (f.submitted.mem_iff.1 (List.mem_map_of_mem (f := Account.untimed) hr'))
    have htotals : a.postedTotals = r.postedTotals := (congrArg Account.postedTotals har :)
    rw [← htotals, run_created f.committed a ha]
    rfl

/-- The current balances are those of the checkpoint exactly when no logged
transfer moved anything. -/
theorem current_eq_checkpoint_iff :
    (∀ a ∈ f.current.accounts, a.postedTotals = f.checkpoint.postedAt a.id) ↔
      ∀ t ∈ f.logged, t.amount = 0 := by
  have htracks := f.tracks
  have hposting : f.logged.map Transfer.effective = f.logged.map Transfer.posting :=
    Transfer.map_effective_of_singlePhase f.singlePhase
  constructor
  · intro h t ht
    obtain ⟨a, ha, hid⟩ := List.mem_map.1 (htracks.named t ht).1
    have hsame := congrArg Totals.debits (h a ha)
    have hdebits := htracks.debits a ha
    change a.debitsPosted.toNat = (f.checkpoint.postedAt a.id).debits at hsame
    rw [hposting] at hdebits
    have hle := amount_le_debitTotal (List.mem_map_of_mem (f := Transfer.posting) ht)
    change t.amount.toNat ≤ debitTotal t.debitAccountId (f.logged.map Transfer.posting) at hle
    rw [← hid] at hle
    apply BitVec.eq_of_toNat_eq
    change t.amount.toNat = 0
    omega
  · intro h a ha
    have hzero : ∀ p ∈ f.logged.map Transfer.posting, p.amount = 0 := by
      intro p hp
      obtain ⟨t, ht, rfl⟩ := List.mem_map.1 hp
      exact congrArg BitVec.toNat (h t ht)
    have hdebits := htracks.debits a ha
    have hcredits := htracks.credits a ha
    rw [hposting, debitTotal_of_amount_eq_zero a.id hzero, add_zero] at hdebits
    rw [hposting, creditTotal_of_amount_eq_zero a.id hzero, add_zero] at hcredits
    rw [Account.postedTotals, hdebits, hcredits]

/-- A list of records that carries the balances of a state. -/
def Carries (accounts : List Account) (s : Cluster) : Prop :=
  ∀ a ∈ s.accounts, ∃ r ∈ accounts, r.id = a.id ∧ r.postedTotals = a.postedTotals

theorem carries_iff {accounts : List Account} (h : accounts.Perm (f.lsm ++ f.wal)) :
    Carries accounts f.current ↔ ∀ t ∈ f.logged, t.amount = 0 := by
  rw [← f.current_eq_checkpoint_iff]
  constructor
  · intro hcarries a ha
    obtain ⟨r, hr, hid, htotals⟩ := hcarries a ha
    rw [← htotals, f.totals_read (h.mem_iff.1 hr), hid]
  · intro hsame a ha
    obtain ⟨r, hr, hid⟩ := List.mem_map.1 (f.ids_perm.mem_iff.2 (List.mem_map_of_mem ha))
    exact ⟨r, h.mem_iff.2 hr, hid, by rw [f.totals_read hr, hid, hsame a ha]⟩

theorem read_fresh {accounts : List Account} (h : accounts.Perm (f.lsm ++ f.wal))
    (hgen : AvoidGenesisIds f.current.accounts) : FreshIds accounts := by
  have hledger : ((f.lsm ++ f.wal).map Account.ledger).Perm
      (f.current.accounts.map Account.ledger) := by
    have hcurrent := congrArg (List.map Account.ledger) (run_accounts f.committed)
    rw [List.map_append, List.map_map, List.map_map, List.map_map] at hcurrent
    have hwal := f.submitted.map Account.ledger
    rw [List.map_map, List.map_map] at hwal
    rw [List.map_append]
    exact ((f.stored.map Account.ledger).append hwal).trans (List.Perm.of_eq hcurrent.symm)
  have hcurrent : FreshIds f.current.accounts := ⟨f.tracks.ids, hgen⟩
  exact hcurrent.congr ((h.map _).trans f.ids_perm) ((h.map _).trans hledger)

theorem replayed_iff {accounts : List Account} (h : accounts.Perm (f.lsm ++ f.wal))
    {book : Book U128 ℕ} (hbook : Rebuilt accounts book) :
    (∀ a ∈ f.current.accounts, book a.id = some a.postedTotals) ↔
      Carries accounts f.current := by
  have hrecord : ∀ a ∈ f.current.accounts, ∃ r ∈ accounts, r.id = a.id := by
    intro a ha
    obtain ⟨r, hr, hid⟩ := List.mem_map.1 (f.ids_perm.mem_iff.2 (List.mem_map_of_mem ha))
    exact ⟨r, h.mem_iff.2 hr, hid⟩
  constructor
  · intro hrestored a ha
    obtain ⟨r, hr, hid⟩ := hrecord a ha
    have hsame := hbook.account r hr
    rw [hid, hrestored a ha, Option.some.injEq] at hsame
    exact ⟨r, hr, hid, hsame.symm⟩
  · intro hcarries a ha
    obtain ⟨r, hr, hid, htotals⟩ := hcarries a ha
    rw [← hid, hbook.account r hr, htotals]

theorem executeMigrationPlan_snapshot {prof : Profile} {orders : HashOrders} {file : FileReads}
    {accounts : List Account} (hread : readAllAccounts orders.accounts file.accounts = .ok accounts)
    (hpending : ∀ a ∈ accounts, hasPending a = false) :
    executeMigrationPlan prof orders file 0 false =
      (build prof orders.ledgers accounts).map .ok := by
  have hnone : accounts.filter hasPending = [] := by
    apply List.filter_eq_nil_iff.2
    intro a ha
    rw [hpending a ha]
    exact Bool.false_ne_true
  have hcutoff : ¬ (0 : U64) < 0 := by decide
  simp only [executeMigrationPlan, hread, hnone, List.length_nil, Nat.lt_irrefl, if_false,
    buildFor, if_neg hcutoff, Option.map_map]
  rfl

theorem no_pending_read (hpending : ∀ a ∈ f.checkpoint.accounts, hasPending a = false)
    {accounts : List Account} (h : accounts.Perm (f.lsm ++ f.wal)) :
    ∀ a ∈ accounts, hasPending a = false := by
  intro r hr
  rcases List.mem_append.1 (h.mem_iff.1 hr) with hr | hr
  · exact hpending r (f.stored.mem_iff.1 hr)
  · obtain ⟨a, ha, har⟩ := List.mem_map.1
      (f.submitted.mem_iff.1 (List.mem_map_of_mem (f := Account.untimed) hr))
    have hsame : hasPending a = hasPending r := (congrArg hasPending har :)
    rw [← hsame, run_created f.committed a ha]
    rfl

/-- The accounts read from a file, and the snapshot plan made of them, carry the
balances after the last committed transfer exactly when no transfer of the log
moved anything. -/
theorem snapshot_carries_iff (orders : HashOrders)
    (transfers : Except ReaderError (RecordStreams Transfer)) :
    (∃ accounts, readAllAccounts orders.accounts (.ok (.ofRecords f.lsm f.wal)) = .ok accounts ∧
      (Carries accounts f.current ↔ ∀ t ∈ f.logged, t.amount = 0)) ∧
    ((∀ a ∈ f.checkpoint.accounts, hasPending a = false) →
      AvoidGenesisIds f.current.accounts →
      Delivers (fun prof => executeMigrationPlan prof orders
          ⟨.ok (.ofRecords f.lsm f.wal), transfers⟩ 0 false) fun result =>
        ∃ plan book, result = .ok plan ∧
          plan.openBook.replay plan.syntheticPostings = some book ∧
          ((∀ a ∈ f.current.accounts, book a.id = some a.postedTotals) ↔
            ∀ t ∈ f.logged, t.amount = 0)) := by
  obtain ⟨accounts, hread, hperm⟩ := readAllAccounts_of_distinct orders.accounts f.distinct_read
  refine ⟨⟨accounts, hread, f.carries_iff hperm⟩, fun hpending hgen => ?_⟩
  have hsnapshot : ∀ prof, executeMigrationPlan prof orders
      ⟨.ok (.ofRecords f.lsm f.wal), transfers⟩ 0 false =
        (build prof orders.ledgers accounts).map .ok :=
    fun prof => executeMigrationPlan_snapshot hread (f.no_pending_read hpending hperm)
  simp only [hsnapshot]
  constructor
  · obtain ⟨plan, hplan⟩ := buildSnapshotImpl_release orders.ledgers accounts false
    exact ⟨.ok plan, Option.map_eq_some_iff.2 ⟨plan, hplan, rfl⟩⟩
  · intro prof result hresult
    obtain ⟨plan, hplan, rfl⟩ := Option.map_eq_some_iff.1 hresult
    obtain ⟨book, hreplay, hbook⟩ := (buildSnapshotImpl_shape hplan).rebuilt (f.read_fresh hperm hgen)
    refine ⟨plan, book, rfl, hreplay, ?_⟩
    rw [f.replayed_iff hperm hbook, f.carries_iff hperm]

def loggedTransfer : CheckpointedFile where
  checkpoint := ⟨[.holding 7 1 100 0 1, .holding 8 1 0 100 2], [], 10⟩
  events := [.createAccount (.holding 9 1 0 0 11), .createTransfer (.moving 5 7 9 50 1 0 12)]
  current := ⟨[.holding 7 1 150 0 1, .holding 8 1 0 100 2, .holding 9 1 0 50 11],
    [.moving 5 7 9 50 1 0 12], 12⟩
  lsm := [.holding 7 1 100 0 1, .holding 8 1 0 100 2]
  wal := [.holding 9 1 0 0 0]
  distinct := by decide
  committed := by decide +kernel
  singlePhase := by decide
  stored := List.Perm.refl _
  submitted := List.Perm.refl _

/-- The transfer of the log is lost: the accounts are read, and account 7 is
rebuilt, with the checkpointed debits of 100 instead of 150. -/
theorem loggedTransfer_lost :
    (∃ accounts, readAllAccounts .stored
        (.ok (.ofRecords loggedTransfer.lsm loggedTransfer.wal)) = .ok accounts ∧
      ¬ Carries accounts loggedTransfer.current) ∧
    Account.holding 7 1 150 0 1 ∈ loggedTransfer.current.accounts ∧
    ∃ plan book, executeMigrationPlan .release ⟨.stored, .stored, .stored⟩
        ⟨.ok (.ofRecords loggedTransfer.lsm loggedTransfer.wal), .ok (.ofRecords [] [])⟩ 0 false =
          some (.ok plan) ∧
      plan.openBook.replay plan.syntheticPostings = some book ∧ book 7 = some ⟨100, 0⟩ := by
  refine ⟨?_, List.mem_cons_self, ?_⟩
  · obtain ⟨accounts, hread, hperm⟩ :=
      readAllAccounts_of_distinct .stored loggedTransfer.distinct_read
    refine ⟨accounts, hread, fun hcarries => ?_⟩
    have hzero := (loggedTransfer.carries_iff hperm).1 hcarries _ List.mem_cons_self
    exact absurd hzero (by decide)
  · obtain ⟨accounts, hread, hperm⟩ :=
      readAllAccounts_of_distinct .stored loggedTransfer.distinct_read
    obtain ⟨plan, hplan⟩ := buildSnapshotImpl_release .stored accounts false
    have hfresh := loggedTransfer.read_fresh hperm (by decide +kernel)
    obtain ⟨book, hreplay, hbook⟩ := (buildSnapshotImpl_shape hplan).rebuilt hfresh
    refine ⟨plan, book, ?_, hreplay, ?_⟩
    · rw [executeMigrationPlan_snapshot hread (loggedTransfer.no_pending_read (by decide) hperm)]
      exact congrArg _ hplan
    · exact hbook.account (.holding 7 1 100 0 1) (hperm.mem_iff.2 List.mem_cons_self)

end CheckpointedFile

end TbManager
