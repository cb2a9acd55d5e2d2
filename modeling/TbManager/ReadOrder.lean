import TbManager.PlanTimeline
import TbManager.WindowedReplay

/-!
# Plans do not depend on the order of reading

The accounts of a data file come out of a hash map. With distinct timestamps all
that the planner makes of their order is undone: the groups are sorted by ledger
and the accounts by timestamp.
-/

namespace TbManager

attribute [local irreducible] genesisCreditId genesisDebitId

namespace BalancePlan

/-! ## The groups of a permuted list -/

section Groups

variable {ord ord' : IterOrder U32 (List Account)} {accounts accounts' : List Account}

/-- A group without its accounts. -/
def ledgerGroup (ledger : U32) : AccountGroup := groupOf ledger []

theorem groups_ledgers_eq (hperm : accounts.Perm accounts') :
    (groups ord accounts).map AccountGroup.ledger =
      (groups ord' accounts').map AccountGroup.ledger := by
  have hsame : ((groups ord accounts).map AccountGroup.ledger).Perm
      ((groups ord' accounts').map AccountGroup.ledger) := by
    rw [List.perm_ext_iff_of_nodup (groups_ledgers_nodup ord accounts)
      (groups_ledgers_nodup ord' accounts')]
    intro l
    rw [ledger_mem_groups, ledger_mem_groups, (hperm.map Account.ledger).mem_iff]
  have hsorted : ∀ ord accounts, ((groups ord accounts).map AccountGroup.ledger).Pairwise
      fun l l' => l.toNat ≤ l'.toNat := fun ord accounts =>
    List.pairwise_map.2 (groups_sorted ord accounts)
  refine List.Perm.eq_of_pairwise (fun l l' _ _ hle hle' => ?_) (hsorted ord accounts)
    (hsorted ord' accounts') hsame
  exact BitVec.eq_of_toNat_eq (le_antisymm hle hle')

theorem map_ledgerGroup (ord : IterOrder U32 (List Account)) (accounts : List Account) :
    ((groups ord accounts).map AccountGroup.ledger).map ledgerGroup =
      (groups ord accounts).map fun g => { g with accounts := [] } := by
  rw [List.map_map]
  apply List.map_congr_left
  intro g hg
  have hcredit := congrArg AccountGroup.genesisCreditId (mem_groups hg).1
  have hdebit := congrArg AccountGroup.genesisDebitId (mem_groups hg).1
  rw [hcredit, hdebit]
  rfl

/-- The genesis accounts are those of the ledgers. -/
theorem genesisAccountsOf_ledgers (gs : List AccountGroup) :
    genesisAccountsOf gs = genesisAccountsOf (gs.map fun g => { g with accounts := [] }) := by
  rw [genesisAccountsOf, genesisAccountsOf, List.zipIdx_map, List.flatMap_map]
  rfl

theorem genesisByLedger_ledgers (gs : List AccountGroup) :
    genesisByLedger gs = genesisByLedger (gs.map fun g => { g with accounts := [] }) := by
  rw [genesisByLedger, genesisByLedger, HashMap.insertAll, HashMap.insertAll, List.foldl_map]

theorem genesisAccountsOf_eq (hperm : accounts.Perm accounts') :
    genesisAccountsOf (groups ord accounts) = genesisAccountsOf (groups ord' accounts') := by
  rw [genesisAccountsOf_ledgers, ← map_ledgerGroup, groups_ledgers_eq hperm, map_ledgerGroup,
    ← genesisAccountsOf_ledgers]

theorem genesisByLedger_eq (hperm : accounts.Perm accounts') :
    genesisByLedger (groups ord accounts) = genesisByLedger (groups ord' accounts') := by
  rw [genesisByLedger_ledgers, ← map_ledgerGroup, groups_ledgers_eq hperm, map_ledgerGroup,
    ← genesisByLedger_ledgers]

theorem importOrder_eq (hperm : accounts.Perm accounts')
    (hdistinct : (accounts.map Account.timestamp).Nodup) :
    importOrder accounts = importOrder accounts' := by
  refine (importOrder_stablySorted accounts).eq_of_perm (importOrder_stablySorted accounts') hperm ?_
  rw [List.Nodup, List.pairwise_map] at hdistinct ⊢
  refine hdistinct.imp fun hne heq => hne ?_
  exact BitVec.eq_of_toNat_eq (congrArg (fun k => (ofLex k).1) heq)

end Groups

/-! ## The planners -/

section Planners

variable (prof : Profile) (ord ord' : IterOrder U32 (List Account)) {accounts accounts' : List Account}

theorem buildSnapshotImpl_eq_of_perm (hperm : accounts.Perm accounts')
    (hdistinct : (accounts.map Account.timestamp).Nodup) (windowedMode : Bool) :
    buildSnapshotImpl prof ord accounts windowedMode =
      buildSnapshotImpl prof ord' accounts' windowedMode := by
  unfold buildSnapshotImpl
  simp only [sorted_eq_importOrder]
  rw [genesisAccountsOf_eq hperm, genesisByLedger_eq hperm, importOrder_eq hperm hdistinct]

/-- Every build makes one plan, or panics alike, of all permutations of the accounts and all
orders of the hash map. -/
theorem build_eq_of_perm (hperm : accounts.Perm accounts')
    (hdistinct : (accounts.map Account.timestamp).Nodup) :
    build prof ord accounts = build prof ord' accounts' ∧
      ∀ windowed cutoffTs, buildWindowed prof ord accounts windowed cutoffTs =
        buildWindowed prof ord' accounts' windowed cutoffTs := by
  refine ⟨buildSnapshotImpl_eq_of_perm prof ord ord' hperm hdistinct false, ?_⟩
  intro windowed cutoffTs
  unfold buildWindowed
  cases windowDeltas prof windowed with
  | none => rfl
  | some deltas =>
      have hadjusted : ((accounts.map (adjustAccount deltas.1 deltas.2 cutoffTs)).map
          Account.timestamp).Nodup := by
        rw [List.map_map]
        simpa only [Function.comp_def, adjustAccount_timestamp] using hdistinct
      simp only [Option.bind_eq_bind, Option.bind_some]
      rw [buildSnapshotImpl_eq_of_perm prof ord ord' (hperm.map _) hadjusted true]

theorem build_eq_of_perm_reversed :
    [Account.holding 7 1 100 0 1, .holding 8 2 0 100 2].Perm
        [.holding 8 2 0 100 2, .holding 7 1 100 0 1] ∧
    ([Account.holding 7 1 100 0 1, .holding 8 2 0 100 2].map Account.timestamp).Nodup ∧
    build .debug .stored [.holding 7 1 100 0 1, .holding 8 2 0 100 2] =
        build .debug .stored [.holding 8 2 0 100 2, .holding 7 1 100 0 1] ∧
      ∀ windowed cutoffTs,
        buildWindowed .debug .stored [.holding 7 1 100 0 1, .holding 8 2 0 100 2] windowed
            cutoffTs =
          buildWindowed .debug .stored [.holding 8 2 0 100 2, .holding 7 1 100 0 1] windowed
            cutoffTs :=
  have hperm := List.Perm.swap (Account.holding 8 2 0 100 2) (Account.holding 7 1 100 0 1) []
  have hdistinct : ([Account.holding 7 1 100 0 1, .holding 8 2 0 100 2].map
      Account.timestamp).Nodup := by decide
  ⟨hperm, hdistinct, build_eq_of_perm .debug .stored .stored hperm hdistinct⟩

end Planners

end BalancePlan

end TbManager
