import TbManager.CsvPlan
import TbManager.WindowOrdering

/-!
# Transfer ids of a plan

Both builders number their synthetic transfers from 1 and replay the window with
its own ids. No id is used twice exactly when every id of the window is beyond the
last number.
-/

namespace TbManager

attribute [local irreducible] genesisCreditId genesisDebitId

namespace BalancePlan

def transferIds (plan : BalancePlan) : List U128 :=
  plan.syntheticTransfers.map SyntheticTransfer.id ++ plan.windowedTransfers.map Transfer.id

structure UniqueTransferIds (plan : BalancePlan) : Prop where
  distinct : plan.transferIds.Nodup
  nonzero : 0 ∉ plan.transferIds

section Numbered

variable {plan : BalancePlan} {n : ℕ}

theorem mem_numbered_iff
    (hids : (plan.syntheticTransfers.map fun t => t.id.toNat) = List.range' 1 n) {i : U128} :
    i ∈ plan.syntheticTransfers.map SyntheticTransfer.id ↔ 0 < i.toNat ∧ i.toNat ≤ n := by
  have hmem : i.toNat ∈ (plan.syntheticTransfers.map fun t => t.id.toNat) ↔
      i ∈ plan.syntheticTransfers.map SyntheticTransfer.id := by
    simp only [List.mem_map, BitVec.toNat_inj]
  rw [← hmem, hids, List.mem_range'_1]
  omega

theorem numbered_nodup
    (hids : (plan.syntheticTransfers.map fun t => t.id.toNat) = List.range' 1 n) :
    (plan.syntheticTransfers.map SyntheticTransfer.id).Nodup := by
  have hnodup : ((plan.syntheticTransfers.map SyntheticTransfer.id).map BitVec.toNat).Nodup := by
    rw [List.map_map]
    exact hids ▸ List.nodup_range'
  exact hnodup.of_map

theorem uniqueTransferIds_iff_of_numbered
    (hids : (plan.syntheticTransfers.map fun t => t.id.toNat) = List.range' 1 n)
    (hwindow : (plan.windowedTransfers.map Transfer.id).Nodup) :
    plan.UniqueTransferIds ↔ ∀ i ∈ plan.windowedTransfers.map Transfer.id, n < i.toNat := by
  constructor
  · intro h i hi
    by_contra hle
    have hpos : i.toNat ≠ 0 := by
      intro hzero
      have hi0 : i = 0 := BitVec.eq_of_toNat_eq hzero
      exact h.nonzero (hi0 ▸ List.mem_append_right _ hi)
    have hsyn := (mem_numbered_iff hids).2 ⟨Nat.pos_of_ne_zero hpos, not_lt.1 hle⟩
    exact (List.nodup_append.1 h.distinct).2.2 i hsyn i hi rfl
  · intro h
    constructor
    · rw [transferIds, List.nodup_append]
      refine ⟨numbered_nodup hids, hwindow, ?_⟩
      rintro i hi j hj rfl
      have hle := ((mem_numbered_iff hids).1 hi).2
      have hlt := h i hj
      omega
    · intro hi
      rcases List.mem_append.1 hi with hi | hi
      · exact absurd ((mem_numbered_iff hids).1 hi).1 (lt_irrefl 0)
      · exact absurd (h 0 hi) (Nat.not_lt_zero n)

end Numbered

/-- The transfers of a windowed plan are numbered from 1. -/
theorem Timeline.toNat_ids {ord : IterOrder U32 (List Account)} {accounts : List Account}
    {windowedMode : Bool} {plan : BalancePlan} (h : Timeline ord accounts windowedMode plan)
    (hlen : plan.syntheticTransfers.length < 2 ^ 64) :
    (plan.syntheticTransfers.map fun t => t.id.toNat) =
      List.range' 1 plan.syntheticTransfers.length :=
  toNat_ids_of_numbered h.ids hlen

theorem CsvShape.window_ids {transfers : List Transfer} {c : U64} {plan : BalancePlan}
    (h : CsvShape transfers c plan) :
    (plan.windowedTransfers.map Transfer.id).Perm ((csvFrom c transfers).map Transfer.id) := by
  have hids := congrArg (List.map Transfer.id) h.windowed
  rw [List.map_map, List.map_map] at hids
  exact (List.Perm.of_eq hids).trans ((sortByTimestamp_stablySorted _).perm.map _)

/-- In both builders the transfer ids are unique exactly when every id of the window is
beyond the number of synthetic transfers. -/
theorem uniqueTransferIds_iff (ledgers : IterOrder U32 (List Account)) (accounts : List Account)
    (haccounts : FitsVec accounts) (windowed : List Transfer)
    (hwindowed : (windowed.map Transfer.id).Nodup) (sums : IterOrder TransferKey U128)
    (transfers : List Transfer) (htransfers : FitsVec transfers)
    (hids : (transfers.map Transfer.id).Nodup) (c : U64) :
    Delivers (fun prof => buildWindowed prof ledgers accounts windowed c) (fun plan =>
      plan.UniqueTransferIds ↔
        ∀ t ∈ windowed, transfersAtCutoff windowed c accounts < t.id.toNat) ∧
    Delivers (fun prof => buildPlanFromCsv prof sums transfers c) fun plan =>
      (plan.UniqueTransferIds ↔
        ∀ t ∈ csvFrom c transfers, (csvKeys c transfers).length < t.id.toNat) := by
  constructor
  · refine ⟨buildWindowed_release ledgers accounts windowed c, fun prof plan hplan => ?_⟩
    obtain ⟨d, hd, hwindow, _, htime⟩ := buildWindowed_timeline hplan
    have hcount := count_adjusted hd htime
    have hlt := transfersAtCutoff_lt windowed c haccounts
    rw [uniqueTransferIds_iff_of_numbered (htime.toNat_ids (by omega)) (hwindow ▸ hwindowed),
      hwindow, hcount, List.forall_mem_map]
  · refine ⟨buildPlanFromCsv_release sums transfers c, fun prof plan hplan => ?_⟩
    have h := buildPlanFromCsv_shape htransfers hplan
    have hnodup : ((csvFrom c transfers).map Transfer.id).Nodup :=
      hids.sublist (List.filter_sublist.map _)
    refine (uniqueTransferIds_iff_of_numbered (h.toNat_ids htransfers)
      (h.window_ids.nodup_iff.2 hnodup)).trans ?_
    rw [h.count]
    simp only [h.window_ids.mem_iff, List.forall_mem_map]

theorem uniqueTransferIds_iff_uploaded :
    FitsVec crowded ∧ FitsVec uploaded ∧
    Delivers (fun prof => buildWindowed prof .stored crowded [.moving 1 7 8 5 1 0 13] 12)
      (fun plan => plan.UniqueTransferIds ↔ ∀ t ∈ [Transfer.moving 1 7 8 5 1 0 13],
        transfersAtCutoff [.moving 1 7 8 5 1 0 13] 12 crowded < t.id.toNat) ∧
    Delivers (fun prof => buildPlanFromCsv prof .stored uploaded 12) fun plan =>
      (plan.UniqueTransferIds ↔
        ∀ t ∈ csvFrom 12 uploaded, (csvKeys 12 uploaded).length < t.id.toNat) :=
  have haccounts : FitsVec crowded := by decide
  have htransfers : FitsVec uploaded := by decide
  ⟨haccounts, htransfers, uniqueTransferIds_iff .stored crowded haccounts
    [.moving 1 7 8 5 1 0 13] (by decide) .stored uploaded htransfers (by decide) 12⟩

/-- A window of a cluster that was migrated before, with the synthetic ids of that
migration, and an upload that numbers its transfers itself. -/
theorem smallIds_not_unique :
    (∃ plan, buildWindowed .release .stored crowded [.moving 1 7 8 2 1 0 13] 12 = some plan ∧
      ¬ plan.UniqueTransferIds) ∧
    ∃ plan, buildPlanFromCsv .release .stored
        [.moving 2 7 8 50 1 0 4, .moving 1 7 8 30 1 0 13] 12 = some plan ∧
      ¬ plan.UniqueTransferIds := by
  constructor
  · obtain ⟨plan, hplan⟩ := buildWindowed_release .stored crowded [.moving 1 7 8 2 1 0 13] 12
    have hfail : (buildWindowed .release .stored crowded [.moving 1 7 8 2 1 0 13] 12).all
        fun plan => ¬ plan.transferIds.Nodup := by decide +kernel
    rw [hplan] at hfail
    exact ⟨plan, hplan, fun h => absurd h.distinct (by simpa using hfail)⟩
  · obtain ⟨plan, hplan⟩ := buildPlanFromCsv_release .stored
      [.moving 2 7 8 50 1 0 4, .moving 1 7 8 30 1 0 13] 12
    have hfail : (buildPlanFromCsv .release .stored
        [.moving 2 7 8 50 1 0 4, .moving 1 7 8 30 1 0 13] 12).all
          fun plan => ¬ plan.transferIds.Nodup := by decide +kernel
    rw [hplan] at hfail
    exact ⟨plan, hplan, fun h => absurd h.distinct (by simpa using hfail)⟩

end BalancePlan

end TbManager
