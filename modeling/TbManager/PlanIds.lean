import TbManager.PlanTimeline
import TbManager.WindowedReplay

/-!
# Account ids of a plan

The genesis ids are computed from the ledger alone, so they are new exactly when
no planned account has one. The accounts of an earlier plan do.
-/

namespace TbManager

attribute [local irreducible] genesisCreditId genesisDebitId

theorem genesisIds_ne_zero (l : U32) : genesisCreditId l ≠ 0 ∧ genesisDebitId l ≠ 0 := by
  have hl := l.isLt
  constructor
  · intro h
    have hn := congrArg BitVec.toNat h
    rw [toNat_genesisCreditId] at hn
    change _ = 0 at hn
    omega
  · intro h
    have hn := congrArg BitVec.toNat h
    rw [toNat_genesisDebitId] at hn
    change _ = 0 at hn
    omega

theorem genesisIds_ne_max {l : U32} (hl : 1 ≤ l) :
    genesisCreditId l ≠ BitVec.allOnes 128 ∧ genesisDebitId l ≠ BitVec.allOnes 128 := by
  rw [BitVec.le_def] at hl
  change 1 ≤ l.toNat at hl
  have hlt := l.isLt
  constructor
  · intro h
    have hn := congrArg BitVec.toNat h
    rw [toNat_genesisCreditId, BitVec.toNat_allOnes] at hn
    omega
  · intro h
    have hn := congrArg BitVec.toNat h
    rw [toNat_genesisDebitId, BitVec.toNat_allOnes] at hn
    omega

namespace BalancePlan

theorem buildWindowed_timeline {prof : Profile} {ord : IterOrder U32 (List Account)}
    {accounts : List Account} {windowed : List Transfer} {cutoffTs : U64} {plan : BalancePlan}
    (h : buildWindowed prof ord accounts windowed cutoffTs = some plan) :
    ∃ d, Deltas windowed d ∧ plan.windowedTransfers = windowed ∧
      Shape (accounts.map (adjustAccount d.1 d.2 cutoffTs)) plan ∧
      Timeline ord (accounts.map (adjustAccount d.1 d.2 cutoffTs)) true plan := by
  obtain ⟨d, snapshot, hd, hsnapshot, rfl⟩ := buildWindowed_eq_some h
  have hshape := buildSnapshotImpl_shape hsnapshot
  have htime := buildSnapshotImpl_timeline hsnapshot
  exact ⟨d, hd, rfl,
    ⟨hshape.regular, hshape.genesisIds, hshape.genesisFlags, hshape.postings⟩,
    ⟨htime.genesis, htime.regular, htime.times, htime.ids, htime.transferTimes, htime.sides,
      htime.count⟩⟩

/-- Pairwise distinct account ids, none of them 0 or `u128::MAX`. -/
structure UniqueIds (plan : BalancePlan) : Prop where
  distinct : ((plan.genesisAccounts ++ plan.regularAccounts).map Account.id).Nodup
  valid : ∀ a ∈ plan.genesisAccounts ++ plan.regularAccounts, a.isPadding = false

instance (plan : BalancePlan) : Decidable plan.UniqueIds :=
  decidable_of_iff
    (((plan.genesisAccounts ++ plan.regularAccounts).map Account.id).Nodup ∧
      ∀ a ∈ plan.genesisAccounts ++ plan.regularAccounts, a.isPadding = false)
    ⟨fun h => ⟨h.1, h.2⟩, fun h => ⟨h.distinct, h.valid⟩⟩

theorem isPadding_eq_false_iff (a : Account) :
    a.isPadding = false ↔ a.id ≠ 0 ∧ a.id ≠ BitVec.allOnes 128 := by
  simp only [Account.isPadding, Bool.or_eq_false_iff, decide_eq_false_iff_not, ne_eq]

theorem genesis_ids_nodup (ord : IterOrder U32 (List Account)) (accounts : List Account) :
    ((genesisAccountsOf (groups ord accounts)).map Account.id).Nodup := by
  have hpair : ∀ g ∈ groups ord accounts,
      g.genesisCreditId = genesisCreditId g.ledger ∧ g.genesisDebitId = genesisDebitId g.ledger := by
    intro g hg
    have hge := (mem_groups hg).1
    exact ⟨congrArg AccountGroup.genesisCreditId hge, congrArg AccountGroup.genesisDebitId hge⟩
  rw [genesisAccountsOf_ids, List.nodup_flatMap]
  constructor
  · intro g hg
    rw [(hpair g hg).1, (hpair g hg).2]
    simpa using genesisCreditId_ne_genesisDebitId g.ledger g.ledger
  · have hnodup := groups_ledgers_nodup ord accounts
    rw [List.Nodup, List.pairwise_map] at hnodup
    apply hnodup.imp_of_mem
    intro g h hg hh hne
    rw [Function.onFun, (hpair g hg).1, (hpair g hg).2, (hpair h hh).1, (hpair h hh).2]
    intro i hi hi'
    simp only [List.mem_cons, List.not_mem_nil, or_false] at hi hi'
    rcases hi with rfl | rfl <;> rcases hi' with heq | heq
    · exact hne (genesisCreditId_inj heq)
    · exact genesisCreditId_ne_genesisDebitId _ _ heq
    · exact genesisCreditId_ne_genesisDebitId _ _ heq.symm
    · exact hne (genesisDebitId_inj heq)

section Unique

variable {accounts : List Account} {plan : BalancePlan}

theorem avoidGenesisIds_of_distinct (hshape : Shape accounts plan) (h : plan.UniqueIds) :
    AvoidGenesisIds accounts := by
  have hdisjoint := List.nodup_append.1 (List.map_append ▸ h.distinct)
  intro a ha b hb
  have hid : a.id ∈ plan.regularAccounts.map Account.id :=
    hshape.idPerm.mem_iff.2 (List.mem_map_of_mem ha)
  have hledger : b.ledger ∈ accounts.map Account.ledger := List.mem_map_of_mem hb
  constructor
  · intro heq
    exact hdisjoint.2.2 _ ((hshape.genesisIds _).2 ⟨b.ledger, hledger, .inl heq⟩) _ hid rfl
  · intro heq
    exact hdisjoint.2.2 _ ((hshape.genesisIds _).2 ⟨b.ledger, hledger, .inr heq⟩) _ hid rfl

theorem distinct_of_avoidGenesisIds (hshape : Shape accounts plan)
    (hgenesis : (plan.genesisAccounts.map Account.id).Nodup)
    (hids : (accounts.map Account.id).Nodup) (havoid : AvoidGenesisIds accounts) :
    ((plan.genesisAccounts ++ plan.regularAccounts).map Account.id).Nodup := by
  have hfresh : FreshIds accounts := ⟨hids, havoid⟩
  rw [List.map_append, List.nodup_append]
  refine ⟨hgenesis, hshape.idPerm.nodup_iff.2 hids, ?_⟩
  rintro i hi j hj rfl
  obtain ⟨l, hl, heq⟩ := (hshape.genesisIds i).1 hi
  have hne := hfresh.ne_genesis (hshape.idPerm.mem_iff.1 hj) hl
  rcases heq with heq | heq
  · exact hne.1 heq
  · exact hne.2 heq

/-- A plan has unique ids exactly when its accounts have valid ids that are not
genesis ids of their ledgers. -/
theorem uniqueIds_iff_of_shape (hshape : Shape accounts plan)
    (hgenesis : (plan.genesisAccounts.map Account.id).Nodup)
    (hids : (accounts.map Account.id).Nodup) (hledgers : ∀ a ∈ accounts, 1 ≤ a.ledger) :
    plan.UniqueIds ↔
      AvoidGenesisIds accounts ∧ ∀ a ∈ accounts, a.isPadding = false := by
  constructor
  · intro h
    refine ⟨avoidGenesisIds_of_distinct hshape h, fun a ha => ?_⟩
    obtain ⟨b, hb, hba⟩ := hshape.exists_planned ha
    have hsame : b.isPadding = a.isPadding := (congrArg Account.isPadding hba :)
    rw [← hsame]
    exact h.valid b (List.mem_append_right _ hb)
  · rintro ⟨havoid, hvalid⟩
    refine ⟨distinct_of_avoidGenesisIds hshape hgenesis hids havoid, fun b hb => ?_⟩
    rcases List.mem_append.1 hb with hb | hb
    · rw [isPadding_eq_false_iff]
      obtain ⟨l, hl, heq⟩ := (hshape.genesisIds b.id).1 (List.mem_map_of_mem hb)
      obtain ⟨a, ha, rfl⟩ := List.mem_map.1 hl
      have hzero := genesisIds_ne_zero a.ledger
      have hmax := genesisIds_ne_max (hledgers a ha)
      rcases heq with heq | heq
      · rw [heq]
        exact ⟨hzero.1, hmax.1⟩
      · rw [heq]
        exact ⟨hzero.2, hmax.2⟩
    · obtain ⟨a, ha, hab⟩ := hshape.exists_account hb
      have hsame : a.isPadding = b.isPadding := (congrArg Account.isPadding hab :)
      rw [← hsame]
      exact hvalid a ha

end Unique

/-! ## Repeated migrations -/

/-- The accounts of the target after an import, with the totals of its book. -/
def importedAccounts (plan : BalancePlan) (book : Book U128 ℕ) : List Account :=
  (plan.genesisAccounts ++ plan.regularAccounts).map fun a =>
    let totals := (book a.id).getD ⟨0, 0⟩
    { convertAccount a true with
      debitsPosted := BitVec.ofNat 128 totals.debits
      creditsPosted := BitVec.ofNat 128 totals.credits }

/-- Every account list that contains the accounts of an earlier plan has a
genesis id of its own ledgers. -/
theorem not_avoidGenesisIds_of_imported {accounts later : List Account} {plan : BalancePlan}
    {book : Book U128 ℕ} (hshape : Shape accounts plan) (hne : accounts ≠ [])
    (hlater : ∀ a ∈ plan.importedAccounts book, a ∈ later) : ¬ AvoidGenesisIds later := by
  obtain ⟨a, ha⟩ := List.exists_mem_of_ne_nil accounts hne
  obtain ⟨b, hb, hba⟩ := hshape.exists_planned ha
  have hledger : b.ledger = a.ledger := (congrArg Account.ledger hba :)
  obtain ⟨g, hg, hid⟩ := List.mem_map.1
    ((hshape.genesisIds (genesisCreditId a.ledger)).2 ⟨_, List.mem_map_of_mem ha, .inl rfl⟩)
  intro havoid
  have hg' := hlater _ (List.mem_map_of_mem (List.mem_append_left _ hg))
  have hb' := hlater _ (List.mem_map_of_mem (List.mem_append_right _ hb))
  have hcredit := (havoid _ hg' _ hb').1
  change g.id ≠ genesisCreditId b.ledger at hcredit
  exact hcredit (hid.trans (by rw [hledger]))

theorem avoid_adjusted_iff (debitDelta creditDelta : HashMap U128 U128) (c : U64)
    (accounts : List Account) :
    (AvoidGenesisIds (accounts.map (adjustAccount debitDelta creditDelta c)) ∧
        ∀ a ∈ accounts.map (adjustAccount debitDelta creditDelta c), a.isPadding = false) ↔
      AvoidGenesisIds accounts ∧ ∀ a ∈ accounts, a.isPadding = false := by
  simp only [AvoidGenesisIds, isPadding_eq_false_iff, List.forall_mem_map, adjustAccount_id,
    adjustAccount_ledger]

/-- In both planners the account ids are unique exactly when no account has a
genesis id of a ledger in the list, 0 or `u128::MAX`. -/
theorem uniqueIds_iff (ord : IterOrder U32 (List Account)) (accounts : List Account)
    (hids : (accounts.map Account.id).Nodup) (hledgers : ∀ a ∈ accounts, 1 ≤ a.ledger)
    (windowed : List Transfer) (cutoffTs : U64) :
    Delivers (fun prof => build prof ord accounts) (fun plan =>
      plan.UniqueIds ↔
        AvoidGenesisIds accounts ∧ ∀ a ∈ accounts, a.isPadding = false) ∧
    Delivers (fun prof => buildWindowed prof ord accounts windowed cutoffTs) fun plan =>
      (plan.UniqueIds ↔
        AvoidGenesisIds accounts ∧ ∀ a ∈ accounts, a.isPadding = false) := by
  constructor
  · refine ⟨buildSnapshotImpl_release ord accounts false, fun prof plan hplan => ?_⟩
    have hgenesis := (buildSnapshotImpl_timeline hplan).genesis
    exact uniqueIds_iff_of_shape (buildSnapshotImpl_shape hplan)
      (hgenesis ▸ genesis_ids_nodup ord accounts) hids hledgers
  · refine ⟨buildWindowed_release ord accounts windowed cutoffTs, fun prof plan hplan => ?_⟩
    obtain ⟨d, _, _, hshape, htime⟩ := buildWindowed_timeline hplan
    rw [← avoid_adjusted_iff d.1 d.2 cutoffTs]
    apply uniqueIds_iff_of_shape hshape (htime.genesis ▸ genesis_ids_nodup ord _)
    · rwa [adjusted_ids]
    · intro b hb
      obtain ⟨a, ha, rfl⟩ := List.mem_map.1 hb
      rw [adjustAccount_ledger]
      exact hledgers a ha

theorem uniqueIds_iff_twoLedgers :
    (twoLedgers.map Account.id).Nodup ∧ (∀ a ∈ twoLedgers, 1 ≤ a.ledger) ∧
    Delivers (fun prof => build prof .stored twoLedgers) (fun plan =>
      plan.UniqueIds ↔
        AvoidGenesisIds twoLedgers ∧ ∀ a ∈ twoLedgers, a.isPadding = false) ∧
    Delivers (fun prof => buildWindowed prof .stored twoLedgers [] 25) fun plan =>
      (plan.UniqueIds ↔
        AvoidGenesisIds twoLedgers ∧ ∀ a ∈ twoLedgers, a.isPadding = false) :=
  have hids : (twoLedgers.map Account.id).Nodup := by decide
  have hledgers : ∀ a ∈ twoLedgers, 1 ≤ a.ledger := by decide
  ⟨hids, hledgers, uniqueIds_iff .stored twoLedgers hids hledgers [] 25⟩

/-- The accounts of a cluster that was migrated once: one account and the two
genesis accounts of its ledger. -/
def migratedOnce : List Account :=
  [{ Account.holding (genesisCreditId 1) 1 200 0 1 with code := 1, flags := ⟨16⟩ },
    { Account.holding (genesisDebitId 1) 1 0 50 2 with code := 1, flags := ⟨16⟩ },
    { Account.holding 100 1 50 200 1000 with flags := ⟨16⟩ }]

/-- The second plan opens the genesis accounts of the first one again. -/
theorem migratedOnce_not_unique :
    (∃ plan book, build .release .stored [.holding 100 1 50 200 1000] = some plan ∧
      plan.openBook.replay plan.syntheticPostings = some book ∧
      plan.importedAccounts book = migratedOnce) ∧
    (migratedOnce.map Account.id).Nodup ∧ (∀ a ∈ migratedOnce, 1 ≤ a.ledger) ∧
    ∃ plan, build .release .stored migratedOnce = some plan ∧ ¬ plan.UniqueIds := by
  have hfirst : ((build .release .stored [.holding 100 1 50 200 1000]).bind fun plan =>
      (plan.openBook.replay plan.syntheticPostings).map plan.importedAccounts) =
        some migratedOnce := by decide +kernel
  rw [Option.bind_eq_some_iff] at hfirst
  obtain ⟨plan, hplan, hbook⟩ := hfirst
  rw [Option.map_eq_some_iff] at hbook
  obtain ⟨book, hreplay, himported⟩ := hbook
  refine ⟨⟨plan, book, hplan, hreplay, himported⟩, by decide +kernel, by decide +kernel, ?_⟩
  obtain ⟨later, hlater⟩ := buildSnapshotImpl_release .stored migratedOnce false
  refine ⟨later, hlater, fun hunique => ?_⟩
  apply not_avoidGenesisIds_of_imported (buildSnapshotImpl_shape hplan) (by decide)
  · exact fun a ha => himported ▸ ha
  · exact avoidGenesisIds_of_distinct (buildSnapshotImpl_shape hlater) hunique

end BalancePlan

end TbManager
