import TbManager.PlanIds

/-!
# Timestamps of a snapshot plan

Genesis accounts, accounts and synthetic transfers take their timestamps from
three counters in a row. Each starts after the last value of the one before, so
a transfer postdates every account of the plan.
-/

namespace TbManager

attribute [local irreducible] genesisCreditId genesisDebitId

namespace BalancePlan

/-! ## Counting up from a floor -/

theorem toNat_counted {floor : U64} {n i : ℕ} (h : floor.toNat + n < 2 ^ 64) (hi : i < n) :
    (floor + BitVec.ofNat 64 (i + 1)).toNat = floor.toNat + (i + 1) := by
  rw [BitVec.toNat_add, BitVec.toNat_ofNat]
  omega

theorem pairwise_counted {floor : U64} {n : ℕ} (h : floor.toNat + n < 2 ^ 64) :
    ((List.range n).map fun i => floor + BitVec.ofNat 64 (i + 1)).Pairwise (· < ·) := by
  rw [List.pairwise_map]
  apply List.pairwise_lt_range.imp_of_mem
  intro i j hi hj hij
  rw [BitVec.lt_def, toNat_counted h (List.mem_range.1 hi), toNat_counted h (List.mem_range.1 hj)]
  omega

/-! ## Room below `2 ^ 64` -/

/-- The last timestamp of the planned accounts, computed without a bound. -/
def lastAccountTs (accounts : List Account) : ℕ :=
  raiseEnd (2 * (accounts.map Account.ledger).dedup.length)
    ((importOrder accounts).map fun a => a.timestamp.toNat)

/-- The last timestamp that a snapshot plan emits is a `u64`. -/
def HasRoom (accounts : List Account) : Prop :=
  lastAccountTs accounts + (accounts.map Account.sides).sum < 2 ^ 64

instance (accounts : List Account) : Decidable (HasRoom accounts) :=
  inferInstanceAs (Decidable (_ < _))

section Room

variable {accounts regular : List Account}

theorem toNat_regular_times (h : regular.map Account.timestamp =
      bumpedTimes (genesisMaxTs accounts) ((importOrder accounts).map Account.timestamp))
    (hroom : lastAccountTs accounts < 2 ^ 64) :
    (regular.map fun a => a.timestamp.toNat) =
      raise (2 * (accounts.map Account.ledger).dedup.length)
        ((importOrder accounts).map fun a => a.timestamp.toNat) := by
  have htimes := congrArg (List.map BitVec.toNat) h
  rw [toNat_bumpedTimes, List.map_map, List.map_map, toNat_genesisMaxTs] at htimes
  · exact htimes
  · rw [List.map_map, toNat_genesisMaxTs]
    exact hroom

theorem toNat_floor (h : regular.map Account.timestamp =
      bumpedTimes (genesisMaxTs accounts) ((importOrder accounts).map Account.timestamp))
    (hroom : lastAccountTs accounts < 2 ^ 64) :
    (transferTsFloor false (genesisMaxTs accounts) regular).toNat = lastAccountTs accounts := by
  have htimes := toNat_regular_times h hroom
  rw [lastAccountTs, ← getLast?_raise, ← htimes, List.getLast?_map, transferTsFloor,
    ← toNat_genesisMaxTs]
  cases regular.getLast? <;> rfl

theorem build_of_room (prof : Profile) (ord : IterOrder U32 (List Account))
    (hroom : HasRoom accounts) : ∃ plan, build prof ord accounts = some plan := by
  have hlast : lastAccountTs accounts < 2 ^ 64 := (Nat.le_add_right _ _).trans_lt hroom
  obtain ⟨regular, hreg⟩ : ∃ out,
      bumpTimestamps prof (genesisMaxTs accounts) (importOrder accounts) = some out := by
    apply bumpTimestamps_of_room
    rw [toNat_genesisMaxTs]
    exact hlast
  have hperm : (regular.map Account.untimed).Perm (accounts.map Account.untimed) := by
    rw [bumpTimestamps_untimed hreg]
    exact (importOrder_perm accounts).map _
  have hsides := (hperm.map Account.sides).sum_eq
  rw [List.map_map, List.map_map] at hsides
  have hfloor := toNat_floor (bumpTimestamps_times hreg) hlast
  obtain ⟨e, he⟩ : ∃ e, regular.foldlM (emitAccount prof (genesisByLedger (groups ord accounts)))
      ⟨[], 1, transferTsFloor false (genesisMaxTs accounts) regular⟩ = some e := by
    apply fold_of_room prof (numbered_start _)
    · exact fun a ha => Option.isSome_of_eq_some (lookup_of_bumped hperm a ha)
    · rw [hfloor, List.length_nil, Nat.zero_add]
      exact lt_of_eq_of_lt (congrArg _ hsides) hroom
  simp only [build, buildSnapshotImpl, sorted_eq_importOrder, genesisMaxTs_eq, hreg, he,
    Option.bind_eq_bind, Option.bind_some]
  exact ⟨_, rfl⟩

end Room

/-! ## Acceptable timestamps -/

/-- The account a transfer names is in the plan, on the ledger of the transfer and
before it. -/
def Postdates (plan : BalancePlan) (t : SyntheticTransfer) (id : U128) : Prop :=
  id ∈ (plan.genesisAccounts ++ plan.regularAccounts).map Account.id ∧
    ∀ a ∈ plan.genesisAccounts ++ plan.regularAccounts, a.id = id →
      a.ledger = t.ledger ∧ a.timestamp < t.timestamp

/-- What the target asks of the timestamps of imported events. -/
structure Importable (plan : BalancePlan) : Prop where
  positive : ∀ a ∈ plan.genesisAccounts ++ plan.regularAccounts, 0 < a.timestamp
  accounts : ((plan.genesisAccounts ++ plan.regularAccounts).map Account.timestamp).Pairwise
    (· < ·)
  transfers : (plan.syntheticTransfers.map SyntheticTransfer.timestamp).Pairwise (· < ·)
  named : ∀ t ∈ plan.syntheticTransfers,
    plan.Postdates t t.debitAccountId ∧ plan.Postdates t t.creditAccountId

section Importable

variable {ord : IterOrder U32 (List Account)} {accounts : List Account} {plan : BalancePlan}

/-- The account timestamps of a plan are one raised list, after the genesis accounts. -/
theorem toNat_account_times (h : Timeline ord accounts false plan)
    (hroom : lastAccountTs accounts < 2 ^ 64) :
    ((plan.genesisAccounts ++ plan.regularAccounts).map fun a => a.timestamp.toNat) =
      List.range' 1 (2 * (accounts.map Account.ledger).dedup.length) ++
        raise (2 * (accounts.map Account.ledger).dedup.length)
          ((importOrder accounts).map fun a => a.timestamp.toNat) := by
  rw [List.map_append, h.genesis, genesisAccountsOf_times (groups_length_le ord accounts),
    groups_length, toNat_regular_times h.times hroom]

theorem account_times_le (h : Timeline ord accounts false plan)
    (hroom : lastAccountTs accounts < 2 ^ 64) :
    ∀ a ∈ plan.genesisAccounts ++ plan.regularAccounts,
      0 < a.timestamp.toNat ∧ a.timestamp.toNat ≤ lastAccountTs accounts := by
  intro a ha
  have hmem := List.mem_map_of_mem (f := fun a : Account => a.timestamp.toNat) ha
  rw [toNat_account_times h hroom] at hmem
  rcases List.mem_append.1 hmem with hmem | hmem
  · rw [List.mem_range'_1] at hmem
    have hle := le_raiseEnd (2 * (accounts.map Account.ledger).dedup.length)
      ((importOrder accounts).map fun a => a.timestamp.toNat)
    change _ ≤ lastAccountTs accounts at hle
    omega
  · have hgt := lt_of_mem_raise hmem
    exact ⟨by omega, le_raiseEnd_of_mem hmem⟩

theorem account_times_increasing (h : Timeline ord accounts false plan)
    (hroom : lastAccountTs accounts < 2 ^ 64) :
    ((plan.genesisAccounts ++ plan.regularAccounts).map Account.timestamp).Pairwise
      (· < ·) := by
  have hnat : ((plan.genesisAccounts ++ plan.regularAccounts).map
      fun a => a.timestamp.toNat).Pairwise (· < ·) := by
    rw [toNat_account_times h hroom, List.pairwise_append]
    refine ⟨List.pairwise_lt_range', pairwise_raise _ _, fun m hm n hn => ?_⟩
    rw [List.mem_range'_1] at hm
    have hgt := lt_of_mem_raise hn
    omega
  rw [List.pairwise_map] at hnat ⊢
  exact hnat.imp fun hlt => BitVec.lt_def.2 hlt

theorem transfer_times_gt (h : Timeline ord accounts false plan) (hroom : HasRoom accounts)
    {t : SyntheticTransfer} (ht : t ∈ plan.syntheticTransfers) :
    lastAccountTs accounts < t.timestamp.toNat := by
  have hlast : lastAccountTs accounts < 2 ^ 64 := (Nat.le_add_right _ _).trans_lt hroom
  have hfloor := toNat_floor h.times hlast
  have hmem := List.mem_map_of_mem (f := SyntheticTransfer.timestamp) ht
  rw [h.transferTimes, List.mem_map] at hmem
  obtain ⟨i, hi, hts⟩ := hmem
  have hroom' : (transferTsFloor false (genesisMaxTs accounts) plan.regularAccounts).toNat +
      plan.syntheticTransfers.length < 2 ^ 64 := by
    rw [hfloor, h.count]
    exact hroom
  rw [← hts, toNat_counted hroom' (List.mem_range.1 hi), hfloor]
  omega

theorem importable_of_room (hshape : Shape accounts plan) (h : Timeline ord accounts false plan)
    (hf : FreshIds accounts) (hroom : HasRoom accounts) : plan.Importable := by
  have hlast : lastAccountTs accounts < 2 ^ 64 := (Nat.le_add_right _ _).trans_lt hroom
  have hdistinct := distinct_of_avoidGenesisIds hshape
    (h.genesis ▸ genesis_ids_nodup ord accounts) hf.distinct hf.notGenesis
  constructor
  · exact fun a ha => BitVec.lt_def.2 (account_times_le h hlast a ha).1
  · exact account_times_increasing h hlast
  · rw [h.transferTimes]
    apply pairwise_counted
    rw [toNat_floor h.times hlast, h.count]
    exact hroom
  · intro t ht
    have hbefore : ∀ a ∈ plan.genesisAccounts ++ plan.regularAccounts,
        a.timestamp < t.timestamp := by
      intro a ha
      rw [BitVec.lt_def]
      exact (account_times_le h hlast a ha).2.trans_lt (transfer_times_gt h hroom ht)
    have hnamed : ∀ b ∈ plan.genesisAccounts ++ plan.regularAccounts, b.ledger = t.ledger →
        plan.Postdates t b.id := by
      intro b hb hledger
      refine ⟨List.mem_map_of_mem hb, fun a ha hid => ⟨?_, hbefore a ha⟩⟩
      rw [List.inj_on_of_nodup_map hdistinct ha hb hid, hledger]
    obtain ⟨b, hb, hledger, hsides⟩ := h.sides t ht
    have hregular := hnamed b (List.mem_append_right _ hb) hledger.symm
    have hgenesis : ∀ i, i = genesisCreditId b.ledger ∨ i = genesisDebitId b.ledger →
        plan.Postdates t i := by
      intro i hi
      have hmem := hshape.ledgerPerm.mem_iff.1 (List.mem_map_of_mem hb)
      obtain ⟨g, hg, hgid, hgl⟩ : ∃ g ∈ genesisAccountsOf (groups ord accounts),
          g.id = i ∧ g.ledger = b.ledger := mem_genesisAccountsOf_groups hmem hi
      rw [← h.genesis] at hg
      rw [← hgid]
      exact hnamed g (List.mem_append_left _ hg) (hgl.trans hledger.symm)
    rcases hsides with ⟨hd, hc⟩ | ⟨hd, hc⟩
    · rw [hd, hc]
      exact ⟨hgenesis _ (.inl rfl), hregular⟩
    · rw [hd, hc]
      exact ⟨hregular, hgenesis _ (.inr rfl)⟩

end Importable

/-- A snapshot plan of accounts with fresh ids and room for its timestamps is
returned by every build, with timestamps that the target accepts. -/
theorem build_importable (prof : Profile) (ord : IterOrder U32 (List Account))
    (accounts : List Account) (hf : FreshIds accounts) (hroom : HasRoom accounts) :
    ∃ plan, build prof ord accounts = some plan ∧ plan.Importable := by
  obtain ⟨plan, hplan⟩ := build_of_room prof ord hroom
  exact ⟨plan, hplan, importable_of_room (buildSnapshotImpl_shape hplan)
    (buildSnapshotImpl_timeline hplan) hf hroom⟩

def clustered : List Account :=
  [.holding 7 2 40 100 500, .holding 8 1 0 5 500, .holding 9 1 60 0 0]

theorem build_importable_clustered :
    FreshIds clustered ∧ HasRoom clustered ∧
    ∃ plan, build .debug .stored clustered = some plan ∧ plan.Importable :=
  have hf : FreshIds clustered := by decide +kernel
  have hroom : HasRoom clustered := by decide +kernel
  ⟨hf, hroom, build_importable .debug .stored clustered hf hroom⟩

end BalancePlan

end TbManager
