import TbManager.ImportOrder

/-!
# The ids and timestamps of a plan

The genesis accounts are numbered from 1, the accounts follow in import order,
and the synthetic transfers count up from 1 and from a floor. `Timeline` says
this once for both planners.
-/

namespace TbManager

attribute [local irreducible] genesisCreditId genesisDebitId

namespace Account

/-- The number of synthetic transfers that rebuild an account. -/
def sides (a : Account) : ℕ :=
  (if 0 < a.creditsPosted then 1 else 0) + if 0 < a.debitsPosted then 1 else 0

theorem length_postings (a : Account) : a.postings.length = a.sides := by
  unfold postings positivePosting sides
  rw [List.length_append]
  split_ifs <;> rfl

end Account

namespace BalancePlan

/-! ## Emitted transfers -/

/-- The transfers emitted so far count up from 1 and from the floor. -/
structure Numbered (floor : U64) (e : Emission) : Prop where
  ids : e.transfers.map SyntheticTransfer.id =
    (List.range e.transfers.length).map fun i => BitVec.ofNat 128 (i + 1)
  times : e.transfers.map SyntheticTransfer.timestamp =
    (List.range e.transfers.length).map fun i => floor + BitVec.ofNat 64 (i + 1)
  counter : e.transferIdCounter = BitVec.ofNat 128 (e.transfers.length + 1)
  last : e.transferTs = floor + BitVec.ofNat 64 e.transfers.length

theorem numbered_start (floor : U64) : Numbered floor ⟨[], 1, floor⟩ :=
  ⟨rfl, rfl, rfl, (BitVec.add_zero floor).symm⟩

theorem ofNat_succ {w : ℕ} (n : ℕ) : BitVec.ofNat w (n + 1) = BitVec.ofNat w n + 1 := by
  apply BitVec.eq_of_toNat_eq
  change (n + 1) % 2 ^ w = (n % 2 ^ w + 1 % 2 ^ w) % 2 ^ w
  rw [← Nat.add_mod]

theorem push_cases {prof : Profile} {e e' : Emission} {debitId creditId amount : U128}
    {ledger : U32} (h : e.push prof debitId creditId amount ledger = some e') :
    e' =
      { transfers := e.transfers ++
          [{ id := e.transferIdCounter, debitAccountId := debitId, creditAccountId := creditId,
             amount := amount, ledger := ledger, code := 999, timestamp := e.transferTs + 1 }]
        transferIdCounter := e.transferIdCounter + 1
        transferTs := e.transferTs + 1 } := by
  simp only [Emission.push, Option.bind_eq_bind, Option.bind_eq_some_iff] at h
  obtain ⟨ts, hts, counter, hcounter, he⟩ := h
  rw [← Option.some.inj he, Profile.eq_of_add_eq_some hts, Profile.eq_of_add_eq_some hcounter]

theorem numbered_pushPositive {prof : Profile} {floor : U64} {e e' : Emission}
    {debitId creditId amount : U128} {ledger : U32} (hn : Numbered floor e)
    (h : e.pushPositive prof debitId creditId amount ledger = some e') : Numbered floor e' := by
  unfold Emission.pushPositive at h
  split_ifs at h
  · have hlast : e.transferTs + 1 = floor + BitVec.ofNat 64 (e.transfers.length + 1) := by
      rw [hn.last, ofNat_succ, BitVec.add_assoc]
    rw [push_cases h]
    constructor
    · rw [List.map_append, hn.ids, List.length_append, List.length_singleton, List.range_succ,
        List.map_append, List.map_singleton, List.map_singleton, hn.counter]
    · rw [List.map_append, hn.times, List.length_append, List.length_singleton, List.range_succ,
        List.map_append, List.map_singleton, List.map_singleton, hlast]
    · rw [List.length_append, List.length_singleton]
      change e.transferIdCounter + 1 = _
      rw [hn.counter, ← ofNat_succ]
    · rw [List.length_append, List.length_singleton, hlast]
  · rwa [← Option.some.inj h]

theorem emitAccount_cases {prof : Profile} {gen : HashMap U32 (U128 × U128)} {e e' : Emission}
    {acc : Account} (h : emitAccount prof gen e acc = some e') :
    ∃ ids e₁, gen.lookup acc.ledger = some ids ∧
      e.pushPositive prof ids.1 acc.id acc.creditsPosted acc.ledger = some e₁ ∧
      e₁.pushPositive prof acc.id ids.2 acc.debitsPosted acc.ledger = some e' := by
  simp only [emitAccount, Option.bind_eq_bind, Option.bind_eq_some_iff] at h
  obtain ⟨ids, hids, e₁, h₁, h₂⟩ := h
  exact ⟨ids, e₁, hids, h₁, h₂⟩

theorem numbered_fold {prof : Profile} {gen : HashMap U32 (U128 × U128)} {floor : U64}
    {e e' : Emission} {accs : List Account} (hn : Numbered floor e)
    (h : accs.foldlM (emitAccount prof gen) e = some e') : Numbered floor e' := by
  induction accs generalizing e with
  | nil =>
      cases h
      exact hn
  | cons a accs ih =>
      rw [List.foldlM_cons, Option.bind_eq_bind, Option.bind_eq_some_iff] at h
      obtain ⟨e₁, h₁, h₂⟩ := h
      obtain ⟨ids, e₀, _, hcredit, hdebit⟩ := emitAccount_cases h₁
      exact ih (numbered_pushPositive (numbered_pushPositive hn hcredit) hdebit) h₂

/-- A synthetic transfer is the credit or the debit side of an account. -/
def SideOf (t : SyntheticTransfer) (a : Account) : Prop :=
  t.ledger = a.ledger ∧
    (t.debitAccountId = genesisCreditId a.ledger ∧ t.creditAccountId = a.id ∨
      t.debitAccountId = a.id ∧ t.creditAccountId = genesisDebitId a.ledger)

theorem mem_pushPositive {prof : Profile} {e e' : Emission} {debitId creditId amount : U128}
    {ledger : U32} (h : e.pushPositive prof debitId creditId amount ledger = some e')
    {t : SyntheticTransfer} (ht : t ∈ e'.transfers) :
    t ∈ e.transfers ∨
      t.debitAccountId = debitId ∧ t.creditAccountId = creditId ∧ t.ledger = ledger := by
  unfold Emission.pushPositive at h
  split_ifs at h
  · rw [push_cases h] at ht
    rcases List.mem_append.1 ht with ht | ht
    · exact .inl ht
    · rw [List.mem_singleton.1 ht]
      exact .inr ⟨rfl, rfl, rfl⟩
  · rw [← Option.some.inj h] at ht
    exact .inl ht

theorem sideOf_of_mem_fold {prof : Profile} {gen : HashMap U32 (U128 × U128)} {e e' : Emission}
    {accs : List Account} (hgen : ∀ a ∈ accs, gen.lookup a.ledger =
      some (genesisCreditId a.ledger, genesisDebitId a.ledger))
    (h : accs.foldlM (emitAccount prof gen) e = some e') {t : SyntheticTransfer}
    (ht : t ∈ e'.transfers) : t ∈ e.transfers ∨ ∃ a ∈ accs, SideOf t a := by
  induction accs generalizing e with
  | nil =>
      cases h
      exact .inl ht
  | cons a accs ih =>
      rw [List.foldlM_cons, Option.bind_eq_bind, Option.bind_eq_some_iff] at h
      obtain ⟨e₁, h₁, h₂⟩ := h
      rcases ih (fun b hb => hgen b (List.mem_cons_of_mem a hb)) h₂ with ht₁ | ⟨b, hb, hside⟩
      · obtain ⟨ids, e₀, hids, hcredit, hdebit⟩ := emitAccount_cases h₁
        rw [hgen a List.mem_cons_self, Option.some.injEq] at hids
        rw [← hids] at hcredit hdebit
        rcases mem_pushPositive hdebit ht₁ with ht₀ | ⟨hd, hc, hl⟩
        · rcases mem_pushPositive hcredit ht₀ with ht | ⟨hd, hc, hl⟩
          · exact .inl ht
          · exact .inr ⟨a, List.mem_cons_self, hl, .inl ⟨hd, hc⟩⟩
        · exact .inr ⟨a, List.mem_cons_self, hl, .inr ⟨hd, hc⟩⟩
      · exact .inr ⟨b, List.mem_cons_of_mem a hb, hside⟩

theorem pushPositive_of_room (prof : Profile) {floor : U64} {e : Emission}
    (hn : Numbered floor e) (debitId creditId amount : U128) (ledger : U32)
    (hroom : floor.toNat + (e.transfers.length + if 0 < amount then 1 else 0) < 2 ^ 64) :
    ∃ e', e.pushPositive prof debitId creditId amount ledger = some e' ∧
      e'.transfers.length = e.transfers.length + if 0 < amount then 1 else 0 := by
  unfold Emission.pushPositive
  split_ifs at hroom ⊢
  · have hlast : e.transferTs.toNat = floor.toNat + e.transfers.length := by
      rw [hn.last, BitVec.toNat_add, BitVec.toNat_ofNat]
      omega
    have hcounter : e.transferIdCounter.toNat = e.transfers.length + 1 := by
      rw [hn.counter, BitVec.toNat_ofNat]
      omega
    have hts : e.transferTs.toNat + (1 : U64).toNat < 2 ^ 64 := by
      rw [hlast]
      change _ + 1 < 2 ^ 64
      omega
    have hid : e.transferIdCounter.toNat + (1 : U128).toNat < 2 ^ 128 := by
      rw [hcounter]
      change _ + 1 < 2 ^ 128
      omega
    simp only [Emission.push, Profile.add_of_lt prof hts, Profile.add_of_lt prof hid,
      Option.bind_eq_bind, Option.bind_some]
    exact ⟨_, rfl, by simp⟩
  · exact ⟨e, rfl, rfl⟩

theorem fold_of_room (prof : Profile) {gen : HashMap U32 (U128 × U128)} {floor : U64}
    {e : Emission} {accs : List Account} (hn : Numbered floor e)
    (hgen : ∀ a ∈ accs, (gen.lookup a.ledger).isSome)
    (hroom : floor.toNat + (e.transfers.length + (accs.map Account.sides).sum) < 2 ^ 64) :
    ∃ e', accs.foldlM (emitAccount prof gen) e = some e' := by
  induction accs generalizing e with
  | nil => exact ⟨e, rfl⟩
  | cons a accs ih =>
      rw [List.map_cons, List.sum_cons, Account.sides] at hroom
      obtain ⟨ids, hids⟩ := Option.isSome_iff_exists.1 (hgen a List.mem_cons_self)
      obtain ⟨e₁, h₁, hlen₁⟩ := pushPositive_of_room prof hn ids.1 a.id a.creditsPosted a.ledger
        (by omega)
      have hn₁ := numbered_pushPositive hn h₁
      obtain ⟨e₂, h₂, hlen₂⟩ := pushPositive_of_room prof hn₁ a.id ids.2 a.debitsPosted a.ledger
        (by rw [hlen₁]; omega)
      obtain ⟨e', he'⟩ := ih (numbered_pushPositive hn₁ h₂)
        (fun b hb => hgen b (List.mem_cons_of_mem a hb)) (by rw [hlen₂, hlen₁]; omega)
      refine ⟨e', ?_⟩
      have hemit : emitAccount prof gen e a = some e₂ := by
        simp only [emitAccount, hids, h₁, h₂, Option.bind_eq_bind, Option.bind_some]
      rw [List.foldlM_cons, hemit]
      exact he'

/-! ## Genesis accounts -/

theorem groups_length (ord : IterOrder U32 (List Account)) (accounts : List Account) :
    (groups ord accounts).length = (accounts.map Account.ledger).dedup.length := by
  have hperm : ((groups ord accounts).map AccountGroup.ledger).Perm
      (accounts.map Account.ledger).dedup := by
    rw [List.perm_ext_iff_of_nodup (groups_ledgers_nodup ord accounts) (List.nodup_dedup _)]
    intro l
    rw [ledger_mem_groups, List.mem_dedup]
  rw [← hperm.length_eq, List.length_map]

theorem groups_length_le (ord : IterOrder U32 (List Account)) (accounts : List Account) :
    (groups ord accounts).length ≤ 2 ^ 32 := by
  have hnodup : (((groups ord accounts).map AccountGroup.ledger).map BitVec.toNat).Nodup :=
    (groups_ledgers_nodup ord accounts).map fun _ _ h => BitVec.eq_of_toNat_eq h
  have hsub : ((groups ord accounts).map AccountGroup.ledger).map BitVec.toNat ⊆
      List.range (2 ^ 32) := by
    intro n hn
    obtain ⟨l, _, rfl⟩ := List.mem_map.1 hn
    exact List.mem_range.2 l.isLt
  simpa using (hnodup.subperm hsub).length_le

theorem genesisAccountsOf_ids (gs : List AccountGroup) :
    (genesisAccountsOf gs).map Account.id =
      gs.flatMap fun g => [g.genesisCreditId, g.genesisDebitId] := by
  have hgo : ∀ n, ((gs.zipIdx n).flatMap fun gi => genesisPair gi.2 gi.1).map Account.id =
      gs.flatMap fun g => [g.genesisCreditId, g.genesisDebitId] := by
    induction gs with
    | nil => exact fun _ => rfl
    | cons g gs ih =>
        intro n
        rw [List.zipIdx_cons, List.flatMap_cons, List.map_append, ih, List.flatMap_cons]
        rfl
  exact hgo 0

theorem toNat_genesisTs {i : ℕ} (h : i ≤ 2 ^ 32) :
    (BitVec.ofNat 64 i * 2 + 1).toNat = 2 * i + 1 ∧
      (BitVec.ofNat 64 i * 2 + 1 + 1).toNat = 2 * i + 2 := by
  have hmul : (BitVec.ofNat 64 i * 2).toNat = 2 * i := by
    rw [BitVec.toNat_mul, BitVec.toNat_ofNat]
    change i % 2 ^ 64 * 2 % 2 ^ 64 = 2 * i
    omega
  have hadd : (BitVec.ofNat 64 i * 2 + 1).toNat = 2 * i + 1 := by
    rw [BitVec.toNat_add, hmul]
    change (2 * i + 1) % 2 ^ 64 = _
    omega
  refine ⟨hadd, ?_⟩
  rw [BitVec.toNat_add, hadd]
  change (2 * i + 1 + 1) % 2 ^ 64 = _
  omega

theorem genesisAccountsOf_times {gs : List AccountGroup} (h : gs.length ≤ 2 ^ 32) :
    (genesisAccountsOf gs).map (fun a => a.timestamp.toNat) = List.range' 1 (2 * gs.length) := by
  have hgo : ∀ (gs : List AccountGroup) n, n + gs.length ≤ 2 ^ 32 →
      ((gs.zipIdx n).flatMap fun gi => genesisPair gi.2 gi.1).map (fun a => a.timestamp.toNat) =
        List.range' (2 * n + 1) (2 * gs.length) := by
    intro gs
    induction gs with
    | nil => exact fun _ _ => rfl
    | cons g gs ih =>
        intro n hn
        rw [List.length_cons] at hn ⊢
        have hts := toNat_genesisTs (i := n) (by omega)
        rw [List.zipIdx_cons, List.flatMap_cons, List.map_append, ih (n + 1) (by omega),
          show 2 * (gs.length + 1) = 2 * gs.length + 1 + 1 by omega, List.range'_succ,
          List.range'_succ]
        change [(BitVec.ofNat 64 n * 2 + 1).toNat, (BitVec.ofNat 64 n * 2 + 1 + 1).toNat] ++ _ = _
        rw [hts.1, hts.2]
        rfl
  exact hgo gs 0 (by omega)

theorem genesisAccountsOf_length (gs : List AccountGroup) :
    (genesisAccountsOf gs).length = 2 * gs.length := by
  have hids := congrArg List.length (genesisAccountsOf_ids gs)
  rw [List.length_map, List.length_flatMap] at hids
  rw [hids]
  simp [Nat.mul_comm]

theorem mem_genesisAccountsOf_groups {ord : IterOrder U32 (List Account)}
    {accounts : List Account} {l : U32} (hl : l ∈ accounts.map Account.ledger) {i : U128}
    (hi : i = genesisCreditId l ∨ i = genesisDebitId l) :
    ∃ g ∈ genesisAccountsOf (groups ord accounts), g.id = i ∧ g.ledger = l := by
  obtain ⟨g, hg, rfl⟩ := List.mem_map.1 ((ledger_mem_groups ord accounts l).2 hl)
  have hge := (mem_groups hg).1
  obtain ⟨n, hn⟩ := genesisPair_mem hg
  rcases hi with rfl | rfl
  · exact ⟨_, hn _ List.mem_cons_self, congrArg AccountGroup.genesisCreditId hge, rfl⟩
  · exact ⟨_, hn _ (List.mem_cons_of_mem _ List.mem_cons_self),
      congrArg AccountGroup.genesisDebitId hge, rfl⟩

/-! ## Both planners -/

def genesisMaxTs (accounts : List Account) : U64 :=
  BitVec.ofNat 64 (2 * (accounts.map Account.ledger).dedup.length)

theorem genesisMaxTs_eq (ord : IterOrder U32 (List Account)) (accounts : List Account) :
    BitVec.ofNat 64 (genesisAccountsOf (groups ord accounts)).length = genesisMaxTs accounts := by
  rw [genesisAccountsOf_length, groups_length]
  rfl

theorem toNat_genesisMaxTs (accounts : List Account) :
    (genesisMaxTs accounts).toNat = 2 * (accounts.map Account.ledger).dedup.length := by
  have hle := groups_length_le .stored accounts
  rw [groups_length] at hle
  rw [genesisMaxTs, BitVec.toNat_ofNat]
  omega

/-- Transfers that are numbered from 1, without overflow. -/
theorem toNat_ids_of_numbered {transfers : List SyntheticTransfer} {n : ℕ}
    (h : transfers.map SyntheticTransfer.id =
      (List.range n).map fun i => BitVec.ofNat 128 (i + 1)) (hn : n < 2 ^ 64) :
    (transfers.map fun t => t.id.toNat) = List.range' 1 n := by
  have hids := congrArg (List.map BitVec.toNat) h
  rw [List.map_map, List.map_map] at hids
  refine hids.trans ?_
  rw [List.range'_eq_map_range]
  apply List.map_congr_left
  intro i hi
  rw [List.mem_range] at hi
  change (i + 1) % 2 ^ 128 = 1 + i
  omega

/-- The ids and timestamps of every plan of an account list. -/
structure Timeline (ord : IterOrder U32 (List Account)) (accounts : List Account)
    (windowedMode : Bool) (plan : BalancePlan) : Prop where
  genesis : plan.genesisAccounts = genesisAccountsOf (groups ord accounts)
  regular : plan.regularAccounts.map Account.untimed =
    (importOrder accounts).map Account.untimed
  times : plan.regularAccounts.map Account.timestamp =
    bumpedTimes (genesisMaxTs accounts) ((importOrder accounts).map Account.timestamp)
  ids : plan.syntheticTransfers.map SyntheticTransfer.id =
    (List.range plan.syntheticTransfers.length).map fun i => BitVec.ofNat 128 (i + 1)
  transferTimes : plan.syntheticTransfers.map SyntheticTransfer.timestamp =
    (List.range plan.syntheticTransfers.length).map fun i =>
      transferTsFloor windowedMode (genesisMaxTs accounts) plan.regularAccounts +
        BitVec.ofNat 64 (i + 1)
  sides : ∀ t ∈ plan.syntheticTransfers, ∃ a ∈ plan.regularAccounts, SideOf t a
  count : plan.syntheticTransfers.length = (accounts.map Account.sides).sum

theorem buildSnapshotImpl_timeline {prof : Profile} {ord : IterOrder U32 (List Account)}
    {accounts : List Account} {windowedMode : Bool} {plan : BalancePlan}
    (h : buildSnapshotImpl prof ord accounts windowedMode = some plan) :
    Timeline ord accounts windowedMode plan := by
  have hshape := buildSnapshotImpl_shape h
  simp only [buildSnapshotImpl, Option.bind_eq_bind, Option.bind_eq_some_iff,
    sorted_eq_importOrder, genesisMaxTs_eq] at h
  obtain ⟨regular, hreg, e, he, hplan⟩ := h
  have hnumbered := numbered_fold (numbered_start _) he
  rw [← Option.some.inj hplan] at hshape ⊢
  constructor
  · rfl
  · exact bumpTimestamps_untimed hreg
  · exact bumpTimestamps_times hreg
  · exact hnumbered.ids
  · exact hnumbered.times
  · intro t ht
    rcases sideOf_of_mem_fold (lookup_of_bumped hshape.regular) he ht with ht | hside
    · cases ht
    · exact hside
  · have hlen := congrArg List.length hshape.postings
    rw [List.length_map, List.length_flatMap] at hlen
    simp only [Account.length_postings] at hlen
    have hperm := (hshape.regular.map Account.sides).sum_eq
    rw [List.map_map, List.map_map] at hperm
    exact hlen.trans hperm

end BalancePlan

end TbManager
