import TbManager.BalancePlan
import TbManager.DoubleEntry

/-!
# What a balance plan contains

Grouping, sorting and the rewriting of timestamps neither lose, duplicate nor
change an account, and the synthetic transfers are the two postings of each
planned account, in plan order. `buildSnapshotImpl_shape` says this once for
both planners.
-/

namespace TbManager

theorem toNat_genesisCreditId (l : U32) :
    (genesisCreditId l).toNat = 2 ^ 128 - 1 - 2 * l.toNat := by
  have hl := l.isLt
  have h2 : (l.setWidth 128 * 2).toNat = 2 * l.toNat := by
    rw [BitVec.toNat_mul, BitVec.toNat_setWidth]
    change (l.toNat % 2 ^ 128) * 2 % 2 ^ 128 = 2 * l.toNat
    omega
  rw [genesisCreditId, BitVec.toNat_sub, h2, BitVec.toNat_allOnes]
  omega

theorem toNat_genesisDebitId (l : U32) :
    (genesisDebitId l).toNat = 2 ^ 128 - 2 - 2 * l.toNat := by
  have hl := l.isLt
  have h1 : genesisDebitId l = genesisCreditId l - 1 := rfl
  rw [h1, BitVec.toNat_sub, toNat_genesisCreditId]
  change (2 ^ 128 - 1 + (2 ^ 128 - 1 - 2 * l.toNat)) % 2 ^ 128 = _
  omega

theorem genesisCreditId_inj {l l' : U32} (h : genesisCreditId l = genesisCreditId l') : l = l' := by
  have hn := congrArg BitVec.toNat h
  have hl := l.isLt
  have hl' := l'.isLt
  rw [toNat_genesisCreditId, toNat_genesisCreditId] at hn
  apply BitVec.eq_of_toNat_eq
  omega

theorem genesisDebitId_inj {l l' : U32} (h : genesisDebitId l = genesisDebitId l') : l = l' := by
  have hn := congrArg BitVec.toNat h
  have hl := l.isLt
  have hl' := l'.isLt
  rw [toNat_genesisDebitId, toNat_genesisDebitId] at hn
  apply BitVec.eq_of_toNat_eq
  omega

theorem genesisCreditId_ne_genesisDebitId (l l' : U32) : genesisCreditId l ≠ genesisDebitId l' := by
  intro h
  have hn := congrArg BitVec.toNat h
  have hl := l.isLt
  have hl' := l'.isLt
  rw [toNat_genesisCreditId, toNat_genesisDebitId] at hn
  omega

attribute [local irreducible] genesisCreditId genesisDebitId

namespace Account

/-- An account without the field that the planner rewrites. -/
def untimed (a : Account) : Account := { a with timestamp := 0 }

def postedTotals (a : Account) : Totals ℕ := ⟨a.debitsPosted.toNat, a.creditsPosted.toNat⟩

/-- The posting of a positive amount, none for zero. -/
def positivePosting (debitId creditId amount : U128) : List (Posting U128 ℕ) :=
  if 0 < amount then [⟨debitId, creditId, amount.toNat⟩] else []

/-- The postings that rebuild an account: the credit side, then the debit side. -/
def postings (a : Account) : List (Posting U128 ℕ) :=
  positivePosting (genesisCreditId a.ledger) a.id a.creditsPosted ++
    positivePosting a.id (genesisDebitId a.ledger) a.debitsPosted

theorem mem_positivePosting {debitId creditId amount : U128} {p : Posting U128 ℕ}
    (hp : p ∈ positivePosting debitId creditId amount) :
    p.debit = debitId ∧ p.credit = creditId := by
  unfold positivePosting at hp
  split_ifs at hp
  · rw [List.mem_singleton.1 hp]
    exact ⟨rfl, rfl⟩
  · cases hp

theorem mem_postings {a : Account} {p : Posting U128 ℕ} (hp : p ∈ a.postings) :
    (p.debit = genesisCreditId a.ledger ∧ p.credit = a.id) ∨
      (p.debit = a.id ∧ p.credit = genesisDebitId a.ledger) := by
  rcases List.mem_append.1 hp with hp | hp
  · exact .inl (mem_positivePosting hp)
  · exact .inr (mem_positivePosting hp)

theorem toNat_eq_zero_of_not_pos {x : U128} (h : ¬ 0 < x) : x.toNat = 0 :=
  Nat.eq_zero_of_not_pos fun hx => h (BitVec.lt_def.2 hx)

theorem debitTotal_positivePosting (i debitId creditId amount : U128) :
    debitTotal i (positivePosting debitId creditId amount) =
      if debitId = i then amount.toNat else 0 := by
  unfold positivePosting
  split_ifs with hpos hi hi
  · simp [debitTotal_cons, hi]
  · simp [debitTotal_cons, hi]
  · exact (toNat_eq_zero_of_not_pos hpos).symm
  · rfl

theorem creditTotal_positivePosting (i debitId creditId amount : U128) :
    creditTotal i (positivePosting debitId creditId amount) =
      if creditId = i then amount.toNat else 0 := by
  unfold positivePosting
  split_ifs with hpos hi hi
  · simp [creditTotal_cons, hi]
  · simp [creditTotal_cons, hi]
  · exact (toNat_eq_zero_of_not_pos hpos).symm
  · rfl

theorem debitTotal_postings (i : U128) (a : Account) :
    debitTotal i a.postings = (if genesisCreditId a.ledger = i then a.creditsPosted.toNat else 0) +
      if a.id = i then a.debitsPosted.toNat else 0 := by
  rw [postings, debitTotal_append, debitTotal_positivePosting, debitTotal_positivePosting]

theorem creditTotal_postings (i : U128) (a : Account) :
    creditTotal i a.postings = (if a.id = i then a.creditsPosted.toNat else 0) +
      if genesisDebitId a.ledger = i then a.debitsPosted.toNat else 0 := by
  rw [postings, creditTotal_append, creditTotal_positivePosting, creditTotal_positivePosting]

end Account

def SyntheticTransfer.posting (t : SyntheticTransfer) : Posting U128 ℕ :=
  ⟨t.debitAccountId, t.creditAccountId, t.amount.toNat⟩

def Transfer.posting (t : Transfer) : Posting U128 ℕ :=
  ⟨t.debitAccountId, t.creditAccountId, t.amount.toNat⟩

namespace BalancePlan

/-! ## Groups -/

theorem mem_groups {ord : IterOrder U32 (List Account)} {accounts : List Account}
    {g : AccountGroup} (hg : g ∈ groups ord accounts) :
    g = groupOf g.ledger g.accounts ∧ g.ledger ∈ groupsMap accounts := by
  rw [groups, List.mem_insertionSort] at hg
  obtain ⟨e, he, rfl⟩ := List.mem_map.1 hg
  have he' := (HashMap.iter_perm (groupsMap accounts) ord).mem_iff.1 he
  exact ⟨rfl, AList.mem_keys.2 (List.mem_map_of_mem (f := Sigma.fst) he')⟩

theorem mem_groupsMap (accounts : List Account) (l : U32) :
    l ∈ groupsMap accounts ↔ l ∈ accounts.map Account.ledger := by
  rw [groupsMap, HashMap.mem_pushAll]
  simp

theorem ledger_mem_groups (ord : IterOrder U32 (List Account)) (accounts : List Account) (l : U32) :
    l ∈ (groups ord accounts).map AccountGroup.ledger ↔ l ∈ accounts.map Account.ledger := by
  rw [← mem_groupsMap]
  constructor
  · intro h
    obtain ⟨g, hg, rfl⟩ := List.mem_map.1 h
    exact (mem_groups hg).2
  · intro h
    obtain ⟨e, he, rfl⟩ := List.mem_map.1 (AList.mem_keys.1 h)
    have he' := (HashMap.iter_perm (groupsMap accounts) ord).mem_iff.2 he
    apply List.mem_map.2 ⟨groupOf e.1 e.2, ?_, rfl⟩
    rw [groups, List.mem_insertionSort]
    exact List.mem_map_of_mem he'

theorem groups_accounts_perm (ord : IterOrder U32 (List Account)) (accounts : List Account) :
    ((groups ord accounts).flatMap AccountGroup.accounts).Perm accounts := by
  have hsort := (List.perm_insertionSort (fun g h : AccountGroup => g.ledger ≤ h.ledger)
    ((HashMap.iter (groupsMap accounts) ord).map fun e => groupOf e.1 e.2)).flatMap_right
      AccountGroup.accounts
  have hiter := (HashMap.iter_perm (groupsMap accounts) ord).flatMap_right Sigma.snd
  have hmem : (HashMap.members (groupsMap accounts)).Perm accounts := by
    simpa [HashMap.members, groupsMap] using
      HashMap.members_pushAll Account.ledger ∅ accounts
  refine hsort.trans ?_
  rw [List.flatMap_map]
  exact hiter.trans hmem

theorem lookup_genesisByLedger {ord : IterOrder U32 (List Account)} {accounts : List Account}
    {l : U32} (hl : l ∈ accounts.map Account.ledger) :
    (genesisByLedger (groups ord accounts)).lookup l =
      some (genesisCreditId l, genesisDebitId l) := by
  rw [genesisByLedger, HashMap.lookup_insertAll]
  have hsome : ((groups ord accounts).reverse.find? fun g => g.ledger = l).isSome := by
    obtain ⟨g, hg, hgl⟩ := List.mem_map.1 ((ledger_mem_groups ord accounts l).2 hl)
    rw [List.find?_isSome]
    exact ⟨g, List.mem_reverse.2 hg, by simpa using hgl⟩
  obtain ⟨g, hg⟩ := Option.isSome_iff_exists.1 hsome
  have hgl : g.ledger = l := by simpa using List.find?_some hg
  have hgm := mem_groups (List.mem_reverse.1 (List.mem_of_find?_eq_some hg))
  rw [hg, Option.map_some, Option.some_or, hgm.1, ← hgl]
  rfl

/-! ## Genesis accounts -/

theorem mem_genesisAccountsOf {gs : List AccountGroup} {a : Account}
    (ha : a ∈ genesisAccountsOf gs) : ∃ g ∈ gs, ∃ ts,
      a = genesisAccount g.genesisCreditId g.ledger ts ∨
        a = genesisAccount g.genesisDebitId g.ledger ts := by
  obtain ⟨⟨g, i⟩, hgi, ha⟩ := List.mem_flatMap.1 ha
  have hg : g ∈ gs := (List.mem_zipIdx hgi).2.2 ▸ List.getElem_mem _
  refine ⟨g, hg, ?_⟩
  rcases List.mem_cons.1 ha with rfl | ha
  · exact ⟨_, .inl rfl⟩
  · rw [List.mem_singleton] at ha
    exact ⟨_, .inr ha⟩

theorem genesisPair_mem {gs : List AccountGroup} {g : AccountGroup} (hg : g ∈ gs) :
    ∃ i, ∀ a ∈ genesisPair i g, a ∈ genesisAccountsOf gs := by
  obtain ⟨i, hi, rfl⟩ := List.getElem_of_mem hg
  refine ⟨i, fun a ha => List.mem_flatMap.2 ⟨(gs[i], i), ?_, ha⟩⟩
  exact List.mk_mem_zipIdx_iff_getElem?.2 (List.getElem?_eq_getElem hi)

theorem mem_genesis_ids (ord : IterOrder U32 (List Account)) (accounts : List Account) (i : U128) :
    i ∈ (genesisAccountsOf (groups ord accounts)).map Account.id ↔
      ∃ l ∈ accounts.map Account.ledger, i = genesisCreditId l ∨ i = genesisDebitId l := by
  constructor
  · intro h
    obtain ⟨a, ha, rfl⟩ := List.mem_map.1 h
    obtain ⟨g, hg, ts, ha⟩ := mem_genesisAccountsOf ha
    have hgl := (ledger_mem_groups ord accounts g.ledger).1 (List.mem_map_of_mem hg)
    have hge := (mem_groups hg).1
    refine ⟨g.ledger, hgl, ?_⟩
    rcases ha with rfl | rfl
    · exact .inl (congrArg AccountGroup.genesisCreditId hge)
    · exact .inr (congrArg AccountGroup.genesisDebitId hge)
  · rintro ⟨l, hl, hi⟩
    obtain ⟨g, hg, rfl⟩ := List.mem_map.1 ((ledger_mem_groups ord accounts l).2 hl)
    have hge := (mem_groups hg).1
    obtain ⟨n, hn⟩ := genesisPair_mem hg
    rcases hi with rfl | rfl
    · exact List.mem_map.2 ⟨_, hn _ List.mem_cons_self,
        congrArg AccountGroup.genesisCreditId hge⟩
    · exact List.mem_map.2 ⟨_, hn _ (List.mem_cons_of_mem _ List.mem_cons_self),
        congrArg AccountGroup.genesisDebitId hge⟩

/-! ## Timestamps -/

theorem bumpTimestamps_untimed {prof : Profile} {prevTs : U64} {accs out : List Account}
    (h : bumpTimestamps prof prevTs accs = some out) :
    out.map Account.untimed = accs.map Account.untimed := by
  induction accs generalizing prevTs out with
  | nil =>
      cases h
      rfl
  | cons acc accs ih =>
      simp only [bumpTimestamps, Option.bind_eq_bind, Option.bind_eq_some_iff] at h
      obtain ⟨ts, _, rest, hrest, hout⟩ := h
      rw [← Option.some.inj hout, List.map_cons, List.map_cons, ih hrest]
      rfl

theorem bump_release (prevTs ts : U64) : ∃ t, bump .release prevTs ts = some t := by
  unfold bump
  split_ifs
  · exact ⟨_, rfl⟩
  · exact ⟨_, rfl⟩

theorem bumpTimestamps_release (prevTs : U64) (accs : List Account) :
    ∃ out, bumpTimestamps .release prevTs accs = some out := by
  induction accs generalizing prevTs with
  | nil => exact ⟨[], rfl⟩
  | cons acc accs ih =>
      obtain ⟨ts, hts⟩ := bump_release prevTs acc.timestamp
      obtain ⟨rest, hrest⟩ := ih ts
      simp only [bumpTimestamps, hts, hrest, Option.bind_eq_bind, Option.bind_some]
      exact ⟨_, rfl⟩

/-! ## Synthetic transfers -/

theorem pushPositive_posting {prof : Profile} {e e' : Emission} {debitId creditId amount : U128}
    {ledger : U32} (h : e.pushPositive prof debitId creditId amount ledger = some e') :
    e'.transfers.map SyntheticTransfer.posting =
      e.transfers.map SyntheticTransfer.posting ++
        Account.positivePosting debitId creditId amount := by
  unfold Emission.pushPositive at h
  unfold Account.positivePosting
  split_ifs at h ⊢
  · simp only [Emission.push, Option.bind_eq_bind, Option.bind_eq_some_iff] at h
    obtain ⟨ts, _, counter, _, he⟩ := h
    rw [← Option.some.inj he, List.map_append]
    rfl
  · rw [← Option.some.inj h, List.append_nil]

theorem pushPositive_release (e : Emission) (debitId creditId amount : U128) (ledger : U32) :
    ∃ e', e.pushPositive .release debitId creditId amount ledger = some e' := by
  unfold Emission.pushPositive
  split_ifs
  · exact ⟨_, rfl⟩
  · exact ⟨_, rfl⟩

theorem emitAccount_postings {prof : Profile} {gen : HashMap U32 (U128 × U128)} {e e' : Emission}
    {acc : Account} (hgen : gen.lookup acc.ledger =
      some (genesisCreditId acc.ledger, genesisDebitId acc.ledger))
    (h : emitAccount prof gen e acc = some e') :
    e'.transfers.map SyntheticTransfer.posting =
      e.transfers.map SyntheticTransfer.posting ++ acc.postings := by
  simp only [emitAccount, hgen, Option.bind_eq_bind, Option.bind_some,
    Option.bind_eq_some_iff] at h
  obtain ⟨e₁, h₁, h₂⟩ := h
  rw [pushPositive_posting h₂, pushPositive_posting h₁, List.append_assoc]
  rfl

theorem emitAccount_release {gen : HashMap U32 (U128 × U128)} {acc : Account} (e : Emission)
    (hgen : (gen.lookup acc.ledger).isSome) : ∃ e', emitAccount .release gen e acc = some e' := by
  obtain ⟨ids, hids⟩ := Option.isSome_iff_exists.1 hgen
  obtain ⟨e₁, h₁⟩ := pushPositive_release e ids.1 acc.id acc.creditsPosted acc.ledger
  obtain ⟨e₂, h₂⟩ := pushPositive_release e₁ acc.id ids.2 acc.debitsPosted acc.ledger
  refine ⟨e₂, ?_⟩
  simp only [emitAccount, hids, h₁, h₂, Option.bind_eq_bind, Option.bind_some]

theorem emission_postings {prof : Profile} {gen : HashMap U32 (U128 × U128)} {e e' : Emission}
    {accs : List Account} (hgen : ∀ a ∈ accs, gen.lookup a.ledger =
      some (genesisCreditId a.ledger, genesisDebitId a.ledger))
    (h : accs.foldlM (emitAccount prof gen) e = some e') :
    e'.transfers.map SyntheticTransfer.posting =
      e.transfers.map SyntheticTransfer.posting ++ accs.flatMap Account.postings := by
  induction accs generalizing e with
  | nil =>
      cases h
      simp
  | cons a accs ih =>
      rw [List.foldlM_cons, Option.bind_eq_bind, Option.bind_eq_some_iff] at h
      obtain ⟨e₁, h₁, h₂⟩ := h
      rw [ih (fun b hb => hgen b (List.mem_cons_of_mem a hb)) h₂,
        emitAccount_postings (hgen a List.mem_cons_self) h₁, List.flatMap_cons, List.append_assoc]

theorem emission_release {gen : HashMap U32 (U128 × U128)} {accs : List Account} (e : Emission)
    (hgen : ∀ a ∈ accs, (gen.lookup a.ledger).isSome) :
    ∃ e', accs.foldlM (emitAccount .release gen) e = some e' := by
  induction accs generalizing e with
  | nil => exact ⟨e, rfl⟩
  | cons a accs ih =>
      obtain ⟨e₁, h₁⟩ := emitAccount_release e (hgen a List.mem_cons_self)
      obtain ⟨e₂, h₂⟩ := ih e₁ fun b hb => hgen b (List.mem_cons_of_mem a hb)
      refine ⟨e₂, ?_⟩
      rw [List.foldlM_cons, h₁]
      exact h₂

/-! ## The planner -/

/-- What every plan of an account list contains. -/
structure Shape (accounts : List Account) (plan : BalancePlan) : Prop where
  regular : (plan.regularAccounts.map Account.untimed).Perm (accounts.map Account.untimed)
  genesisIds (i : U128) : i ∈ plan.genesisAccounts.map Account.id ↔
    ∃ l ∈ accounts.map Account.ledger, i = genesisCreditId l ∨ i = genesisDebitId l
  genesisFlags : ∀ a ∈ plan.genesisAccounts, a.flags = ⟨0⟩
  postings : plan.syntheticTransfers.map SyntheticTransfer.posting =
    plan.regularAccounts.flatMap Account.postings

theorem map_ledger_of_untimed {as bs : List Account}
    (h : (as.map Account.untimed).Perm (bs.map Account.untimed)) :
    (as.map Account.ledger).Perm (bs.map Account.ledger) := by
  have hm := h.map Account.ledger
  rw [List.map_map, List.map_map] at hm
  exact hm

theorem sorted_perm (ord : IterOrder U32 (List Account)) (accounts : List Account) :
    (((groups ord accounts).flatMap AccountGroup.accounts).insertionSort
      fun a b => a.timestamp ≤ b.timestamp).Perm accounts :=
  (List.perm_insertionSort _ _).trans (groups_accounts_perm ord accounts)

theorem lookup_of_bumped {ord : IterOrder U32 (List Account)} {accounts regular : List Account}
    (h : (regular.map Account.untimed).Perm (accounts.map Account.untimed)) :
    ∀ a ∈ regular, (genesisByLedger (groups ord accounts)).lookup a.ledger =
      some (genesisCreditId a.ledger, genesisDebitId a.ledger) := by
  intro a ha
  exact lookup_genesisByLedger ((map_ledger_of_untimed h).mem_iff.1 (List.mem_map_of_mem ha))

theorem buildSnapshotImpl_shape {prof : Profile} {ord : IterOrder U32 (List Account)}
    {accounts : List Account} {windowedMode : Bool} {plan : BalancePlan}
    (h : buildSnapshotImpl prof ord accounts windowedMode = some plan) : Shape accounts plan := by
  simp only [buildSnapshotImpl, Option.bind_eq_bind, Option.bind_eq_some_iff] at h
  obtain ⟨regular, hreg, e, he, hplan⟩ := h
  have hperm : (regular.map Account.untimed).Perm (accounts.map Account.untimed) := by
    rw [bumpTimestamps_untimed hreg]
    exact (sorted_perm ord accounts).map _
  have hpost := emission_postings (lookup_of_bumped hperm) he
  rw [← Option.some.inj hplan]
  constructor
  · exact hperm
  · exact mem_genesis_ids ord accounts
  · intro a ha
    obtain ⟨g, _, ts, rfl | rfl⟩ := mem_genesisAccountsOf ha <;> rfl
  · simpa using hpost

theorem buildSnapshotImpl_release (ord : IterOrder U32 (List Account)) (accounts : List Account)
    (windowedMode : Bool) :
    ∃ plan, buildSnapshotImpl .release ord accounts windowedMode = some plan := by
  obtain ⟨regular, hreg⟩ := bumpTimestamps_release
    (BitVec.ofNat 64 (genesisAccountsOf (groups ord accounts)).length)
    (((groups ord accounts).flatMap AccountGroup.accounts).insertionSort
      fun a b => a.timestamp ≤ b.timestamp)
  have hperm : (regular.map Account.untimed).Perm (accounts.map Account.untimed) := by
    rw [bumpTimestamps_untimed hreg]
    exact (sorted_perm ord accounts).map _
  obtain ⟨e, he⟩ := emission_release
    ⟨[], 1, transferTsFloor windowedMode
      (BitVec.ofNat 64 (genesisAccountsOf (groups ord accounts)).length) regular⟩
    fun a ha => Option.isSome_of_eq_some (@lookup_of_bumped ord _ _ hperm a ha)
  simp only [buildSnapshotImpl, hreg, he, Option.bind_eq_bind, Option.bind_some]
  exact ⟨_, rfl⟩

end BalancePlan

end TbManager
