import TbManager.PlanTimestamps

/-!
# The ordering of a windowed plan

The transfers of a windowed plan count up from the last account with a balance
at the cutoff. They stay before the cutoff exactly when the gap between the two
holds them all, and the planner does not look.
-/

namespace TbManager

attribute [local irreducible] genesisCreditId genesisDebitId

namespace BalancePlan

/-! ## Balances at the cutoff -/

/-- The number of sides of an account that the window does not explain. An account
of the window itself has none. -/
def sidesAtCutoff (windowed : List Transfer) (c : U64) (a : Account) : ℕ :=
  if c ≤ a.timestamp then 0
  else
    (if creditTotal a.id (windowed.map Transfer.posting) % 2 ^ 128 < a.creditsPosted.toNat
      then 1 else 0) +
    if debitTotal a.id (windowed.map Transfer.posting) % 2 ^ 128 < a.debitsPosted.toNat
      then 1 else 0

def transfersAtCutoff (windowed : List Transfer) (c : U64) (accounts : List Account) : ℕ :=
  (accounts.map (sidesAtCutoff windowed c)).sum

theorem sides_eq (a : Account) :
    a.sides = (if 0 < a.creditsPosted.toNat then 1 else 0) +
      if 0 < a.debitsPosted.toNat then 1 else 0 := rfl

theorem hasBalance_iff_sides (a : Account) : hasBalance a ↔ 0 < a.sides := by
  rw [hasBalance, sides_eq, Bool.or_eq_true, decide_eq_true_iff, decide_eq_true_iff,
    BitVec.lt_def, BitVec.lt_def]
  change 0 < a.creditsPosted.toNat ∨ 0 < a.debitsPosted.toNat ↔ _
  split_ifs <;> omega

section Sides

variable {windowed : List Transfer} {d : HashMap U128 U128 × HashMap U128 U128}

theorem sides_adjustAccount (hd : Deltas windowed d) (c : U64) (a : Account) :
    (adjustAccount d.1 d.2 c a).sides = sidesAtCutoff windowed c a := by
  rw [sides_eq, adjustAccount_credits, adjustAccount_debits, hd.debit, hd.credit, sidesAtCutoff]
  by_cases hlate : c ≤ a.timestamp
  · simp only [if_pos hlate, lt_irrefl, if_false]
  · simp only [if_neg hlate, Nat.sub_pos_iff_lt]

theorem sum_sides_adjusted (hd : Deltas windowed d) (c : U64) (accounts : List Account) :
    ((accounts.map (adjustAccount d.1 d.2 c)).map Account.sides).sum =
      transfersAtCutoff windowed c accounts := by
  rw [List.map_map, transfersAtCutoff]
  congr 1
  apply List.map_congr_left
  intro a _
  exact sides_adjustAccount hd c a

theorem sidesAtCutoff_le (windowed : List Transfer) (c : U64) (a : Account) :
    sidesAtCutoff windowed c a ≤ 2 := by
  unfold sidesAtCutoff
  split_ifs <;> omega

theorem transfersAtCutoff_lt (windowed : List Transfer) (c : U64) {accounts : List Account}
    (hlen : FitsVec accounts) : transfersAtCutoff windowed c accounts < 2 ^ 64 := by
  have hle := List.sum_le_card_nsmul (accounts.map (sidesAtCutoff windowed c)) 2 (by
    intro n hn
    obtain ⟨a, _, rfl⟩ := List.mem_map.1 hn
    exact sidesAtCutoff_le windowed c a)
  rw [List.length_map, smul_eq_mul] at hle
  unfold FitsVec at hlen
  unfold transfersAtCutoff
  omega

end Sides

/-! ## The floor -/

theorem maxTimestamp_fold (accounts : List Account) (t : U64) :
    ∃ m, accounts.foldl (fun m a => some (m.elim a.timestamp fun t =>
        if t ≤ a.timestamp then a.timestamp else t)) (some t) = some m ∧
      t ≤ m ∧ (∀ a ∈ accounts, a.timestamp ≤ m) ∧ (m = t ∨ ∃ a ∈ accounts, m = a.timestamp) := by
  induction accounts generalizing t with
  | nil => exact ⟨t, rfl, BitVec.le_refl t, by simp, .inl rfl⟩
  | cons a accounts ih =>
      obtain ⟨m, hm, hle, hall, hmem⟩ := ih (if t ≤ a.timestamp then a.timestamp else t)
      have hboth : t ≤ m ∧ a.timestamp ≤ m := by
        split_ifs at hle with hta
        · exact ⟨BitVec.le_trans hta hle, hle⟩
        · constructor <;> bv_omega
      refine ⟨m, hm, hboth.1, List.forall_mem_cons.2 ⟨hboth.2, hall⟩, ?_⟩
      rcases hmem with hmem | ⟨b, hb, hmem⟩
      · split_ifs at hmem
        · exact .inr ⟨a, List.mem_cons_self, hmem⟩
        · exact .inl hmem
      · exact .inr ⟨b, List.mem_cons_of_mem a hb, hmem⟩

theorem maxTimestamp_eq_some {accounts : List Account} (hne : accounts ≠ []) :
    ∃ a ∈ accounts, maxTimestamp accounts = some a.timestamp ∧
      ∀ b ∈ accounts, b.timestamp ≤ a.timestamp := by
  cases accounts with
  | nil => exact absurd rfl hne
  | cons a accounts =>
      obtain ⟨m, hm, hle, hall, hmem⟩ := maxTimestamp_fold accounts a.timestamp
      rcases hmem with rfl | ⟨b, hb, rfl⟩
      · exact ⟨a, List.mem_cons_self, hm, List.forall_mem_cons.2 ⟨hle, hall⟩⟩
      · exact ⟨b, List.mem_cons_of_mem a hb, hm, List.forall_mem_cons.2 ⟨hle, hall⟩⟩

/-- The floor of a windowed plan is the last timestamp of an account with a balance. -/
theorem floor_of_active (accounts : List Account) {regular : List Account} {b : Account}
    (hb : b ∈ regular) (hactive : hasBalance b) :
    ∃ m ∈ regular, hasBalance m ∧
      transferTsFloor true (genesisMaxTs accounts) regular = m.timestamp ∧
      ∀ a ∈ regular, hasBalance a → a.timestamp ≤ m.timestamp := by
  have hne : regular.filter hasBalance ≠ [] :=
    List.ne_nil_of_mem (List.mem_filter.2 ⟨hb, hactive⟩)
  obtain ⟨m, hm, hmax, hall⟩ := maxTimestamp_eq_some hne
  rw [List.mem_filter] at hm
  refine ⟨m, hm.1, hm.2, ?_, fun a ha hbal => hall a (List.mem_filter.2 ⟨ha, hbal⟩)⟩
  rw [transferTsFloor, if_pos rfl, hmax, Option.getD_some]

/-- Counting up from a floor stays after it and before a bound only with room for
the whole count: past `u64::MAX` the count starts again at 0. -/
theorem add_lt_of_counted {floor c : U64} {n : ℕ} (hn : n < 2 ^ 64) (hpos : 0 < n)
    (hafter : ∀ i < n, floor < floor + BitVec.ofNat 64 (i + 1))
    (hbefore : ∀ i < n, floor + BitVec.ofNat 64 (i + 1) < c) : floor.toNat + n < c.toNat := by
  by_cases hover : floor.toNat + n < 2 ^ 64
  · have hlast := hbefore (n - 1) (by omega)
    rw [BitVec.lt_def, toNat_counted hover (by omega)] at hlast
    omega
  · have hwrap := hafter (2 ^ 64 - floor.toNat - 1) (by omega)
    have hlt := floor.isLt
    rw [BitVec.lt_def, BitVec.toNat_add, BitVec.toNat_ofNat] at hwrap
    omega

/-! ## Active accounts -/

def plannedTimes (accounts : List Account) : List U64 :=
  bumpedTimes (genesisMaxTs accounts) ((importOrder accounts).map Account.timestamp)

theorem importOrder_adjusted (debitDelta creditDelta : HashMap U128 U128) (c : U64)
    (accounts : List Account) :
    importOrder (accounts.map (adjustAccount debitDelta creditDelta c)) =
      (importOrder accounts).map (adjustAccount debitDelta creditDelta c) := by
  refine (List.map_insertionSort _ _ _ _ fun a _ b _ => ?_).symm
  rw [adjustAccount_timestamp, adjustAccount_timestamp, adjustAccount_ledger,
    adjustAccount_ledger]

section Plan

variable {ord : IterOrder U32 (List Account)} {accounts : List Account}
  {windowed : List Transfer} {c : U64} {d : HashMap U128 U128 × HashMap U128 U128}
  {plan : BalancePlan}

theorem genesisMaxTs_adjusted (debitDelta creditDelta : HashMap U128 U128) (c : U64)
    (accounts : List Account) :
    genesisMaxTs (accounts.map (adjustAccount debitDelta creditDelta c)) =
      genesisMaxTs accounts := by
  rw [genesisMaxTs, adjusted_ledgers]
  rfl

theorem times_adjusted
    (h : Timeline ord (accounts.map (adjustAccount d.1 d.2 c)) true plan) :
    plan.regularAccounts.map Account.timestamp = plannedTimes accounts := by
  rw [h.times, genesisMaxTs_adjusted, importOrder_adjusted, List.map_map, plannedTimes]
  congr 1
  apply List.map_congr_left
  intro a _
  exact adjustAccount_timestamp _ _ _ a

theorem sides_adjusted (hd : Deltas windowed d)
    (h : Timeline ord (accounts.map (adjustAccount d.1 d.2 c)) true plan) :
    plan.regularAccounts.map Account.sides =
      (importOrder accounts).map (sidesAtCutoff windowed c) := by
  have huntimed := congrArg (List.map Account.sides) h.regular
  rw [List.map_map, List.map_map, importOrder_adjusted, List.map_map] at huntimed
  refine huntimed.trans (List.map_congr_left fun a _ => ?_)
  exact sides_adjustAccount hd c a

theorem regular_sides_times (hd : Deltas windowed d)
    (h : Timeline ord (accounts.map (adjustAccount d.1 d.2 c)) true plan) :
    (plan.regularAccounts.map fun a => (a.sides, a.timestamp)) =
      ((importOrder accounts).zip (plannedTimes accounts)).map fun p =>
        (sidesAtCutoff windowed c p.1, p.2) := by
  rw [← List.zip_map', sides_adjusted hd h, times_adjusted h, List.zip_map_left]
  rfl

theorem active_iff (hd : Deltas windowed d)
    (h : Timeline ord (accounts.map (adjustAccount d.1 d.2 c)) true plan) (ts : U64) :
    (∃ a ∈ plan.regularAccounts, hasBalance a ∧ a.timestamp = ts) ↔
      ∃ a, (a, ts) ∈ (importOrder accounts).zip (plannedTimes accounts) ∧
        0 < sidesAtCutoff windowed c a := by
  have hlist := regular_sides_times hd h
  constructor
  · rintro ⟨a, ha, hbal, rfl⟩
    have hmem := List.mem_map_of_mem (f := fun a : Account => (a.sides, a.timestamp)) ha
    rw [hlist, List.mem_map] at hmem
    obtain ⟨⟨b, ts⟩, hb, heq⟩ := hmem
    rw [Prod.mk.injEq] at heq
    rw [hasBalance_iff_sides, ← heq.1] at hbal
    exact ⟨b, heq.2 ▸ hb, hbal⟩
  · rintro ⟨b, hb, hpos⟩
    have hmem := List.mem_map_of_mem (f := fun p : Account × U64 =>
      (sidesAtCutoff windowed c p.1, p.2)) hb
    rw [← hlist, List.mem_map] at hmem
    obtain ⟨a, ha, heq⟩ := hmem
    rw [Prod.mk.injEq] at heq
    refine ⟨a, ha, ?_, heq.2⟩
    rw [hasBalance_iff_sides, heq.1]
    exact hpos

theorem count_adjusted (hd : Deltas windowed d)
    (h : Timeline ord (accounts.map (adjustAccount d.1 d.2 c)) true plan) :
    plan.syntheticTransfers.length = transfersAtCutoff windowed c accounts := by
  rw [h.count, sum_sides_adjusted hd]

theorem exists_active (hd : Deltas windowed d)
    (h : Timeline ord (accounts.map (adjustAccount d.1 d.2 c)) true plan)
    (hpos : 0 < transfersAtCutoff windowed c accounts) :
    ∃ a ∈ plan.regularAccounts, hasBalance a := by
  have hsum : (plan.regularAccounts.map Account.sides).sum ≠ 0 := by
    rw [sides_adjusted hd h, ((importOrder_perm accounts).map _).sum_eq]
    exact hpos.ne'
  obtain ⟨n, hn, hne⟩ := List.exists_mem_ne_zero_of_sum_ne_zero hsum
  obtain ⟨a, ha, rfl⟩ := List.mem_map.1 hn
  exact ⟨a, ha, (hasBalance_iff_sides a).2 (Nat.pos_of_ne_zero hne)⟩

/-! ## The ordering -/

/-- The transfers come after every account with a balance and before the cutoff, and
the replay of both lists is in order. -/
structure OrderedBefore (plan : BalancePlan) (c : U64) : Prop where
  afterActive : ∀ t ∈ plan.syntheticTransfers, ∀ a ∈ plan.regularAccounts, hasBalance a →
    a.timestamp < t.timestamp
  beforeCutoff : ∀ t ∈ plan.syntheticTransfers, t.timestamp < c
  increasing : (plan.syntheticTransfers.map SyntheticTransfer.timestamp ++
    plan.windowedTransfers.map Transfer.timestamp).Pairwise (· < ·)

/-- Between the planned timestamp of every account with a balance at the cutoff and the
cutoff there is room for all synthetic transfers. -/
def LeavesRoom (windowed : List Transfer) (c : U64) (accounts : List Account) : Prop :=
  ∀ p ∈ (importOrder accounts).zip (plannedTimes accounts), 0 < sidesAtCutoff windowed c p.1 →
    p.2.toNat + transfersAtCutoff windowed c accounts < c.toNat

instance : Decidable (LeavesRoom windowed c accounts) :=
  inferInstanceAs (Decidable (∀ p ∈ _, _))

theorem leavesRoom_of_ordered (hd : Deltas windowed d)
    (h : Timeline ord (accounts.map (adjustAccount d.1 d.2 c)) true plan)
    (hlen : FitsVec accounts) (ho : plan.OrderedBefore c) : LeavesRoom windowed c accounts := by
  rintro ⟨a, ts⟩ hp hpos
  obtain ⟨b, hb, hbal, rfl⟩ := (active_iff hd h ts).2 ⟨a, hp, hpos⟩
  obtain ⟨m, hm, hmbal, hfloor, hmax⟩ := floor_of_active accounts hb hbal
  have hmem : ∀ i < transfersAtCutoff windowed c accounts,
      ∃ t ∈ plan.syntheticTransfers, t.timestamp = m.timestamp + BitVec.ofNat 64 (i + 1) := by
    intro i hi
    rw [← List.mem_map, h.transferTimes, genesisMaxTs_adjusted, hfloor, count_adjusted hd h]
    exact List.mem_map_of_mem (List.mem_range.2 hi)
  have hcount : 0 < transfersAtCutoff windowed c accounts := by
    have ha := (importOrder_perm accounts).mem_iff.1 (List.of_mem_zip hp).1
    exact hpos.trans_le (List.le_sum_of_mem (List.mem_map_of_mem ha))
  have hroom : m.timestamp.toNat + transfersAtCutoff windowed c accounts < c.toNat := by
    apply add_lt_of_counted (transfersAtCutoff_lt windowed c hlen) hcount
    · intro i hi
      obtain ⟨t, ht, heq⟩ := hmem i hi
      exact heq ▸ ho.afterActive t ht m hm hmbal
    · intro i hi
      obtain ⟨t, ht, heq⟩ := hmem i hi
      exact heq ▸ ho.beforeCutoff t ht
  have hle := hmax b hb hbal
  rw [BitVec.le_def] at hle
  change b.timestamp.toNat + _ < _
  omega

theorem ordered_of_leavesRoom (hd : Deltas windowed d)
    (h : Timeline ord (accounts.map (adjustAccount d.1 d.2 c)) true plan)
    (hwindow : plan.windowedTransfers = windowed)
    (hinc : (windowed.map Transfer.timestamp).Pairwise (· < ·))
    (hfrom : ∀ t ∈ windowed, c ≤ t.timestamp) (hroom : LeavesRoom windowed c accounts) :
    plan.OrderedBefore c := by
  have hlen := count_adjusted hd h
  by_cases hpos : 0 < transfersAtCutoff windowed c accounts
  · obtain ⟨b, hb, hbal⟩ := exists_active hd h hpos
    obtain ⟨m, hm, hmbal, hfloor, hmax⟩ := floor_of_active accounts hb hbal
    obtain ⟨a, hp, hapos⟩ := (active_iff hd h m.timestamp).1 ⟨m, hm, hmbal, rfl⟩
    have hgap : m.timestamp.toNat + transfersAtCutoff windowed c accounts < c.toNat :=
      hroom _ hp hapos
    have hc := c.isLt
    have htimes := h.transferTimes
    rw [genesisMaxTs_adjusted, hfloor, hlen] at htimes
    have hbetween : ∀ t ∈ plan.syntheticTransfers,
        m.timestamp < t.timestamp ∧ t.timestamp < c := by
      intro t ht
      have hmem := List.mem_map_of_mem (f := SyntheticTransfer.timestamp) ht
      rw [htimes, List.mem_map] at hmem
      obtain ⟨i, hi, heq⟩ := hmem
      rw [List.mem_range] at hi
      rw [← heq, BitVec.lt_def, BitVec.lt_def, toNat_counted (by omega) hi]
      omega
    constructor
    · intro t ht a ha habal
      have hle := hmax a ha habal
      have hlt := (hbetween t ht).1
      bv_omega
    · exact fun t ht => (hbetween t ht).2
    · rw [List.pairwise_append, hwindow]
      refine ⟨htimes ▸ pairwise_counted (by omega), hinc, fun x hx y hy => ?_⟩
      obtain ⟨t, ht, rfl⟩ := List.mem_map.1 hx
      obtain ⟨u, hu, rfl⟩ := List.mem_map.1 hy
      have hlt := (hbetween t ht).2
      have hle := hfrom u hu
      bv_omega
  · have hnone : plan.syntheticTransfers = [] := List.length_eq_zero_iff.1 (by omega)
    constructor
    · simp [hnone]
    · simp [hnone]
    · rw [hnone, hwindow]
      exact hinc

end Plan

/-! ## The gap before the cutoff -/

/-- The room before the cutoff in terms of the accounts alone: the genesis accounts and
the accounts up to an account with a balance take one timestamp each, and a cluster
of accounts pushes the later ones up. -/
def FitsGap (windowed : List Transfer) (c : U64) (accounts : List Account) : Prop :=
  ∀ p ∈ (importOrder accounts).zipIdx, 0 < sidesAtCutoff windowed c p.1 →
    2 * (accounts.map Account.ledger).dedup.length + p.2 + 1 +
        transfersAtCutoff windowed c accounts < c.toNat ∧
      ∀ q ∈ (importOrder accounts).zipIdx, q.2 ≤ p.2 →
        q.1.timestamp.toNat + (p.2 - q.2) + transfersAtCutoff windowed c accounts < c.toNat

instance (windowed : List Transfer) (c : U64) (accounts : List Account) :
    Decidable (FitsGap windowed c accounts) :=
  inferInstanceAs (Decidable (∀ p ∈ _, _))

section Gap

variable {windowed : List Transfer} {c : U64} {accounts : List Account}

theorem importOrder_times_le {i j : ℕ} {a b : Account} (hi : (importOrder accounts)[i]? = some a)
    (hj : (importOrder accounts)[j]? = some b) (hle : j ≤ i) :
    b.timestamp.toNat ≤ a.timestamp.toNat := by
  rcases hle.lt_or_eq with hlt | rfl
  · obtain ⟨hi', rfl⟩ := List.getElem?_eq_some_iff.1 hi
    obtain ⟨hj', rfl⟩ := List.getElem?_eq_some_iff.1 hj
    have hkey := List.pairwise_iff_getElem.1 (importOrder_stablySorted accounts).sorted
      j i hj' hi' hlt
    rw [orderKey, orderKey, Prod.Lex.toLex_le_toLex] at hkey
    omega
  · rw [hi, Option.some.injEq] at hj
    rw [hj]

theorem plannedTimes_before (hlen : FitsVec accounts)
    (hc : c.toNat + accounts.length ≤ 2 ^ 64) {i : ℕ} {a : Account}
    (hi : (importOrder accounts)[i]? = some a) (hearly : a.timestamp < c) :
    ∃ ts, (plannedTimes accounts)[i]? = some ts ∧
      ∀ bound, ts.toNat < bound ↔
        2 * (accounts.map Account.ledger).dedup.length + i + 1 < bound ∧
          ∀ j b, j ≤ i → (importOrder accounts)[j]? = some b →
            b.timestamp.toNat + (i - j) < bound := by
  have hlength : i < accounts.length := by
    rw [← (importOrder_perm accounts).length_eq]
    exact (List.getElem?_eq_some_iff.1 hi).1
  obtain ⟨x, hx⟩ : ∃ x, (raise (genesisMaxTs accounts).toNat
      (((importOrder accounts).map Account.timestamp).map BitVec.toNat))[i]? = some x := by
    refine ⟨_, List.getElem?_eq_getElem ?_⟩
    rw [length_raise, List.length_map, List.length_map, (importOrder_perm accounts).length_eq]
    exact hlength
  have hiff : ∀ bound, x < bound ↔
      2 * (accounts.map Account.ledger).dedup.length + i + 1 < bound ∧
        ∀ j b, j ≤ i → (importOrder accounts)[j]? = some b →
          b.timestamp.toNat + (i - j) < bound := by
    intro bound
    rw [getElem?_raise_lt_iff hx, toNat_genesisMaxTs]
    apply and_congr_right
    intro _
    simp only [List.map_map, List.getElem?_map, Option.map_eq_some_iff]
    constructor
    · exact fun h j b hj hb => h j _ hj ⟨b, hb, rfl⟩
    · rintro h j _ hj ⟨b, hb, rfl⟩
      exact h j b hj hb
  have hlt : x < 2 ^ 64 := by
    have hledgers := groups_length_le .stored accounts
    rw [groups_length] at hledgers
    unfold FitsVec at hlen
    refine (hiff _).2 ⟨by omega, fun j b hj hb => ?_⟩
    have hle := importOrder_times_le hi hb hj
    rw [BitVec.lt_def] at hearly
    omega
  obtain ⟨ts, hts, rfl⟩ := getElem?_bumpedTimes hx hlt
  exact ⟨ts, hts, hiff⟩

/-- Unless the cutoff is within the number of accounts of `u64::MAX`, the room is that
gap. -/
theorem leavesRoom_iff (hlen : FitsVec accounts) (hc : c.toNat + accounts.length ≤ 2 ^ 64) :
    LeavesRoom windowed c accounts ↔ FitsGap windowed c accounts := by
  have hone : ∀ i a, (importOrder accounts)[i]? = some a → 0 < sidesAtCutoff windowed c a →
      ∃ ts, (plannedTimes accounts)[i]? = some ts ∧
        (ts.toNat + transfersAtCutoff windowed c accounts < c.toNat ↔
          2 * (accounts.map Account.ledger).dedup.length + i + 1 +
              transfersAtCutoff windowed c accounts < c.toNat ∧
            ∀ q ∈ (importOrder accounts).zipIdx, q.2 ≤ i →
              q.1.timestamp.toNat + (i - q.2) + transfersAtCutoff windowed c accounts <
                c.toNat) := by
    intro i a hi hpos
    have hearly : a.timestamp < c := by
      by_contra hlate
      rw [sidesAtCutoff, if_pos (BitVec.not_lt.1 hlate)] at hpos
      exact absurd hpos (lt_irrefl 0)
    obtain ⟨ts, hts, hiff⟩ := plannedTimes_before hlen hc hi hearly
    refine ⟨ts, hts, ?_⟩
    rw [← Nat.lt_sub_iff_add_lt, hiff, Nat.lt_sub_iff_add_lt]
    apply and_congr_right
    intro _
    constructor
    · rintro h ⟨b, j⟩ hb hj
      exact Nat.lt_sub_iff_add_lt.1 (h j b hj (List.mem_zipIdx_iff_getElem?.1 hb))
    · intro h j b hj hb
      exact Nat.lt_sub_iff_add_lt.2 (h (b, j) (List.mem_zipIdx_iff_getElem?.2 hb) hj)
  constructor
  · rintro h ⟨a, i⟩ hp hpos
    have hi : (importOrder accounts)[i]? = some a := List.mem_zipIdx_iff_getElem?.1 hp
    obtain ⟨ts, hts, hiff⟩ := hone i a hi hpos
    refine hiff.1 (h (a, ts) ?_ hpos)
    exact List.mem_iff_getElem?.2 ⟨i, List.getElem?_zip_eq_some.2 ⟨hi, hts⟩⟩
  · rintro h ⟨a, ts⟩ hp hpos
    obtain ⟨i, hi⟩ := List.mem_iff_getElem?.1 hp
    obtain ⟨hi, hts⟩ := List.getElem?_zip_eq_some.1 hi
    obtain ⟨ts', hts', hiff⟩ := hone i a hi hpos
    rw [hts, Option.some.injEq] at hts'
    rw [hts']
    exact hiff.2 (h (a, i) (List.mem_zipIdx_iff_getElem?.2 hi) hpos)

end Gap

/-- The ordering guarantee of a windowed plan holds exactly when the synthetic transfers
fit between the last account with a balance and the cutoff. -/
theorem orderedBefore_iff (ord : IterOrder U32 (List Account)) (accounts : List Account)
    (hlen : FitsVec accounts) (c : U64) (windowed : List Transfer)
    (hinc : (windowed.map Transfer.timestamp).Pairwise (· < ·))
    (hfrom : ∀ t ∈ windowed, c ≤ t.timestamp) :
    Delivers (fun prof => buildWindowed prof ord accounts windowed c) (fun plan =>
      plan.OrderedBefore c ↔ LeavesRoom windowed c accounts) ∧
    (c.toNat + accounts.length ≤ 2 ^ 64 →
      (LeavesRoom windowed c accounts ↔ FitsGap windowed c accounts)) := by
  refine ⟨⟨buildWindowed_release ord accounts windowed c, ?_⟩, leavesRoom_iff hlen⟩
  intro prof plan hplan
  obtain ⟨d, hd, hwindow, _, htime⟩ := buildWindowed_timeline hplan
  constructor
  · exact leavesRoom_of_ordered hd htime hlen
  · exact ordered_of_leavesRoom hd htime hwindow hinc hfrom

def crowded : List Account := [.holding 7 1 5 0 9, .holding 8 1 0 5 10]

theorem orderedBefore_iff_crowded :
    FitsVec crowded ∧
    (Delivers (fun prof => buildWindowed prof .stored crowded [.moving 1 7 8 5 1 0 13] 12)
      (fun plan => plan.OrderedBefore 12 ↔ LeavesRoom [.moving 1 7 8 5 1 0 13] 12 crowded) ∧
    ((12 : U64).toNat + crowded.length ≤ 2 ^ 64 →
      (LeavesRoom [.moving 1 7 8 5 1 0 13] 12 crowded ↔
        FitsGap [.moving 1 7 8 5 1 0 13] 12 crowded))) :=
  have hlen : FitsVec crowded := by decide
  ⟨hlen, orderedBefore_iff .stored crowded hlen 12 [.moving 1 7 8 5 1 0 13] (by simp)
    (by decide)⟩

/-- Without a window both balances are rebuilt, the second at the cutoff itself. -/
theorem crowded_not_ordered :
    FitsVec crowded ∧ ∃ plan, buildWindowed .release .stored crowded [] 12 = some plan ∧
      ¬ plan.OrderedBefore 12 := by
  obtain ⟨plan, hplan⟩ := buildWindowed_release .stored crowded [] 12
  have hlate : ((buildWindowed .release .stored crowded [] 12).map fun plan =>
      plan.syntheticTransfers.map SyntheticTransfer.timestamp) = some [11, 12] := by
    decide +kernel
  rw [hplan, Option.map_some, Option.some.injEq] at hlate
  refine ⟨by decide, plan, hplan, fun h => ?_⟩
  obtain ⟨t, ht, heq⟩ := List.mem_map.1 (hlate ▸ (by decide : (12 : U64) ∈ [(11 : U64), 12]))
  exact absurd (h.beforeCutoff t ht) (by rw [heq]; decide)

end BalancePlan

end TbManager
