import TbManager.ClosedAccounts
import TbManager.WindowOrdering

/-!
# Timestamps of accounts and transfers

The target refuses an imported transfer with the timestamp of an account. A
snapshot counts its transfers up from its last account. A windowed plan counts
from its last account with a balance and meets the accounts after that one.
-/

namespace TbManager

attribute [local irreducible] genesisCreditId genesisDebitId

namespace BalancePlan

/-- No submitted transfer has the timestamp of a created account. -/
def TimestampsApart (plan : BalancePlan) : Prop :=
  ∀ t ∈ plan.submittedTransfers, ∀ a ∈ plan.genesisAccounts ++ plan.regularAccounts,
    t.timestamp ≠ (convertAccount a true).timestamp

def Taken (accounts : List Account) (ts : U64) : Prop :=
  (1 ≤ ts.toNat ∧ ts.toNat ≤ 2 * (accounts.map Account.ledger).dedup.length) ∨
    ts ∈ plannedTimes accounts

instance (accounts : List Account) (ts : U64) : Decidable (Taken accounts ts) :=
  inferInstanceAs (Decidable (_ ∨ _))

/-- The `n` timestamps after a floor are not taken. -/
def CountsClear (accounts : List Account) (floor : U64) (n : ℕ) : Prop :=
  ∀ i < n, ¬ Taken accounts (floor + BitVec.ofNat 64 (i + 1))

instance (accounts : List Account) (floor : U64) (n : ℕ) :
    Decidable (CountsClear accounts floor n) :=
  inferInstanceAs (Decidable (∀ i < n, _))

def snapshotFloor (accounts : List Account) : U64 :=
  (plannedTimes accounts).getLast?.getD (genesisMaxTs accounts)

/-- From the last account with a balance at the cutoff, the timestamps of all synthetic
transfers are not taken. -/
def WindowClear (windowed : List Transfer) (c : U64) (accounts : List Account) : Prop :=
  ∀ p ∈ (importOrder accounts).zip (plannedTimes accounts), 0 < sidesAtCutoff windowed c p.1 →
    (∀ q ∈ (importOrder accounts).zip (plannedTimes accounts),
      0 < sidesAtCutoff windowed c q.1 → q.2 ≤ p.2) →
    CountsClear accounts p.2 (transfersAtCutoff windowed c accounts)

instance (windowed : List Transfer) (c : U64) (accounts : List Account) :
    Decidable (WindowClear windowed c accounts) :=
  inferInstanceAs (Decidable (∀ p ∈ _, _ → (∀ q ∈ _, _) → _))

section Timeline

variable {ord : IterOrder U32 (List Account)} {accounts : List Account} {windowedMode : Bool}
  {plan : BalancePlan}

theorem taken_iff (h : Timeline ord accounts windowedMode plan) (ts : U64) :
    Taken accounts ts ↔
      ∃ a ∈ plan.genesisAccounts ++ plan.regularAccounts, a.timestamp = ts := by
  have hgenesis : (∃ a ∈ plan.genesisAccounts, a.timestamp = ts) ↔
      1 ≤ ts.toNat ∧ ts.toNat ≤ 2 * (accounts.map Account.ledger).dedup.length := by
    have htimes := genesisAccountsOf_times (groups_length_le ord accounts)
    rw [← h.genesis, groups_length] at htimes
    have hmem : (∃ a ∈ plan.genesisAccounts, a.timestamp = ts) ↔
        ts.toNat ∈ plan.genesisAccounts.map fun a => a.timestamp.toNat := by
      rw [List.mem_map]
      simp only [BitVec.toNat_inj]
    rw [hmem, htimes, List.mem_range'_1]
    omega
  have hregular : (∃ a ∈ plan.regularAccounts, a.timestamp = ts) ↔ ts ∈ plannedTimes accounts := by
    rw [plannedTimes, ← h.times, List.mem_map]
  rw [Taken, ← hgenesis, ← hregular]
  simp only [List.mem_append, or_and_right, exists_or]

theorem apart_iff_of_timeline (h : Timeline ord accounts windowedMode plan) :
    plan.TimestampsApart ↔
      CountsClear accounts
          (transferTsFloor windowedMode (genesisMaxTs accounts) plan.regularAccounts)
          plan.syntheticTransfers.length ∧
        ∀ t ∈ plan.windowedTransfers, ¬ Taken accounts t.timestamp := by
  have hnot (ts : U64) : (∀ a ∈ plan.genesisAccounts ++ plan.regularAccounts,
      ts ≠ (convertAccount a true).timestamp) ↔ ¬ Taken accounts ts := by
    rw [taken_iff h, not_exists]
    refine forall_congr' fun a => ?_
    rw [not_and]
    exact imp_congr_right fun _ => not_congr eq_comm
  have hsynthetic : (∀ t ∈ plan.syntheticTransfers, ¬ Taken accounts t.timestamp) ↔
      ∀ ts ∈ plan.syntheticTransfers.map SyntheticTransfer.timestamp, ¬ Taken accounts ts := by
    rw [List.forall_mem_map]
  rw [TimestampsApart, submittedTransfers, List.forall_mem_append, List.forall_mem_map,
    List.forall_mem_map]
  simp only [hnot]
  refine and_congr ?_ Iff.rfl
  refine hsynthetic.trans ?_
  rw [h.transferTimes, List.forall_mem_map, CountsClear]
  simp only [List.mem_range]

theorem floor_snapshot (h : Timeline ord accounts false plan) :
    transferTsFloor false (genesisMaxTs accounts) plan.regularAccounts =
      snapshotFloor accounts := by
  rw [snapshotFloor, plannedTimes, ← h.times, List.getLast?_map]
  rfl

end Timeline

section Window

variable {ord : IterOrder U32 (List Account)} {accounts : List Account}
  {windowed : List Transfer} {c : U64} {d : HashMap U128 U128 × HashMap U128 U128}
  {plan : BalancePlan}

theorem taken_adjusted (debitDelta creditDelta : HashMap U128 U128) (c : U64)
    (accounts : List Account) (ts : U64) :
    Taken (accounts.map (adjustAccount debitDelta creditDelta c)) ts ↔ Taken accounts ts := by
  have htimes : plannedTimes (accounts.map (adjustAccount debitDelta creditDelta c)) =
      plannedTimes accounts := by
    rw [plannedTimes, genesisMaxTs_adjusted, importOrder_adjusted, List.map_map, plannedTimes]
    congr 1
    exact List.map_congr_left fun a _ => adjustAccount_timestamp _ _ _ a
  rw [Taken, Taken, htimes, adjusted_ledgers]

theorem windowClear_iff (hd : Deltas windowed d)
    (h : Timeline ord (accounts.map (adjustAccount d.1 d.2 c)) true plan) :
    CountsClear accounts (transferTsFloor true (genesisMaxTs accounts) plan.regularAccounts)
        (transfersAtCutoff windowed c accounts) ↔ WindowClear windowed c accounts := by
  constructor
  · rintro hclear ⟨a, ts⟩ hp hpos hmax
    obtain ⟨b, hb, hbal, hts⟩ := (active_iff hd h ts).2 ⟨a, hp, hpos⟩
    obtain ⟨m, hm, hmbal, hfloor, hall⟩ := floor_of_active accounts hb hbal
    obtain ⟨a', hp', hpos'⟩ := (active_iff hd h m.timestamp).1 ⟨m, hm, hmbal, rfl⟩
    have hle : m.timestamp ≤ ts := hmax (a', m.timestamp) hp' hpos'
    have hge : ts ≤ m.timestamp := hts ▸ hall b hb hbal
    rw [hfloor, BitVec.le_antisymm hle hge] at hclear
    exact hclear
  · intro hclear
    by_cases hpos : 0 < transfersAtCutoff windowed c accounts
    · obtain ⟨b, hb, hbal⟩ := exists_active hd h hpos
      obtain ⟨m, hm, hmbal, hfloor, hall⟩ := floor_of_active accounts hb hbal
      obtain ⟨a, hp, hapos⟩ := (active_iff hd h m.timestamp).1 ⟨m, hm, hmbal, rfl⟩
      rw [hfloor]
      refine hclear (a, m.timestamp) hp hapos ?_
      rintro ⟨a', ts'⟩ hp' hpos'
      obtain ⟨b', hb', hbal', rfl⟩ := (active_iff hd h ts').2 ⟨a', hp', hpos'⟩
      exact hall b' hb' hbal'
    · intro i hi
      exact absurd (Nat.zero_lt_of_lt hi) hpos

end Window

/-! ## Without overflow -/

/-- Between the last account with a balance at the cutoff and the next account there is room for
all synthetic transfers. -/
def GapAfterActive (windowed : List Transfer) (c : U64) (accounts : List Account) : Prop :=
  ∀ i a b, (importOrder accounts)[i]? = some a → 0 < sidesAtCutoff windowed c a →
    (∀ j a', i < j → (importOrder accounts)[j]? = some a' → sidesAtCutoff windowed c a' = 0) →
    (importOrder accounts)[i + 1]? = some b →
      2 * (accounts.map Account.ledger).dedup.length + i + 1 +
          transfersAtCutoff windowed c accounts < b.timestamp.toNat ∧
        ∀ j a', j ≤ i → (importOrder accounts)[j]? = some a' →
          a'.timestamp.toNat + (i - j) + transfersAtCutoff windowed c accounts <
            b.timestamp.toNat

section Room

variable {accounts : List Account} {windowed : List Transfer} {c : U64}

theorem toNat_plannedTimes (hlast : lastAccountTs accounts < 2 ^ 64) :
    (plannedTimes accounts).map BitVec.toNat =
      raise (2 * (accounts.map Account.ledger).dedup.length)
        ((importOrder accounts).map fun a => a.timestamp.toNat) := by
  rw [plannedTimes, toNat_bumpedTimes, List.map_map, toNat_genesisMaxTs]
  · rfl
  · rw [List.map_map, toNat_genesisMaxTs]
    exact hlast

theorem getElem?_planned (hlast : lastAccountTs accounts < 2 ^ 64) {i : ℕ} {ts : U64}
    (hi : (plannedTimes accounts)[i]? = some ts) :
    (raise (2 * (accounts.map Account.ledger).dedup.length)
      ((importOrder accounts).map fun a => a.timestamp.toNat))[i]? = some ts.toNat := by
  rw [← toNat_plannedTimes hlast, List.getElem?_map, hi]
  rfl

theorem planned_lt (hlast : lastAccountTs accounts < 2 ^ 64) {i j : ℕ} {x y : U64}
    (hi : (plannedTimes accounts)[i]? = some x) (hj : (plannedTimes accounts)[j]? = some y)
    (hij : i < j) : x.toNat < y.toNat := by
  obtain ⟨hi', hx⟩ := List.getElem?_eq_some_iff.1 (getElem?_planned hlast hi)
  obtain ⟨hj', hy⟩ := List.getElem?_eq_some_iff.1 (getElem?_planned hlast hj)
  rw [← hx, ← hy]
  exact List.pairwise_iff_getElem.1 (pairwise_raise _ _) i j hi' hj' hij

theorem planned_lt_iff (hlast : lastAccountTs accounts < 2 ^ 64) {i j : ℕ} {x y : U64}
    (hi : (plannedTimes accounts)[i]? = some x) (hj : (plannedTimes accounts)[j]? = some y) :
    x.toNat < y.toNat ↔ i < j := by
  refine ⟨fun hlt => ?_, planned_lt hlast hi hj⟩
  by_contra hge
  rcases (Nat.not_lt.1 hge).lt_or_eq with hji | rfl
  · exact absurd (planned_lt hlast hj hi hji) (Nat.not_lt.2 hlt.le)
  · rw [hi, Option.some.injEq] at hj
    exact absurd (hj ▸ hlt) (Nat.lt_irrefl _)

theorem planned_le_last (hlast : lastAccountTs accounts < 2 ^ 64) {ts : U64}
    (hts : ts ∈ plannedTimes accounts) :
    2 * (accounts.map Account.ledger).dedup.length < ts.toNat ∧
      ts.toNat ≤ lastAccountTs accounts := by
  have hmem := List.mem_map_of_mem (f := BitVec.toNat) hts
  rw [toNat_plannedTimes hlast] at hmem
  exact ⟨lt_of_mem_raise hmem, le_raiseEnd_of_mem hmem⟩

theorem snapshot_clear (hroom : HasRoom accounts) :
    CountsClear accounts (snapshotFloor accounts) (accounts.map Account.sides).sum := by
  have hlast : lastAccountTs accounts < 2 ^ 64 := (Nat.le_add_right _ _).trans_lt hroom
  have hfloor : (snapshotFloor accounts).toNat = lastAccountTs accounts := by
    rw [lastAccountTs, ← getLast?_raise, ← toNat_plannedTimes hlast, List.getLast?_map,
      snapshotFloor, ← toNat_genesisMaxTs]
    cases (plannedTimes accounts).getLast? <;> rfl
  have hstart := le_raiseEnd (2 * (accounts.map Account.ledger).dedup.length)
    ((importOrder accounts).map fun a => a.timestamp.toNat)
  change _ ≤ lastAccountTs accounts at hstart
  intro i hi htaken
  have hroom' : (snapshotFloor accounts).toNat + (accounts.map Account.sides).sum < 2 ^ 64 := by
    rw [hfloor]
    exact hroom
  have hvalue := toNat_counted hroom' hi
  rcases htaken with ⟨_, hle⟩ | hplanned
  · omega
  · have hle := (planned_le_last hlast hplanned).2
    omega

/-- The room after a planned timestamp in terms of the accounts up to it. -/
theorem planned_add_lt_iff (hlast : lastAccountTs accounts < 2 ^ 64) {i : ℕ} {ts : U64}
    (hts : (plannedTimes accounts)[i]? = some ts) (n bound : ℕ) :
    ts.toNat + n < bound ↔
      2 * (accounts.map Account.ledger).dedup.length + i + 1 + n < bound ∧
        ∀ j a, j ≤ i → (importOrder accounts)[j]? = some a →
          a.timestamp.toNat + (i - j) + n < bound := by
  rw [← Nat.lt_sub_iff_add_lt, getElem?_raise_lt_iff (getElem?_planned hlast hts),
    Nat.lt_sub_iff_add_lt]
  apply and_congr_right
  intro _
  simp only [List.getElem?_map, Option.map_eq_some_iff]
  constructor
  · exact fun h j a hj ha => Nat.lt_sub_iff_add_lt.1 (h j _ hj ⟨a, ha, rfl⟩)
  · rintro h j _ hj ⟨a, ha, rfl⟩
    exact Nat.lt_sub_iff_add_lt.2 (h j a hj ha)

theorem length_plannedTimes (hlast : lastAccountTs accounts < 2 ^ 64) :
    (plannedTimes accounts).length = (importOrder accounts).length := by
  have hlength := congrArg List.length (toNat_plannedTimes hlast)
  rwa [List.length_map, length_raise, List.length_map] at hlength

theorem exists_planned (hlast : lastAccountTs accounts < 2 ^ 64) {i : ℕ} {a : Account}
    (ha : (importOrder accounts)[i]? = some a) : ∃ ts, (plannedTimes accounts)[i]? = some ts := by
  have hlt := (List.getElem?_eq_some_iff.1 ha).1
  exact ⟨_, List.getElem?_eq_getElem ((length_plannedTimes hlast).symm ▸ hlt)⟩

theorem planned_succ (hlast : lastAccountTs accounts < 2 ^ 64) {i : ℕ} {ts ts' : U64}
    {b : Account} (hts : (plannedTimes accounts)[i]? = some ts)
    (hts' : (plannedTimes accounts)[i + 1]? = some ts')
    (hb : (importOrder accounts)[i + 1]? = some b) :
    ts'.toNat = max b.timestamp.toNat (ts.toNat + 1) := by
  have htime : ((importOrder accounts).map fun a => a.timestamp.toNat)[i + 1]? =
      some b.timestamp.toNat := by
    rw [List.getElem?_map, hb]
    rfl
  have hraise := getElem?_raise_succ (getElem?_planned hlast hts) htime
  rw [getElem?_planned hlast hts', Option.some.injEq] at hraise
  exact hraise

/-- Taken are the timestamps of the genesis accounts and, for each account, the greatest that the
accounts up to it force. -/
theorem taken_iff_forced (hlast : lastAccountTs accounts < 2 ^ 64) (ts : U64) :
    Taken accounts ts ↔
      (1 ≤ ts.toNat ∧ ts.toNat ≤ 2 * (accounts.map Account.ledger).dedup.length) ∨
        ∃ i < accounts.length,
          IsGreatest (forced (2 * (accounts.map Account.ledger).dedup.length)
            ((importOrder accounts).map fun a => a.timestamp.toNat) i) ts.toNat := by
  have hlength := (length_plannedTimes hlast).trans (importOrder_perm accounts).length_eq
  refine or_congr_right ⟨fun hplanned => ?_, ?_⟩
  · obtain ⟨i, hi⟩ := List.mem_iff_getElem?.1 hplanned
    have hlt := (List.getElem?_eq_some_iff.1 hi).1
    exact ⟨i, hlength ▸ hlt, isGreatest_raise (getElem?_planned hlast hi)⟩
  · rintro ⟨i, hlt, hgreatest⟩
    have hi := List.getElem?_eq_getElem (hlength.symm ▸ hlt)
    have hsame := (isGreatest_raise (getElem?_planned hlast hi)).unique hgreatest
    rw [← BitVec.eq_of_toNat_eq hsame]
    exact List.mem_of_getElem? hi

theorem transfersAtCutoff_pos {i : ℕ} {a : Account} (ha : (importOrder accounts)[i]? = some a)
    (hpos : 0 < sidesAtCutoff windowed c a) : 0 < transfersAtCutoff windowed c accounts := by
  have hmem := (importOrder_perm accounts).mem_iff.1 (List.mem_of_getElem? ha)
  exact hpos.trans_le (List.le_sum_of_mem (List.mem_map_of_mem hmem))

theorem mem_zip_planned {i : ℕ} {a : Account} {ts : U64}
    (ha : (importOrder accounts)[i]? = some a) (hts : (plannedTimes accounts)[i]? = some ts) :
    (a, ts) ∈ (importOrder accounts).zip (plannedTimes accounts) :=
  List.mem_iff_getElem?.2 ⟨i, List.getElem?_zip_eq_some.2 ⟨ha, hts⟩⟩

theorem active_le_iff (hlast : lastAccountTs accounts < 2 ^ 64) {i : ℕ} {ts : U64}
    (hts : (plannedTimes accounts)[i]? = some ts) :
    (∀ q ∈ (importOrder accounts).zip (plannedTimes accounts),
        0 < sidesAtCutoff windowed c q.1 → q.2 ≤ ts) ↔
      ∀ j a, i < j → (importOrder accounts)[j]? = some a → sidesAtCutoff windowed c a = 0 := by
  constructor
  · intro hmax j a hij ha
    by_contra hne
    obtain ⟨x, hx⟩ := exists_planned hlast ha
    have hle := hmax (a, x) (mem_zip_planned ha hx) (Nat.pos_of_ne_zero hne)
    exact absurd (planned_lt hlast hts hx hij) (Nat.not_lt.2 (BitVec.le_def.1 hle))
  · rintro hidle ⟨a, x⟩ hq hpos
    obtain ⟨j, hj⟩ := List.mem_iff_getElem?.1 hq
    obtain ⟨ha, hx⟩ := List.getElem?_zip_eq_some.1 hj
    have hji : ¬ i < j := fun hij => hpos.ne' (hidle j a hij ha)
    rw [← planned_lt_iff hlast hts hx] at hji
    exact BitVec.le_def.2 (Nat.not_lt.1 hji)

/-- The planned timestamp of the next account is itself taken. -/
theorem gap_of_windowClear
    (hroom : lastAccountTs accounts + transfersAtCutoff windowed c accounts < 2 ^ 64)
    (hclear : WindowClear windowed c accounts) : GapAfterActive windowed c accounts := by
  have hlast : lastAccountTs accounts < 2 ^ 64 := (Nat.le_add_right _ _).trans_lt hroom
  intro i a b ha hpos hidle hb
  obtain ⟨ts, hts⟩ := exists_planned hlast ha
  obtain ⟨ts', hts'⟩ := exists_planned hlast hb
  have hvalue := planned_succ hlast hts hts' hb
  have hcount := transfersAtCutoff_pos ha hpos
  have hfree := hclear (a, ts) (mem_zip_planned ha hts) hpos ((active_le_iff hlast hts).2 hidle)
  rw [← planned_add_lt_iff hlast hts]
  by_contra hle
  have hbound := (planned_le_last hlast (List.mem_of_getElem? hts)).2
  have hk : ts'.toNat - ts.toNat - 1 < transfersAtCutoff windowed c accounts := by omega
  have heq : ts + BitVec.ofNat 64 (ts'.toNat - ts.toNat - 1 + 1) = ts' := by
    apply BitVec.eq_of_toNat_eq
    rw [toNat_counted (by omega) hk]
    omega
  apply hfree _ hk
  change Taken accounts (ts + BitVec.ofNat 64 (ts'.toNat - ts.toNat - 1 + 1))
  rw [heq]
  exact .inr (List.mem_of_getElem? hts')

/-- A timestamp of the count that is taken belongs to a later account, and the next one is the
first of these. -/
theorem windowClear_of_gap
    (hroom : lastAccountTs accounts + transfersAtCutoff windowed c accounts < 2 ^ 64)
    (hgap : GapAfterActive windowed c accounts) : WindowClear windowed c accounts := by
  have hlast : lastAccountTs accounts < 2 ^ 64 := (Nat.le_add_right _ _).trans_lt hroom
  rintro ⟨a, ts⟩ hp hpos hmax k hk htaken
  change Taken accounts (ts + BitVec.ofNat 64 (k + 1)) at htaken
  obtain ⟨i, hi⟩ := List.mem_iff_getElem?.1 hp
  obtain ⟨ha, hts⟩ := List.getElem?_zip_eq_some.1 hi
  change (importOrder accounts)[i]? = some a at ha
  change (plannedTimes accounts)[i]? = some ts at hts
  obtain ⟨hstart, hbound⟩ := planned_le_last hlast (List.mem_of_getElem? hts)
  have hvalue : (ts + BitVec.ofNat 64 (k + 1)).toNat = ts.toNat + (k + 1) :=
    toNat_counted (by omega) hk
  rcases htaken with ⟨_, hle⟩ | hmem
  · omega
  obtain ⟨j, hj⟩ := List.mem_iff_getElem?.1 hmem
  have hij : i < j := (planned_lt_iff hlast hts hj).1 (by omega)
  have hnext : i + 1 < (importOrder accounts).length := by
    have hlt := (List.getElem?_eq_some_iff.1 hj).1
    rw [length_plannedTimes hlast] at hlt
    omega
  have hb := List.getElem?_eq_getElem hnext
  obtain ⟨ts', hts'⟩ := exists_planned hlast hb
  have hroomy := (planned_add_lt_iff hlast hts _ _).2
    (hgap i a _ ha hpos ((active_le_iff hlast hts).1 hmax) hb)
  -- the next account is planned at its own timestamp or later, and the taken one not before it
  have hvalue' := planned_succ hlast hts hts' hb
  have hle : ¬ (ts + BitVec.ofNat 64 (k + 1)).toNat < ts'.toNat := by
    rw [planned_lt_iff hlast hj hts']
    omega
  omega

end Room

/-- No transfer of a plan has the timestamp of an account exactly when the counter of the synthetic
transfers and the window meet no timestamp of a genesis or a planned account. Without overflow a
snapshot is always so, a windowed plan is when the accounts after its last active one leave room,
and the planned timestamps are what the listed ones force. -/
theorem timestampsApart_iff (ord : IterOrder U32 (List Account)) (accounts : List Account)
    (windowed : List Transfer) (c : U64) :
    (Delivers (fun prof => build prof ord accounts) (fun plan => plan.TimestampsApart ↔
        CountsClear accounts (snapshotFloor accounts) (accounts.map Account.sides).sum) ∧
      (HasRoom accounts →
        CountsClear accounts (snapshotFloor accounts) (accounts.map Account.sides).sum)) ∧
    Delivers (fun prof => buildWindowed prof ord accounts windowed c) (fun plan =>
      plan.TimestampsApart ↔
        WindowClear windowed c accounts ∧ ∀ t ∈ windowed, ¬ Taken accounts t.timestamp) ∧
      (lastAccountTs accounts + transfersAtCutoff windowed c accounts < 2 ^ 64 →
        (WindowClear windowed c accounts ↔ GapAfterActive windowed c accounts)) ∧
      (lastAccountTs accounts < 2 ^ 64 → ∀ ts, Taken accounts ts ↔
        (1 ≤ ts.toNat ∧ ts.toNat ≤ 2 * (accounts.map Account.ledger).dedup.length) ∨
          ∃ i < accounts.length,
            IsGreatest (forced (2 * (accounts.map Account.ledger).dedup.length)
              ((importOrder accounts).map fun a => a.timestamp.toNat) i) ts.toNat) := by
  refine ⟨⟨⟨buildSnapshotImpl_release ord accounts false, ?_⟩, snapshot_clear⟩,
    ⟨buildWindowed_release ord accounts windowed c, ?_⟩, ?_, taken_iff_forced⟩
  · intro prof plan hplan
    have htime := buildSnapshotImpl_timeline hplan
    rw [apart_iff_of_timeline htime, floor_snapshot htime, htime.count,
      buildSnapshotImpl_windowedTransfers hplan]
    exact and_iff_left fun t ht => absurd ht List.not_mem_nil
  · intro prof plan hplan
    obtain ⟨d, hd, hwindow, _, htime⟩ := buildWindowed_timeline hplan
    have hclear (floor : U64) (n : ℕ) :
        CountsClear (accounts.map (adjustAccount d.1 d.2 c)) floor n ↔
          CountsClear accounts floor n :=
      forall₂_congr fun i _ => not_congr (taken_adjusted d.1 d.2 c accounts _)
    rw [apart_iff_of_timeline htime, hclear, hwindow, count_adjusted hd htime,
      genesisMaxTs_adjusted, windowClear_iff hd htime]
    simp only [taken_adjusted]
  · intro hroom
    exact ⟨gap_of_windowClear hroom, windowClear_of_gap hroom⟩

def followed : List Account := [.holding 6 1 0 5 8, .holding 7 1 5 0 9, .holding 8 1 0 0 10]

/-- The first transfer takes the timestamp of the third account. -/
theorem followed_not_apart :
    ∃ plan, buildWindowed .release .stored followed [] 12 = some plan ∧
      ¬ plan.TimestampsApart := by
  obtain ⟨plan, hplan⟩ := buildWindowed_release .stored followed [] 12
  have htimes : ((buildWindowed .release .stored followed [] 12).map fun plan =>
      (plan.submittedTransfers.map Transfer.timestamp,
        plan.regularAccounts.map Account.timestamp)) = some ([10, 11], [8, 9, 10]) := by
    decide +kernel
  rw [hplan, Option.map_some, Option.some.injEq, Prod.mk.injEq] at htimes
  refine ⟨plan, hplan, fun h => ?_⟩
  obtain ⟨t, ht, hts⟩ := List.mem_map.1 (htimes.1 ▸ (by decide : (10 : U64) ∈ [(10 : U64), 11]))
  obtain ⟨a, ha, hats⟩ := List.mem_map.1
    (htimes.2 ▸ (by decide : (10 : U64) ∈ [(8 : U64), 9, 10]))
  exact h t ht a (List.mem_append_right _ ha) (hts.trans hats.symm)

end BalancePlan

end TbManager
