import TbManager.PlanShape
import TbManager.StableSort
import TbManager.StrictRaise

/-!
# The order and the timestamps of the planned accounts

Grouping by ledger and sorting by timestamp is one stable sort by timestamp and
ledger, whatever the order of the hash map. The loop over the sorted accounts
raises their timestamps to a strictly increasing list, unless it wraps.
-/

namespace TbManager

theorem flatMap_eq_of_nodup {α β κ : Type*} {key : α → κ} {gs : List α}
    (hnodup : (gs.map key).Nodup) {f : α → List β} {g : α} (hg : g ∈ gs)
    (hf : ∀ h ∈ gs, key h ≠ key g → f h = []) : gs.flatMap f = f g := by
  induction gs with
  | nil => cases hg
  | cons h gs ih =>
      rw [List.map_cons, List.nodup_cons] at hnodup
      rw [List.flatMap_cons]
      rcases List.mem_cons.1 hg with rfl | hg
      · have hrest : gs.flatMap f = [] := by
          rw [List.flatMap_eq_nil_iff]
          intro h hh
          exact hf h (List.mem_cons_of_mem g hh) fun heq =>
            hnodup.1 (heq ▸ List.mem_map_of_mem hh)
        rw [hrest, List.append_nil]
      · have hne : key h ≠ key g := fun heq => hnodup.1 (heq ▸ List.mem_map_of_mem hg)
        rw [hf h List.mem_cons_self hne, List.nil_append]
        exact ih hnodup.2 hg fun h' hh' => hf h' (List.mem_cons_of_mem h hh')

namespace HashMap

variable {κ α : Type*} [DecidableEq κ] {key : α → κ}

theorem lookup_pushAll (m : HashMap κ (List α)) (xs : List α) (k : κ) :
    ((pushAll key m xs).lookup k).getD [] =
      (m.lookup k).getD [] ++ xs.filter fun x => key x = k := by
  induction xs generalizing m with
  | nil => simp [pushAll]
  | cons x xs ih =>
      change ((pushAll key (pushEntry m (key x) x) xs).lookup k).getD [] = _
      rw [ih, pushEntry, lookup_insert_eq]
      by_cases hx : key x = k
      · rw [if_pos hx, hx, Option.getD_some, List.filter_cons_of_pos (by simpa using hx),
          List.append_assoc, List.singleton_append]
      · rw [if_neg hx, List.filter_cons_of_neg (by simpa using hx)]

/-- The members of a group are the elements with its key, in their order. -/
theorem snd_of_mem_pushAll {xs : List α} {e : Σ _ : κ, List α}
    (he : e ∈ (pushAll key ∅ xs).entries) : e.2 = xs.filter fun x => key x = e.1 := by
  have hlookup : ((pushAll key ∅ xs).lookup e.1).getD [] = _ := lookup_pushAll ∅ xs e.1
  rw [(mem_entries_iff _ _ _).1 he, Option.getD_some, AList.lookup_empty, Option.getD_none,
    List.nil_append] at hlookup
  exact hlookup

end HashMap

namespace BalancePlan

/-! ## Import order -/

/-- By timestamp, then by ledger, then as listed. -/
def importOrder (accounts : List Account) : List Account :=
  accounts.insertionSort fun a b =>
    a.timestamp < b.timestamp ∨ a.timestamp = b.timestamp ∧ a.ledger ≤ b.ledger

def orderKey (a : Account) : ℕ ×ₗ ℕ := toLex (a.timestamp.toNat, a.ledger.toNat)

theorem importOrder_stablySorted (accounts : List Account) :
    StablySorted orderKey accounts (importOrder accounts) := by
  apply stablySorted_insertionSort
  intro a b
  rw [orderKey, orderKey, Prod.Lex.toLex_le_toLex, BitVec.lt_def, BitVec.le_def,
    ← BitVec.toNat_inj]

theorem importOrder_perm (accounts : List Account) : (importOrder accounts).Perm accounts :=
  (importOrder_stablySorted accounts).perm

section Groups

variable (ord : IterOrder U32 (List Account)) (accounts : List Account)

theorem groups_perm : (groups ord accounts).Perm
    ((groupsMap accounts).entries.map fun e => groupOf e.1 e.2) := by
  refine (List.perm_insertionSort _ _).trans ?_
  exact (HashMap.iter_perm (groupsMap accounts) ord).map _

theorem groups_ledgers_nodup : ((groups ord accounts).map AccountGroup.ledger).Nodup := by
  rw [((groups_perm ord accounts).map AccountGroup.ledger).nodup_iff, List.map_map]
  exact (groupsMap accounts).nodupKeys

theorem groups_sorted :
    (groups ord accounts).Pairwise fun g h => g.ledger.toNat ≤ h.ledger.toNat := by
  apply pairwise_insertionSort_key
  intro g h
  exact BitVec.le_def

theorem accounts_of_mem_groups {g : AccountGroup} (hg : g ∈ groups ord accounts) :
    g.accounts = accounts.filter fun a => a.ledger = g.ledger := by
  obtain ⟨e, he, rfl⟩ := List.mem_map.1 ((groups_perm ord accounts).mem_iff.1 hg)
  exact HashMap.snd_of_mem_pushAll he

/-- Listing the groups one after another sorts the accounts by ledger. -/
theorem groups_stablySorted : StablySorted (fun a => a.ledger.toNat) accounts
    ((groups ord accounts).flatMap AccountGroup.accounts) := by
  have hledger : ∀ g ∈ groups ord accounts, ∀ a ∈ g.accounts, a.ledger = g.ledger := by
    intro g hg a ha
    rw [accounts_of_mem_groups ord accounts hg] at ha
    simpa using (List.mem_filter.1 ha).2
  constructor
  · rw [List.pairwise_flatMap]
    constructor
    · intro g hg
      apply List.pairwise_of_forall_mem_list
      intro a ha b hb
      rw [hledger g hg a ha, hledger g hg b hb]
    · apply (groups_sorted ord accounts).imp_of_mem
      intro g h hg hh hle a ha b hb
      rwa [hledger g hg a ha, hledger h hh b hb]
  · intro n
    rw [List.filter_flatMap]
    by_cases hn : ∃ g ∈ groups ord accounts, g.ledger.toNat = n
    · obtain ⟨g, hg, rfl⟩ := hn
      rw [flatMap_eq_of_nodup (groups_ledgers_nodup ord accounts) hg,
        accounts_of_mem_groups ord accounts hg, List.filter_filter]
      · apply List.filter_congr
        intro a _
        simp only [BitVec.toNat_inj, Bool.and_self]
      · intro h hh hne
        apply List.filter_eq_nil_iff.2
        intro a ha heq
        apply hne
        rw [← hledger h hh a ha]
        exact BitVec.eq_of_toNat_eq (of_decide_eq_true heq)
    · have hnone : (accounts.filter fun a => a.ledger.toNat = n) = [] := by
        apply List.filter_eq_nil_iff.2
        intro a ha heq
        obtain ⟨g, hg, hgl⟩ := List.mem_map.1
          ((ledger_mem_groups ord accounts a.ledger).2 (List.mem_map_of_mem ha))
        exact hn ⟨g, hg, by rw [hgl, of_decide_eq_true heq]⟩
      rw [hnone, List.flatMap_eq_nil_iff]
      intro g hg
      apply List.filter_eq_nil_iff.2
      intro a ha heq
      exact hn ⟨g, hg, by rw [← hledger g hg a ha, of_decide_eq_true heq]⟩

theorem sorted_eq_importOrder :
    ((groups ord accounts).flatMap AccountGroup.accounts).insertionSort
      (fun a b => a.timestamp ≤ b.timestamp) = importOrder accounts := by
  have htimes : StablySorted (fun a : Account => a.timestamp.toNat)
      ((groups ord accounts).flatMap AccountGroup.accounts)
      (((groups ord accounts).flatMap AccountGroup.accounts).insertionSort
        fun a b => a.timestamp ≤ b.timestamp) := by
    apply stablySorted_insertionSort
    intro a b
    exact BitVec.le_def
  exact ((groups_stablySorted ord accounts).andThen htimes).unique
    (importOrder_stablySorted accounts)

end Groups

/-! ## Timestamps -/

/-- The timestamps of the loop after a previous one; past `u64::MAX` they wrap. -/
def bumpedTimes : U64 → List U64 → List U64
  | _, [] => []
  | prevTs, ts :: rest =>
    let ts' := if ts ≤ prevTs then prevTs + 1 else ts
    ts' :: bumpedTimes ts' rest

theorem bump_eq_some {prof : Profile} {prevTs ts ts' : U64} (h : bump prof prevTs ts = some ts') :
    ts' = if ts ≤ prevTs then prevTs + 1 else ts := by
  unfold bump at h
  split_ifs at h ⊢
  · exact Profile.eq_of_add_eq_some h
  · exact (Option.some.inj h).symm

theorem bumpTimestamps_times {prof : Profile} {prevTs : U64} {accs out : List Account}
    (h : bumpTimestamps prof prevTs accs = some out) :
    out.map Account.timestamp = bumpedTimes prevTs (accs.map Account.timestamp) := by
  induction accs generalizing prevTs out with
  | nil =>
      cases h
      rfl
  | cons acc accs ih =>
      simp only [bumpTimestamps, Option.bind_eq_bind, Option.bind_eq_some_iff] at h
      obtain ⟨ts, hts, rest, hrest, hout⟩ := h
      rw [← Option.some.inj hout, List.map_cons, List.map_cons, bumpedTimes, ih hrest,
        bump_eq_some hts]

theorem toNat_bumped {prevTs ts : U64} (h : max ts.toNat (prevTs.toNat + 1) < 2 ^ 64) :
    (if ts ≤ prevTs then prevTs + 1 else ts).toNat = max ts.toNat (prevTs.toNat + 1) := by
  split_ifs with hle
  · rw [BitVec.le_def] at hle
    rw [BitVec.toNat_add_of_lt (by change prevTs.toNat + 1 < 2 ^ 64; omega)]
    change prevTs.toNat + 1 = _
    omega
  · rw [BitVec.le_def] at hle
    omega

theorem getElem?_bumpedTimes {prevTs : U64} {times : List U64} {i x : ℕ}
    (hx : (raise prevTs.toNat (times.map BitVec.toNat))[i]? = some x) (hlt : x < 2 ^ 64) :
    ∃ ts, (bumpedTimes prevTs times)[i]? = some ts ∧ ts.toNat = x := by
  induction times generalizing prevTs i with
  | nil => simp [raise] at hx
  | cons ts times ih =>
      rw [List.map_cons, raise] at hx
      cases i with
      | zero =>
          rw [List.getElem?_cons_zero, Option.some.injEq] at hx
          refine ⟨_, List.getElem?_cons_zero, ?_⟩
          rw [toNat_bumped (hx ▸ hlt), hx]
      | succ i =>
          rw [List.getElem?_cons_succ] at hx
          have hhead := lt_of_mem_raise (List.mem_of_getElem? hx)
          rw [← toNat_bumped (hhead.trans hlt)] at hx
          obtain ⟨ts', hts', heq⟩ := ih hx
          exact ⟨ts', by rwa [bumpedTimes, List.getElem?_cons_succ], heq⟩

theorem toNat_bumpedTimes {prevTs : U64} {times : List U64}
    (h : raiseEnd prevTs.toNat (times.map BitVec.toNat) < 2 ^ 64) :
    (bumpedTimes prevTs times).map BitVec.toNat =
      raise prevTs.toNat (times.map BitVec.toNat) := by
  induction times generalizing prevTs with
  | nil => rfl
  | cons ts times ih =>
      rw [List.map_cons, raiseEnd] at h
      have hhead := (le_raiseEnd _ _).trans_lt h
      rw [List.map_cons, raise, bumpedTimes, List.map_cons]
      rw [← toNat_bumped hhead] at h
      rw [ih h, toNat_bumped hhead]

/-- Past `u64::MAX` the timestamps go on from zero. -/
theorem zero_mem_bumpedTimes {prevTs : U64} {times : List U64}
    (h : 2 ^ 64 ≤ raiseEnd prevTs.toNat (times.map BitVec.toNat)) :
    0 ∈ bumpedTimes prevTs times := by
  induction times generalizing prevTs with
  | nil =>
      have hlt := prevTs.isLt
      rw [List.map_nil, raiseEnd] at h
      omega
  | cons ts times ih =>
      rw [List.map_cons, raiseEnd] at h
      rw [bumpedTimes]
      by_cases hhead : max ts.toNat (prevTs.toNat + 1) < 2 ^ 64
      · rw [← toNat_bumped hhead] at h
        exact List.mem_cons_of_mem _ (ih h)
      · have hts := ts.isLt
        have hlt := prevTs.isLt
        have hmax : prevTs = BitVec.allOnes 64 := by
          apply BitVec.eq_of_toNat_eq
          rw [BitVec.toNat_allOnes]
          omega
        have hle : ts ≤ prevTs := by
          rw [BitVec.le_def, hmax, BitVec.toNat_allOnes]
          omega
        rw [if_pos hle, hmax]
        exact List.mem_cons_self

theorem bumpTimestamps_of_room (prof : Profile) {prevTs : U64} {accs : List Account}
    (h : raiseEnd prevTs.toNat (accs.map fun a => a.timestamp.toNat) < 2 ^ 64) :
    ∃ out, bumpTimestamps prof prevTs accs = some out := by
  induction accs generalizing prevTs with
  | nil => exact ⟨[], rfl⟩
  | cons acc accs ih =>
      rw [List.map_cons, raiseEnd] at h
      have hhead := (le_raiseEnd _ _).trans_lt h
      have hbump : bump prof prevTs acc.timestamp =
          some (if acc.timestamp ≤ prevTs then prevTs + 1 else acc.timestamp) := by
        unfold bump
        split_ifs
        · exact Profile.add_of_lt prof (by change prevTs.toNat + 1 < 2 ^ 64; omega)
        · rfl
      rw [← toNat_bumped hhead] at h
      obtain ⟨rest, hrest⟩ := ih h
      simp only [bumpTimestamps, hbump, hrest, Option.bind_eq_bind, Option.bind_some]
      exact ⟨_, rfl⟩

end BalancePlan

end TbManager
