import TbManager.CsvPlan

/-!
# The timeline of an uploaded plan

The sums are numbered in the order of a hash map and dated back from the cutoff,
one timestamp for each key; the window is raised from the cutoff on. The sums lie
before the window while there are fewer keys than timestamps, but which key gets
which of them is left to the hash map.
-/

namespace TbManager

namespace HashMap

variable {κ ν : Type*} [DecidableEq κ] [DecidableEq ν]

theorem exists_visited_first {m : HashMap κ ν} {e : Σ _ : κ, ν} (he : e ∈ m.entries) :
    ∃ ord es, iter m ord = e :: es := by
  obtain ⟨as, bs, hsplit⟩ := List.append_of_mem he
  have hperm : (e :: (as ++ bs)).Perm m.entries := by
    rw [hsplit]
    exact List.perm_middle.symm
  exact ⟨.showing m.entries _ hperm, as ++ bs, IterOrder.showing_arrange _ _ hperm⟩

end HashMap

namespace BalancePlan

/-- From the cutoff, and from each timestamp of the window on, there is room up to
`u64::MAX` for all transfers that are not earlier. -/
def WindowFits (c : U64) (transfers : List Transfer) : Prop :=
  ∀ ts, (ts = c ∨ ∃ t ∈ transfers, c ≤ t.timestamp ∧ t.timestamp = ts) →
    ts.toNat + transfers.countP (fun t => ts ≤ t.timestamp) ≤ 2 ^ 64

def windowTimes (c : U64) (transfers : List Transfer) : List U64 :=
  (sortByTimestamp (csvFrom c transfers)).map Transfer.timestamp

/-! ## The window -/

section Window

variable {c : U64} {transfers : List Transfer}

theorem mem_csvFrom {t : Transfer} : t ∈ csvFrom c transfers ↔ t ∈ transfers ∧ c ≤ t.timestamp := by
  rw [csvFrom, List.mem_filter, decide_eq_true_iff]

theorem mem_windowTimes {ts : U64} :
    ts ∈ windowTimes c transfers ↔ ∃ t ∈ transfers, c ≤ t.timestamp ∧ t.timestamp = ts := by
  rw [windowTimes, List.mem_map]
  simp only [(sortByTimestamp_stablySorted _).mem_iff, mem_csvFrom, and_assoc]

theorem countP_windowTimes {ts : U64} (hts : c ≤ ts) :
    ((windowTimes c transfers).map BitVec.toNat).countP (fun u => ts.toNat ≤ u) =
      transfers.countP fun t => ts ≤ t.timestamp := by
  rw [windowTimes, List.map_map, List.countP_map,
    (sortByTimestamp_stablySorted _).perm.countP_eq, csvFrom, List.countP_filter]
  apply List.countP_congr
  intro t _
  simp only [Function.comp_apply, Bool.and_eq_true, decide_eq_true_eq, ← BitVec.le_def]
  exact ⟨fun h => h.1, fun h => ⟨h, BitVec.le_trans hts h⟩⟩

theorem raiseEnd_windowTimes_lt_iff (hc : 0 < c) :
    raiseEnd (saturatingSub c 1).toNat ((windowTimes c transfers).map BitVec.toNat) < 2 ^ 64 ↔
      WindowFits c transfers := by
  have hpos : 0 < c.toNat := BitVec.lt_def.1 hc
  have hstart : (saturatingSub c 1).toNat = c.toNat - 1 := toNat_saturatingSub c 1
  have hsorted : ((windowTimes c transfers).map BitVec.toNat).Pairwise (· ≤ ·) := by
    rw [windowTimes, List.pairwise_map, List.pairwise_map]
    exact (sortByTimestamp_stablySorted _).sorted
  have hge : ∀ ts ∈ windowTimes c transfers, c ≤ ts := by
    intro ts hts
    obtain ⟨t, -, hct, rfl⟩ := mem_windowTimes.1 hts
    exact hct
  have hlength : ((windowTimes c transfers).map BitVec.toNat).length =
      transfers.countP fun t => c ≤ t.timestamp := by
    rw [← countP_windowTimes (BitVec.le_refl c), eq_comm, List.countP_eq_length]
    intro n hn
    obtain ⟨ts, hts, rfl⟩ := List.mem_map.1 hn
    simpa using BitVec.le_def.1 (hge ts hts)
  rw [raiseEnd_lt_iff hsorted, hlength, hstart]
  constructor
  · rintro ⟨hall, hroom⟩ ts (rfl | hts)
    · omega
    · have hmem := mem_windowTimes.2 hts
      rw [← countP_windowTimes (hge ts hmem)]
      exact hroom ts.toNat (List.mem_map_of_mem hmem)
  · intro hfits
    refine ⟨?_, fun n hn => ?_⟩
    · have hall := hfits c (.inl rfl)
      omega
    · obtain ⟨ts, hts, rfl⟩ := List.mem_map.1 hn
      rw [countP_windowTimes (hge ts hts)]
      exact hfits ts (.inr (mem_windowTimes.1 hts))

theorem toNat_window (hc : 0 < c) (hfits : WindowFits c transfers) :
    (bumpedTimes (saturatingSub c 1) (windowTimes c transfers)).map BitVec.toNat =
      raise (c.toNat - 1) ((windowTimes c transfers).map BitVec.toNat) := by
  rw [toNat_bumpedTimes ((raiseEnd_windowTimes_lt_iff hc).2 hfits), toNat_saturatingSub]
  rfl

/-- A window that does not fit goes on from timestamp zero. -/
theorem zero_mem_window (hc : 0 < c) (hfits : ¬ WindowFits c transfers) :
    0 ∈ bumpedTimes (saturatingSub c 1) (windowTimes c transfers) := by
  apply zero_mem_bumpedTimes
  rw [← raiseEnd_windowTimes_lt_iff hc] at hfits
  exact not_lt.1 hfits

end Window

/-! ## Before and after the cutoff -/

/-- The sums have positive timestamps before the cutoff, the window lies from the
cutoff on, and all timestamps of the plan increase strictly. -/
structure SplitAt (plan : BalancePlan) (c : U64) : Prop where
  positive : ∀ t ∈ plan.syntheticTransfers, 0 < t.timestamp
  before : ∀ t ∈ plan.syntheticTransfers, t.timestamp < c
  after : ∀ t ∈ plan.windowedTransfers, c ≤ t.timestamp
  increasing : (plan.syntheticTransfers.map SyntheticTransfer.timestamp ++
    plan.windowedTransfers.map Transfer.timestamp).Pairwise (· < ·)

section Split

variable {c : U64} {transfers : List Transfer} {plan : BalancePlan}

theorem CsvShape.toNat_times (h : CsvShape transfers c plan) (hlen : FitsVec transfers) :
    plan.syntheticTransfers.map (fun t => t.timestamp.toNat) =
      List.range' (c.toNat - (csvKeys c transfers).length) (csvKeys c transfers).length := by
  have htimes := congrArg (List.map BitVec.toNat) h.times
  rw [List.map_map, List.map_map] at htimes
  refine htimes.trans ?_
  rw [List.range'_eq_map_range]
  apply List.map_congr_left
  intro i hi
  exact toNat_csvTime c (csvKeys_length_lt hlen) (List.mem_range.1 hi)

theorem CsvShape.toNat_windowTimes (h : CsvShape transfers c plan) (hc : 0 < c)
    (hfits : WindowFits c transfers) :
    plan.windowedTransfers.map (fun t => t.timestamp.toNat) =
      raise (c.toNat - 1) ((windowTimes c transfers).map BitVec.toNat) := by
  rw [← toNat_window hc hfits, windowTimes, ← h.windowedTimes, List.map_map]
  rfl

theorem CsvShape.splitAt (h : CsvShape transfers c plan) (hlen : FitsVec transfers) (hc : 0 < c)
    (hkeys : (csvKeys c transfers).length < c.toNat) (hfits : WindowFits c transfers) :
    plan.SplitAt c := by
  have hsums : ∀ n ∈ plan.syntheticTransfers.map (fun t => t.timestamp.toNat),
      0 < n ∧ n < c.toNat := by
    rw [h.toNat_times hlen]
    intro n hn
    rw [List.mem_range'_1] at hn
    omega
  have hwindow : ∀ n ∈ plan.windowedTransfers.map (fun t => t.timestamp.toNat), c.toNat ≤ n := by
    rw [h.toNat_windowTimes hc hfits]
    intro n hn
    have hlt := lt_of_mem_raise hn
    omega
  constructor
  · intro t ht
    exact BitVec.lt_def.2 (hsums _ (List.mem_map_of_mem ht)).1
  · intro t ht
    exact BitVec.lt_def.2 (hsums _ (List.mem_map_of_mem ht)).2
  · intro t ht
    exact BitVec.le_def.2 (hwindow _ (List.mem_map_of_mem ht))
  · have hincreasing : (plan.syntheticTransfers.map (fun t => t.timestamp.toNat) ++
        plan.windowedTransfers.map (fun t => t.timestamp.toNat)).Pairwise (· < ·) := by
      rw [List.pairwise_append]
      refine ⟨?_, ?_, fun n hn m hm => ?_⟩
      · rw [h.toNat_times hlen]
        exact List.pairwise_lt_range'
      · rw [h.toNat_windowTimes hc hfits]
        exact pairwise_raise _ _
      · have hbefore := (hsums n hn).2
        have hafter := hwindow m hm
        omega
    apply (List.pairwise_map (f := BitVec.toNat) (R := (· < ·))).1
    rw [List.map_append, List.map_map, List.map_map]
    exact hincreasing

/-- With as many keys as timestamps before the cutoff the first sum is at zero. -/
theorem CsvShape.keys_lt_of_splitAt (h : CsvShape transfers c plan) (hlen : FitsVec transfers)
    (hc : 0 < c) (hsplit : plan.SplitAt c) : (csvKeys c transfers).length < c.toNat := by
  by_contra hkeys
  have hpos : 0 < c.toNat := BitVec.lt_def.1 hc
  have hzero : 0 ∈ plan.syntheticTransfers.map fun t => t.timestamp.toNat := by
    rw [h.toNat_times hlen, List.mem_range'_1]
    omega
  obtain ⟨t, ht, hts⟩ := List.mem_map.1 hzero
  have hpositive := BitVec.lt_def.1 (hsplit.positive t ht)
  change 0 < t.timestamp.toNat at hpositive
  omega

theorem CsvShape.exists_timestamp_zero (h : CsvShape transfers c plan) (hc : 0 < c)
    (hfits : ¬ WindowFits c transfers) : ∃ t ∈ plan.windowedTransfers, t.timestamp = 0 := by
  have hzero := zero_mem_window hc hfits
  rw [windowTimes, ← h.windowedTimes] at hzero
  exact List.mem_map.1 hzero

/-- The sums lie before the cutoff and all timestamps increase strictly, in every build
that returns, exactly when there are fewer keys before the cutoff than positive timestamps
and the window fits below `u64::MAX`. -/
theorem buildPlanFromCsv_splitAt_iff (ord : IterOrder TransferKey U128)
    (transfers : List Transfer) (hlen : FitsVec transfers) (c : U64) (hc : 0 < c) :
    Delivers (fun prof => buildPlanFromCsv prof ord transfers c) (fun plan => plan.SplitAt c) ↔
      (csvKeys c transfers).length < c.toNat ∧ WindowFits c transfers := by
  constructor
  · rintro ⟨⟨plan, hplan⟩, hall⟩
    have hshape := buildPlanFromCsv_shape hlen hplan
    have hsplit := hall .release plan hplan
    refine ⟨hshape.keys_lt_of_splitAt hlen hc hsplit, ?_⟩
    by_contra hfits
    obtain ⟨t, ht, hzero⟩ := hshape.exists_timestamp_zero hc hfits
    have hafter := hsplit.after t ht
    rw [hzero, BitVec.le_def] at hafter
    exact absurd (BitVec.lt_def.1 hc) (Nat.not_lt.2 hafter)
  · rintro ⟨hkeys, hfits⟩
    refine ⟨buildPlanFromCsv_release ord transfers c, fun prof plan hplan => ?_⟩
    exact (buildPlanFromCsv_shape hlen hplan).splitAt hlen hc hkeys hfits

end Split

theorem buildPlanFromCsv_splitAt_iff_uploaded :
    FitsVec uploaded ∧ (0 : U64) < 10 ∧
    (Delivers (fun prof => buildPlanFromCsv prof .stored uploaded 10)
        (fun plan => plan.SplitAt 10) ↔
      (csvKeys 10 uploaded).length < (10 : U64).toNat ∧ WindowFits 10 uploaded) :=
  have hlen : FitsVec uploaded := by decide
  have hc : (0 : U64) < 10 := by decide
  ⟨hlen, hc, buildPlanFromCsv_splitAt_iff .stored uploaded hlen 10 hc⟩

def oneTimestamp : List Transfer := [.moving 11 7 8 50 1 0 1, .moving 12 7 9 20 1 0 1]

/-- The first of the two sums is at timestamp zero. -/
theorem oneTimestamp_not_splitAt :
    (∀ prof, ∃ plan, buildPlanFromCsv prof .stored oneTimestamp 2 = some plan ∧
      ∃ t ∈ plan.syntheticTransfers, t.timestamp = 0) ∧
    ¬ Delivers (fun prof => buildPlanFromCsv prof .stored oneTimestamp 2) fun plan =>
      plan.SplitAt 2 := by
  have hzero : ∀ prof, ∃ plan, buildPlanFromCsv prof .stored oneTimestamp 2 = some plan ∧
      ∃ t ∈ plan.syntheticTransfers, t.timestamp = 0 := by
    intro prof
    refine ⟨⟨[], [], [⟨1, 7, 9, 20, 1, 999, 0⟩, ⟨2, 7, 8, 50, 1, 999, 1⟩], []⟩, ?_,
      _, List.mem_cons_self, rfl⟩
    cases prof <;> decide +kernel
  refine ⟨hzero, fun h => ?_⟩
  obtain ⟨plan, hplan, t, ht, hts⟩ := hzero .release
  have hpositive := (h.2 .release plan hplan).positive t ht
  rw [hts] at hpositive
  exact absurd hpositive (by decide)

/-! ## Accounts created before the cutoff -/

/-- Both accounts of a transfer are created before its timestamp. -/
def LaterThanAccounts (created : U128 → U64) (debitId creditId : U128) (ts : U64) : Prop :=
  created debitId < ts ∧ created creditId < ts

structure PostdatesAccounts (plan : BalancePlan) (created : U128 → U64) : Prop where
  synthetic : ∀ t ∈ plan.syntheticTransfers,
    LaterThanAccounts created t.debitAccountId t.creditAccountId t.timestamp
  windowed : ∀ t ∈ plan.windowedTransfers,
    LaterThanAccounts created t.debitAccountId t.creditAccountId t.timestamp

/-- Every build emits the sums in the order of the hash map. -/
theorem buildPlanFromCsv_cases {prof : Profile} {ord : IterOrder TransferKey U128}
    {transfers : List Transfer} {c : U64} {plan : BalancePlan} (hlen : FitsVec transfers)
    (hc : c ≠ 0) (h : buildPlanFromCsv prof ord transfers c = some plan) :
    ∃ agg windowed, aggregate prof (csvBefore c transfers) = some agg ∧
      agg.entries.length = (csvKeys c transfers).length ∧
      dedupeTimestamps prof (saturatingSub c 1) (sortByTimestamp (csvFrom c transfers)) =
        some windowed ∧
      plan = ⟨[], [], csvSynthetics
        (saturatingSub c (BitVec.ofNat 64 (csvKeys c transfers).length)) (HashMap.iter agg ord),
        windowed⟩ := by
  simp only [buildPlanFromCsv, if_neg hc, partition_eq, Option.bind_eq_bind,
    Option.bind_eq_some_iff] at h
  obtain ⟨agg, hagg, windowed, hwindowed, hplan⟩ := h
  have hcount : agg.entries.length = (csvKeys c transfers).length := by
    have hlength := (aggregate_keys_perm hagg).length_eq
    rwa [List.length_map] at hlength
  have hiter := HashMap.iter_perm agg ord
  rw [← hiter.length_eq,
    csvSynthetics_sorted c (hiter.length_eq ▸ hcount ▸ csvKeys_length_lt hlen),
    hiter.length_eq, hcount] at hplan
  exact ⟨agg, windowed, hagg, hcount, hwindowed, (Option.some.inj hplan).symm⟩

/-- Each key is dated first by some iteration of the sums. -/
theorem exists_key_first {transfers : List Transfer} {c : U64} (hlen : FitsVec transfers)
    (hc : c ≠ 0) {k : TransferKey} (hk : k ∈ csvKeys c transfers) :
    ∃ ord plan t ts, buildPlanFromCsv .release ord transfers c = some plan ∧
      plan.syntheticTransfers = t :: ts ∧ t.key = k ∧
      t.timestamp = saturatingSub c (BitVec.ofNat 64 (csvKeys c transfers).length) := by
  obtain ⟨agg, hagg⟩ := HashMap.addAll_release Transfer.key Transfer.amount ∅
    (csvBefore c transfers)
  obtain ⟨e, he, rfl⟩ := List.mem_map.1 ((aggregate_keys_perm hagg).mem_iff.2 hk)
  obtain ⟨ord, es, hfirst⟩ := HashMap.exists_visited_first he
  obtain ⟨plan, hplan⟩ := buildPlanFromCsv_release ord transfers c
  obtain ⟨agg', windowed, hagg', -, -, hcases⟩ := buildPlanFromCsv_cases hlen hc hplan
  have hsame : agg' = agg := Option.some.inj (hagg'.symm.trans hagg)
  rw [hsame, hfirst, csvSynthetics, List.zipIdx_cons, List.map_cons] at hcases
  refine ⟨ord, plan, _, _, hplan, congrArg syntheticTransfers hcases, rfl, ?_⟩
  exact BitVec.add_zero _

theorem dedupeTimestamps_later {prof : Profile} {prev : U64} {ts out : List Transfer}
    (h : dedupeTimestamps prof prev ts = some out)
    (hroom : raiseEnd prev.toNat ((ts.map Transfer.timestamp).map BitVec.toNat) < 2 ^ 64) :
    ∀ u ∈ out, ∃ t ∈ ts, u.untimed = t.untimed ∧ t.timestamp ≤ u.timestamp := by
  induction ts generalizing prev out with
  | nil =>
      cases h
      intro u hu
      cases hu
  | cons t ts ih =>
      simp only [dedupeTimestamps, Option.bind_eq_bind, Option.bind_eq_some_iff] at h
      obtain ⟨timestamp, hts, rest, hrest, hout⟩ := h
      rw [List.map_cons, List.map_cons, raiseEnd] at hroom
      have hhead := toNat_bumped ((le_raiseEnd _ _).trans_lt hroom)
      rw [← bump_eq_some hts] at hhead
      rw [← hhead] at hroom
      rw [← Option.some.inj hout]
      intro u hu
      rcases List.mem_cons.1 hu with rfl | hu
      · refine ⟨t, List.mem_cons_self, rfl, ?_⟩
        rw [BitVec.le_def]
        dsimp only
        omega
      · obtain ⟨v, hv, hsame, hle⟩ := ih hrest hroom u hu
        exact ⟨v, List.mem_cons_of_mem t hv, hsame, hle⟩

section Later

variable {transfers : List Transfer} {c : U64} {created : U128 → U64}

/-- Both accounts of each key are created before its sums can be dated. -/
def CreatedBeforeSums (c : U64) (transfers : List Transfer) (created : U128 → U64) : Prop :=
  ∀ t ∈ transfers, t.timestamp < c →
    (created t.debitAccountId).toNat + (csvKeys c transfers).length < c.toNat ∧
      (created t.creditAccountId).toNat + (csvKeys c transfers).length < c.toNat

theorem createdBeforeSums_of_postdates (hlen : FitsVec transfers)
    (hkeys : (csvKeys c transfers).length < c.toNat)
    (h : ∀ ord plan, buildPlanFromCsv .release ord transfers c = some plan →
      plan.PostdatesAccounts created) : CreatedBeforeSums c transfers created := by
  intro t ht hbefore
  have hc : c ≠ 0 := by
    rintro rfl
    exact absurd hkeys (Nat.not_lt_zero _)
  have hk : t.key ∈ csvKeys c transfers := mem_csvKeys.2 ⟨t, ht, hbefore, rfl⟩
  obtain ⟨ord, plan, s, ss, hplan, hsums, hkey, hts⟩ := exists_key_first hlen hc hk
  have hpost := (h ord plan hplan).synthetic s (hsums ▸ List.mem_cons_self)
  have hn : (BitVec.ofNat 64 (csvKeys c transfers).length).toNat =
      (csvKeys c transfers).length := Nat.mod_eq_of_lt (csvKeys_length_lt hlen)
  have hstamp : s.timestamp.toNat = c.toNat - (csvKeys c transfers).length := by
    rw [hts, toNat_saturatingSub, hn]
  have hdebitId : s.debitAccountId = t.debitAccountId := congrArg (fun k => k.1) hkey
  have hcreditId : s.creditAccountId = t.creditAccountId := congrArg (fun k => k.2.1) hkey
  have hdebit := BitVec.lt_def.1 hpost.1
  have hcredit := BitVec.lt_def.1 hpost.2
  rw [hdebitId, hstamp] at hdebit
  rw [hcreditId, hstamp] at hcredit
  omega

theorem CsvShape.postdates_synthetic {plan : BalancePlan} (h : CsvShape transfers c plan)
    (hlen : FitsVec transfers) (hcreated : CreatedBeforeSums c transfers created) :
    ∀ t ∈ plan.syntheticTransfers,
      LaterThanAccounts created t.debitAccountId t.creditAccountId t.timestamp := by
  intro s hs
  obtain ⟨t, ht, hbefore, hkey⟩ := mem_csvKeys.1 (h.keys.mem_iff.1 (List.mem_map_of_mem hs))
  have hts : s.timestamp.toNat ∈ plan.syntheticTransfers.map fun t => t.timestamp.toNat :=
    List.mem_map_of_mem (f := fun t : SyntheticTransfer => t.timestamp.toNat) hs
  rw [h.toNat_times hlen, List.mem_range'_1] at hts
  have hdebitId : t.debitAccountId = s.debitAccountId := congrArg (fun k => k.1) hkey
  have hcreditId : t.creditAccountId = s.creditAccountId := congrArg (fun k => k.2.1) hkey
  obtain ⟨hdebit, hcredit⟩ := hcreated t ht hbefore
  rw [hdebitId] at hdebit
  rw [hcreditId] at hcredit
  constructor
  · rw [BitVec.lt_def]
    omega
  · rw [BitVec.lt_def]
    omega

/-- Every transfer of the plan postdates its accounts, in every build that returns and
whatever the iteration order, exactly when the accounts of the keys before the cutoff are
created earlier than one timestamp for each key before it, and the window fits. -/
theorem buildPlanFromCsv_postdates_iff (transfers : List Transfer) (hlen : FitsVec transfers)
    (c : U64) (hkeys : (csvKeys c transfers).length < c.toNat) (created : U128 → U64)
    (hlater : ∀ t ∈ transfers,
      LaterThanAccounts created t.debitAccountId t.creditAccountId t.timestamp) :
    (∀ ord, Delivers (fun prof => buildPlanFromCsv prof ord transfers c) fun plan =>
        plan.PostdatesAccounts created) ↔
      CreatedBeforeSums c transfers created ∧ WindowFits c transfers := by
  have hc : c ≠ 0 := by
    rintro rfl
    exact absurd hkeys (Nat.not_lt_zero _)
  have hpos : 0 < c := BitVec.lt_def.2 (Nat.zero_lt_of_lt hkeys)
  constructor
  · intro h
    refine ⟨createdBeforeSums_of_postdates hlen hkeys fun ord plan hplan =>
      (h ord).2 .release plan hplan, ?_⟩
    by_contra hfits
    obtain ⟨⟨plan, hplan⟩, hall⟩ := h .stored
    obtain ⟨t, ht, hzero⟩ :=
      (buildPlanFromCsv_shape hlen hplan).exists_timestamp_zero hpos hfits
    have hpost := ((hall .release plan hplan).windowed t ht).1
    rw [hzero, BitVec.lt_def] at hpost
    exact Nat.not_lt_zero _ hpost
  · rintro ⟨hcreated, hfits⟩ ord
    refine ⟨buildPlanFromCsv_release ord transfers c, fun prof plan hplan => ?_⟩
    refine ⟨(buildPlanFromCsv_shape hlen hplan).postdates_synthetic hlen hcreated, ?_⟩
    obtain ⟨agg, windowed, -, -, hwindowed, rfl⟩ := buildPlanFromCsv_cases hlen hc hplan
    intro u hu
    obtain ⟨t, ht, hsame, hle⟩ := dedupeTimestamps_later hwindowed
      ((raiseEnd_windowTimes_lt_iff hpos).2 hfits) u hu
    have hmem := (mem_csvFrom.1 ((sortByTimestamp_stablySorted _).mem_iff.1 ht)).1
    obtain ⟨hdebit, hcredit⟩ := hlater t hmem
    have hdebitId : u.debitAccountId = t.debitAccountId :=
      (congrArg Transfer.debitAccountId hsame :)
    have hcreditId : u.creditAccountId = t.creditAccountId :=
      (congrArg Transfer.creditAccountId hsame :)
    rw [hdebitId, hcreditId]
    rw [BitVec.le_def] at hle
    exact ⟨BitVec.lt_def.2 ((BitVec.lt_def.1 hdebit).trans_le hle),
      BitVec.lt_def.2 ((BitVec.lt_def.1 hcredit).trans_le hle)⟩

end Later

theorem buildPlanFromCsv_postdates_iff_uploaded :
    FitsVec uploaded ∧ (csvKeys 10 uploaded).length < (10 : U64).toNat ∧
    (∀ t ∈ uploaded,
      LaterThanAccounts (fun _ => 1) t.debitAccountId t.creditAccountId t.timestamp) ∧
    ((∀ ord, Delivers (fun prof => buildPlanFromCsv prof ord uploaded 10) fun plan =>
        plan.PostdatesAccounts fun _ => 1) ↔
      CreatedBeforeSums 10 uploaded (fun _ => 1) ∧ WindowFits 10 uploaded) :=
  have hlen : FitsVec uploaded := by decide
  have hkeys : (csvKeys 10 uploaded).length < (10 : U64).toNat := by decide
  have hlater : ∀ t ∈ uploaded,
      LaterThanAccounts (fun _ => 1) t.debitAccountId t.creditAccountId t.timestamp := by
    unfold LaterThanAccounts
    decide
  ⟨hlen, hkeys, hlater, buildPlanFromCsv_postdates_iff uploaded hlen 10 hkeys (fun _ => 1) hlater⟩

def lateAccount : List Transfer := [.moving 11 7 8 50 1 0 4, .moving 12 7 9 20 1 0 9]

def lateCreated (i : U128) : U64 := if i = 9 then 8 else 1

/-- The sum of account 9 is dated back to the timestamp of the account. -/
theorem lateAccount_not_postdated :
    (csvKeys 10 lateAccount).length < (10 : U64).toNat ∧
    (∀ t ∈ lateAccount,
      LaterThanAccounts lateCreated t.debitAccountId t.creditAccountId t.timestamp) ∧
    (∀ prof, ∃ plan, buildPlanFromCsv prof .stored lateAccount 10 = some plan ∧
      ∃ t ∈ plan.syntheticTransfers, t.creditAccountId = 9 ∧ t.timestamp = lateCreated 9) ∧
    ¬ ∀ ord, Delivers (fun prof => buildPlanFromCsv prof ord lateAccount 10) fun plan =>
      plan.PostdatesAccounts lateCreated := by
  have hplan : ∀ prof, ∃ plan, buildPlanFromCsv prof .stored lateAccount 10 = some plan ∧
      ∃ t ∈ plan.syntheticTransfers, t.creditAccountId = 9 ∧ t.timestamp = lateCreated 9 := by
    intro prof
    refine ⟨⟨[], [], [⟨1, 7, 9, 20, 1, 999, 8⟩, ⟨2, 7, 8, 50, 1, 999, 9⟩], []⟩, ?_,
      _, List.mem_cons_self, rfl, rfl⟩
    cases prof <;> decide +kernel
  refine ⟨by decide, by unfold LaterThanAccounts; decide, hplan, fun h => ?_⟩
  obtain ⟨plan, hrelease, t, ht, hid, hts⟩ := hplan .release
  have hpost := (((h .stored).2 .release plan hrelease).synthetic t ht).2
  rw [hid, hts] at hpost
  exact absurd hpost (by decide)

/-! ## The order of the sums -/

theorem iter_of_length_le_one {agg : HashMap TransferKey U128} (h : agg.entries.length ≤ 1)
    (ord : IterOrder TransferKey U128) : HashMap.iter agg ord = agg.entries := by
  have hperm := HashMap.iter_perm agg ord
  cases hentries : agg.entries with
  | nil =>
      rw [hentries] at hperm
      exact hperm.eq_nil
  | cons e es =>
      rw [hentries, List.length_cons] at h
      rw [hentries, List.length_eq_zero_iff.1 (show es.length = 0 by omega)] at hperm
      rw [List.length_eq_zero_iff.1 (show es.length = 0 by omega)]
      exact List.perm_singleton.1 hperm

/-- Two runs on one list make the same plan, whatever the iteration orders, exactly when at
most one key occurs before the cutoff. -/
theorem buildPlanFromCsv_sameOrders_iff (transfers : List Transfer) (hlen : FitsVec transfers)
    (c : U64) :
    (∀ prof ord ord', buildPlanFromCsv prof ord transfers c =
        buildPlanFromCsv prof ord' transfers c) ↔ (csvKeys c transfers).length ≤ 1 := by
  constructor
  · intro hsame
    by_contra hmany
    obtain ⟨k, k', ks, hkeys⟩ : ∃ k k' ks, csvKeys c transfers = k :: k' :: ks := by
      match csvKeys c transfers, hmany with
      | [], h => exact absurd (Nat.zero_le 1) h
      | [_], h => exact absurd le_rfl h
      | k :: k' :: ks, _ => exact ⟨k, k', ks, rfl⟩
    have hc : c ≠ 0 := by
      rintro rfl
      rw [csvKeys, csvBefore_zero] at hkeys
      cases hkeys
    have hk : k ∈ csvKeys c transfers := hkeys ▸ List.mem_cons_self
    have hk' : k' ∈ csvKeys c transfers := hkeys ▸ List.mem_cons_of_mem k List.mem_cons_self
    obtain ⟨ord, plan, t, ts, hplan, hsums, hkey, -⟩ := exists_key_first hlen hc hk
    obtain ⟨ord', plan', t', ts', hplan', hsums', hkey', -⟩ := exists_key_first hlen hc hk'
    have hplans : plan = plan' :=
      Option.some.inj (hplan.symm.trans ((hsame .release ord ord').trans hplan'))
    rw [hplans, hsums', List.cons.injEq] at hsums
    have hnodup : (k :: k' :: ks).Nodup := hkeys ▸ List.nodup_dedup _
    apply (List.nodup_cons.1 hnodup).1
    rw [← hkey, ← hkey', hsums.1]
    exact List.mem_cons_self
  · intro hle prof ord ord'
    by_cases hc : c = 0
    · simp only [buildPlanFromCsv, if_pos hc]
    · simp only [buildPlanFromCsv, if_neg hc, partition_eq]
      cases hagg : aggregate prof (csvBefore c transfers) with
      | none => rfl
      | some agg =>
          have hcount := (aggregate_keys_perm hagg).length_eq
          rw [List.length_map] at hcount
          have hone : agg.entries.length ≤ 1 := hcount.trans_le hle
          simp only [Option.bind_eq_bind, Option.bind_some, iter_of_length_le_one hone]

theorem buildPlanFromCsv_sameOrders_iff_uploaded :
    FitsVec uploaded ∧
    ((∀ prof ord ord', buildPlanFromCsv prof ord uploaded 10 =
        buildPlanFromCsv prof ord' uploaded 10) ↔ (csvKeys 10 uploaded).length ≤ 1) :=
  have hlen : FitsVec uploaded := by decide
  ⟨hlen, buildPlanFromCsv_sameOrders_iff uploaded hlen 10⟩

theorem lateAccount_depends_on_order :
    (lateAccount.map Transfer.timestamp).Nodup ∧
    (∀ prof, buildPlanFromCsv prof .stored lateAccount 10 =
        some ⟨[], [], [⟨1, 7, 9, 20, 1, 999, 8⟩, ⟨2, 7, 8, 50, 1, 999, 9⟩], []⟩ ∧
      buildPlanFromCsv prof .reversed lateAccount 10 =
        some ⟨[], [], [⟨1, 7, 8, 50, 1, 999, 8⟩, ⟨2, 7, 9, 20, 1, 999, 9⟩], []⟩) ∧
    ¬ ∀ prof ord ord', buildPlanFromCsv prof ord lateAccount 10 =
      buildPlanFromCsv prof ord' lateAccount 10 := by
  have hplans : ∀ prof, buildPlanFromCsv prof .stored lateAccount 10 =
        some ⟨[], [], [⟨1, 7, 9, 20, 1, 999, 8⟩, ⟨2, 7, 8, 50, 1, 999, 9⟩], []⟩ ∧
      buildPlanFromCsv prof .reversed lateAccount 10 =
        some ⟨[], [], [⟨1, 7, 8, 50, 1, 999, 8⟩, ⟨2, 7, 9, 20, 1, 999, 9⟩], []⟩ := by
    intro prof
    cases prof <;> decide +kernel
  refine ⟨by decide, hplans, fun h => ?_⟩
  have hsame := h .release .stored .reversed
  rw [(hplans .release).1, (hplans .release).2] at hsame
  exact absurd hsame (by decide +kernel)

end BalancePlan

end TbManager
