import TbManager.PlanTimeline

/-!
# Plans of uploaded transfers

`build_plan_from_csv` splits a list of transfers at the cutoff: the earlier ones
are summed up by their accounts and ledger, the later ones are replayed as they
are. The order of the sums is the iteration order of a hash map.
-/

namespace TbManager

abbrev TransferKey := U128 × U128 × U32

def Transfer.key (t : Transfer) : TransferKey := (t.debitAccountId, t.creditAccountId, t.ledger)

def SyntheticTransfer.key (t : SyntheticTransfer) : TransferKey :=
  (t.debitAccountId, t.creditAccountId, t.ledger)

/-- A transfer without the field that the planner rewrites. -/
def Transfer.untimed (t : Transfer) : Transfer := { t with timestamp := 0 }

namespace BalancePlan

def sortByTimestamp (transfers : List Transfer) : List Transfer :=
  transfers.insertionSort fun a b => a.timestamp ≤ b.timestamp

/-- A timestamp that is not greater than the previous one becomes its successor. -/
def dedupeTimestamps (prof : Profile) : U64 → List Transfer → Option (List Transfer)
  | _, [] => some []
  | prev, t :: ts => do
    let timestamp ← bump prof prev t.timestamp
    let rest ← dedupeTimestamps prof timestamp ts
    some ({ t with timestamp := timestamp } :: rest)

def aggregate (prof : Profile) (transfers : List Transfer) : Option (HashMap TransferKey U128) :=
  HashMap.addAll prof Transfer.key Transfer.amount ∅ transfers

/-- The transfer of the entry at an index. An index below the number of entries
overflows neither the id nor a timestamp from `cutoff_ts - N`. -/
def csvSynthetic (baseTs : U64) (i : ℕ) (e : Σ _ : TransferKey, U128) : SyntheticTransfer where
  id := BitVec.ofNat 128 i + 1
  debitAccountId := e.1.1
  creditAccountId := e.1.2.1
  amount := e.2
  ledger := e.1.2.2
  code := 999
  timestamp := baseTs + BitVec.ofNat 64 i

def csvSynthetics (baseTs : U64) (es : List (Σ _ : TransferKey, U128)) :
    List SyntheticTransfer :=
  es.zipIdx.map fun e => csvSynthetic baseTs e.2 e.1

def buildPlanFromCsv (prof : Profile) (ord : IterOrder TransferKey U128)
    (transfers : List Transfer) (cutoffTs : U64) : Option BalancePlan :=
  if cutoffTs = 0 then do
    let windowed ← dedupeTimestamps prof 0 (sortByTimestamp transfers)
    some ⟨[], [], [], windowed⟩
  else do
    let (pre, post) := transfers.partition fun t => t.timestamp < cutoffTs
    let agg ← aggregate prof pre
    let num := BitVec.ofNat 64 agg.entries.length
    let baseTs := saturatingSub cutoffTs num
    let synthetic := csvSynthetics baseTs (HashMap.iter agg ord)
    let windowed ← dedupeTimestamps prof (saturatingSub cutoffTs 1) (sortByTimestamp post)
    some ⟨[], [], synthetic.insertionSort fun s t => s.timestamp ≤ t.timestamp, windowed⟩

/-! ## The two parts -/

def csvBefore (c : U64) (transfers : List Transfer) : List Transfer :=
  transfers.filter fun t => t.timestamp < c

def csvFrom (c : U64) (transfers : List Transfer) : List Transfer :=
  transfers.filter fun t => c ≤ t.timestamp

def csvKeys (c : U64) (transfers : List Transfer) : List TransferKey :=
  ((csvBefore c transfers).map Transfer.key).dedup

theorem partition_eq (c : U64) (transfers : List Transfer) :
    (transfers.partition fun t => t.timestamp < c) =
      (csvBefore c transfers, csvFrom c transfers) := by
  rw [List.partition_eq_filter_filter, csvBefore, csvFrom, Prod.mk.injEq]
  refine ⟨rfl, List.filter_congr fun t _ => ?_⟩
  rw [Function.comp_apply, ← decide_not, decide_eq_decide, BitVec.not_lt]

theorem csvBefore_zero (transfers : List Transfer) : csvBefore 0 transfers = [] := by
  apply List.filter_eq_nil_iff.2
  intro t _
  rw [decide_eq_true_iff]
  bv_omega

theorem csvFrom_zero (transfers : List Transfer) : csvFrom 0 transfers = transfers := by
  apply List.filter_eq_self.2
  intro t _
  rw [decide_eq_true_iff]
  bv_omega

theorem sortByTimestamp_stablySorted (transfers : List Transfer) :
    StablySorted (fun t : Transfer => t.timestamp.toNat) transfers
      (sortByTimestamp transfers) := by
  apply stablySorted_insertionSort
  intro t u
  exact BitVec.le_def

/-! ## Rewritten timestamps -/

section Dedupe

variable {prof : Profile} {prev : U64} {ts out : List Transfer}

theorem dedupeTimestamps_untimed (h : dedupeTimestamps prof prev ts = some out) :
    out.map Transfer.untimed = ts.map Transfer.untimed := by
  induction ts generalizing prev out with
  | nil =>
      cases h
      rfl
  | cons t ts ih =>
      simp only [dedupeTimestamps, Option.bind_eq_bind, Option.bind_eq_some_iff] at h
      obtain ⟨timestamp, _, rest, hrest, hout⟩ := h
      rw [← Option.some.inj hout, List.map_cons, List.map_cons, ih hrest]
      rfl

theorem dedupeTimestamps_times (h : dedupeTimestamps prof prev ts = some out) :
    out.map Transfer.timestamp = bumpedTimes prev (ts.map Transfer.timestamp) := by
  induction ts generalizing prev out with
  | nil =>
      cases h
      rfl
  | cons t ts ih =>
      simp only [dedupeTimestamps, Option.bind_eq_bind, Option.bind_eq_some_iff] at h
      obtain ⟨timestamp, hts, rest, hrest, hout⟩ := h
      rw [← Option.some.inj hout, List.map_cons, List.map_cons, bumpedTimes, ih hrest,
        bump_eq_some hts]

theorem dedupeTimestamps_release (prev : U64) (ts : List Transfer) :
    ∃ out, dedupeTimestamps .release prev ts = some out := by
  induction ts generalizing prev with
  | nil => exact ⟨[], rfl⟩
  | cons t ts ih =>
      obtain ⟨ts', hts⟩ := bump_release prev t.timestamp
      obtain ⟨rest, hrest⟩ := ih ts'
      simp only [dedupeTimestamps, hts, hrest, Option.bind_eq_bind, Option.bind_some]
      exact ⟨_, rfl⟩

end Dedupe

/-! ## Sums by key -/

section Aggregate

variable {prof : Profile} {transfers : List Transfer} {agg : HashMap TransferKey U128}

theorem aggregate_keys_perm (h : aggregate prof transfers = some agg) :
    (agg.entries.map Sigma.fst).Perm (transfers.map Transfer.key).dedup := by
  refine (List.perm_ext_iff_of_nodup agg.nodupKeys (List.nodup_dedup _)).2 fun k => ?_
  rw [List.mem_dedup]
  exact (HashMap.mem_addAll h k).trans (by simp)

theorem aggregate_amount (h : aggregate prof transfers = some agg) {e : Σ _ : TransferKey, U128}
    (he : e ∈ agg.entries) :
    e.2.toNat = HashMap.keySum Transfer.key Transfer.amount e.1 transfers % 2 ^ 128 := by
  have hsum := HashMap.toNat_lookup_addAll_empty h e.1
  rwa [(HashMap.mem_entries_iff _ _ _).1 he, Option.getD_some] at hsum

end Aggregate

/-! ## Numbered sums -/

section Numbered

variable (baseTs : U64) (es : List (Σ _ : TransferKey, U128))

theorem csvSynthetics_ids : (csvSynthetics baseTs es).map SyntheticTransfer.id =
    (List.range es.length).map fun i => BitVec.ofNat 128 (i + 1) := by
  rw [csvSynthetics, List.map_map, List.range_eq_range', ← List.zipIdx_map_snd 0 es, List.map_map]
  apply List.map_congr_left
  intro e _
  exact (ofNat_succ e.2).symm

theorem csvSynthetics_times : (csvSynthetics baseTs es).map SyntheticTransfer.timestamp =
    (List.range es.length).map fun i => baseTs + BitVec.ofNat 64 i := by
  rw [csvSynthetics, List.map_map, List.range_eq_range', ← List.zipIdx_map_snd 0 es, List.map_map]
  rfl

theorem csvSynthetics_entries :
    ((csvSynthetics baseTs es).map fun t => (⟨t.key, t.amount⟩ : Σ _ : TransferKey, U128)) = es := by
  rw [csvSynthetics, List.map_map]
  exact List.zipIdx_map_fst 0 es

end Numbered

/-- From `cutoff_ts - N` the timestamps of `N` sums do not overflow. -/
theorem toNat_csvTime (c : U64) {n i : ℕ} (hn : n < 2 ^ 64) (hi : i < n) :
    (saturatingSub c (BitVec.ofNat 64 n) + BitVec.ofNat 64 i).toNat = c.toNat - n + i := by
  have hc := c.isLt
  have hnat : (BitVec.ofNat 64 n).toNat = n := Nat.mod_eq_of_lt hn
  rw [BitVec.toNat_add, toNat_saturatingSub, hnat, BitVec.toNat_ofNat]
  omega

theorem csvSynthetics_sorted (c : U64) {es : List (Σ _ : TransferKey, U128)}
    (hlen : es.length < 2 ^ 64) :
    (csvSynthetics (saturatingSub c (BitVec.ofNat 64 es.length)) es).insertionSort
        (fun s t => s.timestamp ≤ t.timestamp) =
      csvSynthetics (saturatingSub c (BitVec.ofNat 64 es.length)) es := by
  apply List.Pairwise.insertionSort_eq
  have htimes : ((csvSynthetics (saturatingSub c (BitVec.ofNat 64 es.length)) es).map
      SyntheticTransfer.timestamp).Pairwise (· ≤ ·) := by
    rw [csvSynthetics_times, List.pairwise_map]
    apply List.pairwise_lt_range.imp_of_mem
    intro i j hi hj hij
    rw [BitVec.le_def, toNat_csvTime c hlen (List.mem_range.1 hi),
      toNat_csvTime c hlen (List.mem_range.1 hj)]
    omega
  exact List.pairwise_map.1 htimes

/-! ## What a plan contains -/

/-- The two parts of a plan: the numbered sums, right before the cutoff, and the
sorted window. -/
structure CsvShape (transfers : List Transfer) (c : U64) (plan : BalancePlan) : Prop where
  accounts : plan.genesisAccounts ++ plan.regularAccounts = []
  ids : plan.syntheticTransfers.map SyntheticTransfer.id =
    (List.range (csvKeys c transfers).length).map fun i => BitVec.ofNat 128 (i + 1)
  times : plan.syntheticTransfers.map SyntheticTransfer.timestamp =
    (List.range (csvKeys c transfers).length).map fun i =>
      saturatingSub c (BitVec.ofNat 64 (csvKeys c transfers).length) + BitVec.ofNat 64 i
  keys : (plan.syntheticTransfers.map SyntheticTransfer.key).Perm (csvKeys c transfers)
  amounts : ∀ t ∈ plan.syntheticTransfers, t.amount.toNat =
    HashMap.keySum Transfer.key Transfer.amount t.key (csvBefore c transfers) % 2 ^ 128
  windowed : plan.windowedTransfers.map Transfer.untimed =
    (sortByTimestamp (csvFrom c transfers)).map Transfer.untimed
  windowedTimes : plan.windowedTransfers.map Transfer.timestamp =
    bumpedTimes (saturatingSub c 1)
      ((sortByTimestamp (csvFrom c transfers)).map Transfer.timestamp)

section Shape

variable {prof : Profile} {ord : IterOrder TransferKey U128} {transfers : List Transfer} {c : U64}
  {plan : BalancePlan}

theorem csvKeys_length_lt (hlen : FitsVec transfers) : (csvKeys c transfers).length < 2 ^ 64 := by
  have hdedup := ((csvBefore c transfers).map Transfer.key).dedup_sublist.length_le
  have hfilter : (csvBefore c transfers).length ≤ transfers.length := List.length_filter_le _ _
  rw [List.length_map] at hdedup
  unfold FitsVec at hlen
  unfold csvKeys
  omega

theorem csvShape_zero (h : buildPlanFromCsv prof ord transfers 0 = some plan) :
    CsvShape transfers 0 plan := by
  simp only [buildPlanFromCsv, if_pos, Option.bind_eq_bind, Option.bind_eq_some_iff] at h
  obtain ⟨windowed, hwindowed, hplan⟩ := h
  have hnone : csvKeys 0 transfers = [] := by
    rw [csvKeys, csvBefore_zero]
    rfl
  rw [← Option.some.inj hplan]
  constructor
  · rfl
  · rw [hnone]
    rfl
  · rw [hnone]
    rfl
  · rw [hnone]
    exact List.Perm.refl []
  · intro t ht
    cases ht
  · rw [csvFrom_zero]
    exact dedupeTimestamps_untimed hwindowed
  · rw [csvFrom_zero]
    exact dedupeTimestamps_times hwindowed

theorem csvShape_of_ne_zero (hc : c ≠ 0) (hlen : FitsVec transfers)
    (h : buildPlanFromCsv prof ord transfers c = some plan) : CsvShape transfers c plan := by
  simp only [buildPlanFromCsv, if_neg hc, partition_eq, Option.bind_eq_bind,
    Option.bind_eq_some_iff] at h
  obtain ⟨agg, hagg, windowed, hwindowed, hplan⟩ := h
  have hiter := HashMap.iter_perm agg ord
  have hkeys := (hiter.map Sigma.fst).trans (aggregate_keys_perm hagg)
  have hcount : (HashMap.iter agg ord).length = (csvKeys c transfers).length := by
    have hlength := hkeys.length_eq
    rwa [List.length_map] at hlength
  rw [← hiter.length_eq, csvSynthetics_sorted c (hcount ▸ csvKeys_length_lt hlen)] at hplan
  have hentries := csvSynthetics_entries
    (saturatingSub c (BitVec.ofNat 64 (HashMap.iter agg ord).length)) (HashMap.iter agg ord)
  rw [← Option.some.inj hplan]
  constructor
  · rfl
  · rw [← hcount]
    exact csvSynthetics_ids _ _
  · rw [← hcount]
    exact csvSynthetics_times _ _
  · have hfst := congrArg (List.map Sigma.fst) hentries
    rw [List.map_map] at hfst
    exact (List.Perm.of_eq hfst).trans hkeys
  · intro t ht
    have hmem := List.mem_map_of_mem
      (f := fun t : SyntheticTransfer => (⟨t.key, t.amount⟩ : Σ _ : TransferKey, U128)) ht
    rw [hentries] at hmem
    exact aggregate_amount hagg (hiter.mem_iff.1 hmem)
  · exact dedupeTimestamps_untimed hwindowed
  · exact dedupeTimestamps_times hwindowed

theorem buildPlanFromCsv_shape (hlen : FitsVec transfers)
    (h : buildPlanFromCsv prof ord transfers c = some plan) : CsvShape transfers c plan := by
  by_cases hc : c = 0
  · rw [hc] at h ⊢
    exact csvShape_zero h
  · exact csvShape_of_ne_zero hc hlen h

theorem buildPlanFromCsv_release (ord : IterOrder TransferKey U128) (transfers : List Transfer)
    (c : U64) : ∃ plan, buildPlanFromCsv .release ord transfers c = some plan := by
  by_cases hc : c = 0
  · obtain ⟨windowed, hwindowed⟩ := dedupeTimestamps_release 0 (sortByTimestamp transfers)
    simp only [buildPlanFromCsv, if_pos hc, hwindowed, Option.bind_eq_bind, Option.bind_some]
    exact ⟨_, rfl⟩
  · obtain ⟨agg, hagg⟩ := HashMap.addAll_release Transfer.key Transfer.amount ∅
      (csvBefore c transfers)
    obtain ⟨windowed, hwindowed⟩ := dedupeTimestamps_release (saturatingSub c 1)
      (sortByTimestamp (csvFrom c transfers))
    simp only [buildPlanFromCsv, if_neg hc, partition_eq, aggregate, hagg, hwindowed,
      Option.bind_eq_bind, Option.bind_some]
    exact ⟨_, rfl⟩

end Shape

/-! ## Nothing is lost or duplicated -/

/-- The window is a stable sort of some transfers, apart from its timestamps. -/
def ReplaysSorted (plan : BalancePlan) (transfers : List Transfer) : Prop :=
  ∃ sorted, StablySorted (fun t : Transfer => t.timestamp.toNat) transfers sorted ∧
    plan.windowedTransfers.map Transfer.untimed = sorted.map Transfer.untimed

/-- One sum for each key before the cutoff, numbered from 1, and the sorted rest. -/
structure Splits (plan : BalancePlan) (transfers : List Transfer) (c : U64) : Prop where
  distinct : (plan.syntheticTransfers.map SyntheticTransfer.key).Nodup
  keys (k : TransferKey) : k ∈ plan.syntheticTransfers.map SyntheticTransfer.key ↔
    ∃ t ∈ transfers, t.timestamp < c ∧ t.key = k
  sums : ∀ t ∈ plan.syntheticTransfers, t.amount.toNat =
    HashMap.keySum Transfer.key Transfer.amount t.key (csvBefore c transfers)
  ids : (plan.syntheticTransfers.map fun t => t.id.toNat) =
    List.range' 1 plan.syntheticTransfers.length
  window : plan.ReplaysSorted (csvFrom c transfers)

theorem mem_csvKeys {c : U64} {transfers : List Transfer} {k : TransferKey} :
    k ∈ csvKeys c transfers ↔ ∃ t ∈ transfers, t.timestamp < c ∧ t.key = k := by
  rw [csvKeys, List.mem_dedup, List.mem_map]
  simp only [csvBefore, List.mem_filter, decide_eq_true_iff, and_assoc]

theorem CsvShape.count {transfers : List Transfer} {c : U64} {plan : BalancePlan}
    (h : CsvShape transfers c plan) :
    plan.syntheticTransfers.length = (csvKeys c transfers).length := by
  rw [← h.keys.length_eq, List.length_map]

theorem CsvShape.replaysSorted {transfers : List Transfer} {c : U64} {plan : BalancePlan}
    (h : CsvShape transfers c plan) : plan.ReplaysSorted (csvFrom c transfers) :=
  ⟨_, sortByTimestamp_stablySorted _, h.windowed⟩

theorem CsvShape.toNat_ids {transfers : List Transfer} {c : U64} {plan : BalancePlan}
    (h : CsvShape transfers c plan) (hlen : FitsVec transfers) :
    (plan.syntheticTransfers.map fun t => t.id.toNat) =
      List.range' 1 plan.syntheticTransfers.length := by
  have hlt := csvKeys_length_lt (c := c) hlen
  rw [h.count]
  exact toNat_ids_of_numbered h.ids hlt

/-- Splitting and summing up neither lose nor duplicate a transfer. -/
theorem buildPlanFromCsv_splits (ord : IterOrder TransferKey U128) (transfers : List Transfer)
    (hlen : FitsVec transfers) (c : U64)
    (hsums : ∀ t ∈ csvBefore c transfers,
      HashMap.keySum Transfer.key Transfer.amount t.key (csvBefore c transfers) < 2 ^ 128) :
    Delivers (fun prof => buildPlanFromCsv prof ord transfers c) fun plan =>
      plan.Splits transfers c ∧
        (c = 0 → plan.syntheticTransfers = [] ∧ plan.ReplaysSorted transfers) := by
  refine ⟨buildPlanFromCsv_release ord transfers c, fun prof plan hplan => ?_⟩
  have h := buildPlanFromCsv_shape hlen hplan
  have hmem : ∀ k, k ∈ plan.syntheticTransfers.map SyntheticTransfer.key ↔
      k ∈ csvKeys c transfers := fun k => h.keys.mem_iff
  constructor
  · constructor
    · exact h.keys.nodup_iff.2 (List.nodup_dedup _)
    · intro k
      rw [hmem, mem_csvKeys]
    · intro t ht
      obtain ⟨u, hu, hc, hkey⟩ := mem_csvKeys.1 ((hmem t.key).1 (List.mem_map_of_mem ht))
      have hfits := hsums u (List.mem_filter.2 ⟨hu, by simpa using hc⟩)
      rw [h.amounts t ht, ← hkey, Nat.mod_eq_of_lt hfits]
    · exact h.toNat_ids hlen
    · exact h.replaysSorted
  · rintro rfl
    have hwindow := h.replaysSorted
    have hcount := h.count
    rw [csvKeys, csvBefore_zero] at hcount
    rw [csvFrom_zero] at hwindow
    exact ⟨List.length_eq_zero_iff.1 hcount, hwindow⟩

def uploaded : List Transfer :=
  [.moving 11 7 8 50 1 0 4, .moving 12 7 9 20 1 0 12, .moving 13 7 8 30 1 0 6,
    .moving 14 8 7 5 1 0 6, .moving 15 8 9 1 1 0 12]

theorem buildPlanFromCsv_splits_uploaded :
    FitsVec uploaded ∧
    (∀ t ∈ csvBefore 10 uploaded,
      HashMap.keySum Transfer.key Transfer.amount t.key (csvBefore 10 uploaded) < 2 ^ 128) ∧
    Delivers (fun prof => buildPlanFromCsv prof .stored uploaded 10) fun plan =>
      plan.Splits uploaded 10 ∧
        ((10 : U64) = 0 → plan.syntheticTransfers = [] ∧ plan.ReplaysSorted uploaded) :=
  have hlen : FitsVec uploaded := by decide
  have hsums : ∀ t ∈ csvBefore 10 uploaded,
      HashMap.keySum Transfer.key Transfer.amount t.key (csvBefore 10 uploaded) < 2 ^ 128 := by
    decide
  ⟨hlen, hsums, buildPlanFromCsv_splits .stored uploaded hlen 10 hsums⟩

end BalancePlan

end TbManager
