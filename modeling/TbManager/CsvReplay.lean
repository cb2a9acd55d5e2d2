import TbManager.CsvPlan
import TbManager.Importer
import TbManager.SourceHistory

/-!
# Replaying uploaded transfers

The sums of an upload add up all amounts before the cutoff, whether they were
posted or not, while the window is replayed with its flags. The posted balances of
the target are those of the history exactly when nothing was withheld before the
cutoff, unless a sum wraps.
-/

namespace TbManager

open Cluster

/-! ## What the importer submits -/

theorem convertWindowedTransfer_flag (t : Transfer) {bit : ℕ} (hbit : bit < 8) :
    (convertWindowedTransfer t).flags.raw.getLsbD bit = t.flags.raw.getLsbD bit := by
  simp only [convertWindowedTransfer, getLsbD_setBit, TransferFlags.linked, TransferFlags.pending,
    TransferFlags.postPendingTransfer, TransferFlags.voidPendingTransfer,
    TransferFlags.balancingDebit, TransferFlags.balancingCredit, TransferFlags.closingDebit,
    TransferFlags.closingCredit, mask_ne_zero, Nat.reduceLT]
  interval_cases bit <;> simp

theorem convertWindowedTransfer_phase (t : Transfer) :
    (convertWindowedTransfer t).phase = t.phase := by
  unfold Transfer.phase
  simp only [TransferFlags.pending, TransferFlags.postPendingTransfer,
    TransferFlags.voidPendingTransfer, mask_ne_zero,
    convertWindowedTransfer_flag t (show 1 < 8 by omega),
    convertWindowedTransfer_flag t (show 2 < 8 by omega),
    convertWindowedTransfer_flag t (show 3 < 8 by omega)]

theorem convertWindowedTransfer_effective (t : Transfer) :
    (convertWindowedTransfer t).effective = t.effective := by
  unfold Transfer.effective Transfer.postedAmount
  rw [convertWindowedTransfer_phase]
  rfl

theorem convertTransfer_singlePhase (t : SyntheticTransfer) : (convertTransfer t).SinglePhase := by
  have hflags : (convertTransfer t).flags = ⟨1#16 <<< 8⟩ := rfl
  rw [Transfer.SinglePhase, hflags]
  decide

theorem convertTransfer_effective (t : SyntheticTransfer) :
    (convertTransfer t).effective = t.posting := by
  rw [Transfer.effective, (convertTransfer_singlePhase t).postedAmount]
  rfl

namespace BalancePlan

/-- The transfers of phases 3 and 4, in the order of their submission. -/
def submittedTransfers (plan : BalancePlan) : List Transfer :=
  plan.syntheticTransfers.map convertTransfer ++
    plan.windowedTransfers.map convertWindowedTransfer

theorem submittedTransfers_effective (plan : BalancePlan) :
    plan.submittedTransfers.map Transfer.effective =
      plan.syntheticTransfers.map SyntheticTransfer.posting ++
        plan.windowedTransfers.map Transfer.effective := by
  rw [submittedTransfers, List.map_append, List.map_map, List.map_map]
  congr 1
  · exact List.map_congr_left fun t _ => convertTransfer_effective t
  · exact List.map_congr_left fun t _ => convertWindowedTransfer_effective t

/-! ## Sums of sums -/

theorem sum_keySum {κ α : Type*} [DecidableEq κ] {w : ℕ} {key : α → κ} {val : α → BitVec w}
    {ks : List κ} (hks : ks.Nodup) {xs : List α} (hmem : ∀ x ∈ xs, key x ∈ ks) (p : κ → Prop)
    [DecidablePred p] :
    (ks.map fun k => if p k then HashMap.keySum key val k xs else 0).sum =
      (xs.map fun x => if p (key x) then (val x).toNat else 0).sum := by
  induction xs with
  | nil => simp [HashMap.keySum]
  | cons x xs ih =>
      have hcons : ∀ k, (if p k then HashMap.keySum key val k (x :: xs) else 0) =
          (if key x = k then if p (key x) then (val x).toNat else 0 else 0) +
            if p k then HashMap.keySum key val k xs else 0 := by
        intro k
        rw [HashMap.keySum_cons]
        by_cases hk : key x = k
        · subst hk
          by_cases hp : p (key x)
          · simp only [if_pos hp, if_true]
          · simp only [if_neg hp, ite_self, add_zero]
        · simp only [if_neg hk, zero_add]
      simp only [hcons, List.sum_map_add]
      rw [sum_map_ite_mem hks, if_pos (hmem x List.mem_cons_self),
        ih fun y hy => hmem y (List.mem_cons_of_mem x hy), List.map_cons, List.sum_cons]

def csvSum (c : U64) (transfers : List Transfer) (p : TransferKey → Prop) [DecidablePred p] : ℕ :=
  ((csvKeys c transfers).map fun k => if p k then
    HashMap.keySum Transfer.key Transfer.amount k (csvBefore c transfers) % 2 ^ 128 else 0).sum

def csvDebits (c : U64) (transfers : List Transfer) (i : U128) : ℕ :=
  csvSum c transfers fun k => k.1 = i

def csvCredits (c : U64) (transfers : List Transfer) (i : U128) : ℕ :=
  csvSum c transfers fun k => k.2.1 = i

section Sums

variable {c : U64} {transfers : List Transfer} {plan : BalancePlan}

theorem sum_synthetics (h : CsvShape transfers c plan) (p : TransferKey → Prop)
    [DecidablePred p] :
    (plan.syntheticTransfers.map fun t => if p t.key then t.amount.toNat else 0).sum =
      csvSum c transfers p := by
  rw [csvSum, ← (h.keys.map _).sum_eq, List.map_map]
  congr 1
  apply List.map_congr_left
  intro t ht
  rw [Function.comp_apply, h.amounts t ht]

theorem debitTotal_synthetics (h : CsvShape transfers c plan) (i : U128) :
    debitTotal i (plan.syntheticTransfers.map SyntheticTransfer.posting) =
      csvDebits c transfers i := by
  rw [csvDebits, ← sum_synthetics h, debitTotal, List.map_map]
  rfl

theorem creditTotal_synthetics (h : CsvShape transfers c plan) (i : U128) :
    creditTotal i (plan.syntheticTransfers.map SyntheticTransfer.posting) =
      csvCredits c transfers i := by
  rw [csvCredits, ← sum_synthetics h, creditTotal, List.map_map]
  rfl

/-- Sums that do not wrap add up every amount before the cutoff. -/
theorem csvSum_of_fit (hsums : ∀ t ∈ csvBefore c transfers,
      HashMap.keySum Transfer.key Transfer.amount t.key (csvBefore c transfers) < 2 ^ 128)
    (p : TransferKey → Prop) [DecidablePred p] :
    csvSum c transfers p =
      ((csvBefore c transfers).map fun t => if p t.key then t.amount.toNat else 0).sum := by
  have hkeys : ∀ t ∈ csvBefore c transfers, t.key ∈ csvKeys c transfers := fun t ht =>
    List.mem_dedup.2 (List.mem_map_of_mem ht)
  have hsum : ((csvKeys c transfers).map fun k => if p k then
      HashMap.keySum Transfer.key Transfer.amount k (csvBefore c transfers) else 0).sum = _ :=
    sum_keySum (List.nodup_dedup _) hkeys p
  rw [← hsum, csvSum]
  congr 1
  apply List.map_congr_left
  intro k hk
  obtain ⟨t, ht, rfl⟩ := List.mem_map.1 (List.mem_dedup.1 hk)
  rw [Nat.mod_eq_of_lt (hsums t ht)]

theorem csvDebits_of_fit (hsums : ∀ t ∈ csvBefore c transfers,
      HashMap.keySum Transfer.key Transfer.amount t.key (csvBefore c transfers) < 2 ^ 128)
    (i : U128) :
    csvDebits c transfers i = debitTotal i ((csvBefore c transfers).map Transfer.posting) := by
  rw [csvDebits, csvSum_of_fit hsums, debitTotal, List.map_map]
  rfl

theorem csvCredits_of_fit (hsums : ∀ t ∈ csvBefore c transfers,
      HashMap.keySum Transfer.key Transfer.amount t.key (csvBefore c transfers) < 2 ^ 128)
    (i : U128) :
    csvCredits c transfers i = creditTotal i ((csvBefore c transfers).map Transfer.posting) := by
  rw [csvCredits, csvSum_of_fit hsums, creditTotal, List.map_map]
  rfl

end Sums

/-! ## The same effect -/

/-- For every account the sums before the cutoff move what the transfers before the cutoff
posted. -/
def SumsPosted (c : U64) (transfers : List Transfer) (ids : List U128) : Prop :=
  ∀ i ∈ ids,
    csvDebits c transfers i = debitTotal i ((csvBefore c transfers).map Transfer.effective) ∧
    csvCredits c transfers i = creditTotal i ((csvBefore c transfers).map Transfer.effective)

/-- Nothing was withheld: each transfer is a plain transfer, a post or moves nothing. -/
def NothingWithheld (transfers : List Transfer) : Prop :=
  ∀ t ∈ transfers, t.phase = some .plain ∨ t.phase = some .postPending ∨ t.amount = 0

theorem withheld_eq_zero_iff (t : Transfer) :
    t.withheld.amount = 0 ↔
      t.phase = some .plain ∨ t.phase = some .postPending ∨ t.amount = 0 := by
  rw [← or_assoc, Transfer.withheld, Transfer.postedAmount]
  by_cases hposted : t.phase = some .plain ∨ t.phase = some .postPending
  · simp [hposted]
  · simp only [hposted, false_or]
    exact BitVec.toNat_inj (y := 0)

section Withheld

variable {c : U64} {transfers : List Transfer} {ids : List U128}

/-- Sums that do not wrap are right exactly when nothing was withheld before the
cutoff. -/
theorem sumsPosted_iff (hsums : ∀ t ∈ csvBefore c transfers,
      HashMap.keySum Transfer.key Transfer.amount t.key (csvBefore c transfers) < 2 ^ 128)
    (hnamed : ∀ t ∈ transfers, t.debitAccountId ∈ ids) :
    SumsPosted c transfers ids ↔ NothingWithheld (csvBefore c transfers) := by
  unfold SumsPosted
  simp only [csvDebits_of_fit hsums, csvCredits_of_fit hsums, Transfer.debitTotal_posting,
    Transfer.creditTotal_posting]
  constructor
  · intro h t ht
    rw [← withheld_eq_zero_iff]
    have hdebits := (h t.debitAccountId (hnamed t (List.mem_of_mem_filter ht))).1
    have hle := amount_le_debitTotal (List.mem_map_of_mem (f := Transfer.withheld) ht)
    change t.withheld.amount ≤
      debitTotal t.debitAccountId ((csvBefore c transfers).map Transfer.withheld) at hle
    omega
  · intro h i _
    have hzero : ∀ p ∈ (csvBefore c transfers).map Transfer.withheld, p.amount = 0 := by
      intro p hp
      obtain ⟨t, ht, rfl⟩ := List.mem_map.1 hp
      exact (withheld_eq_zero_iff t).2 (h t ht)
    rw [debitTotal_of_amount_eq_zero i hzero, creditTotal_of_amount_eq_zero i hzero]
    exact ⟨rfl, rfl⟩

end Withheld

section Replay

variable {s : Cluster} {transfers : List Transfer} {c : U64} {plan : BalancePlan}

theorem csv_perm (c : U64) (transfers : List Transfer) :
    (csvBefore c transfers ++ csvFrom c transfers).Perm transfers := by
  have hfrom : csvFrom c transfers = transfers.filter fun t => !decide (t.timestamp < c) := by
    apply List.filter_congr
    intro t _
    simp only [← decide_not, BitVec.not_lt]
  rw [hfrom]
  exact List.filter_append_perm _ _

theorem window_effective_perm (h : CsvShape transfers c plan) :
    (plan.windowedTransfers.map Transfer.effective).Perm
      ((csvFrom c transfers).map Transfer.effective) := by
  have heffective := congrArg (List.map Transfer.effective) h.windowed
  rw [List.map_map, List.map_map] at heffective
  exact (List.Perm.of_eq heffective).trans ((sortByTimestamp_stablySorted _).perm.map _)

theorem submitted_named (hnamed : ∀ t ∈ transfers,
      t.debitAccountId ∈ s.accounts.map Account.id ∧ t.creditAccountId ∈ s.accounts.map Account.id)
    (h : CsvShape transfers c plan) :
    ∀ p ∈ plan.submittedTransfers.map Transfer.effective,
      p.debit ∈ s.accounts.map Account.id ∧ p.credit ∈ s.accounts.map Account.id := by
  rw [submittedTransfers_effective]
  intro p hp
  rcases List.mem_append.1 hp with hp | hp
  · obtain ⟨t, ht, rfl⟩ := List.mem_map.1 hp
    obtain ⟨u, hu, _, hkey⟩ := mem_csvKeys.1 (h.keys.mem_iff.1 (List.mem_map_of_mem ht))
    have hdebit : u.debitAccountId = t.debitAccountId := congrArg Prod.fst hkey
    have hcredit : u.creditAccountId = t.creditAccountId :=
      congrArg (fun k : TransferKey => k.2.1) hkey
    have hnames := hnamed u hu
    rwa [hdebit, hcredit] at hnames
  · obtain ⟨t, ht, rfl⟩ := List.mem_map.1 ((window_effective_perm h).mem_iff.1 hp)
    exact hnamed t (List.mem_of_mem_filter ht)

/-- The replay of the plan and that of the history agree exactly when the sums are
right. -/
theorem replay_eq_iff (hnamed : ∀ t ∈ transfers,
      t.debitAccountId ∈ s.accounts.map Account.id ∧ t.creditAccountId ∈ s.accounts.map Account.id)
    (h : CsvShape transfers c plan) {book : Book U128 ℕ}
    (hbook : (Book.opening (s.accounts.map Account.id)).replay
      ((sortByTimestamp transfers).map Transfer.effective) = some book) :
    (Book.opening (s.accounts.map Account.id)).replay
        (plan.submittedTransfers.map Transfer.effective) = some book ↔
      SumsPosted c transfers (s.accounts.map Account.id) := by
  have hsorted := (sortByTimestamp_stablySorted transfers).perm
  have hopen : ∀ p ∈ (sortByTimestamp transfers).map Transfer.effective,
      p.debit ∈ s.accounts.map Account.id ∧ p.credit ∈ s.accounts.map Account.id := by
    intro p hp
    obtain ⟨t, ht, rfl⟩ := List.mem_map.1 hp
    exact hnamed t (hsorted.mem_iff.1 ht)
  have htotals : ∀ i,
      debitTotal i (plan.submittedTransfers.map Transfer.effective) =
          csvDebits c transfers i + debitTotal i ((csvFrom c transfers).map Transfer.effective) ∧
        creditTotal i (plan.submittedTransfers.map Transfer.effective) =
          csvCredits c transfers i +
            creditTotal i ((csvFrom c transfers).map Transfer.effective) := by
    intro i
    rw [submittedTransfers_effective, debitTotal_append, creditTotal_append,
      debitTotal_synthetics h, creditTotal_synthetics h,
      debitTotal_perm i (window_effective_perm h), creditTotal_perm i (window_effective_perm h)]
    exact ⟨rfl, rfl⟩
  have hhistory : ∀ i,
      debitTotal i ((sortByTimestamp transfers).map Transfer.effective) =
          debitTotal i ((csvBefore c transfers).map Transfer.effective) +
            debitTotal i ((csvFrom c transfers).map Transfer.effective) ∧
        creditTotal i ((sortByTimestamp transfers).map Transfer.effective) =
          creditTotal i ((csvBefore c transfers).map Transfer.effective) +
            creditTotal i ((csvFrom c transfers).map Transfer.effective) := by
    intro i
    have hperm := (hsorted.trans (csv_perm c transfers).symm).map Transfer.effective
    rw [← debitTotal_append, ← creditTotal_append, ← List.map_append]
    exact ⟨debitTotal_perm i hperm, creditTotal_perm i hperm⟩
  rw [Book.opening_replay_eq hopen] at hbook
  rw [Book.opening_replay_eq (submitted_named hnamed h), ← hbook, Option.some.injEq]
  constructor
  · intro heq i hi
    have hi' := congrFun heq i
    rw [if_pos hi, if_pos hi, Option.some.injEq, Totals.mk.injEq, (htotals i).1, (htotals i).2,
      (hhistory i).1, (hhistory i).2] at hi'
    omega
  · intro hsums
    funext i
    by_cases hi : i ∈ s.accounts.map Account.id
    · rw [if_pos hi, if_pos hi, (htotals i).1, (htotals i).2, (hhistory i).1, (hhistory i).2,
        (hsums i hi).1, (hsums i hi).2]
    · rw [if_neg hi, if_neg hi]

end Replay

/-- The plan of an uploaded history leaves the posted balances of the history exactly when
its sums are those of the posted amounts; unless a sum wraps, when nothing before the
cutoff was pending or voided. -/
theorem csvReplay_iff (ord : IterOrder TransferKey U128) {events : List Event} {s : Cluster}
    (hrun : empty.run events = some s) {transfers : List Transfer}
    (hperm : transfers.Perm s.transfers) (hlen : FitsVec transfers) (c : U64) :
    (∃ book, (Book.opening (s.accounts.map Account.id)).replay
        ((sortByTimestamp transfers).map Transfer.effective) = some book ∧
      Delivers (fun prof => buildPlanFromCsv prof ord transfers c) fun plan =>
        ((Book.opening (s.accounts.map Account.id)).replay
            (plan.submittedTransfers.map Transfer.effective) = some book ↔
          SumsPosted c transfers (s.accounts.map Account.id))) ∧
    ((∀ t ∈ csvBefore c transfers,
        HashMap.keySum Transfer.key Transfer.amount t.key (csvBefore c transfers) < 2 ^ 128) →
      (SumsPosted c transfers (s.accounts.map Account.id) ↔
        NothingWithheld (csvBefore c transfers))) := by
  have hi := inv_run inv_empty hrun
  have hnamed : ∀ t ∈ transfers, t.debitAccountId ∈ s.accounts.map Account.id ∧
      t.creditAccountId ∈ s.accounts.map Account.id := by
    intro t ht
    have hopened := hi.opened t (hperm.mem_iff.1 ht)
    exact ⟨hopened.1.mem_ids, hopened.2.mem_ids⟩
  have hopen : ∀ p ∈ (sortByTimestamp transfers).map Transfer.effective,
      p.debit ∈ s.accounts.map Account.id ∧ p.credit ∈ s.accounts.map Account.id := by
    intro p hp
    obtain ⟨t, ht, rfl⟩ := List.mem_map.1 hp
    exact hnamed t ((sortByTimestamp_stablySorted transfers).perm.mem_iff.1 ht)
  have hbook := Book.opening_replay_eq hopen
  constructor
  · refine ⟨_, hbook, buildPlanFromCsv_release ord transfers c, fun prof plan hplan => ?_⟩
    exact replay_eq_iff hnamed (buildPlanFromCsv_shape hlen hplan) hbook
  · exact fun hsums => sumsPosted_iff hsums fun t ht => (hnamed t ht).1

/-- Every pending transfer of a list is posted or voided later in it. -/
def PendingResolved (transfers : List Transfer) : Prop :=
  ∀ p ∈ transfers, p.phase = some .pending → ∃ r ∈ transfers, r.pendingId = p.id ∧
    p.timestamp < r.timestamp ∧ (r.phase = some .postPending ∨ r.phase = some .voidPending)

instance (transfers : List Transfer) : Decidable (PendingResolved transfers) :=
  inferInstanceAs (Decidable (∀ p ∈ transfers, _))

def postedHistory : List Event :=
  [.createAccount (.holding 7 1 0 0 1), .createAccount (.holding 8 1 0 0 2),
    .createTransfer (.moving 1 7 8 50 1 2 3),
    .createTransfer { Transfer.moving 2 7 8 50 1 4 4 with pendingId := 1 }]

def postedCluster : Cluster where
  accounts := [.holding 7 1 50 0 1, .holding 8 1 0 50 2]
  transfers := [.moving 1 7 8 50 1 2 3, { Transfer.moving 2 7 8 50 1 4 4 with pendingId := 1 }]
  clock := 4

theorem run_postedHistory : empty.run postedHistory = some postedCluster := by decide +kernel

theorem csvReplay_iff_posted :
    empty.run postedHistory = some postedCluster ∧
    (∃ book, (Book.opening (postedCluster.accounts.map Account.id)).replay
        ((sortByTimestamp postedCluster.transfers).map Transfer.effective) = some book ∧
      Delivers (fun prof => buildPlanFromCsv prof .stored postedCluster.transfers 5) fun plan =>
        ((Book.opening (postedCluster.accounts.map Account.id)).replay
            (plan.submittedTransfers.map Transfer.effective) = some book ↔
          SumsPosted 5 postedCluster.transfers (postedCluster.accounts.map Account.id))) ∧
    ((∀ t ∈ csvBefore 5 postedCluster.transfers,
        HashMap.keySum Transfer.key Transfer.amount t.key (csvBefore 5 postedCluster.transfers) <
          2 ^ 128) →
      (SumsPosted 5 postedCluster.transfers (postedCluster.accounts.map Account.id) ↔
        NothingWithheld (csvBefore 5 postedCluster.transfers))) :=
  ⟨run_postedHistory, csvReplay_iff .stored run_postedHistory (List.Perm.refl _) (by decide) 5⟩

/-- The history posts 50, its plan moves 100. -/
theorem postedHistory_diverges :
    empty.run postedHistory = some postedCluster ∧ PendingResolved postedCluster.transfers ∧
    ∃ plan book, buildPlanFromCsv .release .stored postedCluster.transfers 5 = some plan ∧
      (Book.opening (postedCluster.accounts.map Account.id)).replay
          ((sortByTimestamp postedCluster.transfers).map Transfer.effective) = some book ∧
      (Book.opening (postedCluster.accounts.map Account.id)).replay
          (plan.submittedTransfers.map Transfer.effective) ≠ some book := by
  have hnamed : ∀ t ∈ postedCluster.transfers,
      t.debitAccountId ∈ postedCluster.accounts.map Account.id ∧
        t.creditAccountId ∈ postedCluster.accounts.map Account.id := by decide
  obtain ⟨plan, hplan⟩ := buildPlanFromCsv_release .stored postedCluster.transfers 5
  have hopen : ∀ p ∈ (sortByTimestamp postedCluster.transfers).map Transfer.effective,
      p.debit ∈ postedCluster.accounts.map Account.id ∧
        p.credit ∈ postedCluster.accounts.map Account.id := by decide
  have hbook := Book.opening_replay_eq hopen
  refine ⟨run_postedHistory, by decide, plan, _, hplan, hbook, fun hsame => ?_⟩
  have hsums := (replay_eq_iff hnamed (buildPlanFromCsv_shape (by decide) hplan) hbook).1 hsame
  have hwithheld := (sumsPosted_iff (by decide) fun t ht => (hnamed t ht).1).1 hsums
  exact absurd (hwithheld _ List.mem_cons_self) (by decide)

end BalancePlan

end TbManager
