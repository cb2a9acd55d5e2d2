import TbManager.CsvReplay
import TbManager.LimitFlags

/-!
# Uploaded transfers and account limits

A list of transfers keeps the limits of the accounts thanks to its order. The plan
of an upload has one sum for each pair of accounts instead, in the order of a hash
map, so a debit can come before the credit that covers it.
-/

namespace TbManager

theorem debitTotal_le_creditTotal {i : U128} {ps : List (Posting U128 ℕ)}
    (h : ∀ p ∈ ps, p.debit = i → p.amount = 0 ∨ p.credit = i) :
    debitTotal i ps ≤ creditTotal i ps := by
  induction ps with
  | nil => exact le_rfl
  | cons p ps ih =>
      have hrest := ih fun q hq => h q (List.mem_cons_of_mem p hq)
      have hp := h p List.mem_cons_self
      rw [debitTotal_cons, creditTotal_cons]
      split_ifs with hd hc hc
      · omega
      · have hzero := (hp hd).resolve_right hc
        omega
      · omega
      · omega

theorem creditTotal_le_debitTotal {i : U128} {ps : List (Posting U128 ℕ)}
    (h : ∀ p ∈ ps, p.credit = i → p.amount = 0 ∨ p.debit = i) :
    creditTotal i ps ≤ debitTotal i ps := by
  induction ps with
  | nil => exact le_rfl
  | cons p ps ih =>
      have hrest := ih fun q hq => h q (List.mem_cons_of_mem p hq)
      have hp := h p List.mem_cons_self
      rw [debitTotal_cons, creditTotal_cons]
      split_ifs with hc hd hd
      · omega
      · have hzero := (hp hc).resolve_right hd
        omega
      · omega
      · omega

/-- After every prefix of a replay from zero each account is within the limits it is created
with. -/
def ReplayKeepsLimits (accounts : List Account) (ps : List (Posting U128 ℕ)) : Prop :=
  ∀ qs, qs <+: ps → ∀ a ∈ accounts,
    WithinLimits (convertAccount a true).flags ⟨debitTotal a.id qs, creditTotal a.id qs⟩

namespace BalancePlan

/-- No positive sum before the cutoff debits an account with a debit limit, or credits one with a
credit limit, unless it moves from the account to itself. -/
def SumsUnlimited (c : U64) (transfers : List Transfer) (accounts : List Account) : Prop :=
  ∀ k ∈ csvKeys c transfers,
    0 < HashMap.keySum Transfer.key Transfer.amount k (csvBefore c transfers) % 2 ^ 128 →
    k.1 ≠ k.2.1 → ∀ a ∈ accounts,
      (a.flags.debitsMustNotExceedCredits = true → a.id ≠ k.1) ∧
        (a.flags.creditsMustNotExceedDebits = true → a.id ≠ k.2.1)

/-- From the sums on, the window keeps the limits. -/
def WindowKeepsLimits (c : U64) (transfers : List Transfer) (accounts : List Account) : Prop :=
  ∀ qs, qs <+: (sortByTimestamp (csvFrom c transfers)).map Transfer.effective →
    ∀ a ∈ accounts, WithinLimits a.flags
      ⟨csvDebits c transfers a.id + debitTotal a.id qs,
        csvCredits c transfers a.id + creditTotal a.id qs⟩

section Csv

variable {prof : Profile} {ord : IterOrder TransferKey U128} {transfers : List Transfer} {c : U64}
  {accounts : List Account} {plan : BalancePlan}

theorem windowed_effective (h : CsvShape transfers c plan) :
    plan.windowedTransfers.map Transfer.effective =
      (sortByTimestamp (csvFrom c transfers)).map Transfer.effective := by
  have heffective := congrArg (List.map Transfer.effective) h.windowed
  rw [List.map_map, List.map_map] at heffective
  exact heffective

theorem synthetics_of_order (hc : c ≠ 0) (hlen : FitsVec transfers)
    {agg : HashMap TransferKey U128} (hagg : aggregate prof (csvBefore c transfers) = some agg)
    (h : buildPlanFromCsv prof ord transfers c = some plan) :
    plan.syntheticTransfers.map SyntheticTransfer.posting =
      (HashMap.iter agg ord).map fun e => ⟨e.1.1, e.1.2.1, e.2.toNat⟩ := by
  simp only [buildPlanFromCsv, if_neg hc, partition_eq, hagg, Option.bind_eq_bind,
    Option.bind_eq_some_iff, Option.bind_some] at h
  obtain ⟨windowed, _, hplan⟩ := h
  have hiter := HashMap.iter_perm agg ord
  have hcount : (HashMap.iter agg ord).length = (csvKeys c transfers).length := by
    have hlength := ((hiter.map Sigma.fst).trans (aggregate_keys_perm hagg)).length_eq
    rwa [List.length_map] at hlength
  rw [← hiter.length_eq, csvSynthetics_sorted c (hcount ▸ csvKeys_length_lt hlen)] at hplan
  have hentries := congrArg
    (List.map fun e : Σ _ : TransferKey, U128 => (⟨e.1.1, e.1.2.1, e.2.toNat⟩ : Posting U128 ℕ))
    (csvSynthetics_entries
      (saturatingSub c (BitVec.ofNat 64 (HashMap.iter agg ord).length)) (HashMap.iter agg ord))
  rw [List.map_map] at hentries
  rw [← Option.some.inj hplan, ← hentries]
  rfl

/-- Some order of the iteration begins with a given sum. -/
theorem exists_plan_of_key (hlen : FitsVec transfers) {k : TransferKey}
    (hk : k ∈ csvKeys c transfers) :
    ∃ ord plan, buildPlanFromCsv .release ord transfers c = some plan ∧
      [(⟨k.1, k.2.1, HashMap.keySum Transfer.key Transfer.amount k (csvBefore c transfers) %
        2 ^ 128⟩ : Posting U128 ℕ)] <+: plan.submittedTransfers.map Transfer.effective := by
  have hc : c ≠ 0 := by
    rintro rfl
    rw [csvKeys, csvBefore_zero] at hk
    cases hk
  obtain ⟨agg, hagg⟩ := HashMap.addAll_release Transfer.key Transfer.amount ∅
    (csvBefore c transfers)
  obtain ⟨e, he, rfl⟩ := List.mem_map.1 ((aggregate_keys_perm hagg).mem_iff.2 hk)
  have hperm : (e :: agg.entries.erase e).Perm agg.entries := (List.perm_cons_erase he).symm
  obtain ⟨plan, hplan⟩ := buildPlanFromCsv_release
    (.showing agg.entries (e :: agg.entries.erase e) hperm) transfers c
  refine ⟨_, plan, hplan, ?_⟩
  rw [submittedTransfers_effective, synthetics_of_order hc hlen hagg hplan, HashMap.iter,
    IterOrder.showing_arrange, List.map_cons, ← aggregate_amount hagg he, List.cons_append]
  exact ⟨_, rfl⟩

/-- The sums alone debit a limited account only together with a credit. -/
theorem sums_within (h : CsvShape transfers c plan) (hfree : SumsUnlimited c transfers accounts)
    {a : Account} (ha : a ∈ accounts) {qs : List (Posting U128 ℕ)}
    (hqs : qs <+: plan.syntheticTransfers.map SyntheticTransfer.posting) :
    WithinLimits a.flags ⟨debitTotal a.id qs, creditTotal a.id qs⟩ := by
  have hsums : ∀ p ∈ qs, p.amount ≠ 0 → p.debit ≠ p.credit →
      (a.flags.debitsMustNotExceedCredits = true → a.id ≠ p.debit) ∧
        (a.flags.creditsMustNotExceedDebits = true → a.id ≠ p.credit) := by
    intro p hp hamount hne
    obtain ⟨t, ht, rfl⟩ := List.mem_map.1 (hqs.subset hp)
    have hkey := h.keys.mem_iff.1 (List.mem_map_of_mem (f := SyntheticTransfer.key) ht)
    have hpos : 0 < HashMap.keySum Transfer.key Transfer.amount t.key (csvBefore c transfers) %
        2 ^ 128 := by
      rw [← h.amounts t ht]
      exact Nat.pos_of_ne_zero hamount
    exact hfree t.key hkey hpos hne a ha
  constructor
  · intro hlimit
    apply debitTotal_le_creditTotal
    intro p hp hdebit
    by_cases hzero : p.amount = 0
    · exact .inl hzero
    · refine .inr ?_
      by_contra hcredit
      have hne : p.debit ≠ p.credit := fun heq => hcredit (heq ▸ hdebit)
      exact (hsums p hp hzero hne).1 hlimit hdebit.symm
  · intro hlimit
    apply creditTotal_le_debitTotal
    intro p hp hcredit
    by_cases hzero : p.amount = 0
    · exact .inl hzero
    · refine .inr ?_
      by_contra hdebit
      have hne : p.debit ≠ p.credit := fun heq => hdebit (heq ▸ hcredit)
      exact (hsums p hp hzero hne).2 hlimit hcredit.symm

theorem plan_keepsLimits (h : CsvShape transfers c plan)
    (hfree : SumsUnlimited c transfers accounts)
    (hwindow : WindowKeepsLimits c transfers accounts) :
    ReplayKeepsLimits accounts (plan.submittedTransfers.map Transfer.effective) := by
  rw [submittedTransfers_effective, windowed_effective h]
  intro qs hqs a ha
  rw [withinLimits_convertAccount]
  rcases List.prefix_or_prefix_of_prefix hqs (List.prefix_append _ _) with hsums | ⟨ws, rfl⟩
  · exact sums_within h hfree ha hsums
  · have hws := (List.prefix_append_right_inj _).1 hqs
    rw [debitTotal_append, creditTotal_append, debitTotal_synthetics h, creditTotal_synthetics h]
    exact hwindow ws hws a ha

theorem windowKeepsLimits_of_plan (h : CsvShape transfers c plan)
    (hkeeps : ReplayKeepsLimits accounts (plan.submittedTransfers.map Transfer.effective)) :
    WindowKeepsLimits c transfers accounts := by
  rw [submittedTransfers_effective, windowed_effective h] at hkeeps
  intro ws hws a ha
  have hprefix := hkeeps _ ((List.prefix_append_right_inj _).2 hws) a ha
  rw [withinLimits_convertAccount, debitTotal_append, creditTotal_append, debitTotal_synthetics h,
    creditTotal_synthetics h] at hprefix
  exact hprefix

theorem sumsUnlimited_of_plans (hlen : FitsVec transfers)
    (hkeeps : ∀ ord plan, buildPlanFromCsv .release ord transfers c = some plan →
      ReplayKeepsLimits accounts (plan.submittedTransfers.map Transfer.effective)) :
    SumsUnlimited c transfers accounts := by
  intro k hk hpos hne a ha
  obtain ⟨ord, plan, hplan, hfirst⟩ := exists_plan_of_key hlen hk
  have hwithin := hkeeps ord plan hplan _ hfirst a ha
  rw [withinLimits_convertAccount, debitTotal_cons, creditTotal_cons, debitTotal_nil,
    creditTotal_nil] at hwithin
  constructor
  · intro hlimit hid
    have hle := hwithin.1 hlimit
    simp only [hid, if_true, if_neg hne.symm] at hle
    omega
  · intro hlimit hid
    have hle := hwithin.2 hlimit
    simp only [hid, if_true, if_neg hne] at hle
    omega

/-- Where no sum wraps, the window goes on from where the transfers before the cutoff end. -/
theorem windowKeepsLimits_of_fit (hsingle : ∀ t ∈ transfers, t.SinglePhase)
    (hkeeps : ReplayKeepsLimits accounts ((sortByTimestamp transfers).map Transfer.effective))
    (hsums : ∀ t ∈ csvBefore c transfers,
      HashMap.keySum Transfer.key Transfer.amount t.key (csvBefore c transfers) < 2 ^ 128) :
    WindowKeepsLimits c transfers accounts := by
  have hsorted := sortByTimestamp_stablySorted transfers
  have hfrom : (sortByTimestamp transfers).filter (fun t => c.toNat ≤ t.timestamp.toNat) =
      sortByTimestamp (csvFrom c transfers) :=
    (hsorted.filter _).unique (sortByTimestamp_stablySorted _)
  have hbefore : ((sortByTimestamp transfers).filter fun t => t.timestamp.toNat < c.toNat).Perm
      (csvBefore c transfers) := hsorted.perm.filter _
  have hposting : ((csvBefore c transfers).map Transfer.effective) =
      (csvBefore c transfers).map Transfer.posting :=
    Transfer.map_effective_of_singlePhase fun t ht => hsingle t (List.mem_of_mem_filter ht)
  rw [hsorted.split c.toNat, hfrom, List.map_append] at hkeeps
  intro ws hws a ha
  have hprefix := hkeeps _ ((List.prefix_append_right_inj _).2 hws) a ha
  rw [withinLimits_convertAccount, debitTotal_append, creditTotal_append,
    debitTotal_perm a.id (hbefore.map _), creditTotal_perm a.id (hbefore.map _), hposting,
    ← csvDebits_of_fit hsums, ← csvCredits_of_fit hsums] at hprefix
  exact hprefix

end Csv

/-- For transfers that keep the limits in their own order: the plan keeps them in every order of
the sums exactly when no positive sum debits an account with a debit limit or credits one with a
credit limit, and the window goes on within them, as it does where no sum wraps. -/
theorem csvKeepsLimits_iff (accounts : List Account) {transfers : List Transfer}
    (hlen : FitsVec transfers) (hsingle : ∀ t ∈ transfers, t.SinglePhase)
    (hkeeps : ReplayKeepsLimits accounts ((sortByTimestamp transfers).map Transfer.effective))
    (c : U64) :
    ((∀ prof ord plan, buildPlanFromCsv prof ord transfers c = some plan →
        ReplayKeepsLimits accounts (plan.submittedTransfers.map Transfer.effective)) ↔
      SumsUnlimited c transfers accounts ∧ WindowKeepsLimits c transfers accounts) ∧
    ((∀ t ∈ csvBefore c transfers,
        HashMap.keySum Transfer.key Transfer.amount t.key (csvBefore c transfers) < 2 ^ 128) →
      WindowKeepsLimits c transfers accounts) := by
  refine ⟨⟨?_, ?_⟩, windowKeepsLimits_of_fit hsingle hkeeps⟩
  · intro hall
    obtain ⟨plan, hplan⟩ := buildPlanFromCsv_release .stored transfers c
    exact ⟨sumsUnlimited_of_plans hlen (hall .release),
      windowKeepsLimits_of_plan (buildPlanFromCsv_shape hlen hplan) (hall _ _ plan hplan)⟩
  · rintro ⟨hfree, hwindow⟩ prof ord plan hplan
    exact plan_keepsLimits (buildPlanFromCsv_shape hlen hplan) hfree hwindow

def debitLimited : Account := { Account.holding 8 1 0 0 1 with flags := ⟨1#16 <<< 1⟩ }

/-- It receives 50 and passes 30 on, both before the cutoff 10. -/
def passedOn : List Transfer := [.moving 11 7 8 50 1 0 4, .moving 12 8 9 30 1 0 6]

theorem passedOn_effective :
    (sortByTimestamp passedOn).map Transfer.effective = [⟨7, 8, 50⟩, ⟨8, 9, 30⟩] := by
  have hsorted : sortByTimestamp passedOn = passedOn := by decide
  rw [hsorted]
  decide

theorem passedOn_keepsLimits :
    ReplayKeepsLimits [debitLimited] ((sortByTimestamp passedOn).map Transfer.effective) := by
  rw [passedOn_effective]
  intro qs hqs a ha
  rw [List.mem_singleton.1 ha, withinLimits_convertAccount]
  refine ⟨fun _ => ?_, fun hcredit => absurd hcredit (by decide)⟩
  rw [← List.mem_inits] at hqs
  change debitTotal 8#128 qs ≤ creditTotal 8#128 qs
  fin_cases hqs
  all_goals decide

theorem csvKeepsLimits_iff_passedOn :
    FitsVec passedOn ∧ (∀ t ∈ passedOn, t.SinglePhase) ∧
    ((∀ prof ord plan, buildPlanFromCsv prof ord passedOn 10 = some plan →
        ReplayKeepsLimits [debitLimited] (plan.submittedTransfers.map Transfer.effective)) ↔
      SumsUnlimited 10 passedOn [debitLimited] ∧ WindowKeepsLimits 10 passedOn [debitLimited]) ∧
    ((∀ t ∈ csvBefore 10 passedOn,
        HashMap.keySum Transfer.key Transfer.amount t.key (csvBefore 10 passedOn) < 2 ^ 128) →
      WindowKeepsLimits 10 passedOn [debitLimited]) :=
  have hlen : FitsVec passedOn := by decide
  have hsingle : ∀ t ∈ passedOn, t.SinglePhase := by decide
  ⟨hlen, hsingle, csvKeepsLimits_iff [debitLimited] hlen hsingle passedOn_keepsLimits 10⟩

/-- With the second sum first the account owes 30. -/
theorem passedOn_breaks_limit :
    ReplayKeepsLimits [debitLimited] ((sortByTimestamp passedOn).map Transfer.effective) ∧
    ∃ ord plan, buildPlanFromCsv .release ord passedOn 10 = some plan ∧
      ¬ ReplayKeepsLimits [debitLimited] (plan.submittedTransfers.map Transfer.effective) := by
  refine ⟨passedOn_keepsLimits, ?_⟩
  by_contra hnone
  have hfree : SumsUnlimited 10 passedOn [debitLimited] := by
    apply sumsUnlimited_of_plans (by decide)
    intro ord plan hplan
    by_contra hbreaks
    exact hnone ⟨ord, plan, hplan, hbreaks⟩
  have hkey : (8#128, 9#128, 1#32) ∈ csvKeys 10 passedOn :=
    mem_csvKeys.2 ⟨_, List.mem_cons_of_mem _ List.mem_cons_self, by decide, rfl⟩
  have hunpaid := hfree _ hkey (by decide +kernel) (by decide) debitLimited List.mem_cons_self
  exact hunpaid.1 (by decide) rfl

end BalancePlan

end TbManager
