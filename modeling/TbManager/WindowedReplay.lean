import TbManager.SnapshotReplay
import TbManager.SourceHistory

/-!
# Replaying a windowed plan

The window deltas are the sums of all amounts of the window, so an account of a
history without two-phase transfers is planned at its balance before the
cutoff, and the replay of the window restores its final balance.
-/

namespace TbManager

attribute [local irreducible] genesisCreditId genesisDebitId

namespace BalancePlan

/-! ## Window deltas -/

theorem foldlM_addWindowed (prof : Profile) (ts : List Transfer)
    (d : HashMap U128 U128 × HashMap U128 U128) :
    ts.foldlM (addWindowed prof) d =
      (HashMap.addAll prof Transfer.debitAccountId Transfer.amount d.1 ts).bind fun debit =>
        (HashMap.addAll prof Transfer.creditAccountId Transfer.amount d.2 ts).map fun credit =>
          (debit, credit) := by
  induction ts generalizing d with
  | nil => rfl
  | cons t ts ih =>
      rw [HashMap.addAll, HashMap.addAll, List.foldlM_cons, List.foldlM_cons, List.foldlM_cons]
      change (HashMap.addEntry prof d.1 t.debitAccountId t.amount >>= fun debit =>
        HashMap.addEntry prof d.2 t.creditAccountId t.amount >>= fun credit =>
          some (debit, credit)) >>= _ = _
      cases HashMap.addEntry prof d.1 t.debitAccountId t.amount with
      | none => rfl
      | some debit =>
          cases HashMap.addEntry prof d.2 t.creditAccountId t.amount with
          | some credit => exact ih (debit, credit)
          | none => exact (Option.bind_fun_none _).symm

theorem windowDeltas_eq_some_iff {prof : Profile} {windowed : List Transfer}
    {d : HashMap U128 U128 × HashMap U128 U128} :
    windowDeltas prof windowed = some d ↔
      HashMap.addAll prof Transfer.debitAccountId Transfer.amount ∅ windowed = some d.1 ∧
      HashMap.addAll prof Transfer.creditAccountId Transfer.amount ∅ windowed = some d.2 := by
  rw [windowDeltas, foldlM_addWindowed, Option.bind_eq_some_iff]
  constructor
  · rintro ⟨debit, hdebit, hpair⟩
    obtain ⟨credit, hcredit, rfl⟩ := Option.map_eq_some_iff.1 hpair
    exact ⟨hdebit, hcredit⟩
  · rintro ⟨hdebit, hcredit⟩
    exact ⟨d.1, hdebit, Option.map_eq_some_iff.2 ⟨d.2, hcredit, rfl⟩⟩

/-- What the deltas hold for each account: the sums of the window, wrapped. -/
structure Deltas (windowed : List Transfer) (d : HashMap U128 U128 × HashMap U128 U128) : Prop where
  debit (i : U128) : ((d.1.lookup i).getD 0).toNat =
    debitTotal i (windowed.map Transfer.posting) % 2 ^ 128
  credit (i : U128) : ((d.2.lookup i).getD 0).toNat =
    creditTotal i (windowed.map Transfer.posting) % 2 ^ 128

theorem windowDeltas_deltas {prof : Profile} {windowed : List Transfer}
    {d : HashMap U128 U128 × HashMap U128 U128} (h : windowDeltas prof windowed = some d) :
    Deltas windowed d := by
  obtain ⟨hdebit, hcredit⟩ := windowDeltas_eq_some_iff.1 h
  constructor
  · intro i
    rw [HashMap.toNat_lookup_addAll_empty hdebit, debitTotal, List.map_map]
    rfl
  · intro i
    rw [HashMap.toNat_lookup_addAll_empty hcredit, creditTotal, List.map_map]
    rfl

theorem windowDeltas_release (windowed : List Transfer) :
    ∃ d, windowDeltas .release windowed = some d := by
  obtain ⟨debit, hdebit⟩ := HashMap.addAll_release Transfer.debitAccountId Transfer.amount ∅ windowed
  obtain ⟨credit, hcredit⟩ :=
    HashMap.addAll_release Transfer.creditAccountId Transfer.amount ∅ windowed
  exact ⟨(debit, credit), windowDeltas_eq_some_iff.2 ⟨hdebit, hcredit⟩⟩

/-! ## Adjusted accounts -/

section Adjust

variable (debitDelta creditDelta : HashMap U128 U128) (cutoffTs : U64) (a : Account)

theorem adjustAccount_fixed :
    (adjustAccount debitDelta creditDelta cutoffTs a).fixed = a.fixed := by
  unfold adjustAccount
  split_ifs <;> rfl

theorem adjustAccount_id : (adjustAccount debitDelta creditDelta cutoffTs a).id = a.id :=
  (congrArg Account.id (adjustAccount_fixed debitDelta creditDelta cutoffTs a) :)

theorem adjustAccount_ledger :
    (adjustAccount debitDelta creditDelta cutoffTs a).ledger = a.ledger :=
  (congrArg Account.ledger (adjustAccount_fixed debitDelta creditDelta cutoffTs a) :)

theorem adjustAccount_timestamp :
    (adjustAccount debitDelta creditDelta cutoffTs a).timestamp = a.timestamp :=
  (congrArg Account.timestamp (adjustAccount_fixed debitDelta creditDelta cutoffTs a) :)

theorem adjustAccount_debits : (adjustAccount debitDelta creditDelta cutoffTs a).debitsPosted.toNat =
    if cutoffTs ≤ a.timestamp then 0
    else a.debitsPosted.toNat - ((debitDelta.lookup a.id).getD 0).toNat := by
  unfold adjustAccount
  split_ifs
  · rfl
  · exact toNat_saturatingSub _ _

theorem adjustAccount_credits :
    (adjustAccount debitDelta creditDelta cutoffTs a).creditsPosted.toNat =
    if cutoffTs ≤ a.timestamp then 0
    else a.creditsPosted.toNat - ((creditDelta.lookup a.id).getD 0).toNat := by
  unfold adjustAccount
  split_ifs
  · rfl
  · exact toNat_saturatingSub _ _

end Adjust

theorem buildWindowed_parts {prof : Profile} {ord : IterOrder U32 (List Account)}
    {accounts : List Account} {windowed : List Transfer} {cutoffTs : U64} {plan : BalancePlan}
    (h : buildWindowed prof ord accounts windowed cutoffTs = some plan) :
    ∃ d snapshot, windowDeltas prof windowed = some d ∧
      buildSnapshotImpl prof ord (accounts.map (adjustAccount d.1 d.2 cutoffTs)) true =
        some snapshot ∧
      plan = { snapshot with windowedTransfers := windowed } := by
  simp only [buildWindowed, Option.bind_eq_bind, Option.bind_eq_some_iff] at h
  obtain ⟨d, hd, snapshot, hsnapshot, hplan⟩ := h
  exact ⟨d, snapshot, hd, hsnapshot, (Option.some.inj hplan).symm⟩

theorem buildWindowed_eq_some {prof : Profile} {ord : IterOrder U32 (List Account)}
    {accounts : List Account} {windowed : List Transfer} {cutoffTs : U64} {plan : BalancePlan}
    (h : buildWindowed prof ord accounts windowed cutoffTs = some plan) :
    ∃ d snapshot, Deltas windowed d ∧
      buildSnapshotImpl prof ord (accounts.map (adjustAccount d.1 d.2 cutoffTs)) true =
        some snapshot ∧
      plan = { snapshot with windowedTransfers := windowed } := by
  obtain ⟨d, snapshot, hd, hparts⟩ := buildWindowed_parts h
  exact ⟨d, snapshot, windowDeltas_deltas hd, hparts⟩

theorem buildWindowed_cases {prof : Profile} {ord : IterOrder U32 (List Account)}
    {accounts : List Account} {windowed : List Transfer} {cutoffTs : U64} {plan : BalancePlan}
    (h : buildWindowed prof ord accounts windowed cutoffTs = some plan) :
    ∃ d, Deltas windowed d ∧ plan.windowedTransfers = windowed ∧
      Shape (accounts.map (adjustAccount d.1 d.2 cutoffTs)) plan := by
  obtain ⟨d, snapshot, hd, hsnapshot, rfl⟩ := buildWindowed_eq_some h
  have hshape := buildSnapshotImpl_shape hsnapshot
  refine ⟨d, hd, rfl, ?_⟩
  constructor
  · exact hshape.regular
  · exact hshape.genesisIds
  · exact hshape.genesisFlags
  · exact hshape.postings

theorem buildWindowed_release (ord : IterOrder U32 (List Account)) (accounts : List Account)
    (windowed : List Transfer) (cutoffTs : U64) :
    ∃ plan, buildWindowed .release ord accounts windowed cutoffTs = some plan := by
  obtain ⟨d, hd⟩ := windowDeltas_release windowed
  obtain ⟨plan, hplan⟩ := buildSnapshotImpl_release ord
    (accounts.map (adjustAccount d.1 d.2 cutoffTs)) true
  simp only [buildWindowed, hd, hplan, Option.bind_eq_bind, Option.bind_some]
  exact ⟨_, rfl⟩

end BalancePlan

namespace BalancePlan

open Cluster

/-! ## Planned balances -/

section Planned

variable {s : Cluster} {window : List Transfer} {c : U64}
  {d : HashMap U128 U128 × HashMap U128 U128} {a : Account}

/-- What the planner subtracts are the amounts of all transfers of the window,
posted or not. -/
theorem planned_debits (hi : Inv s) (hwindow : window.Perm (s.transfersFrom c))
    (hd : Deltas window d) (ha : a ∈ s.accounts) (hearly : a.timestamp < c) :
    (adjustAccount d.1 d.2 c a).debitsPosted.toNat =
      debitTotal a.id ((s.transfersBefore c).map Transfer.effective) +
        debitTotal a.id (window.map Transfer.effective) -
      (debitTotal a.id (window.map Transfer.effective) +
        debitTotal a.id (window.map Transfer.withheld)) % 2 ^ 128 := by
  have hnot : ¬ c ≤ a.timestamp := by bv_omega
  rw [adjustAccount_debits, if_neg hnot, hi.debits ha, debitTotal_cut s c, hd.debit,
    Transfer.debitTotal_posting, debitTotal_perm a.id (hwindow.map Transfer.effective)]

theorem planned_credits (hi : Inv s) (hwindow : window.Perm (s.transfersFrom c))
    (hd : Deltas window d) (ha : a ∈ s.accounts) (hearly : a.timestamp < c) :
    (adjustAccount d.1 d.2 c a).creditsPosted.toNat =
      creditTotal a.id ((s.transfersBefore c).map Transfer.effective) +
        creditTotal a.id (window.map Transfer.effective) -
      (creditTotal a.id (window.map Transfer.effective) +
        creditTotal a.id (window.map Transfer.withheld)) % 2 ^ 128 := by
  have hnot : ¬ c ≤ a.timestamp := by bv_omega
  rw [adjustAccount_credits, if_neg hnot, hi.credits ha, creditTotal_cut s c, hd.credit,
    Transfer.creditTotal_posting, creditTotal_perm a.id (hwindow.map Transfer.effective)]

/-- Without two-phase transfers the planned balances are those before the window. -/
theorem planned_singlePhase (hi : Inv s) (hsingle : ∀ t ∈ s.transfers, t.SinglePhase)
    (hwindow : window.Perm (s.transfersFrom c)) (hd : Deltas window d) (ha : a ∈ s.accounts) :
    (adjustAccount d.1 d.2 c a).debitsPosted.toNat =
        debitTotal a.id ((s.transfersBefore c).map Transfer.effective) ∧
      (adjustAccount d.1 d.2 c a).creditsPosted.toNat =
        creditTotal a.id ((s.transfersBefore c).map Transfer.effective) := by
  by_cases hlate : c ≤ a.timestamp
  · have hnone := late_totals hi ha hlate Transfer.effective fun _ => ⟨rfl, rfl⟩
    rw [adjustAccount_debits, adjustAccount_credits, if_pos hlate, if_pos hlate, hnone.1, hnone.2]
    exact ⟨rfl, rfl⟩
  · have hearly : a.timestamp < c := by bv_omega
    have hsingle' : ∀ t ∈ window, t.SinglePhase := by
      intro t ht
      exact hsingle t (List.mem_of_mem_filter (hwindow.mem_iff.1 ht))
    have hdebits := hi.debits ha
    have hcredits := hi.credits ha
    rw [debitTotal_cut s c, ← debitTotal_perm a.id (hwindow.map Transfer.effective)] at hdebits
    rw [creditTotal_cut s c, ← creditTotal_perm a.id (hwindow.map Transfer.effective)] at hcredits
    have hdlt := a.debitsPosted.isLt
    have hclt := a.creditsPosted.isLt
    rw [planned_debits hi hwindow hd ha hearly, planned_credits hi hwindow hd ha hearly,
      (Transfer.totals_withheld hsingle' a.id).1, (Transfer.totals_withheld hsingle' a.id).2]
    constructor
    · omega
    · omega

end Planned

/-! ## The replay -/

theorem adjusted_ids (debitDelta creditDelta : HashMap U128 U128) (c : U64) (as : List Account) :
    (as.map (adjustAccount debitDelta creditDelta c)).map Account.id = as.map Account.id := by
  rw [List.map_map]
  apply List.map_congr_left
  intro a _
  exact adjustAccount_id debitDelta creditDelta c a

theorem adjusted_ledgers (debitDelta creditDelta : HashMap U128 U128) (c : U64)
    (as : List Account) :
    (as.map (adjustAccount debitDelta creditDelta c)).map Account.ledger =
      as.map Account.ledger := by
  rw [List.map_map]
  apply List.map_congr_left
  intro a _
  exact adjustAccount_ledger debitDelta creditDelta c a

theorem adjusted_onLedger (debitDelta creditDelta : HashMap U128 U128) (c : U64)
    (as : List Account) (l : U32) :
    (as.map (adjustAccount debitDelta creditDelta c)).filter (fun a => a.ledger = l) =
      (as.filter fun a => a.ledger = l).map (adjustAccount debitDelta creditDelta c) := by
  rw [List.filter_map]
  congr 1
  apply List.filter_congr
  intro a _
  simp only [Function.comp_apply, adjustAccount_ledger]

section Replay

variable {s : Cluster} {finals : List Account} {window : List Transfer} {c : U64}
  {d : HashMap U128 U128 × HashMap U128 U128} {plan : BalancePlan}

theorem planned_ledger_balanced (hi : Inv s) (hsingle : ∀ t ∈ s.transfers, t.SinglePhase)
    (hfinals : finals.Perm s.accounts) (hwindow : window.Perm (s.transfersFrom c))
    (hd : Deltas window d) (l : U32) :
    ledgerCredits l (finals.map (adjustAccount d.1 d.2 c)) =
      ledgerDebits l (finals.map (adjustAccount d.1 d.2 c)) := by
  have hids : ((finals.filter fun a => a.ledger = l).map Account.id).Nodup :=
    ((hfinals.map Account.id).nodup_iff.2 hi.ids).sublist (List.filter_sublist.map _)
  have hborder : ∀ p ∈ (s.transfersBefore c).map Transfer.effective,
      p.debit ∈ (finals.filter fun a => a.ledger = l).map Account.id ↔
        p.credit ∈ (finals.filter fun a => a.ledger = l).map Account.id := by
    intro p hp
    obtain ⟨t, ht, rfl⟩ := List.mem_map.1 hp
    have hperm := (hfinals.filter fun a => decide (a.ledger = l)).map Account.id
    have hledger := ledger_of_mem hi (List.mem_of_mem_filter ht) (l := l)
    rw [hperm.mem_iff, hperm.mem_iff]
    exact hledger.1.trans hledger.2.symm
  have hlaw := sum_debitTotal_eq_sum_creditTotal hids hborder
  have hplanned : ∀ a ∈ finals.filter fun a => a.ledger = l,
      (adjustAccount d.1 d.2 c a).debitsPosted.toNat =
          debitTotal a.id ((s.transfersBefore c).map Transfer.effective) ∧
        (adjustAccount d.1 d.2 c a).creditsPosted.toNat =
          creditTotal a.id ((s.transfersBefore c).map Transfer.effective) := by
    intro a ha
    exact planned_singlePhase hi hsingle hwindow hd (hfinals.mem_iff.1 (List.mem_of_mem_filter ha))
  rw [ledgerCredits, ledgerDebits, adjusted_onLedger, List.map_map, List.map_map]
  rw [List.map_map, List.map_map] at hlaw
  refine (congrArg List.sum (List.map_congr_left fun a ha => (hplanned a ha).2)).trans ?_
  refine hlaw.symm.trans ?_
  exact (congrArg List.sum (List.map_congr_left fun a ha => (hplanned a ha).1)).symm

theorem window_open (hi : Inv s) (hfinals : finals.Perm s.accounts)
    (hwindow : window.Perm (s.transfersFrom c)) {t : Transfer} (ht : t ∈ window) :
    t.debitAccountId ∈ finals.map Account.id ∧ t.creditAccountId ∈ finals.map Account.id := by
  have hopened := hi.opened t (List.mem_of_mem_filter (hwindow.mem_iff.1 ht))
  have hperm := hfinals.map Account.id
  exact ⟨hperm.mem_iff.2 hopened.1.mem_ids, hperm.mem_iff.2 hopened.2.mem_ids⟩

theorem adjusted_fresh (hi : Inv s) (hfinals : finals.Perm s.accounts)
    (hgen : AvoidGenesisIds finals) (debitDelta creditDelta : HashMap U128 U128) :
    FreshIds (finals.map (adjustAccount debitDelta creditDelta c)) := by
  have hfresh : FreshIds finals := ⟨(hfinals.map Account.id).nodup_iff.2 hi.ids, hgen⟩
  apply hfresh.congr
  · rw [adjusted_ids]
  · rw [adjusted_ledgers]

/-- The book after the replay of a windowed plan: every account at its final
totals, the two genesis accounts of a ledger at equal totals. -/
structure Restored (finals : List Account) (book : Book U128 ℕ) : Prop where
  account : ∀ a ∈ finals, book a.id = some a.postedTotals
  genesis : ∀ l ∈ finals.map Account.ledger, ∃ total,
    book (genesisCreditId l) = some ⟨total, 0⟩ ∧ book (genesisDebitId l) = some ⟨0, total⟩

theorem planned_open (h : Shape (finals.map (adjustAccount d.1 d.2 c)) plan) {i : U128}
    (hid : i ∈ finals.map Account.id) :
    i ∈ (plan.genesisAccounts ++ plan.regularAccounts).map Account.id := by
  rw [h.mem_openIds, adjusted_ids]
  exact .inr hid

theorem replay_windowed (hi : Inv s) (hfinals : finals.Perm s.accounts)
    (hwindow : window.Perm (s.transfersFrom c))
    (hplan : plan.windowedPostings = window.map Transfer.posting)
    (h : Shape (finals.map (adjustAccount d.1 d.2 c)) plan) :
    plan.openBook.replay (plan.syntheticPostings ++ plan.windowedPostings) = some fun i =>
      if i ∈ (plan.genesisAccounts ++ plan.regularAccounts).map Account.id then
        some ⟨debitTotal i plan.syntheticPostings + debitTotal i (window.map Transfer.posting),
          creditTotal i plan.syntheticPostings + creditTotal i (window.map Transfer.posting)⟩
      else none := by
  rw [hplan]
  simp only [← debitTotal_append, ← creditTotal_append]
  apply Book.opening_replay_eq
  intro p hp
  rcases List.mem_append.1 hp with hp | hp
  · exact h.posting_open hp
  · obtain ⟨t, ht, rfl⟩ := List.mem_map.1 hp
    have hnamed := window_open hi hfinals hwindow ht
    exact ⟨planned_open h hnamed.1, planned_open h hnamed.2⟩

/-- The transfers of the window do not touch other ids. -/
theorem window_quiet (hi : Inv s) (hfinals : finals.Perm s.accounts)
    (hwindow : window.Perm (s.transfersFrom c)) {i : U128} (hnot : i ∉ finals.map Account.id) :
    debitTotal i (window.map Transfer.posting) = 0 ∧
      creditTotal i (window.map Transfer.posting) = 0 := by
  constructor
  · apply debitTotal_eq_zero
    intro p hp heq
    obtain ⟨t, ht, rfl⟩ := List.mem_map.1 hp
    exact hnot (heq ▸ (window_open hi hfinals hwindow ht).1)
  · apply creditTotal_eq_zero
    intro p hp heq
    obtain ⟨t, ht, rfl⟩ := List.mem_map.1 hp
    exact hnot (heq ▸ (window_open hi hfinals hwindow ht).2)

/-- Planned balances and window add up to the final balances. -/
theorem restored_account (hi : Inv s) (hsingle : ∀ t ∈ s.transfers, t.SinglePhase)
    (hfinals : finals.Perm s.accounts) (hwindow : window.Perm (s.transfersFrom c))
    (hd : Deltas window d) (hf : FreshIds (finals.map (adjustAccount d.1 d.2 c)))
    (h : Shape (finals.map (adjustAccount d.1 d.2 c)) plan) {a : Account} (ha : a ∈ finals) :
    debitTotal a.id plan.syntheticPostings + debitTotal a.id (window.map Transfer.posting) =
        a.debitsPosted.toNat ∧
      creditTotal a.id plan.syntheticPostings + creditTotal a.id (window.map Transfer.posting) =
        a.creditsPosted.toNat := by
  have has := hfinals.mem_iff.1 ha
  have hplanned := planned_singlePhase hi hsingle hwindow hd has
  have hadj := List.mem_map_of_mem (f := adjustAccount d.1 d.2 c) ha
  have hdebit := h.debitTotal_account hf hadj
  have hcredit := h.creditTotal_account hf hadj
  rw [adjustAccount_id, hplanned.1] at hdebit
  rw [adjustAccount_id, hplanned.2] at hcredit
  have hposted : (s.transfersFrom c).map Transfer.effective =
      (s.transfersFrom c).map Transfer.posting :=
    Transfer.map_effective_of_singlePhase fun t ht => hsingle t (List.mem_of_mem_filter ht)
  constructor
  · rw [hdebit, debitTotal_perm a.id (hwindow.map Transfer.posting), ← hposted, ← debitTotal_cut,
      ← hi.debits has]
  · rw [hcredit, creditTotal_perm a.id (hwindow.map Transfer.posting), ← hposted,
      ← creditTotal_cut, ← hi.credits has]

theorem restored (hi : Inv s) (hsingle : ∀ t ∈ s.transfers, t.SinglePhase)
    (hfinals : finals.Perm s.accounts) (hgen : AvoidGenesisIds finals)
    (hwindow : window.Perm (s.transfersFrom c)) (hd : Deltas window d)
    (hplan : plan.windowedPostings = window.map Transfer.posting)
    (h : Shape (finals.map (adjustAccount d.1 d.2 c)) plan) :
    ∃ book, plan.openBook.replay (plan.syntheticPostings ++ plan.windowedPostings) = some book ∧
      Restored finals book := by
  have hf := adjusted_fresh (c := c) hi hfinals hgen d.1 d.2
  refine ⟨_, replay_windowed hi hfinals hwindow hplan h, ?_, ?_⟩
  · intro a ha
    have htotals := restored_account hi hsingle hfinals hwindow hd hf h ha
    rw [if_pos (planned_open h (List.mem_map_of_mem ha)), htotals.1, htotals.2]
    rfl
  · intro l hl
    have hl' : l ∈ (finals.map (adjustAccount d.1 d.2 c)).map Account.ledger := by
      rwa [adjusted_ledgers]
    have hnot : genesisCreditId l ∉ finals.map Account.id ∧
        genesisDebitId l ∉ finals.map Account.id := by
      rw [← adjusted_ids d.1 d.2 c]
      exact ⟨fun hmem => (hf.ne_genesis hmem hl').1 rfl, fun hmem => (hf.ne_genesis hmem hl').2 rfl⟩
    have hcredit := (h.mem_openIds (genesisCreditId l)).2 (.inl ⟨l, hl', .inl rfl⟩)
    have hdebit := (h.mem_openIds (genesisDebitId l)).2 (.inl ⟨l, hl', .inr rfl⟩)
    have hquietCredit := window_quiet hi hfinals hwindow hnot.1
    have hquietDebit := window_quiet hi hfinals hwindow hnot.2
    refine ⟨ledgerCredits l (finals.map (adjustAccount d.1 d.2 c)), ?_, ?_⟩
    · rw [if_pos hcredit, hquietCredit.1, hquietCredit.2, h.debitTotal_genesisCredit hf hl',
        h.creditTotal_genesisCredit hf hl']
      rfl
    · rw [if_pos hdebit, hquietDebit.1, hquietDebit.2, h.debitTotal_genesisDebit hf hl',
        h.creditTotal_genesisDebit hf hl',
        planned_ledger_balanced hi hsingle hfinals hwindow hd l]
      rfl

end Replay

/-- A windowed migration of a history of plain transfers restores every final
balance, whatever the cutoff and the order in which accounts and window are read. -/
theorem buildWindowed_restores_balances (ord : IterOrder U32 (List Account))
    {events : List Event} {s : Cluster} (hrun : empty.run events = some s)
    (hsingle : ∀ t ∈ s.transfers, t.SinglePhase) {finals : List Account}
    (hfinals : finals.Perm s.accounts) (hgen : AvoidGenesisIds finals) (cutoffTs : U64)
    {window : List Transfer} (hwindow : window.Perm (s.transfersFrom cutoffTs)) :
    Delivers (fun prof => buildWindowed prof ord finals window cutoffTs) fun plan =>
      ∃ book, plan.openBook.replay (plan.syntheticPostings ++ plan.windowedPostings) = some book ∧
        Restored finals book := by
  refine ⟨buildWindowed_release ord finals window cutoffTs, fun prof plan hplan => ?_⟩
  obtain ⟨d, hd, hwindowed, hshape⟩ := buildWindowed_cases hplan
  have hplanned : plan.windowedPostings = window.map Transfer.posting := by
    rw [windowedPostings, hwindowed]
  exact restored (inv_run inv_empty hrun) hsingle hfinals hgen hwindow hd hplanned hshape

def midwayHistory : List Event :=
  [.createAccount (.holding 7 1 0 0 1), .createAccount (.holding 8 1 0 0 2),
    .createTransfer (.moving 1 7 8 100 1 0 3), .createAccount (.holding 9 1 0 0 5),
    .createTransfer (.moving 2 8 9 30 1 0 6)]

def midwayCluster : Cluster where
  accounts := [.holding 7 1 100 0 1, .holding 8 1 30 100 2, .holding 9 1 0 30 5]
  transfers := [.moving 1 7 8 100 1 0 3, .moving 2 8 9 30 1 0 6]
  clock := 6

theorem buildWindowed_restores_balances_midway :
    empty.run midwayHistory = some midwayCluster ∧
    AvoidGenesisIds midwayCluster.accounts.reverse ∧
    Delivers (fun prof => buildWindowed prof .stored midwayCluster.accounts.reverse
        (midwayCluster.transfersFrom 4) 4) fun plan =>
      ∃ book, plan.openBook.replay (plan.syntheticPostings ++ plan.windowedPostings) = some book ∧
        Restored midwayCluster.accounts.reverse book :=
  have hrun : empty.run midwayHistory = some midwayCluster := by decide +kernel
  have hgen : AvoidGenesisIds midwayCluster.accounts.reverse := by decide +kernel
  ⟨hrun, hgen, buildWindowed_restores_balances .stored hrun (by decide) (List.reverse_perm _) hgen 4
    (List.Perm.refl _)⟩

end BalancePlan

end TbManager
