import TbManager.WindowedReplay

/-!
# Planned balances and the history before the cutoff

The window deltas do not look at the flags of a transfer, so pending and void
transfers of the window are subtracted although they never reached the posted
balances.
-/

namespace TbManager

attribute [local irreducible] genesisCreditId genesisDebitId

namespace BalancePlan

open Cluster

/-- One side of an account that held `before` at the cutoff is planned at `before`:
nothing withheld is subtracted, or there is nothing to lose. -/
def Recovers (before posted withheld : ℕ) : Prop :=
  withheld % 2 ^ 128 = 0 ∨ (before = 0 ∧ posted ≤ (posted + withheld) % 2 ^ 128)

theorem recovers_iff {before posted withheld : ℕ} (h : before + posted < 2 ^ 128) :
    before + posted - (posted + withheld) % 2 ^ 128 = before ↔
      Recovers before posted withheld := by
  unfold Recovers
  omega

section Cutoff

variable {events : List Event} {s before : Cluster} {c : U64}

theorem filterMap_eventsBefore (c : U64) (es : List Event) :
    (eventsBefore c es).filterMap Event.transfer? =
      (es.filterMap Event.transfer?).filter fun t => t.timestamp < c := by
  rw [eventsBefore, List.filterMap_filter, List.filter_filterMap]
  congr 1
  funext e
  cases e with
  | createAccount a => simp [Event.transfer?]
  | createTransfer t => rfl

theorem before_transfers (hrun : empty.run events = some s)
    (hbefore : empty.run (eventsBefore c events) = some before) :
    before.transfers = s.transfersBefore c := by
  rw [run_transfers hbefore, transfersBefore, run_transfers hrun]
  exact filterMap_eventsBefore c events

/-- An account that exists at the cutoff is the same account later, with other
balances, and was created before the cutoff. -/
theorem exists_final (hc : 0 < c) (hbefore : empty.run (eventsBefore c events) = some before)
    (hafter : before.run (eventsFrom c events) = some s) {b : Account} (hb : b ∈ before.accounts) :
    ∃ a ∈ s.accounts, a.fixed = b.fixed ∧ a.timestamp < c := by
  obtain ⟨a, ha, hab⟩ := List.mem_map.1 ((run_fixed hafter).subset (List.mem_map_of_mem hb))
  have hclock : before.clock < c := by
    apply run_clock_lt hbefore hc
    intro e he
    simpa [eventsBefore] using (List.mem_filter.1 he).2
  have hcreated := (inv_run inv_empty hbefore).created b hb
  have hts : a.timestamp = b.timestamp := (congrArg Account.timestamp hab :)
  exact ⟨a, ha, hab, by bv_omega⟩

theorem exists_planned_before {finals window : List _} {d : HashMap U128 U128 × HashMap U128 U128}
    {plan : BalancePlan} (hrun : empty.run events = some s) (hc : 0 < c)
    (hbefore : empty.run (eventsBefore c events) = some before)
    (hafter : before.run (eventsFrom c events) = some s) (hfinals : finals.Perm s.accounts)
    (hwindow : window.Perm (s.transfersFrom c)) (hd : Deltas window d)
    (h : Shape (finals.map (adjustAccount d.1 d.2 c)) plan) {b : Account}
    (hb : b ∈ before.accounts) :
    ∃ p ∈ plan.regularAccounts, p.id = b.id ∧
      p.debitsPosted.toNat = b.debitsPosted.toNat +
          debitTotal b.id (window.map Transfer.effective) -
        (debitTotal b.id (window.map Transfer.effective) +
          debitTotal b.id (window.map Transfer.withheld)) % 2 ^ 128 ∧
      p.creditsPosted.toNat = b.creditsPosted.toNat +
          creditTotal b.id (window.map Transfer.effective) -
        (creditTotal b.id (window.map Transfer.effective) +
          creditTotal b.id (window.map Transfer.withheld)) % 2 ^ 128 := by
  obtain ⟨a, ha, hab, hearly⟩ := exists_final hc hbefore hafter hb
  have hid : a.id = b.id := (congrArg Account.id hab :)
  have hi := inv_run inv_empty hrun
  have hib := inv_run inv_empty hbefore
  have hadj := List.mem_map_of_mem (f := adjustAccount d.1 d.2 c) (hfinals.mem_iff.2 ha)
  obtain ⟨p, hp, hpa⟩ := h.exists_planned hadj
  have hpid : p.id = (adjustAccount d.1 d.2 c a).id := (congrArg Account.id hpa :)
  have hpd : p.debitsPosted = (adjustAccount d.1 d.2 c a).debitsPosted :=
    (congrArg Account.debitsPosted hpa :)
  have hpc : p.creditsPosted = (adjustAccount d.1 d.2 c a).creditsPosted :=
    (congrArg Account.creditsPosted hpa :)
  refine ⟨p, hp, hpid.trans ((adjustAccount_id _ _ _ _).trans hid), ?_, ?_⟩
  · rw [hpd, planned_debits hi hwindow hd ha hearly, hid, hib.debits hb,
      before_transfers hrun hbefore]
  · rw [hpc, planned_credits hi hwindow hd ha hearly, hid, hib.credits hb,
      before_transfers hrun hbefore]

theorem final_fits {window : List Transfer} (hrun : empty.run events = some s)
    (hbefore : empty.run (eventsBefore c events) = some before)
    (hafter : before.run (eventsFrom c events) = some s)
    (hwindow : window.Perm (s.transfersFrom c)) {b : Account} (hb : b ∈ before.accounts) :
    b.debitsPosted.toNat + debitTotal b.id (window.map Transfer.effective) < 2 ^ 128 ∧
      b.creditsPosted.toNat + creditTotal b.id (window.map Transfer.effective) < 2 ^ 128 := by
  obtain ⟨a, ha, hab⟩ := List.mem_map.1 ((run_fixed hafter).subset (List.mem_map_of_mem hb))
  have hid : a.id = b.id := (congrArg Account.id hab :)
  have hi := inv_run inv_empty hrun
  have hib := inv_run inv_empty hbefore
  have hdebits := hi.debits ha
  have hcredits := hi.credits ha
  rw [debitTotal_cut s c, hid, ← before_transfers hrun hbefore, ← hib.debits hb,
    ← debitTotal_perm b.id (hwindow.map Transfer.effective)] at hdebits
  rw [creditTotal_cut s c, hid, ← before_transfers hrun hbefore, ← hib.credits hb,
    ← creditTotal_perm b.id (hwindow.map Transfer.effective)] at hcredits
  rw [← hdebits, ← hcredits]
  exact ⟨a.debitsPosted.isLt, a.creditsPosted.isLt⟩

end Cutoff

def Plans (plan : BalancePlan) (b : Account) : Prop :=
  ∃ p ∈ plan.regularAccounts, p.id = b.id ∧ p.postedTotals = b.postedTotals

instance (plan : BalancePlan) (b : Account) : Decidable (plan.Plans b) :=
  inferInstanceAs (Decidable (∃ p ∈ plan.regularAccounts, p.id = b.id ∧ _))

theorem regular_ids_nodup {s : Cluster} (hi : Inv s) {finals : List Account}
    (hfinals : finals.Perm s.accounts) {debitDelta creditDelta : HashMap U128 U128} {c : U64}
    {plan : BalancePlan} (h : Shape (finals.map (adjustAccount debitDelta creditDelta c)) plan) :
    (plan.regularAccounts.map Account.id).Nodup := by
  rw [h.idPerm.nodup_iff, adjusted_ids, (hfinals.map Account.id).nodup_iff]
  exact hi.ids

/-- The planned balances of the accounts that exist at the cutoff are those of the
history exactly when every side recovers from the amounts that the window withheld. -/
theorem buildWindowed_plans_cutoff_iff (ord : IterOrder U32 (List Account))
    {events : List Event} {s : Cluster} (hrun : empty.run events = some s)
    {finals : List Account} (hfinals : finals.Perm s.accounts) {cutoffTs : U64}
    (hcutoff : 0 < cutoffTs) {window : List Transfer}
    (hwindow : window.Perm (s.transfersFrom cutoffTs)) :
    ∃ before, empty.run (eventsBefore cutoffTs events) = some before ∧
      Delivers (fun prof => buildWindowed prof ord finals window cutoffTs) fun plan =>
        ((∀ b ∈ before.accounts, plan.Plans b) ↔
          ∀ b ∈ before.accounts,
            Recovers b.debitsPosted.toNat (debitTotal b.id (window.map Transfer.effective))
              (debitTotal b.id (window.map Transfer.withheld)) ∧
            Recovers b.creditsPosted.toNat (creditTotal b.id (window.map Transfer.effective))
              (creditTotal b.id (window.map Transfer.withheld))) := by
  obtain ⟨before, hbefore, hafter⟩ := run_split hrun cutoffTs
  refine ⟨before, hbefore, buildWindowed_release ord finals window cutoffTs, ?_⟩
  intro prof plan hplan
  obtain ⟨d, hd, _, hshape⟩ := buildWindowed_cases hplan
  have hnodup := regular_ids_nodup (inv_run inv_empty hrun) hfinals hshape
  have hone : ∀ b ∈ before.accounts, (plan.Plans b ↔
      Recovers b.debitsPosted.toNat (debitTotal b.id (window.map Transfer.effective))
        (debitTotal b.id (window.map Transfer.withheld)) ∧
      Recovers b.creditsPosted.toNat (creditTotal b.id (window.map Transfer.effective))
        (creditTotal b.id (window.map Transfer.withheld))) := by
    intro b hb
    obtain ⟨p, hp, hid, hdebits, hcredits⟩ :=
      exists_planned_before hrun hcutoff hbefore hafter hfinals hwindow hd hshape hb
    have hfits := final_fits hrun hbefore hafter hwindow hb
    rw [← recovers_iff hfits.1, ← recovers_iff hfits.2, ← hdebits, ← hcredits]
    constructor
    · rintro ⟨q, hq, hqid, htotals⟩
      have hqp : q = p := List.inj_on_of_nodup_map hnodup hq hp (hqid.trans hid.symm)
      rw [hqp] at htotals
      exact ⟨congrArg Totals.debits htotals, congrArg Totals.credits htotals⟩
    · rintro ⟨hd, hc⟩
      exact ⟨p, hp, hid, by rw [Account.postedTotals, Account.postedTotals, hd, hc]⟩
  constructor
  · exact fun h b hb => (hone b hb).1 (h b hb)
  · exact fun h b hb => (hone b hb).2 (h b hb)

/-- A plain transfer of 100 before the cutoff 5; a pending transfer of 50 and its
post after it. -/
def pendingHistory : List Event :=
  [.createAccount (.holding 7 1 0 0 1), .createAccount (.holding 8 1 0 0 2),
    .createTransfer (.moving 1 7 8 100 1 0 3), .createTransfer (.moving 2 7 8 50 1 2 6),
    .createTransfer { Transfer.moving 3 7 8 50 1 4 7 with pendingId := 2 }]

def pendingCluster : Cluster where
  accounts := [.holding 7 1 150 0 1, .holding 8 1 0 150 2]
  transfers := [.moving 1 7 8 100 1 0 3, .moving 2 7 8 50 1 2 6,
    { Transfer.moving 3 7 8 50 1 4 7 with pendingId := 2 }]
  clock := 7

theorem run_pendingHistory : empty.run pendingHistory = some pendingCluster := by decide +kernel

theorem buildWindowed_plans_cutoff_iff_pending :
    empty.run pendingHistory = some pendingCluster ∧
    ∃ before, empty.run (eventsBefore 5 pendingHistory) = some before ∧
      Delivers (fun prof => buildWindowed prof .stored pendingCluster.accounts
          (pendingCluster.transfersFrom 5) 5) fun plan =>
        ((∀ b ∈ before.accounts, plan.Plans b) ↔
          ∀ b ∈ before.accounts,
            Recovers b.debitsPosted.toNat
              (debitTotal b.id ((pendingCluster.transfersFrom 5).map Transfer.effective))
              (debitTotal b.id ((pendingCluster.transfersFrom 5).map Transfer.withheld)) ∧
            Recovers b.creditsPosted.toNat
              (creditTotal b.id ((pendingCluster.transfersFrom 5).map Transfer.effective))
              (creditTotal b.id ((pendingCluster.transfersFrom 5).map Transfer.withheld))) :=
  ⟨run_pendingHistory, buildWindowed_plans_cutoff_iff .stored run_pendingHistory
    (List.Perm.refl _) (by decide) (List.Perm.refl _)⟩

/-- The history ends without pending balances, yet account 7 had posted debits of
100 at the cutoff and is planned at 50. -/
theorem pendingHistory_misplanned :
    empty.run pendingHistory = some pendingCluster ∧
    (∀ a ∈ pendingCluster.accounts, a.debitsPending = 0 ∧ a.creditsPending = 0) ∧
    ∃ before, empty.run (eventsBefore 5 pendingHistory) = some before ∧
      Account.holding 7 1 100 0 1 ∈ before.accounts ∧
      ∃ plan, buildWindowed .release .stored pendingCluster.accounts
          (pendingCluster.transfersFrom 5) 5 = some plan ∧
        ¬ plan.Plans (Account.holding 7 1 100 0 1) := by
  refine ⟨run_pendingHistory, by decide,
    ⟨[.holding 7 1 100 0 1, .holding 8 1 0 100 2], [.moving 1 7 8 100 1 0 3], 3⟩,
    by decide +kernel, List.mem_cons_self, ?_⟩
  obtain ⟨plan, hplan⟩ := buildWindowed_release .stored pendingCluster.accounts
    (pendingCluster.transfersFrom 5) 5
  have hfail : (buildWindowed .release .stored pendingCluster.accounts
      (pendingCluster.transfersFrom 5) 5).all
        fun plan => ¬ plan.Plans (Account.holding 7 1 100 0 1) := by decide +kernel
  rw [hplan] at hfail
  exact ⟨plan, hplan, by simpa using hfail⟩

end BalancePlan

end TbManager
