import TbManager.CsvPlan
import TbManager.Migration
import TbManager.WindowedReplay

/-!
# Two-phase transfers in the window

A post or a void needs the pending transfer it resolves. The plan creates pending
transfers in its window only, and the window is cut at a timestamp: a pair that
lies on both sides of the cutoff loses its first half, which the check of the
pending balances does not see.
-/

namespace TbManager

attribute [local irreducible] genesisCreditId genesisDebitId

open HashMap BalancePlan Cluster

namespace Transfer

def Resolves (t : Transfer) : Prop := t.phase = some .postPending ∨ t.phase = some .voidPending

instance (t : Transfer) : Decidable t.Resolves := inferInstanceAs (Decidable (_ ∨ _))

end Transfer

def PendingClosed (ts : List Transfer) : Prop :=
  ∀ before t after, ts = before ++ t :: after → t.Resolves →
    ∃ p ∈ before, p.id = t.pendingId ∧ p.phase = some .pending

theorem pendingClosed_nil : PendingClosed [] := by
  intro before t after hsplit
  simp at hsplit

/-! ## Pairs of a history -/

namespace Cluster

/-- Distinct transfers up to the clock, each post or void after its pending transfer. -/
structure Paired (s : Cluster) : Prop where
  ids : (s.transfers.map Transfer.id).Nodup
  clock : ∀ t ∈ s.transfers, t.timestamp ≤ s.clock
  pairs : ∀ t ∈ s.transfers, t.Resolves → ∃ p ∈ s.transfers,
    p.id = t.pendingId ∧ p.phase = some .pending ∧ p.timestamp < t.timestamp

theorem paired_empty : Paired empty := by
  refine ⟨List.nodup_nil, ?_, ?_⟩
  all_goals simp [empty]

theorem openPending_of_movement {s : Cluster} {t : Transfer} {m : Movement}
    (h : s.movement t = some m) (ht : t.Resolves) :
    ∃ p ∈ s.transfers, p.id = t.pendingId ∧ p.phase = some .pending := by
  have hopen : ∃ p, s.openPending t = some p := by
    unfold movement at h
    rcases ht with hp | hp
    · rw [hp] at h
      obtain ⟨p, hp, _⟩ := Option.map_eq_some_iff.1 h
      exact ⟨p, hp⟩
    · rw [hp] at h
      obtain ⟨p, hp, _⟩ := Option.map_eq_some_iff.1 h
      exact ⟨p, hp⟩
  obtain ⟨p, hp⟩ := hopen
  unfold openPending at hp
  have hfound := List.find?_some hp
  rw [decide_eq_true_iff] at hfound
  exact ⟨p, List.mem_of_find?_eq_some hp, hfound.1, hfound.2.1⟩

theorem paired_step {s s' : Cluster} {e : Event} (hi : s.Paired) (h : s.step e = some s') :
    s'.Paired := by
  obtain ⟨hlt, hclock⟩ := step_clock h
  have hold : ∀ t ∈ s.transfers, t.timestamp < s'.clock := by
    intro t ht
    have hle := hi.clock t ht
    rw [hclock]
    bv_omega
  cases e with
  | createAccount a =>
      obtain ⟨_, _, _, _, rfl⟩ := createAccount_cases h
      exact ⟨hi.ids, fun t ht => by have hlt := hold t ht; bv_omega, hi.pairs⟩
  | createTransfer t =>
      obtain ⟨_, hnew, _, _, _, m, accounts, hm, _, rfl⟩ := createTransfer_cases h
      constructor
      · rw [List.map_append, List.map_singleton, ← List.concat_eq_append]
        exact hi.ids.concat hnew
      · intro u hu
        rcases List.mem_append.1 hu with hu | hu
        · have hlt := hold u hu
          bv_omega
        · rw [List.mem_singleton.1 hu]
          exact BitVec.le_refl _
      · intro u hu hres
        rcases List.mem_append.1 hu with hu | hu
        · obtain ⟨p, hp, hpair⟩ := hi.pairs u hu hres
          exact ⟨p, List.mem_append_left _ hp, hpair⟩
        · rw [List.mem_singleton.1 hu] at hres ⊢
          obtain ⟨p, hp, hid, hphase⟩ := openPending_of_movement hm hres
          exact ⟨p, List.mem_append_left _ hp, hid, hphase, hold p hp⟩

theorem paired_run {s s' : Cluster} {es : List Event} (hi : s.Paired) (h : s.run es = some s') :
    s'.Paired := by
  induction es generalizing s with
  | nil =>
      cases h
      exact hi
  | cons e es ih =>
      obtain ⟨s₁, hstep, hrun⟩ := run_cons h
      exact ih (paired_step hi hstep) hrun

end Cluster

/-! ## What is read for the window -/

/-- The records of a data file are those of a history. A record of the log is as it was
submitted: without a timestamp, unless it was imported. -/
structure Recorded (s : Cluster) (records : List Transfer) : Prop where
  known : ∀ r ∈ records, ∃ t ∈ s.transfers, r.untimed = t.untimed ∧
    (r.timestamp = 0 ∨ r.timestamp = t.timestamp)
  complete : ∀ t ∈ s.transfers, t.id ∈ records.map Transfer.id

def InWindow (records : List Transfer) (c : U64) (i : U128) : Prop :=
  ∃ r, latest Transfer.id i records = some r ∧ c ≤ r.timestamp

instance (records : List Transfer) (c : U64) (i : U128) : Decidable (InWindow records c i) :=
  decidable_of_iff ((latest Transfer.id i records).any fun r => c ≤ r.timestamp)
    (by simp [InWindow, Option.any_eq_true])

theorem readAllTransfersSince_ofRecords (ord : IterOrder U128 Transfer) (lsm wal : List Transfer)
    (c : U64) :
    readAllTransfersSince ord (.ok (.ofRecords lsm wal)) c =
      .ok (sortByTimestamp
        ((values (indexBy Transfer.id (lsm ++ wal)) ord).filter fun t => c ≤ t.timestamp)) := by
  unfold readAllTransfersSince RecordStreams.ofRecords
  simp only [Except.mapError, bind, Except.bind, readLsm_ok, readWal_ok, mergeById_eq]
  rfl

structure Window (records : List Transfer) (c : U64) (window : List Transfer) : Prop where
  mem (t : Transfer) : t ∈ window ↔ latest Transfer.id t.id records = some t ∧ c ≤ t.timestamp
  sorted : window.Pairwise fun t u => t.timestamp.toNat ≤ u.timestamp.toNat

theorem readAllTransfersSince_window (ord : IterOrder U128 Transfer) (lsm wal : List Transfer)
    (c : U64) : ∃ window, readAllTransfersSince ord (.ok (.ofRecords lsm wal)) c = .ok window ∧
      Window (lsm ++ wal) c window := by
  refine ⟨_, readAllTransfersSince_ofRecords ord lsm wal c, ?_, ?_⟩
  · intro t
    rw [(sortByTimestamp_stablySorted _).perm.mem_iff, List.mem_filter, mem_values_indexBy,
      decide_eq_true_iff]
  · exact (sortByTimestamp_stablySorted _).sorted

section Closed

variable {s : Cluster} {records window : List Transfer} {c : U64}

theorem Recorded.latest_cases (h : Recorded s records) {i : U128} {r : Transfer}
    (hr : latest Transfer.id i records = some r) :
    ∃ t ∈ s.transfers, t.id = i ∧ r.untimed = t.untimed ∧
      (r.timestamp = 0 ∨ r.timestamp = t.timestamp) := by
  obtain ⟨hmem, hid⟩ := mem_of_latest hr
  obtain ⟨t, ht, hsame, htime⟩ := h.known r hmem
  have hti : r.id = t.id := (congrArg Transfer.id hsame :)
  exact ⟨t, ht, hti.symm.trans hid, hsame, htime⟩

/-- The window is closed exactly when no post or void is read for it without its pending
transfer. -/
theorem pendingClosed_iff (hi : s.Paired) (hrec : Recorded s records) (hc : 0 < c)
    (h : Window records c window) :
    PendingClosed window ↔
      ∀ t ∈ s.transfers, t.Resolves → InWindow records c t.id → InWindow records c t.pendingId := by
  constructor
  · rintro hclosed t ht hres ⟨r, hr, hrc⟩
    obtain ⟨u, hu, hid, hsame, _⟩ := hrec.latest_cases hr
    have hut : u = t := List.inj_on_of_nodup_map hi.ids hu ht hid
    rw [hut] at hsame
    have hpending : r.pendingId = t.pendingId := (congrArg Transfer.pendingId hsame :)
    have hphase : r.phase = t.phase := (congrArg Transfer.phase hsame :)
    have hrid : r.id = t.id := (congrArg Transfer.id hsame :)
    obtain ⟨before, after, hsplit⟩ := List.append_of_mem ((h.mem r).2 ⟨hrid ▸ hr, hrc⟩)
    obtain ⟨p, hp, hpid, _⟩ := hclosed before r after hsplit (by rwa [Transfer.Resolves, hphase])
    obtain ⟨hlatest, hpc⟩ := (h.mem p).1 (hsplit ▸ List.mem_append_left _ hp)
    exact ⟨p, by rw [← hpending, ← hpid]; exact hlatest, hpc⟩
  · intro hpairs before r after hsplit hres
    obtain ⟨hr, hrc⟩ := (h.mem r).1 (hsplit ▸ List.mem_append_right _ List.mem_cons_self)
    obtain ⟨t, ht, hid, hsame, htime⟩ := hrec.latest_cases hr
    have hpending : r.pendingId = t.pendingId := (congrArg Transfer.pendingId hsame :)
    have hphase : r.phase = t.phase := (congrArg Transfer.phase hsame :)
    have hresT : t.Resolves := by rwa [Transfer.Resolves, ← hphase]
    obtain ⟨p, hp, hpc⟩ := hpairs t ht hresT ⟨r, hid ▸ hr, hrc⟩
    obtain ⟨q, hq, hqid, hqphase, hqt⟩ := hi.pairs t ht hresT
    obtain ⟨u, hu, huid, hpsame, hptime⟩ := hrec.latest_cases hp
    have huq : u = q := List.inj_on_of_nodup_map hi.ids hu hq (huid.trans hqid.symm)
    rw [huq] at hpsame hptime
    have hpid : p.id = t.pendingId := (mem_of_latest hp).2
    have hpphase : p.phase = q.phase := (congrArg Transfer.phase hpsame :)
    have hmem : p ∈ window := (h.mem p).2 ⟨hpid ▸ hp, hpc⟩
    -- both records have the timestamps of the history, so the pending one comes first
    have hlt : p.timestamp.toNat < r.timestamp.toNat := by
      rw [BitVec.le_def] at hrc hpc
      rw [BitVec.lt_def] at hc hqt
      rcases hptime with h0 | hpt
      · rw [h0] at hpc
        omega
      · rcases htime with h0 | hrt
        · rw [h0] at hrc
          omega
        · rw [hpt, hrt]
          exact hqt
    refine ⟨p, ?_, hpid.trans hpending.symm, hpphase.trans hqphase⟩
    rw [hsplit] at hmem
    rcases List.mem_append.1 hmem with hbefore | hafter
    · exact hbefore
    · have hsorted := h.sorted
      rw [hsplit, List.pairwise_append, List.pairwise_cons] at hsorted
      rcases List.mem_cons.1 hafter with rfl | hafter
      · exact absurd hlt (lt_irrefl _)
      · exact absurd hlt (not_lt.2 (hsorted.2.1.1 p hafter))

theorem inWindow_iff (hi : s.Paired) (hcomplete : ∀ t ∈ s.transfers, t.id ∈ records.map Transfer.id)
    (htimed : ∀ r ∈ records, r ∈ s.transfers) {t : Transfer} (ht : t ∈ s.transfers) :
    InWindow records c t.id ↔ c ≤ t.timestamp := by
  obtain ⟨r, hr⟩ := Option.isSome_iff_exists.1 (latest_isSome_iff.2 (hcomplete t ht))
  obtain ⟨hmem, hid⟩ := mem_of_latest hr
  have hrt : r = t := List.inj_on_of_nodup_map hi.ids (htimed r hmem) ht hid
  rw [hrt] at hr
  constructor
  · rintro ⟨u, hu, huc⟩
    rw [hr, Option.some.injEq] at hu
    rwa [hu]
  · exact fun htc => ⟨t, hr, htc⟩

theorem pairs_iff_of_timed (hi : s.Paired)
    (hcomplete : ∀ t ∈ s.transfers, t.id ∈ records.map Transfer.id)
    (htimed : ∀ r ∈ records, r ∈ s.transfers) :
    (∀ t ∈ s.transfers, t.Resolves → InWindow records c t.id → InWindow records c t.pendingId) ↔
      ∀ t ∈ s.transfers, t.Resolves → c ≤ t.timestamp →
        ∀ p ∈ s.transfers, p.id = t.pendingId → c ≤ p.timestamp := by
  constructor
  · intro h t ht hres htc p hp hid
    have hpending := h t ht hres ((inWindow_iff hi hcomplete htimed ht).2 htc)
    rw [← hid] at hpending
    exact (inWindow_iff hi hcomplete htimed hp).1 hpending
  · intro h t ht hres htc
    obtain ⟨p, hp, hid, _⟩ := hi.pairs t ht hres
    have hpc := h t ht hres ((inWindow_iff hi hcomplete htimed ht).1 htc) p hp hid
    rw [← hid]
    exact (inWindow_iff hi hcomplete htimed hp).2 hpc

end Closed

namespace BalancePlan

theorem executeMigrationPlan_windowed {prof : Profile} {orders : HashOrders} {file : FileReads}
    {accounts : List Account} {c : U64} {accountsOnly : Bool} {window : List Transfer}
    (haccounts : readAllAccounts orders.accounts file.accounts = .ok accounts)
    (hpending : ∀ a ∈ accounts, hasPending a = false) (hc : 0 < c)
    (hwindow : readAllTransfersSince orders.transfers file.transfers c = .ok window) :
    executeMigrationPlan prof orders file c accountsOnly =
      (buildWindowed prof orders.ledgers accounts window c).map fun plan =>
        .ok (if accountsOnly then accountsOnlyPlan plan else plan) := by
  have hnone : accounts.filter hasPending = [] := by
    apply List.filter_eq_nil_iff.2
    intro a ha
    rw [hpending a ha]
    exact Bool.false_ne_true
  simp only [executeMigrationPlan, haccounts, hnone, List.length_nil, Nat.lt_irrefl, if_false,
    buildFor, if_pos hc, hwindow, Option.map_map]
  rfl

/-- The window of a migration, unless it has none, is closed under the references of posts
and voids exactly when each of them that is read has its pending transfer read, too; with
timestamps on all records, when no pair lies on both sides of the cutoff. -/
theorem windowed_pendingClosed_iff (orders : HashOrders) {events : List Event} {s : Cluster}
    (hrun : empty.run events = some s) {lsm wal : List Transfer}
    (hrecords : Recorded s (lsm ++ wal)) {file : FileReads}
    (htransfers : file.transfers = .ok (.ofRecords lsm wal)) {accounts : List Account}
    (haccounts : readAllAccounts orders.accounts file.accounts = .ok accounts)
    (hpending : ∀ a ∈ accounts, hasPending a = false) {c : U64} (hc : 0 < c)
    (accountsOnly : Bool) :
    (Delivers (fun prof => executeMigrationPlan prof orders file c accountsOnly) fun result =>
      ∃ plan, result = .ok plan ∧
        (PendingClosed plan.windowedTransfers ↔ accountsOnly = true ∨
          ∀ t ∈ s.transfers, t.Resolves →
            InWindow (lsm ++ wal) c t.id → InWindow (lsm ++ wal) c t.pendingId)) ∧
    ((∀ r ∈ lsm ++ wal, r ∈ s.transfers) →
      ((∀ t ∈ s.transfers, t.Resolves →
          InWindow (lsm ++ wal) c t.id → InWindow (lsm ++ wal) c t.pendingId) ↔
        ∀ t ∈ s.transfers, t.Resolves → c ≤ t.timestamp →
          ∀ p ∈ s.transfers, p.id = t.pendingId → c ≤ p.timestamp)) := by
  have hi := paired_run paired_empty hrun
  obtain ⟨window, hread, hwindow⟩ :=
    readAllTransfersSince_window orders.transfers lsm wal c
  rw [← htransfers] at hread
  constructor
  · simp only [executeMigrationPlan_windowed haccounts hpending hc hread]
    constructor
    · obtain ⟨plan, hplan⟩ := buildWindowed_release orders.ledgers accounts window c
      exact ⟨_, Option.map_eq_some_iff.2 ⟨plan, hplan, rfl⟩⟩
    · intro prof result hresult
      obtain ⟨plan, hplan, rfl⟩ := Option.map_eq_some_iff.1 hresult
      obtain ⟨_, _, hkept, _⟩ := buildWindowed_cases hplan
      refine ⟨_, rfl, ?_⟩
      cases accountsOnly with
      | true => exact iff_of_true pendingClosed_nil (.inl rfl)
      | false =>
          simp only [Bool.false_eq_true, if_false, false_or, hkept]
          exact pendingClosed_iff hi hrecords hc hwindow
  · exact pairs_iff_of_timed hi hrecords.complete

def straddlingHistory : List Event :=
  [.createAccount (.holding 7 1 0 0 1), .createAccount (.holding 8 1 0 0 2),
    .createTransfer (.moving 1 7 8 50 1 2 3),
    .createTransfer { Transfer.moving 2 7 8 50 1 4 7 with pendingId := 1 }]

def straddlingCluster : Cluster where
  accounts := [.holding 7 1 50 0 1, .holding 8 1 0 50 2]
  transfers := [.moving 1 7 8 50 1 2 3, { Transfer.moving 2 7 8 50 1 4 7 with pendingId := 1 }]
  clock := 7

def straddlingFile : FileReads where
  accounts := .ok (.ofRecords straddlingCluster.accounts [])
  transfers := .ok (.ofRecords straddlingCluster.transfers [])

theorem run_straddlingHistory : empty.run straddlingHistory = some straddlingCluster := by
  decide +kernel

theorem straddling_recorded : Recorded straddlingCluster (straddlingCluster.transfers ++ []) := by
  rw [List.append_nil]
  exact ⟨fun r hr => ⟨r, hr, rfl, .inr rfl⟩, fun t ht => List.mem_map_of_mem ht⟩

theorem straddling_accounts (ord : IterOrder U128 Account) :
    readAllAccounts ord straddlingFile.accounts = .ok straddlingCluster.accounts :=
  readAllAccounts_nil ord straddlingCluster.accounts

theorem windowed_pendingClosed_iff_straddling :
    empty.run straddlingHistory = some straddlingCluster ∧
    (Delivers (fun prof =>
        executeMigrationPlan prof ⟨.stored, .stored, .stored⟩ straddlingFile 5 false) fun result =>
      ∃ plan, result = .ok plan ∧
        (PendingClosed plan.windowedTransfers ↔ false = true ∨
          ∀ t ∈ straddlingCluster.transfers, t.Resolves →
            InWindow (straddlingCluster.transfers ++ []) 5 t.id →
              InWindow (straddlingCluster.transfers ++ []) 5 t.pendingId)) ∧
    ((∀ r ∈ straddlingCluster.transfers ++ [], r ∈ straddlingCluster.transfers) →
      ((∀ t ∈ straddlingCluster.transfers, t.Resolves →
          InWindow (straddlingCluster.transfers ++ []) 5 t.id →
            InWindow (straddlingCluster.transfers ++ []) 5 t.pendingId) ↔
        ∀ t ∈ straddlingCluster.transfers, t.Resolves → 5 ≤ t.timestamp →
          ∀ p ∈ straddlingCluster.transfers, p.id = t.pendingId → 5 ≤ p.timestamp)) :=
  ⟨run_straddlingHistory, windowed_pendingClosed_iff ⟨.stored, .stored, .stored⟩
    run_straddlingHistory straddling_recorded rfl (straddling_accounts .stored) (by decide)
    (by decide) false⟩

/-- The check of the pending balances passes and the window starts with the post. -/
theorem straddlingHistory_not_closed :
    empty.run straddlingHistory = some straddlingCluster ∧
    (∀ a ∈ straddlingCluster.accounts, hasPending a = false) ∧
    ∃ plan, executeMigrationPlan .release ⟨.stored, .stored, .stored⟩ straddlingFile 5 false =
        some (.ok plan) ∧ ¬ PendingClosed plan.windowedTransfers := by
  have hpending : ∀ a ∈ straddlingCluster.accounts, hasPending a = false := by decide
  refine ⟨run_straddlingHistory, hpending, ?_⟩
  obtain ⟨window, hread, hwindow⟩ :=
    readAllTransfersSince_window .stored straddlingCluster.transfers [] 5
  obtain ⟨plan, hplan⟩ := buildWindowed_release .stored straddlingCluster.accounts window 5
  obtain ⟨_, _, hkept, _⟩ := buildWindowed_cases hplan
  refine ⟨plan, ?_, fun hclosed => ?_⟩
  · rw [executeMigrationPlan_windowed (straddling_accounts .stored) hpending (by decide) hread,
      hplan]
    rfl
  · rw [hkept] at hclosed
    have hpairs := (pendingClosed_iff (paired_run paired_empty run_straddlingHistory)
      straddling_recorded (by decide) hwindow).1 hclosed
    exact absurd (hpairs { Transfer.moving 2 7 8 50 1 4 7 with pendingId := 1 } (by decide)
      (by decide)) (by decide)

end BalancePlan

end TbManager
