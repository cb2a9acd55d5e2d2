import TbManager.PendingWindow

/-!
# The window read from a file

The records of the log override those of the tables by id before the timestamps
are looked at. A transfer of the tables is in the window only if the log does not
mention its id, or repeats the transfer as it is.
-/

namespace TbManager

open HashMap BalancePlan

/-- Each id at most once, in the order of the timestamps, nothing before the cutoff and every
transfer of the tables from the cutoff on. -/
structure CompleteWindow (lsm : List Transfer) (c : U64) (window : List Transfer) : Prop where
  once : (window.map Transfer.id).Nodup
  sorted : window.Pairwise fun t u => t.timestamp ≤ u.timestamp
  recent : ∀ t ∈ window, c ≤ t.timestamp
  complete : ∀ t ∈ lsm, c ≤ t.timestamp → t ∈ window

section Merge

variable {lsm wal window : List Transfer} {c : U64} {t : Transfer}

theorem latest_of_mem_lsm (hdistinct : (lsm.map Transfer.id).Nodup) (ht : t ∈ lsm) :
    latest Transfer.id t.id (lsm ++ wal) = some ((latest Transfer.id t.id wal).getD t) := by
  rw [latest_append, latest_of_nodup hdistinct ht]
  cases latest Transfer.id t.id wal <;> rfl

theorem Window.mem_lsm_iff (h : Window (lsm ++ wal) c window)
    (hdistinct : (lsm.map Transfer.id).Nodup) (ht : t ∈ lsm) (hc : c ≤ t.timestamp) :
    t ∈ window ↔ ∀ w, latest Transfer.id t.id wal = some w → w = t := by
  rw [h.mem, latest_of_mem_lsm hdistinct ht, Option.some.injEq]
  cases latest Transfer.id t.id wal with
  | none => simp [hc]
  | some w => simp [hc]

theorem Window.mem_ids_iff (h : Window (lsm ++ wal) c window)
    (hdistinct : (lsm.map Transfer.id).Nodup) (ht : t ∈ lsm) (hc : c ≤ t.timestamp) :
    t.id ∈ window.map Transfer.id ↔
      ∀ w, latest Transfer.id t.id wal = some w → c ≤ w.timestamp := by
  have hlatest := @latest_of_mem_lsm lsm wal t hdistinct ht
  have hids : t.id ∈ window.map Transfer.id ↔
      c ≤ ((latest Transfer.id t.id wal).getD t).timestamp := by
    rw [List.mem_map]
    constructor
    · rintro ⟨r, hr, hid⟩
      obtain ⟨hrlatest, hrc⟩ := (h.mem r).1 hr
      rw [hid, hlatest, Option.some.injEq] at hrlatest
      rwa [hrlatest]
    · intro hrc
      have hid := (mem_of_latest hlatest).2
      refine ⟨_, (h.mem _).2 ⟨?_, hrc⟩, hid⟩
      rw [hid]
      exact hlatest
  rw [hids]
  cases latest Transfer.id t.id wal with
  | none => simp [hc]
  | some w => simp

end Merge

/-- The window is complete exactly when the last log record of each id of the tables from the
cutoff on, if there is one, is the transfer of the tables; some record of the id is read
exactly when that log record is not dated before the cutoff. -/
theorem readAllTransfersSince_complete_iff (ord : IterOrder U128 Transfer)
    (lsm wal : List Transfer) (hdistinct : (lsm.map Transfer.id).Nodup) (c : U64) :
    ∃ window, readAllTransfersSince ord (.ok (.ofRecords lsm wal)) c = .ok window ∧
      (CompleteWindow lsm c window ↔ ∀ t ∈ lsm, c ≤ t.timestamp →
        ∀ w, latest Transfer.id t.id wal = some w → w = t) ∧
      ((∀ t ∈ lsm, c ≤ t.timestamp → t.id ∈ window.map Transfer.id) ↔
        ∀ t ∈ lsm, c ≤ t.timestamp →
          ∀ w, latest Transfer.id t.id wal = some w → c ≤ w.timestamp) := by
  obtain ⟨window, hread, hwindow⟩ := readAllTransfersSince_window ord lsm wal c
  have honce : (window.map Transfer.id).Nodup := by
    rw [readAllTransfersSince_ofRecords, Except.ok.injEq] at hread
    rw [← hread, ((sortByTimestamp_stablySorted _).perm.map Transfer.id).nodup_iff]
    exact (nodup_values_indexBy Transfer.id _ ord).sublist (List.filter_sublist.map _)
  refine ⟨window, hread, ?_, ?_⟩
  · constructor
    · intro h t ht hc
      exact (hwindow.mem_lsm_iff hdistinct ht hc).1 (h.complete t ht hc)
    · intro h
      refine ⟨honce, ?_, fun t ht => ((hwindow.mem t).1 ht).2, fun t ht hc => ?_⟩
      · exact hwindow.sorted.imp fun hle => BitVec.le_def.2 hle
      · exact (hwindow.mem_lsm_iff hdistinct ht hc).2 (h t ht hc)
  · constructor
    · intro h t ht hc
      exact (hwindow.mem_ids_iff hdistinct ht hc).1 (h t ht hc)
    · intro h t ht hc
      exact (hwindow.mem_ids_iff hdistinct ht hc).2 (h t ht hc)

theorem readAllTransfersSince_complete_iff_resubmitted :
    ([Transfer.moving 5 7 8 30 1 0 12].map Transfer.id).Nodup ∧
    ∃ window, readAllTransfersSince .stored
        (.ok (.ofRecords [.moving 5 7 8 30 1 0 12] [.moving 5 7 8 30 1 0 0])) 10 = .ok window ∧
      (CompleteWindow [.moving 5 7 8 30 1 0 12] 10 window ↔
        ∀ t ∈ [Transfer.moving 5 7 8 30 1 0 12], 10 ≤ t.timestamp →
          ∀ w, latest Transfer.id t.id [.moving 5 7 8 30 1 0 0] = some w → w = t) ∧
      ((∀ t ∈ [Transfer.moving 5 7 8 30 1 0 12], 10 ≤ t.timestamp →
          t.id ∈ window.map Transfer.id) ↔
        ∀ t ∈ [Transfer.moving 5 7 8 30 1 0 12], 10 ≤ t.timestamp →
          ∀ w, latest Transfer.id t.id [.moving 5 7 8 30 1 0 0] = some w → 10 ≤ w.timestamp) :=
  ⟨by decide, readAllTransfersSince_complete_iff .stored _ _ (by decide) 10⟩

/-- A resubmitted transfer carries no timestamp in the log: the stored one at 12 is not read. -/
theorem resubmitted_not_complete :
    readAllTransfersSince .stored
        (.ok (.ofRecords [.moving 5 7 8 30 1 0 12] [.moving 5 7 8 30 1 0 0])) 10 = .ok [] ∧
      ¬ CompleteWindow [.moving 5 7 8 30 1 0 12] 10 [] := by
  refine ⟨by decide +kernel, fun h => ?_⟩
  have hmem := h.complete _ List.mem_cons_self (by decide)
  cases hmem

end TbManager
