import TbManager.HashIteration
import TbManager.Records
import TbManager.ReaderResult

/-!
# Merging checkpointed and logged records

A migration reads the records of the LSM tables and those of the write-ahead log
and keeps one record for each id.
-/

namespace TbManager

open HashMap

/-- What the two iterators of a reader yield, or why there is no iterator. -/
structure RecordStreams (α : Type*) where
  lsm : Except ReaderError (List (Except ReaderError α))
  wal : Except ReaderError (List (Except ReaderError α))

def RecordStreams.ofRecords {α : Type*} (lsm wal : List α) : RecordStreams α :=
  ⟨.ok (lsm.map .ok), .ok (wal.map .ok)⟩

section Streams

variable {α : Type*}

def readLsm (what : String) : Except ReaderError (List (Except ReaderError α)) →
    Except String (List α)
  | .ok items =>
      (collectResults items).mapError fun e => "read LSM " ++ what ++ ": " ++ e.message
  | .error (.notCheckpointed _) => .ok []
  | .error e => .error ("iter LSM " ++ what ++ ": " ++ e.message)

def readWal (what : String) : Except ReaderError (List (Except ReaderError α)) →
    Except String (List α)
  | .ok items =>
      (collectResults items).mapError fun e => "read WAL " ++ what ++ ": " ++ e.message
  | .error e => .error ("iter WAL " ++ what ++ ": " ++ e.message)

/-- `by_id`: the LSM records by id, overridden and extended by the WAL records. -/
def mergeById (key : α → U128) (ord : IterOrder U128 α) (lsm wal : List α) : List α :=
  values (insertAll key id (indexBy key lsm) wal) ord

theorem mergeById_eq (key : α → U128) (ord : IterOrder U128 α) (lsm wal : List α) :
    mergeById key ord lsm wal = values (indexBy key (lsm ++ wal)) ord := by
  rw [mergeById, insertAll_indexBy]

theorem readLsm_ok (what : String) (as : List α) : readLsm what (.ok (as.map .ok)) = .ok as := by
  rw [readLsm, collectResults_ok, Except.mapError]

theorem readWal_ok (what : String) (as : List α) : readWal what (.ok (as.map .ok)) = .ok as := by
  rw [readWal, collectResults_ok, Except.mapError]

end Streams

def readAllAccounts (ord : IterOrder U128 Account)
    (file : Except ReaderError (RecordStreams Account)) : Except String (List Account) := do
  let reader ← file.mapError fun e => "open data file: " ++ e.message
  let lsm ← readLsm "accounts" reader.lsm
  let wal ← readWal "accounts" reader.wal
  if wal.isEmpty then .ok lsm else .ok (mergeById Account.id ord lsm wal)

def readAllTransfersSince (ord : IterOrder U128 Transfer)
    (file : Except ReaderError (RecordStreams Transfer)) (cutoffTs : U64) :
    Except String (List Transfer) := do
  let reader ← file.mapError fun e => "open data file: " ++ e.message
  let lsm ← readLsm "transfers" reader.lsm
  let wal ← readWal "transfers" reader.wal
  .ok (((mergeById Transfer.id ord lsm wal).filter fun t => cutoffTs ≤ t.timestamp).insertionSort
    fun t u => t.timestamp ≤ u.timestamp)

theorem readAllAccounts_ofRecords (ord : IterOrder U128 Account) (lsm wal : List Account) :
    readAllAccounts ord (.ok (.ofRecords lsm wal)) =
      .ok (if wal.isEmpty then lsm else mergeById Account.id ord lsm wal) := by
  unfold readAllAccounts RecordStreams.ofRecords
  simp only [Except.mapError, bind, Except.bind, readLsm_ok, readWal_ok]
  split_ifs <;> rfl

theorem readAllAccounts_nil (ord : IterOrder U128 Account) (lsm : List Account) :
    readAllAccounts ord (.ok (.ofRecords lsm [])) = .ok lsm :=
  readAllAccounts_ofRecords ord lsm []

theorem readAllAccounts_merge (ord : IterOrder U128 Account) (lsm : List Account)
    {wal : List Account} (h : wal ≠ []) :
    readAllAccounts ord (.ok (.ofRecords lsm wal)) =
      .ok (values (indexBy Account.id (lsm ++ wal)) ord) := by
  rw [readAllAccounts_ofRecords, if_neg (by simpa using h), mergeById_eq]

/-- With distinct ids nothing is overridden: the merge only rearranges. -/
theorem readAllAccounts_of_distinct (ord : IterOrder U128 Account) {lsm wal : List Account}
    (h : ((lsm ++ wal).map Account.id).Nodup) :
    ∃ accounts, readAllAccounts ord (.ok (.ofRecords lsm wal)) = .ok accounts ∧
      accounts.Perm (lsm ++ wal) := by
  by_cases hwal : wal = []
  · subst hwal
    exact ⟨lsm, readAllAccounts_nil ord lsm, by rw [List.append_nil]⟩
  · refine ⟨_, readAllAccounts_merge ord lsm hwal, ?_⟩
    apply (List.perm_ext_iff_of_nodup (nodup_values_indexBy Account.id _ ord).of_map h.of_map).2
    intro a
    rw [mem_values_indexBy]
    exact ⟨fun ha => (mem_of_latest ha).1, latest_of_nodup h⟩

/-! ## The account read for an id -/

/-- The accounts read from the live tables and the log are a map from id to
account, whatever the order in which tables and hash map are visited. -/
structure WellDefined (tables : List (List Account)) (wal : List Account) : Prop where
  once : ∀ visited : List (List Account), visited.Perm tables → ∀ ord, ∃ accounts,
    readAllAccounts ord (.ok (.ofRecords visited.flatten wal)) = .ok accounts ∧
      (accounts.map Account.id).Nodup ∧
      ∀ i, i ∈ accounts.map Account.id ↔
        i ∈ tables.flatten.map Account.id ∨ i ∈ wal.map Account.id
  chosen : ∀ visited visited' : List (List Account), visited.Perm tables → visited'.Perm tables →
    ∀ ord ord' accounts accounts',
      readAllAccounts ord (.ok (.ofRecords visited.flatten wal)) = .ok accounts →
      readAllAccounts ord' (.ok (.ofRecords visited'.flatten wal)) = .ok accounts' →
      accounts.Perm accounts'
  fastPath : wal = [] → ∀ visited : List (List Account), visited.Perm tables →
    ∀ ord ord' accounts,
      readAllAccounts ord (.ok (.ofRecords visited.flatten wal)) = .ok accounts →
      accounts.Perm (mergeById Account.id ord' visited.flatten wal)

/-- Tables that hold an id the log does not mention end with the same record of it. -/
def TablesAgree (tables : List (List Account)) (wal : List Account) : Prop :=
  ∀ i, i ∉ wal.map Account.id → ∀ t ∈ tables, ∀ u ∈ tables,
    i ∈ t.map Account.id → i ∈ u.map Account.id →
      latest Account.id i t = latest Account.id i u

theorem latest_flatten_of_agree {tables visited : List (List Account)} {wal : List Account}
    (h : TablesAgree tables wal) (hvisited : visited.Perm tables) {i : U128}
    (hi : i ∉ wal.map Account.id) {t : List Account} (ht : t ∈ tables)
    (hit : i ∈ t.map Account.id) :
    latest Account.id i visited.flatten = latest Account.id i t := by
  have hmem : i ∈ visited.flatten.map Account.id := by
    obtain ⟨a, ha, rfl⟩ := List.mem_map.1 hit
    exact List.mem_map_of_mem (List.mem_flatten.2 ⟨t, hvisited.mem_iff.2 ht, ha⟩)
  obtain ⟨a, ha⟩ := Option.isSome_iff_exists.1 (latest_isSome_iff.2 hmem)
  obtain ⟨u, hu, hua⟩ := exists_latest_of_flatten ha
  have hiu : i ∈ u.map Account.id := latest_isSome_iff.1 (Option.isSome_of_eq_some hua)
  rw [ha, ← hua]
  exact h i hi u (hvisited.mem_iff.1 hu) t ht hiu hit

theorem latest_visited_eq {tables visited visited' : List (List Account)} {wal : List Account}
    (h : TablesAgree tables wal) (hv : visited.Perm tables) (hv' : visited'.Perm tables)
    (i : U128) :
    latest Account.id i (visited.flatten ++ wal) =
      latest Account.id i (visited'.flatten ++ wal) := by
  rw [latest_append, latest_append]
  by_cases hi : i ∈ wal.map Account.id
  · obtain ⟨a, ha⟩ := Option.isSome_iff_exists.1 (latest_isSome_iff.2 hi)
    rw [ha, Option.some_or, Option.some_or]
  · rw [latest_eq_none_iff.2 hi, Option.none_or, Option.none_or]
    by_cases hmem : i ∈ tables.flatten.map Account.id
    · obtain ⟨a, ha, rfl⟩ := List.mem_map.1 hmem
      obtain ⟨t, ht, hat⟩ := List.mem_flatten.1 ha
      rw [latest_flatten_of_agree h hv hi ht (List.mem_map_of_mem hat),
        latest_flatten_of_agree h hv' hi ht (List.mem_map_of_mem hat)]
    · have hnone : ∀ ts : List (List Account), ts.Perm tables →
          latest Account.id i ts.flatten = none := by
        intro ts hts
        rw [latest_eq_none_iff, (hts.flatten.map Account.id).mem_iff]
        exact hmem
      rw [hnone visited hv, hnone visited' hv']

theorem exists_visited_last {tables : List (List Account)} {t : List Account} (ht : t ∈ tables)
    {i : U128} (hi : i ∈ t.map Account.id) :
    ∃ visited : List (List Account), visited.Perm tables ∧
      latest Account.id i visited.flatten = latest Account.id i t := by
  obtain ⟨as, bs, rfl⟩ := List.append_of_mem ht
  refine ⟨(as ++ bs) ++ [t], ?_, ?_⟩
  · rw [List.append_assoc]
    exact (List.perm_append_left_iff as).2 (List.perm_append_singleton t bs)
  · obtain ⟨a, ha⟩ := Option.isSome_iff_exists.1 (latest_isSome_iff.2 hi)
    rw [List.flatten_append, latest_append, List.flatten_singleton, ha, Option.some_or]

theorem wellDefined_iff_of_wal_nil (tables : List (List Account)) :
    WellDefined tables [] ↔ (tables.flatten.map Account.id).Nodup := by
  constructor
  · intro h
    obtain ⟨accounts, hread, hnodup, _⟩ := h.once tables (List.Perm.refl _) .stored
    rw [readAllAccounts_nil, Except.ok.injEq] at hread
    rwa [hread]
  · intro hnodup
    have hvisited : ∀ visited : List (List Account), visited.Perm tables →
        (visited.flatten.map Account.id).Nodup :=
      fun visited hv => (hv.flatten.map Account.id).nodup_iff.2 hnodup
    constructor
    · intro visited hv ord
      refine ⟨visited.flatten, readAllAccounts_nil _ _, hvisited visited hv, ?_⟩
      intro i
      rw [(hv.flatten.map Account.id).mem_iff]
      simp
    · intro visited visited' hv hv' ord ord' accounts accounts' h h'
      rw [readAllAccounts_nil, Except.ok.injEq] at h h'
      rw [← h, ← h']
      exact (hv.trans hv'.symm).flatten
    · intro _ visited hv ord ord' accounts h
      rw [readAllAccounts_nil, Except.ok.injEq] at h
      rw [← h, mergeById_eq, List.append_nil]
      apply (List.perm_ext_iff_of_nodup (hvisited visited hv).of_map
        (nodup_values_indexBy Account.id _ ord').of_map).2
      intro a
      rw [mem_values_indexBy]
      exact ⟨fun ha => latest_of_nodup (hvisited visited hv) ha, fun ha => (mem_of_latest ha).1⟩

theorem wellDefined_iff_of_wal_ne_nil (tables : List (List Account)) {wal : List Account}
    (hwal : wal ≠ []) : WellDefined tables wal ↔ TablesAgree tables wal := by
  constructor
  · intro h i hi t ht u hu hit hiu
    obtain ⟨visited, hv, hlast⟩ := exists_visited_last ht hit
    obtain ⟨visited', hv', hlast'⟩ := exists_visited_last hu hiu
    have hperm := h.chosen visited visited' hv hv' .stored .stored _ _
      (readAllAccounts_merge _ _ hwal) (readAllAccounts_merge _ _ hwal)
    have hsame := values_indexBy_perm_iff.1 hperm i
    rw [latest_append, latest_append, latest_eq_none_iff.2 hi, Option.none_or, Option.none_or,
      hlast, hlast'] at hsame
    exact hsame
  · intro h
    constructor
    · intro visited hv ord
      refine ⟨_, readAllAccounts_merge _ _ hwal, nodup_values_indexBy _ _ _, ?_⟩
      intro i
      rw [mem_map_values_indexBy, List.map_append, List.mem_append,
        (hv.flatten.map Account.id).mem_iff]
    · intro visited visited' hv hv' ord ord' accounts accounts' hr hr'
      rw [readAllAccounts_merge _ _ hwal, Except.ok.injEq] at hr hr'
      rw [← hr, ← hr']
      exact values_indexBy_perm_iff.2 (latest_visited_eq h hv hv')
    · exact fun hnil => absurd hnil hwal

/-- Reading is well defined exactly when, without a log, no id is stored twice and,
with a log, the tables agree on every id that the log does not override. -/
theorem wellDefined_iff (tables : List (List Account)) (wal : List Account) :
    WellDefined tables wal ↔
      (wal = [] → (tables.flatten.map Account.id).Nodup) ∧
        (wal ≠ [] → TablesAgree tables wal) := by
  by_cases hwal : wal = []
  · subst hwal
    rw [wellDefined_iff_of_wal_nil]
    simp
  · rw [wellDefined_iff_of_wal_ne_nil tables hwal]
    simp [hwal]

/-- One account in two tables with different balances: without a log it is read
twice, with a log its balance depends on the visiting order. -/
theorem twoVersions_not_wellDefined :
    ¬ WellDefined [[.holding 1 1 5 0 10], [.holding 1 1 9 0 10]] [] ∧
      ¬ WellDefined [[.holding 1 1 5 0 10], [.holding 1 1 9 0 10]] [.holding 2 1 0 0 0] := by
  rw [wellDefined_iff_of_wal_nil, wellDefined_iff_of_wal_ne_nil _ (List.cons_ne_nil _ _)]
  refine ⟨by decide, fun h => ?_⟩
  have hagree := h 1 (by decide) _ List.mem_cons_self _ (List.mem_cons_of_mem _ List.mem_cons_self)
    (by decide) (by decide)
  exact absurd hagree (by decide)

/-! ## Checkpointed accounts in the merge -/

def Account.checkpointed (a : Account) : (U128 × U128) × (U128 × U128) × U64 :=
  ((a.debitsPosted, a.creditsPosted), (a.debitsPending, a.creditsPending), a.timestamp)

def KeepsCheckpoint (lsm accounts : List Account) : Prop :=
  ∀ a ∈ lsm, ∃ r ∈ accounts, r.id = a.id ∧ r.checkpointed = a.checkpointed

theorem latest_merged {lsm wal : List Account} (hdistinct : (lsm.map Account.id).Nodup)
    {a : Account} (ha : a ∈ lsm) :
    latest Account.id a.id (lsm ++ wal) = some ((latest Account.id a.id wal).getD a) := by
  rw [latest_append, latest_of_nodup hdistinct ha]
  cases latest Account.id a.id wal <;> rfl

/-- Every checkpointed account survives the merge exactly when the last log record
of its id, if there is one, carries the same balances and timestamp. -/
theorem readAllAccounts_keepsCheckpoint_iff (ord : IterOrder U128 Account)
    (lsm wal : List Account) (hdistinct : (lsm.map Account.id).Nodup) :
    ∃ accounts, readAllAccounts ord (.ok (.ofRecords lsm wal)) = .ok accounts ∧
      (KeepsCheckpoint lsm accounts ↔
        ∀ a ∈ lsm, ∀ w, latest Account.id a.id wal = some w →
          w.checkpointed = a.checkpointed) := by
  by_cases hwal : wal = []
  · subst hwal
    refine ⟨lsm, readAllAccounts_nil ord lsm, ?_⟩
    constructor
    · intro _ a _ w hw
      cases hw
    · exact fun _ a ha => ⟨a, ha, rfl, rfl⟩
  · refine ⟨_, readAllAccounts_merge ord lsm hwal, ?_⟩
    constructor
    · intro h a ha w hw
      obtain ⟨r, hr, hid, hfields⟩ := h a ha
      have hlatest := mem_values_indexBy.1 hr
      rw [hid, latest_merged hdistinct ha, hw, Option.getD_some, Option.some.injEq] at hlatest
      rw [hlatest]
      exact hfields
    · intro h a ha
      have hlatest := @latest_merged lsm wal hdistinct a ha
      have hid := (mem_of_latest hlatest).2
      refine ⟨(latest Account.id a.id wal).getD a, ?_, hid, ?_⟩
      · rw [mem_values_indexBy, hid]
        exact hlatest
      · cases hw : latest Account.id a.id wal with
        | none => rfl
        | some w => exact h a ha w hw

theorem readAllAccounts_keepsCheckpoint_iff_retry :
    ([Account.holding 1 1 100 0 50].map Account.id).Nodup ∧
    ∃ accounts, readAllAccounts .stored
        (.ok (.ofRecords [.holding 1 1 100 0 50] [.holding 1 1 0 0 0])) = .ok accounts ∧
      (KeepsCheckpoint [.holding 1 1 100 0 50] accounts ↔
        ∀ a ∈ [Account.holding 1 1 100 0 50], ∀ w,
          latest Account.id a.id [.holding 1 1 0 0 0] = some w →
            w.checkpointed = a.checkpointed) :=
  ⟨by decide, readAllAccounts_keepsCheckpoint_iff .stored _ _ (by decide)⟩

theorem retry_overrides_checkpoint :
    readAllAccounts .stored (.ok (.ofRecords [.holding 1 1 100 0 50] [.holding 1 1 0 0 0])) =
        .ok [.holding 1 1 0 0 0] ∧
      ¬ KeepsCheckpoint [.holding 1 1 100 0 50] [.holding 1 1 0 0 0] := by
  refine ⟨by decide +kernel, fun h => ?_⟩
  obtain ⟨r, hr, _, hfields⟩ := h _ List.mem_cons_self
  rw [List.mem_singleton.1 hr] at hfields
  exact absurd hfields (by decide)

end TbManager
