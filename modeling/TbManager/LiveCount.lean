import TbManager.ManifestLog

/-!
# Counting and listing the live tables

The walk that counts the live tables of all trees and the walk that lists those of one tree read
the same blocks and fail alike. If no address is used by two trees, the count is the sum of the
lengths of the lists.
-/

namespace TbManager.Manifest

/-- The blocks that a build reads when it follows the previous addresses to the null address. -/
inductive BlocksRead (prof : Profile) (config : TBConfig) (file : DataFile) :
    U64 → List (List TableInfo) → Prop
  | nil : BlocksRead prof config file 0 []
  | cons {address previous : U64} {es : List TableInfo} {older : List (List TableInfo)}
      (hne : address ≠ 0) (hread : readBlock prof config file address = .ok (previous, es))
      (hrest : BlocksRead prof config file previous older) :
      BlocksRead prof config file address (es :: older)

/-- No table address occurs under two tree ids. -/
def OneTreeEach (log : List TableInfo) : Prop :=
  ∀ e ∈ log, ∀ e' ∈ log, e.address = e'.address → e.treeId = e'.treeId

/-! ## One walk, whatever is recorded -/

section Walk

variable (prof : Profile) (config : TBConfig) (file : DataFile)

/-- A walk ends with all blocks recorded, or fails in a way that does not depend on what it
records. -/
theorem walk_visits (count : U32) (fuel : ℕ) (address : U64) (visited : U32) :
    (∃ blocks, BlocksRead prof config file address blocks ∧ ∀ visit seen,
        walk prof config file count visit fuel address visited seen =
          .ok (blocks.foldl visit seen)) ∨
      ∃ failure, (∀ seen, failure ≠ .ok seen) ∧ ∀ visit seen,
        walk prof config file count visit fuel address visited seen = failure := by
  induction fuel generalizing address visited with
  | zero => exact .inr ⟨.running, fun _ h => (by cases h), fun _ _ => rfl⟩
  | succ fuel ih =>
      by_cases hnull : address = 0
      · subst address
        exact .inl ⟨[], BlocksRead.nil, fun _ _ => if_pos rfl⟩
      · simp only [walk, if_neg hnull]
        cases prof.add visited 1 with
        | none => exact .inr ⟨.panic, fun _ h => (by cases h), fun _ _ => rfl⟩
        | some visited =>
            cases prof.add count 1 with
            | none => exact .inr ⟨.panic, fun _ h => (by cases h), fun _ _ => rfl⟩
            | some bound =>
                simp only [Outcome.ofOption_some, Outcome.ok_bind]
                by_cases hguard : bound < visited
                · simp only [if_pos hguard]
                  exact .inr ⟨.err _, fun _ h => (by cases h), fun _ _ => rfl⟩
                · simp only [if_neg hguard]
                  cases hread : readBlock prof config file address with
                  | ok block =>
                      rcases ih block.1 visited with ⟨older, holder, hwalk⟩ | ⟨failure, hne, hwalk⟩
                      · exact .inl ⟨block.2 :: older, BlocksRead.cons hnull hread holder,
                          fun visit seen => hwalk visit (visit seen block.2)⟩
                      · exact .inr ⟨failure, hne, fun visit seen =>
                          hwalk visit (visit seen block.2)⟩
                  | err e => exact .inr ⟨.err e, fun _ h => (by cases h), fun _ _ => rfl⟩
                  | panic => exact .inr ⟨.panic, fun _ h => (by cases h), fun _ _ => rfl⟩
                  | running => exact .inr ⟨.running, fun _ h => (by cases h), fun _ _ => rfl⟩

theorem walkLog_visits (info : SuperblockInfo) (fuel : ℕ) :
    (∃ blocks, (blocks = [] ∨ BlocksRead prof config file info.manifestNewestAddress blocks) ∧
        ∀ visit, walkLog prof config file info visit fuel = .ok (blocks.foldl visit ∅)) ∨
      ∃ failure, (∀ seen, failure ≠ .ok seen) ∧ ∀ visit,
        walkLog prof config file info visit fuel = failure := by
  unfold walkLog
  by_cases hempty : info.manifestNewestAddress = 0 ∨ info.manifestBlockCount = 0
  · simp only [if_pos hempty]
    exact .inl ⟨[], .inl rfl, fun _ => rfl⟩
  · simp only [if_neg hempty]
    unfold allocate
    split_ifs
    · rcases walk_visits prof config file info.manifestBlockCount fuel info.manifestNewestAddress 0
        with ⟨blocks, hblocks, hwalk⟩ | ⟨failure, hne, hwalk⟩
      · exact .inl ⟨blocks, .inr hblocks, fun visit => hwalk visit ∅⟩
      · exact .inr ⟨failure, hne, fun visit => hwalk visit ∅⟩
    · exact .inr ⟨.panic, fun _ h => (by cases h), fun _ => rfl⟩

end Walk

/-! ## The tables of all trees -/

def eventsAt (address : U64) (log : List TableInfo) : List TableInfo :=
  log.filter fun e => e.address = address

theorem foldl_visitAll (blocks : List (List TableInfo)) (seen : HashMap U64 Bool) :
    blocks.foldl visitAll seen = visitAll seen blocks.flatten := by
  induction blocks generalizing seen with
  | nil => rfl
  | cons es older ih =>
      rw [List.foldl_cons, ih, List.flatten_cons]
      unfold visitAll HashMap.orInsertAll
      rw [List.foldl_append]

theorem lookup_visitAll (log : List TableInfo) (address : U64) :
    (visitAll ∅ log).lookup address = (eventsAt address log).head?.map TableInfo.live := by
  unfold visitAll eventsAt
  rw [HashMap.lookup_orInsertAll, AList.lookup_empty, Option.none_or, ← List.head?_filter]

theorem length_liveAddresses (ord : IterOrder U64 Bool) (seen : HashMap U64 Bool) :
    (liveAddresses ord seen).length = seen.entries.countP Sigma.snd := by
  rw [← (HashMap.iter_perm seen ord).countP_eq, liveAddresses]
  induction HashMap.iter seen ord with
  | nil => rfl
  | cons e es ih =>
      obtain ⟨address, live⟩ := e
      cases live with
      | true => rw [List.countP_cons_of_pos rfl, ← ih]; rfl
      | false => rw [List.countP_cons_of_neg Bool.false_ne_true, ← ih]; rfl

def treeOf (log : List TableInfo) (address : U64) : U16 :=
  ((eventsAt address log).head?.map TableInfo.treeId).getD 0

theorem eventsOf_eq_filter (treeId : U16) (address : U64) (log : List TableInfo) :
    eventsOf treeId address log = (eventsAt address log).filter fun e => e.treeId = treeId := by
  unfold eventsOf eventsAt
  rw [List.filter_filter]
  congr 1
  funext e
  rw [Bool.decide_and]

/-- Where each table has one tree, a table is listed for a tree exactly if it is counted and the
tree is its own. -/
theorem lookup_visitTree_iff {log : List TableInfo} (h : OneTreeEach log) (treeId : U16)
    (address : U64) :
    (visitTree treeId ∅ log).lookup address = some true ↔
      (visitAll ∅ log).lookup address = some true ∧ treeOf log address = treeId := by
  rw [lookup_visitTree, lookup_visitAll, eventsOf_eq_filter, treeOf]
  have hsame : ∀ e ∈ eventsAt address log, ∀ e' ∈ eventsAt address log, e.treeId = e'.treeId := by
    intro e he e' he'
    rw [eventsAt, List.mem_filter, decide_eq_true_eq] at he he'
    exact h e he.1 e' he'.1 (he.2.trans he'.2.symm)
  cases hevents : eventsAt address log with
  | nil => simp
  | cons e es =>
      rw [hevents] at hsame
      by_cases htree : e.treeId = treeId
      · have hall : (e :: es).filter (fun e => e.treeId = treeId) = e :: es :=
          List.filter_eq_self.2 fun e' he' =>
            decide_eq_true ((hsame e' he' e List.mem_cons_self).trans htree)
        rw [hall]
        exact ⟨fun hlive => ⟨hlive, htree⟩, fun hlive => hlive.1⟩
      · have hnone : (e :: es).filter (fun e => e.treeId = treeId) = [] :=
          List.filter_eq_nil_iff.2 fun e' he' hdec =>
            htree ((hsame e List.mem_cons_self e' he').trans (of_decide_eq_true hdec))
        rw [hnone]
        exact ⟨fun hlive => (by cases hlive), fun hlive => absurd hlive.2 htree⟩

/-- The lists of the trees partition the counted tables. -/
theorem countP_eq_sum {log : List TableInfo} (h : OneTreeEach log)
    (ord : U16 → IterOrder U64 Bool) :
    (visitAll ∅ log).entries.countP Sigma.snd = ∑ i : Fin (2 ^ 16),
      (liveAddresses (ord (.ofFin i)) (visitTree (.ofFin i) ∅ log)).length := by
  have hall := nodup_liveAddresses .stored (visitAll ∅ log)
  have hfiber : ∀ i : Fin (2 ^ 16),
      (liveAddresses (ord (.ofFin i)) (visitTree (.ofFin i) ∅ log)).toFinset =
        (liveAddresses .stored (visitAll ∅ log)).toFinset.filter fun address =>
          (treeOf log address).toFin = i := by
    intro i
    ext address
    rw [Finset.mem_filter, List.mem_toFinset, List.mem_toFinset, mem_liveAddresses,
      mem_liveAddresses, lookup_visitTree_iff h]
    refine and_congr_right fun _ => ⟨fun htree => ?_, fun htree => ?_⟩
    · rw [htree]
    · rw [← htree]
  rw [← length_liveAddresses .stored, ← List.toFinset_card_of_nodup hall,
    Finset.card_eq_sum_card_fiberwise fun address _ =>
      Finset.mem_coe.2 (Finset.mem_univ (treeOf log address).toFin)]
  refine Finset.sum_congr rfl fun i _ => ?_
  rw [← hfiber, List.toFinset_card_of_nodup (nodup_liveAddresses _ _)]

/-! ## Both functions -/

/-- Counting and listing fail alike. Where they succeed and no address is used by two trees, the
count is the sum of the lengths of the lists, whatever the orders of the maps. -/
theorem countLiveIndexBlocks_agrees (prof : Profile) (config : TBConfig) (file : DataFile)
    (info : SuperblockInfo) (fuel : ℕ) :
    (∀ ord treeId,
      (collectIndexBlocksForTree prof ord config file info treeId fuel >>= fun _ => .ok ()) =
        (countLiveIndexBlocks prof config file info fuel >>= fun _ => .ok ())) ∧
    ∀ n, countLiveIndexBlocks prof config file info fuel = .ok n →
      (∀ blocks, BlocksRead prof config file info.manifestNewestAddress blocks →
        OneTreeEach blocks.flatten) →
      ∀ ord : U16 → IterOrder U64 Bool, ∃ lists : U16 → List U64,
        (∀ treeId, collectIndexBlocksForTree prof (ord treeId) config file info treeId fuel =
          .ok (lists treeId)) ∧
        n = ∑ i : Fin (2 ^ 16), (lists (.ofFin i)).length := by
  unfold collectIndexBlocksForTree countLiveIndexBlocks
  rcases walkLog_visits prof config file info fuel with ⟨blocks, hblocks, hwalk⟩ |
    ⟨failure, hne, hwalk⟩
  · refine ⟨fun ord treeId => by rw [hwalk, hwalk]; rfl, fun n hn hone ord => ?_⟩
    rw [hwalk, Outcome.ok_bind] at hn
    have hlog : OneTreeEach blocks.flatten := by
      rcases hblocks with rfl | hread
      · exact fun e he => absurd he List.not_mem_nil
      · exact hone blocks hread
    refine ⟨fun treeId => liveAddresses (ord treeId) (blocks.foldl (visitTree treeId) ∅),
      fun treeId => by rw [hwalk]; rfl, ?_⟩
    rw [← Outcome.ok.inj hn, foldl_visitAll, countP_eq_sum hlog ord]
    simp only [foldl_visitTree]
  · simp only [hwalk]
    cases failure with
    | ok seen => exact absurd rfl (hne seen)
    | err e => exact ⟨fun _ _ => rfl, fun _ h => (by cases h)⟩
    | panic => exact ⟨fun _ _ => rfl, fun _ h => (by cases h)⟩
    | running => exact ⟨fun _ _ => rfl, fun _ h => (by cases h)⟩

/-- One manifest block with a table of accounts and a table of transfers. -/
def twoTreesFile : DataFile where
  bytes := sparse 512
    [(97, 2), (114, 20), (168, 2), (224, 1), (240, 3), (352, 5), (380, 7), (382, 0x40),
      (480, 6), (508, 18), (510, 0x40)]
  length_lt := by
    rw [length_sparse]
    decide

theorem twoTreesFile_read :
    readBlock .debug smallBlocks twoTreesFile 1 =
      .ok (0, [⟨5, accountObjectsTreeId, .insert⟩, ⟨6, transferObjectsTreeId, .insert⟩]) := by
  decide +kernel

theorem countLiveIndexBlocks_agrees_twoTrees :
    countLiveIndexBlocks .debug smallBlocks twoTreesFile oneBlockInfo 2 = .ok 2 ∧
      ∃ lists : U16 → List U64,
        (∀ treeId, collectIndexBlocksForTree .debug .stored smallBlocks twoTreesFile oneBlockInfo
          treeId 2 = .ok (lists treeId)) ∧
        2 = ∑ i : Fin (2 ^ 16), (lists (.ofFin i)).length := by
  have hcount : countLiveIndexBlocks .debug smallBlocks twoTreesFile oneBlockInfo 2 = .ok 2 := by
    decide +kernel
  have hone : ∀ blocks, BlocksRead .debug smallBlocks twoTreesFile 1 blocks →
      OneTreeEach blocks.flatten := by
    intro blocks hblocks
    cases hblocks with
    | cons _ hread hrest =>
        rw [twoTreesFile_read] at hread
        cases hread
        cases hrest with
        | nil =>
            rw [OneTreeEach]
            decide
        | cons hne => exact absurd rfl hne
  exact ⟨hcount, (countLiveIndexBlocks_agrees .debug smallBlocks twoTreesFile oneBlockInfo 2).2 2
    hcount hone fun _ => .stored⟩

end TbManager.Manifest
