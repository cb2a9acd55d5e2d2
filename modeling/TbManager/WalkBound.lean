import TbManager.ManifestWalk

/-!
# The bound of the manifest walk

Both walks of the manifest log return, and only succeed on a chain of valid blocks that is no
longer than the superblock says, exactly where the guard of the loop does not overflow, all
addresses that are followed have an offset, and the chain does not have one block more than the
superblock says.
-/

namespace TbManager.Manifest

section Bound

variable (config : TBConfig) (file : DataFile) (info : SuperblockInfo)

/-- The chain of valid blocks from the newest one on ends after at most that many blocks as the
superblock says. -/
def EndsInTime : Prop :=
  ∃ blocks, Chain file config info.manifestNewestAddress blocks ∧
    blocks.length ≤ info.manifestBlockCount.toNat

/-- The walk returns, without an error only if the chain ends in time, and with an error if the
chain is longer. -/
structure BoundedWalk {α : Type} (run : ℕ → Outcome ReaderError α) : Prop where
  returns : ∃ r : Except ReaderError α, Outcome.Returns run (.ofExcept r)
  ok_only : ∀ a, Outcome.Returns run (.ok a) → EndsInTime config file info
  longer : ChainLonger config file info.manifestBlockCount.toNat info.manifestNewestAddress →
    ∃ e, Outcome.Returns run (.err e)

def BoundedBySuperblock : Prop :=
  ∀ prof, (∀ ord treeId, BoundedWalk config file info
      (collectIndexBlocksForTree prof ord config file info treeId)) ∧
    BoundedWalk config file info (countLiveIndexBlocks prof config file info)

/-- There is no newest block. Otherwise the superblock counts some block, the buffer and all
addresses that are followed are in range, and the chain does not have one block more than the
superblock counts. -/
def WalkWithin : Prop :=
  info.manifestNewestAddress = 0 ∨
    info.manifestBlockCount ≠ 0 ∧ config.blockSize.toNat < 2 ^ 63 ∧
      WalkAddressed config file info ∧
      ∀ blocks, Chain file config info.manifestNewestAddress blocks →
        blocks.length ≠ info.manifestBlockCount.toNat + 1

end Bound

variable {config : TBConfig} {file : DataFile} {info : SuperblockInfo} {address : U64}
  {blocks : List (List TableInfo)}

theorem storedManifest_eq_some {block : List U8} {r : U64 × List TableInfo}
    (hblock : file.blockAt config address = some block) (hparse : parseBlock address block = .ok r) :
    storedManifest config file address = some r := by
  rw [storedManifest, hblock, Option.bind_some, hparse]

theorem Chain.unique (h : Chain file config address blocks) {blocks' : List (List TableInfo)}
    (h' : Chain file config address blocks') : blocks = blocks' := by
  induction h generalizing blocks' with
  | nil => exact (eq_nil_of_address_zero h').symm
  | cons hblock hparse hrest ih =>
      cases h' with
      | nil => exact absurd rfl (address_ne_zero hblock)
      | cons hblock' hparse' hrest' =>
          rw [hblock, Option.some.injEq] at hblock'
          subst hblock'
          rw [hparse, Outcome.ok.injEq, Prod.mk.injEq] at hparse'
          obtain ⟨rfl, rfl⟩ := hparse'
          rw [ih hrest']

theorem ChainLonger.lt_length {n : ℕ} (h : ChainLonger config file n address)
    (hchain : Chain file config address blocks) : n < blocks.length := by
  induction n generalizing address blocks with
  | zero =>
      cases hchain with
      | nil => exact absurd rfl h
      | cons => exact Nat.succ_pos _
  | succ n ih =>
      obtain ⟨hne, r, hstored, hlonger⟩ := h
      cases hchain with
      | nil => exact absurd rfl hne
      | cons hblock hparse hrest =>
          rw [storedManifest_eq_some hblock hparse, Option.some.injEq] at hstored
          subst hstored
          exact Nat.succ_lt_succ (ih hlonger hrest)

/-! ## Walks that are bounded -/

section Walks

variable {α : Type} {prof : Profile} {visit : HashMap U64 Bool → List TableInfo → HashMap U64 Bool}
  {k : HashMap U64 Bool → α}

theorem returns_walkLog_guard (prof : Profile)
    (visit : HashMap U64 Bool → List TableInfo → HashMap U64 Bool)
    (hsize : config.blockSize.toNat < 2 ^ 63) (hlog : HasLog info) (hrange : CountInRange info)
    (hchain : Chain file config info.manifestNewestAddress blocks)
    (hlength : blocks.length ≤ info.manifestBlockCount.toNat + 1) :
    Outcome.Returns (walkLog prof config file info visit) (.ok (blocks.foldl visit ∅)) := by
  refine ⟨blocks.length + 1, fun fuel hfuel => ?_⟩
  obtain ⟨extra, rfl⟩ := Nat.exists_eq_add_of_le hfuel
  rw [walkLog_of_hasLog prof hsize hlog]
  exact walk_chain prof hrange visit hchain extra 0 ∅ ((Nat.zero_add _).trans_le hlength)

def walkThen (prof : Profile) (config : TBConfig) (file : DataFile) (info : SuperblockInfo)
    (visit : HashMap U64 Bool → List TableInfo → HashMap U64 Bool) (k : HashMap U64 Bool → α)
    (fuel : ℕ) : Outcome ReaderError α :=
  walkLog prof config file info visit fuel >>= fun seen => .ok (k seen)

theorem returns_walkThen {seen : HashMap U64 Bool}
    (h : Outcome.Returns (walkLog prof config file info visit) (.ok seen)) :
    Outcome.Returns (walkThen prof config file info visit k) (.ok (k seen)) :=
  h.bind (Outcome.returns_const _)

theorem BoundedWalk.of_err {run : ℕ → Outcome ReaderError α} {e : ReaderError}
    (h : Outcome.Returns run (.err e)) : BoundedWalk config file info run where
  returns := ⟨.error e, h⟩
  ok_only a ha := by cases h.unique ha
  longer _ := ⟨e, h⟩

theorem BoundedWalk.of_ok {run : ℕ → Outcome ReaderError α} {a : α}
    (h : Outcome.Returns run (.ok a)) (hends : EndsInTime config file info) :
    BoundedWalk config file info run where
  returns := ⟨.ok a, h⟩
  ok_only _ _ := hends
  longer hlonger := by
    obtain ⟨blocks, hchain, hlength⟩ := hends
    exact absurd (hlonger.lt_length hchain) (not_lt.2 hlength)

theorem BoundedWalk.not_panic {run : ℕ → Outcome ReaderError α}
    (h : BoundedWalk config file info run) : ¬ Outcome.Returns run .panic := by
  intro hpanic
  obtain ⟨r, hr⟩ := h.returns
  cases r with
  | ok a => cases hr.unique hpanic
  | error e => cases hr.unique hpanic

theorem boundedWalk_of_within (h : WalkWithin config file info) (prof : Profile)
    (visit : HashMap U64 Bool → List TableInfo → HashMap U64 Bool) (k : HashMap U64 Bool → α) :
    BoundedWalk config file info (walkThen prof config file info visit k) := by
  by_cases hnull : info.manifestNewestAddress = 0
  · have hlog : ¬ HasLog info := fun hlog => hlog.1 hnull
    have hreturns := @returns_walkLog_of_not_hasLog config file info prof hlog visit
    refine .of_ok (returns_walkThen hreturns) ⟨[], ?_, Nat.zero_le _⟩
    rw [hnull]
    exact Chain.nil
  · obtain ⟨hcount, hsize, haddressed, hlength⟩ := h.resolve_left hnull
    rcases walkLog_cases file hsize ⟨hnull, hcount⟩ haddressed with
      ⟨blocks, hchain, hle, hreturns⟩ | ⟨e, hreturns⟩
    · have hne := hlength blocks hchain
      exact .of_ok (returns_walkThen (hreturns prof visit)) ⟨blocks, hchain, by omega⟩
    · exact .of_err (hreturns prof visit).bind_err

theorem within_of_boundedWalk {visit : HashMap U64 Bool → List TableInfo → HashMap U64 Bool}
    {k : HashMap U64 Bool → α}
    (h : ∀ prof, BoundedWalk config file info (walkThen prof config file info visit k)) :
    WalkWithin config file info := by
  by_cases hnull : info.manifestNewestAddress = 0
  · exact .inl hnull
  · have hcount : info.manifestBlockCount ≠ 0 := by
      intro hzero
      have hlog : ¬ HasLog info := fun hlog => hlog.2 hzero
      have hreturns := @returns_walkLog_of_not_hasLog config file info .debug hlog visit
      obtain ⟨blocks, hchain, hlength⟩ := (h .debug).ok_only _ (returns_walkThen hreturns)
      rw [hzero] at hlength
      rw [List.length_eq_zero_iff.1 (Nat.le_zero.1 hlength)] at hchain
      generalize info.manifestNewestAddress = newest at hchain hnull
      cases hchain
      exact hnull rfl
    have hnopanic : ¬ Outcome.Returns (walkLog .debug config file info visit) .panic :=
      fun hpanic => (h .debug).not_panic hpanic.bind_panic
    have hsize : config.blockSize.toNat < 2 ^ 63 := by
      by_contra hlarge
      refine hnopanic ⟨0, fun fuel _ => ?_⟩
      rw [walkLog, if_neg (not_or.2 ⟨hnull, hcount⟩), allocate, if_neg hlarge]
      rfl
    have haddressed : WalkAddressed config file info := by
      by_contra hbad
      exact hnopanic (walkLog_panic hsize ⟨hnull, hcount⟩ hbad visit)
    refine .inr ⟨hcount, hsize, haddressed, fun blocks hchain hlength => ?_⟩
    have hrange : CountInRange info := Nat.lt_sub_of_add_lt haddressed.bound
    have hreturns := returns_walkLog_guard .debug visit hsize ⟨hnull, hcount⟩ hrange hchain
      hlength.le
    obtain ⟨blocks', hchain', hlength'⟩ := (h .debug).ok_only _ (returns_walkThen hreturns)
    rw [hchain.unique hchain'] at hlength
    omega

end Walks

/-- Both walks are bounded by the superblock exactly where the chain is within reach of the guard
and does not have one block too many. -/
theorem boundedBySuperblock_iff (config : TBConfig) (file : DataFile) (info : SuperblockInfo) :
    BoundedBySuperblock config file info ↔ WalkWithin config file info := by
  constructor
  · intro h
    exact within_of_boundedWalk fun prof => (h prof).2
  · intro h prof
    refine ⟨fun ord treeId => ?_, ?_⟩
    · exact boundedWalk_of_within h prof (visitTree treeId) (liveAddresses ord)
    · exact boundedWalk_of_within h prof visitAll _

/-! ## One block too many -/

def extraBlockFile : DataFile where
  bytes := sparse 1030
    [(97, 2), (114, 20), (160, 2), (224, 1), (240, 3), (609, 2), (626, 20), (736, 2), (752, 3)]
  length_lt := by
    rw [length_sparse]
    omega

theorem extraBlockFile_chain :
    Chain extraBlockFile smallBlocks oneBlockInfo.manifestNewestAddress [[], []] := by
  refine @Chain.cons _ _ _ 2 (extraBlockFile.bytes.take 512) [] _ (by decide +kernel)
    (by decide +kernel) ?_
  exact @Chain.cons _ _ _ 0 ((extraBlockFile.bytes.drop 512).take 512) [] _ (by decide +kernel)
    (by decide +kernel) Chain.nil

/-- The superblock counts one block, but both walks return after two. -/
theorem extraBlock_not_bounded :
    (∀ prof ord treeId, Outcome.Returns
      (collectIndexBlocksForTree prof ord smallBlocks extraBlockFile oneBlockInfo treeId)
        (.ok (liveAddresses ord ∅))) ∧
    (∀ prof, Outcome.Returns (countLiveIndexBlocks prof smallBlocks extraBlockFile oneBlockInfo)
      (.ok 0)) ∧
    ¬ EndsInTime smallBlocks extraBlockFile oneBlockInfo ∧
    ¬ BoundedBySuperblock smallBlocks extraBlockFile oneBlockInfo := by
  have hreturns : ∀ prof visit, Outcome.Returns
      (walkLog prof smallBlocks extraBlockFile oneBlockInfo visit)
        (.ok ([[], []].foldl visit ∅)) := fun prof visit =>
    returns_walkLog_guard prof visit (by decide) ⟨by decide, by decide⟩ (by decide)
      extraBlockFile_chain le_rfl
  have hcollect : ∀ prof ord treeId, Outcome.Returns
      (collectIndexBlocksForTree prof ord smallBlocks extraBlockFile oneBlockInfo treeId)
        (.ok (liveAddresses ord ∅)) := fun prof ord treeId =>
    (hreturns prof (visitTree treeId)).bind (Outcome.returns_const _)
  have hcount : ∀ prof, Outcome.Returns
      (countLiveIndexBlocks prof smallBlocks extraBlockFile oneBlockInfo) (.ok 0) := fun prof =>
    (hreturns prof visitAll).bind (Outcome.returns_const _)
  have hlate : ¬ EndsInTime smallBlocks extraBlockFile oneBlockInfo := by
    rintro ⟨blocks, hchain, hlength⟩
    rw [← extraBlockFile_chain.unique hchain] at hlength
    exact absurd hlength (by decide)
  exact ⟨hcollect, hcount, hlate, fun h => hlate ((h .debug).2.ok_only 0 (hcount .debug))⟩

end TbManager.Manifest
