import TbManager.LsmPages
import TbManager.WalIter

/-!
# Errors under paging

An error is an item of an iterator, and the end of the items comes after it. A page
that skips it, or that stops before it, shows what an exhausted iterator would show.
-/

namespace TbManager

open Manifest

/-! ## The item of an error -/

namespace Outcome

universe u

variable {ε α σ : Type u} {next : σ → Outcome ε (Option (Except ε α) × σ)} {st : σ} {k : ℕ}

/-- Item number `k`, counted from 0, is an error. -/
def ErrsAt (next : σ → Outcome ε (Option (Except ε α) × σ)) (st : σ) (k : ℕ) : Prop :=
  ∃ rs e, nextCalls next (k + 1) st = .ok rs ∧ rs[k]? = some (some (.error e))

theorem errsAt_zero (h : ErrsAt next st 0) : ∃ e st', next st = .ok (some (.error e), st') := by
  obtain ⟨rs, e, hcalls, hk⟩ := h
  obtain ⟨⟨x, st'⟩, hnext, hrest⟩ := bind_eq_ok_iff.1 hcalls
  obtain ⟨rest, -, hrs⟩ := bind_eq_ok_iff.1 hrest
  cases hrs
  rw [List.getElem?_cons_zero, Option.some.injEq] at hk
  exact ⟨e, st', hk ▸ hnext⟩

theorem errsAt_succ (h : ErrsAt next st (k + 1)) :
    ∃ x st', next st = .ok (x, st') ∧ ErrsAt next st' k := by
  obtain ⟨rs, e, hcalls, hk⟩ := h
  obtain ⟨⟨x, st'⟩, hnext, hcalls⟩ := bind_eq_ok_iff.1 hcalls
  obtain ⟨rest, hrest, hrs⟩ := bind_eq_ok_iff.1 hcalls
  cases hrs
  rw [List.getElem?_cons_succ] at hk
  exact ⟨x, st', hnext, rest, e, hrest, hk⟩

end Outcome

section Page

variable {ε α : Type}

theorem mapM_eq_error_iff {xs : List (Except ε α)} :
    (∃ e, xs.mapM id = .error e) ↔ ∃ e, .error e ∈ xs := by
  induction xs with
  | nil => simp [pure, Except.pure]
  | cons x xs ih =>
      rw [List.mapM_cons]
      cases x with
      | error e => exact ⟨fun _ => ⟨e, List.mem_cons_self⟩, fun _ => ⟨e, rfl⟩⟩
      | ok a =>
          have hcons : (∃ e, (.error e : Except ε α) ∈ (.ok a :: xs)) ↔ ∃ e, .error e ∈ xs := by
            simp
          rw [hcons, ← ih]
          cases xs.mapM id with
          | error e => exact ⟨fun _ => ⟨e, rfl⟩, fun _ => ⟨e, rfl⟩⟩
          | ok as =>
              constructor
              · rintro ⟨e, he⟩
                cases he
              · rintro ⟨e, he⟩
                cases he

theorem error_mem_page_iff {as : List α} {e : ε} {n limit : ℕ} :
    (∃ e', (Except.error e' : Except ε α) ∈
        ((as.map Except.ok ++ [Except.error e]).drop n).take limit) ↔
      n ≤ as.length ∧ as.length < n + limit := by
  have hlast : ∀ i e', (as.map Except.ok ++ [.error e])[i]? = some (.error e' : Except ε α) →
      i = as.length := by
    intro i e' hi
    rw [List.getElem?_append] at hi
    split_ifs at hi with hlt
    · rw [List.getElem?_map, Option.map_eq_some_iff] at hi
      obtain ⟨a, -, ha⟩ := hi
      cases ha
    · rw [List.length_map] at hlt hi
      have hzero := (List.getElem?_eq_some_iff.1 hi).1
      rw [List.length_singleton] at hzero
      omega
  constructor
  · rintro ⟨e', hmem⟩
    obtain ⟨i, hi⟩ := List.mem_iff_getElem?.1 hmem
    rw [List.getElem?_take, List.getElem?_drop] at hi
    split_ifs at hi with hlt
    have hat := hlast _ _ hi
    omega
  · rintro ⟨hle, hlt⟩
    refine ⟨e, List.mem_iff_getElem?.2 ⟨as.length - n, ?_⟩⟩
    rw [List.getElem?_take, if_pos (by omega), List.getElem?_drop, Nat.add_sub_cancel' hle,
      List.getElem?_append_right (by rw [List.length_map]), List.length_map, Nat.sub_self]
    rfl

end Page

namespace Reading

variable {ε α σ : Type} {next : σ → Outcome ε (Option (Except ε α) × σ)}
  {R : σ → Reading ε α → Prop} {st : σ} {r : Reading ε α} {k : ℕ}

theorem Simulates.not_errsAt_nil (hsim : Simulates next R) (hR : R st nil) :
    ¬ Outcome.ErrsAt next st k := by
  induction k generalizing st with
  | zero =>
      intro h
      obtain ⟨e, st', hnext⟩ := Outcome.errsAt_zero h
      have htakes := hsim st nil hR
      rw [hnext] at htakes
      cases htakes
  | succ k ih =>
      intro h
      obtain ⟨x, st', hnext, hrest⟩ := Outcome.errsAt_succ h
      have htakes := hsim st nil hR
      rw [hnext] at htakes
      cases htakes with
      | finish h => exact ih h hrest

theorem Simulates.reading_of_errsAt (hsim : Simulates next R) (hR : R st r)
    (h : Outcome.ErrsAt next st k) : ∃ e, r.stop = .err e ∧ r.items.length = k := by
  obtain ⟨items, stop⟩ := r
  induction k generalizing st items with
  | zero =>
      obtain ⟨e, st', hnext⟩ := Outcome.errsAt_zero h
      have htakes := hsim st _ hR
      rw [hnext] at htakes
      cases htakes with
      | fail h => exact ⟨e, rfl, rfl⟩
  | succ k ih =>
      obtain ⟨x, st', hnext, hrest⟩ := Outcome.errsAt_succ h
      have htakes := hsim st _ hR
      rw [hnext] at htakes
      cases htakes with
      | @item a as _ _ h =>
          obtain ⟨e, hstop, hlength⟩ := ih hrest as h
          exact ⟨e, hstop, congrArg (· + 1) hlength⟩
      | finish h => exact absurd hrest (hsim.not_errsAt_nil h)
      | fail h => exact absurd hrest (hsim.not_errsAt_nil h)

theorem Simulates.pageItems_errs_iff (hsim : Simulates next R) (hR : R st r)
    (h : Outcome.ErrsAt next st k) (n limit : ℕ) :
    (∃ e, Outcome.pageItems next n limit st = .err e) ↔ n ≤ k ∧ k < n + limit := by
  obtain ⟨e, hstop, hlength⟩ := hsim.reading_of_errsAt hR h
  have hfinished : r.stop.Finished := by
    rw [hstop]
    trivial
  have hresults : r.results = r.items.map .ok ++ [.error e] := by
    rw [results, hstop]
  rw [Outcome.pageItems_of_yields (hsim.yields hR hfinished), hresults, ← hlength,
    ← @error_mem_page_iff ε α r.items e n limit, ← mapM_eq_error_iff]
  cases List.mapM id (List.take limit (List.drop n (r.items.map Except.ok ++ [.error e]))) with
  | error e' => exact ⟨fun _ => ⟨e', rfl⟩, fun _ => ⟨e', rfl⟩⟩
  | ok as =>
      constructor
      · rintro ⟨e', he⟩
        cases he
      · rintro ⟨e', he⟩
        cases he

end Reading

/-! ## Pages of tables and of the log -/

/-- The page, as the build finds its first item, holds item number `k`. -/
def OnPage (prof : Profile) (page limit : U64) (k : ℕ) : Prop :=
  ∃ skipped, prof.mul page limit = some skipped ∧
    skipped.toNat ≤ k ∧ k < skipped.toNat + limit.toNat

section Pages

variable {α : Type} {prof : Profile} {config : TBConfig} {file : DataFile}
  {page limit : U64} {k : ℕ}

/-- Before the end of a page whose first item is computed without overflow, the error is on the
page unless it is before it. -/
theorem onPage_iff (hfits : page.toNat * limit.toNat < 2 ^ 64)
    (hk : k < (page.toNat + 1) * limit.toNat) :
    OnPage prof page limit k ↔ page.toNat * limit.toNat ≤ k := by
  have htoNat : (page * limit).toNat = page.toNat * limit.toNat := BitVec.toNat_mul_of_lt hfits
  rw [Nat.add_one_mul] at hk
  unfold OnPage
  rw [prof.mul_of_lt hfits]
  constructor
  · rintro ⟨skipped, hskipped, hle, -⟩
    rwa [← htoNat, Option.some.inj hskipped]
  · intro hle
    exact ⟨_, rfl, htoNat ▸ hle, htoNat ▸ hk⟩

/-- The common end of all paged reads. -/
theorem skipped_errs_iff {σ : Type}
    {next : σ → Outcome ReaderError (Option (Except ReaderError α) × σ)}
    {R : σ → Reading ReaderError α → Prop} {st : σ} {r : Reading ReaderError α}
    (hsim : Reading.Simulates next R) (hR : R st r) (h : Outcome.ErrsAt next st k) :
    (∃ e, (Outcome.ofOption (prof.mul page limit) >>= fun skipped =>
        Outcome.pageItems next skipped.toNat limit.toNat st) = .err e) ↔
      OnPage prof page limit k := by
  unfold OnPage
  cases prof.mul page limit with
  | none =>
      constructor
      · rintro ⟨e, he⟩
        cases he
      · rintro ⟨skipped, hskipped, -⟩
        cases hskipped
  | some skipped =>
      rw [Outcome.ofOption_some, Outcome.ok_bind, hsim.pageItems_errs_iff hR h]
      simp only [Option.some.injEq, exists_eq_left']

variable [TBObject α]

theorem inBlock_of_iterObjects {treeId : U16} {ord : IterOrder U64 Bool} {fuel : ℕ}
    {it : ObjectIter} (h : iterObjects prof config file treeId ord fuel = .ok it) :
    it.InBlock := by
  have hnew : ∀ addrs, ObjectIter.new config addrs = .ok it → it.InBlock := by
    intro addrs hit
    obtain ⟨-, -, hit⟩ := Outcome.bind_eq_ok_iff.1 hit
    cases hit
    exact ⟨Nat.le_refl 0, fun hlt => absurd hlt (Nat.lt_irrefl 0)⟩
  obtain ⟨sb, -, h⟩ := Outcome.bind_eq_ok_iff.1 h
  split_ifs at h with hcount hsequence
  · exact hnew [] h
  · obtain ⟨addrs, -, h⟩ := Outcome.bind_eq_ok_iff.1 h
    exact hnew addrs h

theorem readLsmPage_errs_iff {treeId : U16} {ord : IterOrder U64 Bool} {it : ObjectIter}
    (hopen : Outcome.Returns (iterObjects prof config file treeId ord) (.ok it))
    (h : Outcome.ErrsAt (ObjectIter.next (α := α) prof config file) it k) :
    (∃ e, Outcome.Returns (readLsmPage (α := α) prof config file treeId ord page limit)
      (.err e)) ↔ OnPage prof page limit k := by
  obtain ⟨n, hn⟩ := hopen
  have hbody := inBlock_of_iterObjects (hn n le_rfl)
  rw [← skipped_errs_iff (ObjectIter.next_simulates (α := α) prof config file) ⟨hbody, rfl⟩ h]
  have hread : Outcome.Returns (readLsmPage (α := α) prof config file treeId ord page limit)
      (.ofOption (prof.mul page limit) >>= fun skipped =>
        Outcome.pageItems (ObjectIter.next prof config file) skipped.toNat limit.toNat it) := by
    refine ⟨n, fun fuel hfuel => ?_⟩
    rw [readLsmPage, hn fuel hfuel]
    rfl
  constructor
  · rintro ⟨e, he⟩
    exact ⟨e, hread.unique he⟩
  · rintro ⟨e, he⟩
    exact ⟨e, he ▸ hread⟩

theorem readWalPage_errs_iff [WalObject α] {it : WalObjectIter}
    (hopen : iterWalObjects prof config file = .ok it)
    (h : Outcome.ErrsAt (WalObjectIter.next (α := α) prof config file) it k) :
    (∃ e, readWalPage (α := α) prof config file page limit = .err e) ↔
      OnPage prof page limit k := by
  have hnew : it.InBody ∧ it.slot ≤ config.journalSlotCount.toNat := by
    obtain ⟨sb, -, hit⟩ := Outcome.bind_eq_ok_iff.1 hopen
    cases hit
    exact ⟨⟨Nat.le_refl 0, Nat.le_refl 0⟩, Nat.zero_le _⟩
  rw [readWalPage, hopen, Outcome.ok_bind]
  exact skipped_errs_iff (WalObjectIter.next_simulates (α := α) prof config file) ⟨hnew, rfl⟩ h

end Pages

/-- An error before the end of a page is returned exactly when it is on the page; if the page's
first item is computed without overflow, exactly when no item of an earlier page fails. -/
theorem pagedRead_errs_iff (prof : Profile) (config : TBConfig) (file : DataFile)
    (page limit : U64) (k : ℕ) (hk : k < (page.toNat + 1) * limit.toNat) :
    (∀ ord it, Outcome.Returns (iterAccounts prof config file ord) (.ok it) →
      Outcome.ErrsAt (ObjectIter.next (α := Account) prof config file) it k →
        ((∃ e, Outcome.Returns (readLsmAccounts prof config file ord page limit) (.err e)) ↔
          OnPage prof page limit k)) ∧
    (∀ ord it, Outcome.Returns (iterTransfers prof config file ord) (.ok it) →
      Outcome.ErrsAt (ObjectIter.next (α := Transfer) prof config file) it k →
        ((∃ e, Outcome.Returns (readLsmTransfers prof config file ord page limit) (.err e)) ↔
          OnPage prof page limit k)) ∧
    (∀ it, iterWalAccounts prof config file = .ok it →
      Outcome.ErrsAt (WalObjectIter.next (α := Account) prof config file) it k →
        ((∃ e, readWalAccounts prof config file page limit = .err e) ↔
          OnPage prof page limit k)) ∧
    (∀ it, iterWalTransfers prof config file = .ok it →
      Outcome.ErrsAt (WalObjectIter.next (α := Transfer) prof config file) it k →
        ((∃ e, readWalTransfers prof config file page limit = .err e) ↔
          OnPage prof page limit k)) ∧
    (page.toNat * limit.toNat < 2 ^ 64 →
      (OnPage prof page limit k ↔ page.toNat * limit.toNat ≤ k)) :=
  ⟨fun _ _ hopen h => readLsmPage_errs_iff hopen h,
    fun _ _ hopen h => readLsmPage_errs_iff hopen h,
    fun _ hopen h => readWalPage_errs_iff hopen h,
    fun _ hopen h => readWalPage_errs_iff hopen h,
    fun hfits => onPage_iff hfits hk⟩

def oneSlotLog : TBConfig := { smallGrid with journalSlotCount := 1 }

/-- A superblock, and the file ends before the log. -/
def truncatedLog : DataFile where
  bytes := sparse 1536 [(40, 1)]
  length_lt := by
    rw [length_sparse]
    omega

theorem truncatedLog_errsAt : iterWalAccounts .debug oneSlotLog truncatedLog = .ok (.new 0) ∧
    Outcome.ErrsAt (WalObjectIter.next (α := Account) .debug oneSlotLog truncatedLog) (.new 0)
      0 := by
  refine ⟨by decide +kernel, [some (.error (.io
    "WAL header read slot 0: failed to fill whole buffer"))], _, ?_, rfl⟩
  decide +kernel

theorem pagedRead_errs_iff_truncatedLog :
    0 < (0 + 1) * 1 ∧
    ((∃ e, readWalAccounts .debug oneSlotLog truncatedLog 0 1 = .err e) ↔
      OnPage .debug 0 1 0) :=
  ⟨by decide, (pagedRead_errs_iff .debug oneSlotLog truncatedLog 0 1 0 (by decide)).2.2.1 _
    truncatedLog_errsAt.1 truncatedLog_errsAt.2⟩

/-- The second page skips the error and shows the end of the log. -/
theorem truncatedLog_error_hidden :
    iterWalAccounts .debug oneSlotLog truncatedLog = .ok (.new 0) ∧
    Outcome.ErrsAt (WalObjectIter.next (α := Account) .debug oneSlotLog truncatedLog) (.new 0) 0 ∧
    0 < ((1 : U64).toNat + 1) * (1 : U64).toNat ∧
    readWalAccounts .debug oneSlotLog truncatedLog 1 1 = .ok [] :=
  ⟨truncatedLog_errsAt.1, truncatedLog_errsAt.2, by decide, by decide +kernel⟩

end TbManager
