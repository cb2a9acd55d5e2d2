import Mathlib

/-!
# Paging by the last item

A growing listing in a strict order is read in pages: each page takes the first
items after the last one of the page before. Where a page is full, what is left
after it is what was left before it without the page, in every later view.
-/

namespace TbManager.SeekPaging

variable {α : Type*} (r : α → α → Prop)

/-- The views of one listing, each the beginning of the next. -/
structure Grows (views : ℕ → List α) : Prop where
  sorted : ∀ n, (views n).Pairwise r
  grows : ∀ n, views n <+: views (n + 1)

variable {r} {views : ℕ → List α} {last : Option α} {x y : α} {n m limit : ℕ}

theorem Grows.mono (h : Grows r views) (hnm : n ≤ m) : views n <+: views m := by
  induction m, hnm using Nat.le_induction with
  | base => exact List.prefix_rfl
  | succ m _ ih => exact ih.trans (h.grows m)

variable [DecidableRel r]

variable (r) in
def remaining (last : Option α) (view : List α) : List α :=
  match last with
  | none => view
  | some x => view.filter fun y => r x y

theorem Grows.remaining_mono (h : Grows r views) (last : Option α) (hnm : n ≤ m) :
    remaining r last (views n) <+: remaining r last (views m) := by
  cases last with
  | none => exact h.mono hnm
  | some x => exact (h.mono hnm).filter _

theorem Grows.remaining_sorted (h : Grows r views) (last : Option α) (n : ℕ) :
    (remaining r last (views n)).Pairwise r := by
  cases last with
  | none => exact h.sorted n
  | some x => exact (h.sorted n).filter _

theorem mem_of_mem_remaining {view : List α} (h : y ∈ remaining r last view) : y ∈ view := by
  cases last with
  | none => exact h
  | some x => exact List.mem_of_mem_filter h

/-- In a strict order the items after the last one of the first `n` are the others. -/
theorem filter_last_take [Std.Asymm r] {xs : List α} (h : xs.Pairwise r)
    (hlast : (xs.take n).getLast? = some y) : xs.filter (fun z => r y z) = xs.drop n := by
  obtain ⟨init, htake⟩ := List.getLast?_eq_some_iff.1 hlast
  have hsplit : xs = (init ++ [y]) ++ xs.drop n := by rw [← htake, List.take_append_drop]
  rw [hsplit] at h
  obtain ⟨hpage, _, hacross⟩ := List.pairwise_append.1 h
  have hbefore : (init ++ [y]).filter (fun z => r y z) = [] := by
    refine List.filter_eq_nil_iff.2 fun z hz => ?_
    rw [decide_eq_true_eq]
    rcases List.mem_append.1 hz with hinit | hself
    · exact Std.Asymm.asymm z y ((List.pairwise_append.1 hpage).2.2 z hinit y (by simp))
    · rw [List.mem_singleton.1 hself]
      exact fun hyy => Std.Asymm.asymm y y hyy hyy
  have hafter : (xs.drop n).filter (fun z => r y z) = xs.drop n := by
    refine List.filter_eq_self.2 fun z hz => ?_
    rw [decide_eq_true_eq]
    exact hacross y (by simp) z hz
  conv_lhs => rw [hsplit]
  rw [List.filter_append, hbefore, List.nil_append, hafter]

theorem remaining_of_mem [IsTrans α r] {view : List α} (hy : y ∈ remaining r last view)
    (view' : List α) :
    remaining r (some y) view' = (remaining r last view').filter fun z => r y z := by
  cases last with
  | none => rfl
  | some x =>
      have hxy : r x y := by simpa using (List.mem_filter.1 hy).2
      unfold remaining
      rw [List.filter_filter]
      refine List.filter_congr fun z _ => ?_
      rw [← Bool.decide_and, decide_eq_decide]
      exact ⟨fun hyz => ⟨hyz, IsTrans.trans _ _ _ hxy hyz⟩, And.left⟩

theorem Grows.remaining_full [Std.Asymm r] [IsTrans α r] (h : Grows r views) (hnm : n ≤ m)
    (hfull : limit ≤ (remaining r last (views n)).length)
    (hlast : ((remaining r last (views n)).take limit).getLast? = some y) :
    remaining r last (views m) = (remaining r last (views n)).take limit ++
      remaining r (some y) (views m) := by
  have htake : (remaining r last (views m)).take limit =
      (remaining r last (views n)).take limit := by
    obtain ⟨more, hmore⟩ := h.remaining_mono last hnm
    rw [← hmore, List.take_append_of_le_length hfull]
  have hmem : y ∈ remaining r last (views n) := List.mem_of_mem_take (List.mem_of_getLast? hlast)
  rw [remaining_of_mem hmem,
    filter_last_take (h.remaining_sorted last m) (n := limit) (by rw [htake, hlast]),
    ← htake, List.take_append_drop]

end TbManager.SeekPaging
