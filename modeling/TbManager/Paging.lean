import Mathlib

/-!
# Pages of a listing whose order may change between calls

A listing is the concatenation of tables. Each call for a page sees the tables in
an arrangement of its own, skips the items before the page and takes at most
`limit` items; the pages are read until the first empty one.
-/

namespace TbManager.Paging

variable {α : Type*}

def page (limit p : ℕ) (xs : List α) : List α := (xs.drop (p * limit)).take limit

def pageCount (limit total : ℕ) : ℕ := (total + limit - 1) / limit

def Reads (offset : ℕ → Option ℕ) (limit : ℕ) (listing : ℕ → List α) (p : ℕ)
    (items : List α) : Prop :=
  ∃ o, offset p = some o ∧ items = ((listing p).drop o).take limit

inductive PagesFrom (read : ℕ → List α → Prop) : ℕ → List α → Prop
  | last {p : ℕ} (h : read p []) : PagesFrom read p []
  | page {p : ℕ} {items rest : List α} (h : read p items) (hne : items ≠ [])
      (hrest : PagesFrom read (p + 1) rest) : PagesFrom read p (items ++ rest)

/-- The offset of a page is exact below a bound and wraps above it, if there is one. -/
structure Wraps (offset : ℕ → Option ℕ) (limit bound : ℕ) : Prop where
  exact : ∀ p, p * limit < bound → offset p = some (p * limit)
  wrapped : ∀ p o, bound ≤ p * limit → offset p = some o → o = p * limit % bound

/-- Whatever arrangement each call sees, the pages hold every item of the tables
as often as it is there. -/
def PagesPartition (offset : ℕ → Option ℕ) (limit : ℕ) (tables : List (List α)) : Prop :=
  ∀ arr : ℕ → List (List α), (∀ p, (arr p).Perm tables) →
    ∃ all, PagesFrom (Reads offset limit fun p => (arr p).flatten) 0 all ∧
      all.Perm tables.flatten

def PagesAgree (limit : ℕ) (tables : List (List α)) : Prop :=
  ∀ a b : List (List α), a.Perm tables → b.Perm tables →
    ∀ p, (page limit p a.flatten).Perm (page limit p b.flatten)

variable {limit p : ℕ} {xs : List α}

theorem lt_pageCount_iff (hlimit : 0 < limit) {total : ℕ} :
    p < pageCount limit total ↔ p * limit < total := by
  rw [pageCount, ← Nat.succ_le_iff, Nat.le_div_iff_mul_le hlimit, Nat.succ_mul]
  omega

theorem page_eq_nil_iff (hlimit : 0 < limit) : page limit p xs = [] ↔ xs.length ≤ p * limit := by
  unfold page
  rw [List.take_eq_nil_iff, List.drop_eq_nil_iff]
  omega

theorem flatMap_page (limit n : ℕ) (xs : List α) :
    (List.range n).flatMap (fun p => page limit p xs) = xs.take (n * limit) := by
  induction n with
  | zero => simp
  | succ n ih =>
      rw [List.range_succ, List.flatMap_append, ih, List.flatMap_singleton, Nat.succ_mul,
        List.take_add]
      rfl

section PagesFrom

variable {read : ℕ → List α → Prop} {pages : ℕ → List α} {all : List α} {n : ℕ}

/-- The pages before `n` come first, if they are determined and not empty. -/
theorem PagesFrom.split (pages : ℕ → List α)
    (hread : ∀ p < n, ∀ items, read p items → items = pages p)
    (hne : ∀ p < n, pages p ≠ []) {k : ℕ} (hk : p + k = n) (h : PagesFrom read p all) :
    ∃ rest, all = (List.range' p k).flatMap pages ++ rest ∧ PagesFrom read n rest := by
  induction k generalizing p all with
  | zero =>
      rw [Nat.add_zero] at hk
      subst p
      exact ⟨all, rfl, h⟩
  | succ k ih =>
      cases h with
      | last hlast => exact absurd (hread p (by omega) [] hlast).symm (hne p (by omega))
      | page hpage hitems hrest =>
          obtain ⟨rest, hall, hfrom⟩ := ih (by omega) hrest
          refine ⟨rest, ?_, hfrom⟩
          rw [hread p (by omega) _ hpage, hall, List.range'_succ, List.flatMap_cons,
            List.append_assoc]

theorem pagesFrom_pages (hread : ∀ p < n, read p (pages p)) (hne : ∀ p < n, pages p ≠ [])
    (hlast : read n []) {k : ℕ} (hk : p + k = n) :
    PagesFrom read p ((List.range' p k).flatMap pages) := by
  induction k generalizing p with
  | zero =>
      rw [Nat.add_zero] at hk
      subst p
      exact PagesFrom.last hlast
  | succ k ih =>
      rw [List.range'_succ, List.flatMap_cons]
      exact PagesFrom.page (hread p (by omega)) (hne p (by omega)) (ih (by omega))

theorem PagesFrom.mono {read' : ℕ → List α → Prop}
    (hread : ∀ p items, read p items → read' p items) (h : PagesFrom read p all) :
    PagesFrom read' p all := by
  induction h with
  | last hlast => exact PagesFrom.last (hread _ _ hlast)
  | page hpage hitems hrest ih => exact PagesFrom.page (hread _ _ hpage) hitems ih

theorem PagesFrom.read_of_nil (h : PagesFrom read p []) : read p [] := by
  generalize hall : ([] : List α) = all at h
  cases h with
  | last hlast => exact hlast
  | page hpage hitems hrest => exact absurd (List.append_eq_nil_iff.1 hall.symm).1 hitems

theorem not_pagesFrom (hread : ∀ p items, n ≤ p → read p items → items ≠ []) (hp : n ≤ p) :
    ¬ PagesFrom read p all := by
  intro h
  induction h with
  | last hlast => exact hread _ [] hp hlast rfl
  | page hpage hitems hrest ih => exact ih (by omega)

end PagesFrom

section Partition

variable {offset : ℕ → Option ℕ} {bound : ℕ} {tables : List (List α)}

theorem flatten_perm_length {a : List (List α)} (h : a.Perm tables) :
    a.flatten.length = tables.flatten.length := h.flatten.length_eq

/-- Without overflow the pages that are read are the pages of the listings. -/
theorem pagesFrom_iff (hoff : Wraps offset limit bound) (hlimit : 0 < limit)
    (hbound : pageCount limit tables.flatten.length * limit < bound)
    {arr : ℕ → List (List α)} (harr : ∀ p, (arr p).Perm tables) {all : List α} :
    PagesFrom (Reads offset limit fun p => (arr p).flatten) 0 all ↔
      all = (List.range (pageCount limit tables.flatten.length)).flatMap
        fun p => page limit p (arr p).flatten := by
  have hexact : ∀ p ≤ pageCount limit tables.flatten.length, offset p = some (p * limit) :=
    fun p hp => hoff.exact p ((Nat.mul_le_mul_right limit hp).trans_lt hbound)
  have hread : ∀ p ≤ pageCount limit tables.flatten.length, ∀ items,
      Reads offset limit (fun p => (arr p).flatten) p items ↔
        items = page limit p (arr p).flatten := by
    intro p hp items
    unfold Reads
    rw [hexact p hp]
    simp only [Option.some.injEq, exists_eq_left']
    rfl
  have hne : ∀ p < pageCount limit tables.flatten.length, page limit p (arr p).flatten ≠ [] := by
    intro p hp
    rw [Ne, page_eq_nil_iff hlimit, flatten_perm_length (harr p), not_le]
    exact (lt_pageCount_iff hlimit).1 hp
  have hend : page limit (pageCount limit tables.flatten.length)
      (arr (pageCount limit tables.flatten.length)).flatten = [] := by
    rw [page_eq_nil_iff hlimit, flatten_perm_length (harr _), ← not_lt,
      ← lt_pageCount_iff hlimit]
    exact lt_irrefl _
  rw [List.range_eq_range']
  constructor
  · intro h
    obtain ⟨rest, hall, hrest⟩ := h.split (fun p => page limit p (arr p).flatten)
      (fun p hp items => (hread p hp.le items).1) hne (Nat.zero_add _)
    cases hrest with
    | last hlast => rw [hall, List.append_nil]
    | page hpage hitems hrest =>
        rw [hread _ le_rfl, hend] at hpage
        exact absurd hpage hitems
  · rintro rfl
    exact pagesFrom_pages (fun p hp => (hread p hp.le _).2 rfl) hne
      ((hread _ le_rfl []).2 hend.symm) (Nat.zero_add _)

/-- The first page whose offset wraps starts before the end and shows items. -/
theorem reads_wrapped_ne_nil (hoff : Wraps offset limit bound) (hlimit : 0 < limit)
    (hsmall : limit < bound) {listing : ℕ → List α} {items : List α} (hover : bound ≤ p * limit)
    (hlength : p * limit < (listing p).length + limit) (h : Reads offset limit listing p items)
    (hfirst : p * limit < bound + limit) : items ≠ [] := by
  obtain ⟨o, ho, hitems⟩ := h
  have hwrap : o = p * limit - bound := by
    rw [hoff.wrapped p o hover ho, Nat.mod_eq_sub_mod hover, Nat.mod_eq_of_lt (by omega)]
  rw [hitems, Ne, List.take_eq_nil_iff, List.drop_eq_nil_iff]
  omega

theorem not_pagesFrom_of_bound_le (hoff : Wraps offset limit bound) (hlimit : 0 < limit)
    (hpos : 0 < bound) {xs all : List α} (hlength : bound ≤ xs.length) :
    ¬ PagesFrom (Reads offset limit fun _ => xs) p all := by
  apply not_pagesFrom (n := 0) _ (Nat.zero_le p)
  rintro p items - ⟨o, ho, rfl⟩
  have hlt : o < bound := by
    by_cases hp : p * limit < bound
    · rw [hoff.exact p hp, Option.some.injEq] at ho
      omega
    · rw [hoff.wrapped p o (not_lt.1 hp) ho]
      exact Nat.mod_lt _ hpos
  rw [Ne, List.take_eq_nil_iff, List.drop_eq_nil_iff]
  rintro (hzero | hle)
  · omega
  · exact absurd hle (not_le.2 (hlt.trans_le hlength))

/-- Where an offset wraps before the last page, items are repeated or reading
never ends. -/
theorem bound_of_pagesPartition (hoff : Wraps offset limit bound) (hlimit : 0 < limit)
    (hsmall : limit < bound) (h : PagesPartition offset limit tables) :
    pageCount limit tables.flatten.length * limit < bound := by
  by_contra hover
  rw [not_lt] at hover
  obtain ⟨all, hall, hperm⟩ := h (fun _ => tables) fun _ => List.Perm.refl _
  have hex : ∃ n, bound ≤ n * limit := ⟨_, hover⟩
  obtain ⟨n, hn, hmin⟩ : ∃ n, bound ≤ n * limit ∧ ∀ p < n, p * limit < bound :=
    ⟨Nat.find hex, Nat.find_spec hex, fun p hp => not_le.1 (Nat.find_min hex hp)⟩
  have hle : n ≤ pageCount limit tables.flatten.length := by
    by_contra hlt
    exact absurd (hmin _ (not_le.1 hlt)) (not_lt.2 hover)
  have hpos : n ≠ 0 := by
    rintro rfl
    omega
  obtain ⟨m, rfl⟩ := Nat.exists_eq_add_one_of_ne_zero hpos
  have hm : m * limit < tables.flatten.length := (lt_pageCount_iff hlimit).1 hle
  have hmbound := hmin m (Nat.lt_succ_self m)
  have hsucc : (m + 1) * limit = m * limit + limit := Nat.succ_mul m limit
  have hread : ∀ p < m + 1, ∀ items, Reads offset limit (fun _ => tables.flatten) p items →
      items = page limit p tables.flatten := by
    rintro p hp items ⟨o, ho, rfl⟩
    rw [hoff.exact p (hmin p hp), Option.some.injEq] at ho
    rw [← ho]
    rfl
  have hne : ∀ p < m + 1, page limit p tables.flatten ≠ [] := by
    intro p hp
    rw [Ne, page_eq_nil_iff hlimit, not_le]
    exact (Nat.mul_le_mul_right limit (Nat.lt_succ_iff.1 hp)).trans_lt hm
  obtain ⟨rest, hrest, hfrom⟩ := hall.split (fun p => page limit p tables.flatten) hread hne
    (Nat.zero_add _)
  rw [← List.range_eq_range', flatMap_page] at hrest
  by_cases hend : tables.flatten.length ≤ (m + 1) * limit
  · have hnil : rest = [] := by
      have hlength := hperm.length_eq
      rw [hrest, List.length_append, List.take_of_length_le hend] at hlength
      exact List.eq_nil_of_length_eq_zero (by omega)
    subst rest
    exact reads_wrapped_ne_nil hoff hlimit hsmall hn (by omega) hfrom.read_of_nil (by omega) rfl
  · exact not_pagesFrom_of_bound_le hoff hlimit (by omega) (by omega) hfrom

/-- Two calls for the same page see the same items if all pages partition. -/
theorem pagesAgree_of_pagesPartition (hoff : Wraps offset limit bound) (hlimit : 0 < limit)
    (hbound : pageCount limit tables.flatten.length * limit < bound)
    (h : PagesPartition offset limit tables) : PagesAgree limit tables := by
  intro a b ha hb p
  by_cases hp : p < pageCount limit tables.flatten.length
  · -- all calls see `a`, but for the one of page `p` in the second reading
    have hupdate : ∀ q, (Function.update (fun _ => a) p b q).Perm tables := by
      intro q
      by_cases hq : q = p
      · rw [hq, Function.update_self]
        exact hb
      · rw [Function.update_of_ne hq]
        exact ha
    obtain ⟨all, hall, hperm⟩ := h (fun _ => a) fun _ => ha
    obtain ⟨all', hall', hperm'⟩ := h _ hupdate
    rw [pagesFrom_iff hoff hlimit hbound fun _ => ha] at hall
    rw [pagesFrom_iff hoff hlimit hbound hupdate] at hall'
    have hsame := hperm.trans hperm'.symm
    obtain ⟨l, r, hrange⟩ := List.append_of_mem (List.mem_range.2 hp)
    have hnodup := hrange ▸ List.nodup_range (n := pageCount limit tables.flatten.length)
    have hothers : ∀ qs : List ℕ, p ∉ qs →
        qs.flatMap (fun q => page limit q (Function.update (fun _ => a) p b q).flatten) =
          qs.flatMap fun q => page limit q a.flatten := by
      intro qs hp
      apply List.flatMap_congr
      intro q hq
      rw [Function.update_of_ne (ne_of_mem_of_not_mem hq hp)]
    have hnotMem := (List.nodup_middle.1 hnodup).notMem
    have hl := hothers l fun hl => hnotMem (List.mem_append_left r hl)
    have hr := hothers r fun hr => hnotMem (List.mem_append_right l hr)
    rw [hall, hall', hrange, List.flatMap_append, List.flatMap_append, List.flatMap_cons,
      List.flatMap_cons, hl, hr, List.perm_append_left_iff, List.perm_append_right_iff,
      Function.update_self] at hsame
    exact hsame
  · rw [lt_pageCount_iff hlimit, not_lt] at hp
    have hnil : ∀ c : List (List α), c.Perm tables → page limit p c.flatten = [] := by
      intro c hc
      rw [page_eq_nil_iff hlimit, flatten_perm_length hc]
      exact hp
    rw [hnil a ha, hnil b hb]

/-- The pages partition the tables exactly when no offset wraps and no page
depends on the arrangement. -/
theorem pagesPartition_iff (hoff : Wraps offset limit bound) (hlimit : 0 < limit)
    (hsmall : limit < bound) :
    PagesPartition offset limit tables ↔
      pageCount limit tables.flatten.length * limit < bound ∧ PagesAgree limit tables := by
  constructor
  · intro h
    have hbound := bound_of_pagesPartition hoff hlimit hsmall h
    exact ⟨hbound, pagesAgree_of_pagesPartition hoff hlimit hbound h⟩
  · rintro ⟨hbound, hagree⟩ arr harr
    refine ⟨_, (pagesFrom_iff hoff hlimit hbound harr).2 rfl, ?_⟩
    have hpages : ((List.range (pageCount limit tables.flatten.length)).flatMap
        fun p => page limit p (arr p).flatten).Perm
          ((List.range (pageCount limit tables.flatten.length)).flatMap
            fun p => page limit p tables.flatten) :=
      List.Perm.flatMap_left _ fun p _ => hagree (arr p) tables (harr p) (List.Perm.refl _) p
    refine hpages.trans (List.Perm.of_eq ?_)
    rw [flatMap_page, List.take_of_length_le]
    by_contra hlt
    exact lt_irrefl _ ((lt_pageCount_iff hlimit).2 (not_le.1 hlt))

/-! ## Distinct items -/

/-- A table that is first in one arrangement and last in another is short of the
rest and longer than a page. -/
theorem limits_of_pagesAgree (hagree : PagesAgree limit tables) (hnodup : tables.flatten.Nodup)
    (htotal : limit < tables.flatten.length) (hlimit : 0 < limit) {t : List α}
    {others : List (List α)} (ht : t ≠ []) (hperm : (t :: others).Perm tables) :
    others.flatten.length < limit ∧ limit < t.length := by
  have hlast : (others ++ [t]).Perm tables := List.perm_append_comm.trans hperm
  have hsame : ((t ++ others.flatten).take limit).Perm ((others.flatten ++ t).take limit) := by
    have := hagree _ _ hperm hlast 0
    simpa [page] using this
  have hlength := flatten_perm_length hlast
  rw [List.flatten_append, List.flatten_singleton, List.length_append] at hlength
  have hdistinct : (others.flatten ++ t).Nodup := by
    have := hlast.flatten.nodup_iff.2 hnodup
    rwa [List.flatten_append, List.flatten_singleton] at this
  constructor
  · -- the first item of `t` is on the first page of the first arrangement
    obtain ⟨x, t', rfl⟩ := List.exists_cons_of_ne_nil ht
    obtain ⟨n, hn⟩ := Nat.exists_eq_succ_of_ne_zero (Nat.pos_iff_ne_zero.1 hlimit)
    have hmem : x ∈ (others.flatten ++ x :: t').take limit := by
      rw [← hsame.mem_iff, hn]
      exact List.mem_cons_self
    by_contra hle
    rw [List.take_append_of_le_length (not_lt.1 hle)] at hmem
    exact (List.nodup_middle.1 hdistinct).notMem
      (List.mem_append_left _ (List.mem_of_mem_take hmem))
  · -- the last item of `t` is not on the first page of the second one
    obtain ⟨t', x, rfl⟩ := List.eq_nil_or_concat t |>.resolve_left ht
    rw [List.concat_eq_append] at *
    rw [← List.append_assoc] at hsame hdistinct
    rw [List.length_append, List.length_singleton] at hlength ⊢
    by_contra hle
    have hmem : x ∈ (t' ++ [x] ++ others.flatten).take limit := by
      rw [List.take_append]
      apply List.mem_append_left
      rw [List.take_of_length_le (by simpa using not_lt.1 hle)]
      exact List.mem_append_right _ List.mem_cons_self
    rw [hsame.mem_iff, List.take_append_of_le_length (by rw [List.length_append]; omega)]
      at hmem
    rw [List.nodup_append] at hdistinct
    exact hdistinct.2.2 x (List.mem_of_mem_take hmem) x List.mem_cons_self rfl

theorem pagesAgree_of_length_le (hone : tables.flatten.length ≤ limit) (hlimit : 0 < limit) :
    PagesAgree limit tables := by
  intro a b ha hb p
  have hpage : ∀ c : List (List α), c.Perm tables →
      page limit p c.flatten = if p = 0 then c.flatten else [] := by
    intro c hc
    have hlength := flatten_perm_length hc
    split_ifs with hp
    · rw [hp, page, Nat.zero_mul, List.drop_zero, List.take_of_length_le (by omega)]
    · rw [page_eq_nil_iff hlimit]
      have := Nat.le_mul_of_pos_left limit (Nat.pos_of_ne_zero hp)
      omega
  rw [hpage a ha, hpage b hb]
  split_ifs
  · exact (ha.trans hb.symm).flatten
  · exact List.Perm.refl []

theorem pagesAgree_of_one_table (hone : (tables.filter fun t => t ≠ []).length ≤ 1) :
    PagesAgree limit tables := by
  intro a b ha hb p
  have hflatten : ∀ c : List (List α), c.Perm tables → c.flatten = tables.flatten := by
    intro c hc
    have hfilter := hc.filter fun t => decide (t ≠ [])
    rw [← List.flatten_filter_ne_nil (L := c), ← List.flatten_filter_ne_nil (L := tables)]
    cases hts : tables.filter fun t => decide (t ≠ []) with
    | nil =>
        rw [hts, List.perm_nil] at hfilter
        rw [hfilter]
    | cons t ts =>
        rw [hts, List.length_cons] at hone
        have hnil : ts = [] := List.eq_nil_of_length_eq_zero (by omega)
        rw [hts, hnil, List.perm_singleton] at hfilter
        rw [hfilter, hnil]
  rw [hflatten a ha, hflatten b hb]

/-- Pages of distinct items do not depend on the arrangement exactly when there is
one page or at most one table with items. -/
theorem pagesAgree_iff_of_nodup (hnodup : tables.flatten.Nodup) (hlimit : 0 < limit) :
    PagesAgree limit tables ↔
      tables.flatten.length ≤ limit ∨ (tables.filter fun t => t ≠ []).length ≤ 1 := by
  constructor
  · intro hagree
    by_contra hmany
    rw [not_or, not_le, not_le] at hmany
    obtain ⟨htotal, htwo⟩ := hmany
    obtain ⟨t, ts, hts⟩ := List.exists_cons_of_length_pos (zero_lt_one.trans htwo)
    rw [hts, List.length_cons, Nat.lt_add_left_iff_pos] at htwo
    obtain ⟨u, rest, rfl⟩ := List.exists_cons_of_length_pos htwo
    have hsplit := List.filter_append_perm (fun t : List α => decide (t ≠ [])) tables
    have hne : ∀ v ∈ t :: u :: rest, v ≠ [] := by
      intro v hv
      rw [← hts] at hv
      simpa using List.of_mem_filter hv
    rw [hts, List.cons_append, List.cons_append] at hsplit
    have ht := limits_of_pagesAgree hagree hnodup htotal hlimit
      (hne t List.mem_cons_self) hsplit
    have hu := limits_of_pagesAgree hagree hnodup htotal hlimit
      (hne u (List.mem_cons_of_mem t List.mem_cons_self)) ((List.Perm.swap t u _).trans hsplit)
    have hlength := ht.1
    rw [List.flatten_cons, List.length_append] at hlength
    omega
  · rintro (hone | hone)
    · exact pagesAgree_of_length_le hone hlimit
    · exact pagesAgree_of_one_table hone

end Partition

end TbManager.Paging
