import TbManager.DoubleEntry

/-!
# Books from entries

Accounts may be opened between postings: an entry opens an account or posts an
amount. What a list of entries leaves in an empty book is again two sums for every
account, and entries that were left out leave less.
-/

namespace TbManager

inductive Entry (ι M : Type*) where
  | opened (i : ι)
  | posted (p : Posting ι M)
  deriving DecidableEq, Repr

section Sums

variable {ι : Type*} [DecidableEq ι]

theorem debitTotal_le_of_sublist {i : ι} {ps qs : List (Posting ι ℕ)} (h : qs.Sublist ps) :
    debitTotal i qs ≤ debitTotal i ps := (h.map _).sum_le_sum fun _ _ => Nat.zero_le _

theorem creditTotal_le_of_sublist {i : ι} {ps qs : List (Posting ι ℕ)} (h : qs.Sublist ps) :
    creditTotal i qs ≤ creditTotal i ps := (h.map _).sum_le_sum fun _ _ => Nat.zero_le _

end Sums

namespace Entry

variable {ι M : Type*}

def opened? : Entry ι M → Option ι
  | opened i => some i
  | posted _ => none

def posting? : Entry ι M → Option (Posting ι M)
  | opened _ => none
  | posted p => some p

end Entry

namespace Book

variable {ι M : Type*} [DecidableEq ι] [AddCommMonoid M]

/-- An account is opened once, a posting needs both of its accounts. -/
def enter (b : Book ι M) : Entry ι M → Option (Book ι M)
  | .opened i => if (b i).isSome then none else some (Function.update b i (some ⟨0, 0⟩))
  | .posted p => b.post p

def enterAll (b : Book ι M) (es : List (Entry ι M)) : Option (Book ι M) := es.foldlM enter b

def blank : Book ι M := fun _ => none

/-- What entries leave in the empty book, by two sums over their postings. -/
def summed (es : List (Entry ι M)) : Book ι M := fun i =>
  if i ∈ es.filterMap Entry.opened? then
    some ⟨debitTotal i (es.filterMap Entry.posting?), creditTotal i (es.filterMap Entry.posting?)⟩
  else none

/-- No posting comes before the opening of an account that it names. -/
def Settled (es : List (Entry ι M)) : Prop :=
  ∀ p ∈ es.filterMap Entry.posting?, p.debit ∈ es.filterMap Entry.opened? ∧
    p.credit ∈ es.filterMap Entry.opened?

theorem summed_isSome {es : List (Entry ι M)} {i : ι} :
    (summed es i).isSome ↔ i ∈ es.filterMap Entry.opened? := by
  unfold summed
  split_ifs with hopen
  · exact iff_of_true rfl hopen
  · exact iff_of_false (by simp) hopen

theorem Settled.totals {es : List (Entry ι M)} (h : Settled es) {i : ι}
    (hopen : i ∉ es.filterMap Entry.opened?) :
    debitTotal i (es.filterMap Entry.posting?) = 0 ∧
      creditTotal i (es.filterMap Entry.posting?) = 0 := by
  constructor
  · exact debitTotal_eq_zero fun p hp heq => hopen (heq ▸ (h p hp).1)
  · exact creditTotal_eq_zero fun p hp heq => hopen (heq ▸ (h p hp).2)

theorem enter_summed {es : List (Entry ι M)} {e : Entry ι M} {b : Book ι M} (h : Settled es)
    (henter : (summed es).enter e = some b) : b = summed (es ++ [e]) ∧ Settled (es ++ [e]) := by
  cases e with
  | opened i =>
      simp only [enter, summed_isSome] at henter
      split_ifs at henter with hopen
      have hopened : (es ++ [Entry.opened i]).filterMap (Entry.opened? (M := M)) =
          es.filterMap Entry.opened? ++ [i] := List.filterMap_append
      have hposted : (es ++ [Entry.opened i]).filterMap (Entry.posting? (M := M)) =
          es.filterMap Entry.posting? := List.filterMap_append.trans (List.append_nil _)
      rw [← Option.some.inj henter]
      constructor
      · funext j
        rw [summed, hopened, hposted]
        by_cases hj : j = i
        · subst hj
          rw [Function.update_self, if_pos (List.mem_append_right _ List.mem_cons_self),
            (h.totals hopen).1, (h.totals hopen).2]
        · rw [Function.update_of_ne hj, summed]
          simp only [List.mem_append, List.mem_singleton, hj, or_false]
      · intro p hp
        rw [hposted] at hp
        rw [hopened]
        exact ⟨List.mem_append_left _ (h p hp).1, List.mem_append_left _ (h p hp).2⟩
  | posted p =>
      simp only [enter, post, summed_isSome] at henter
      split_ifs at henter with hopen
      have hopened : (es ++ [Entry.posted p]).filterMap Entry.opened? =
          es.filterMap Entry.opened? := List.filterMap_append.trans (List.append_nil _)
      have hposted : (es ++ [Entry.posted p]).filterMap Entry.posting? =
          es.filterMap Entry.posting? ++ [p] := List.filterMap_append
      rw [← Option.some.inj henter]
      constructor
      · funext j
        rw [summed, summed, hopened, hposted]
        by_cases hj : j ∈ es.filterMap Entry.opened?
        · rw [if_pos hj, if_pos hj, Option.map_some, debitTotal_append, creditTotal_append,
            debitTotal_cons, creditTotal_cons, debitTotal_nil, creditTotal_nil, add_zero, add_zero]
        · rw [if_neg hj, if_neg hj, Option.map_none]
      · intro q hq
        rw [hposted] at hq
        rw [hopened]
        rcases List.mem_append.1 hq with hq | hq
        · exact h q hq
        · rw [List.mem_singleton.1 hq]
          exact hopen

/-- Entries that an empty book takes leave the sums of their postings in it. -/
theorem enterAll_blank {es : List (Entry ι M)} {b : Book ι M} (h : blank.enterAll es = some b) :
    b = summed es ∧ Settled es := by
  induction es using List.reverseRecOn generalizing b with
  | nil =>
      cases h
      exact ⟨rfl, fun p hp => nomatch hp⟩
  | append_singleton es e ih =>
      rw [enterAll, List.foldlM_append, Option.bind_eq_bind, Option.bind_eq_some_iff] at h
      obtain ⟨b₁, hall, hlast⟩ := h
      obtain ⟨rfl, hsettled⟩ := ih hall
      rw [List.foldlM_cons, Option.bind_eq_bind, Option.bind_eq_some_iff] at hlast
      obtain ⟨b₂, henter, hb⟩ := hlast
      rw [← Option.some.inj hb]
      exact enter_summed hsettled henter

/-- Some of the entries leave at most what all of them would. -/
theorem summed_le_of_sublist {es all : List (Entry ι ℕ)} (h : es.Sublist all) {i : ι}
    {t : Totals ℕ} (ht : summed es i = some t) :
    i ∈ all.filterMap Entry.opened? ∧ t.debits ≤ debitTotal i (all.filterMap Entry.posting?) ∧
      t.credits ≤ creditTotal i (all.filterMap Entry.posting?) := by
  unfold summed at ht
  split_ifs at ht with hopen
  rw [← Option.some.inj ht]
  exact ⟨(h.filterMap _).subset hopen, debitTotal_le_of_sublist (h.filterMap _),
    creditTotal_le_of_sublist (h.filterMap _)⟩

end Book

end TbManager
