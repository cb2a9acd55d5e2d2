import TbManager.ClientReply
import TbManager.SeekPaging

/-!
# Paged range queries

`get_account_transfers_paged` of the client reads the transfers of an account in
pages: it repeats the query with the bound on the timestamps moved past the last
transfer of a full page. The answers come from the cluster; what the cluster has
may grow between two queries.
-/

namespace TbManager

open SeekPaging

structure AccountFilter where
  accountId : U128
  userData128 : U128
  userData64 : U64
  userData32 : U32
  code : U16
  timestampMin : U64
  timestampMax : U64
  limit : U32
  flags : U32
  deriving DecidableEq, Repr

def AccountFilter.isReverse (event : AccountFilter) : Bool := event.flags.getLsbD 2

inductive PageState where
  | start
  | resume (timestampBegin : U64)
  | finished
  deriving DecidableEq, Repr

inductive Pulled where
  | panicked
  | ended
  | yielded (item : Except PacketStatus (List Transfer)) (next : PageState)
  deriving DecidableEq, Repr

namespace AccountFilter

variable (event : AccountFilter)

def atState : PageState → Option AccountFilter
  | .start => some event
  | .resume timestampBegin =>
    if event.isReverse then some { event with timestampMax := timestampBegin }
    else some { event with timestampMin := timestampBegin }
  | .finished => none

def beyond (timestampFirst timestampLast : U64) : Option PageState :=
  if event.isReverse then
    if timestampLast < timestampFirst then
      (checkedSub timestampLast 1).bind fun timestampBegin =>
        if timestampBegin = 0 then none
        else if event.timestampMin ≤ timestampBegin ∨ event.timestampMin = 0 then
          some (.resume timestampBegin)
        else some .finished
    else none
  else
    if timestampFirst < timestampLast then
      (checkedAdd timestampLast 1).bind fun timestampBegin =>
        if timestampBegin = BitVec.allOnes 64 then none
        else if timestampBegin ≤ event.timestampMax ∨ event.timestampMax = 0 then
          some (.resume timestampBegin)
        else some .finished
    else none

def afterPage (page : List Transfer) : Option PageState :=
  if 2 ^ 32 ≤ page.length then none
  else if page.length = event.limit.toNat then
    match page.head?, page.getLast? with
    | some first, some last => event.beyond first.timestamp last.timestamp
    | _, _ => none
  else some .finished

def pull (query : AccountFilter → Except PacketStatus (List Transfer)) (state : PageState) :
    Pulled :=
  match event.atState state with
  | none => .ended
  | some filter =>
    match query filter with
    | .error e => .yielded (.error e) .finished
    | .ok page =>
      match filter.afterPage page with
      | none => .panicked
      | some next => .yielded (.ok page) next

end AccountFilter

inductive StreamEnd where
  | ended
  | panicked
  | unfinished
  deriving DecidableEq, Repr

def AccountFilter.collect (event : AccountFilter)
    (query : ℕ → AccountFilter → Except PacketStatus (List Transfer)) :
    ℕ → ℕ → PageState → List (Except PacketStatus (List Transfer)) × StreamEnd
  | 0, _, _ => ([], .unfinished)
  | fuel + 1, n, state =>
    match event.pull (query n) state with
    | .panicked => ([], .panicked)
    | .ended => ([], .ended)
    | .yielded item next =>
      let rest := event.collect query fuel (n + 1) next
      (item :: rest.1, rest.2)

def getAccountTransfersPaged (query : ℕ → AccountFilter → Except PacketStatus (List Transfer))
    (event : AccountFilter) (fuel : ℕ) :
    List (Except PacketStatus (List Transfer)) × StreamEnd :=
  if 1 < event.limit.toNat then event.collect query fuel 0 .start else ([], .panicked)

/-! ## The answers of the cluster -/

namespace AccountFilter

variable (event : AccountFilter)

def InRange (t : Transfer) : Prop :=
  event.timestampMin ≤ t.timestamp ∧ (t.timestamp ≤ event.timestampMax ∨ event.timestampMax = 0)

instance (t : Transfer) : Decidable (event.InRange t) := inferInstanceAs (Decidable (_ ∧ _))

/-- Of the transfers that the other fields select, in the order of their timestamps, those in
the range, in the order of the query. -/
def window (selected : List Transfer) : List Transfer :=
  (if event.isReverse then selected.reverse else selected).filter fun t => event.InRange t

/-- A query returns the first transfers of its window, at most the limit and at most what fits a
message. -/
def answer (batchMax : ℕ) (selected : List Transfer) : List Transfer :=
  (event.window selected).take (min event.limit.toNat batchMax)

def Precedes (a b : Transfer) : Prop :=
  if event.isReverse then b.timestamp < a.timestamp else a.timestamp < b.timestamp

instance : DecidableRel event.Precedes := fun _ _ => inferInstanceAs (Decidable (ite _ _ _))

end AccountFilter

/-- What the other fields of a filter select on the cluster at each query: transfers in the order
of their timestamps, which come from a clock of nanoseconds; later ones may be added. -/
structure SelectedTransfers (selected : ℕ → List Transfer) : Prop where
  sorted : ∀ n, (selected n).Pairwise fun a b => a.timestamp < b.timestamp
  grows : ∀ n, selected n <+: selected (n + 1)
  times : ∀ n, ∀ t ∈ selected n, 0 < t.timestamp.toNat ∧ t.timestamp.toNat < 2 ^ 63

namespace AccountFilter

variable {event : AccountFilter} {selected : ℕ → List Transfer}

/-- What the stream reads: the window as it grows, or in reverse the window of the first query. -/
def view (event : AccountFilter) (selected : ℕ → List Transfer) (n : ℕ) : List Transfer :=
  event.window (selected (if event.isReverse then 0 else n))

instance : Std.Asymm event.Precedes where
  asymm a b hab hba := by
    unfold Precedes at hab hba
    split_ifs at hab hba
    · rw [BitVec.lt_def] at hab hba
      omega
    · rw [BitVec.lt_def] at hab hba
      omega

instance : IsTrans Transfer event.Precedes where
  trans a b c hab hbc := by
    unfold Precedes at hab hbc ⊢
    split_ifs at hab hbc ⊢
    · exact BitVec.lt_trans hbc hab
    · exact BitVec.lt_trans hab hbc

theorem window_sorted {xs : List Transfer}
    (h : xs.Pairwise fun a b => a.timestamp < b.timestamp) :
    (event.window xs).Pairwise event.Precedes := by
  refine List.Pairwise.filter _ ?_
  by_cases hrev : event.isReverse
  · rw [if_pos hrev, List.pairwise_reverse]
    refine h.imp fun hab => ?_
    rw [Precedes, if_pos hrev]
    exact hab
  · rw [if_neg hrev]
    refine h.imp fun hab => ?_
    rw [Precedes, if_neg hrev]
    exact hab

theorem view_grows (event : AccountFilter) (h : SelectedTransfers selected) :
    Grows event.Precedes (event.view selected) where
  sorted n := window_sorted (h.sorted _)
  grows n := by
    unfold view window
    by_cases hrev : event.isReverse
    · simp only [if_pos hrev]
      exact List.prefix_rfl
    · simp only [if_neg hrev]
      exact (h.grows n).filter _

theorem mem_window {t : Transfer} {xs : List Transfer} :
    t ∈ event.window xs ↔ t ∈ xs ∧ event.InRange t := by
  rw [window, List.mem_filter, decide_eq_true_eq]
  split_ifs with hrev
  · rw [List.mem_reverse]
  · rfl

theorem view_times (h : SelectedTransfers selected) {n : ℕ} {t : Transfer}
    (ht : t ∈ event.view selected n) : 0 < t.timestamp.toNat ∧ t.timestamp.toNat < 2 ^ 63 :=
  h.times _ t (mem_window.1 ht).1

/-! ## After a full page -/

inductive Beyond (event : AccountFilter) (last : Transfer) : Option PageState → Prop
  | resume {timestampBegin : U64}
      (hbegin : if event.isReverse then
        last.timestamp.toNat = timestampBegin.toNat + 1 ∧ 0 < timestampBegin.toNat
        else timestampBegin.toNat = last.timestamp.toNat + 1) :
      Beyond event last (some (.resume timestampBegin))
  | finished (hfirst : event.isReverse → last.timestamp.toNat ≠ 1)
      (hlast : ∀ t, event.InRange t → ¬ event.Precedes last t) : Beyond event last (some .finished)
  /-- The bound after the first instant is zero, which the stream takes for a failure. -/
  | panicked (hrev : event.isReverse) (hfirst : last.timestamp.toNat = 1) : Beyond event last none

theorem beyond_cases {first last : Transfer} (h : event.Precedes first last)
    (htime : 0 < last.timestamp.toNat ∧ last.timestamp.toNat < 2 ^ 63) :
    Beyond event last (event.beyond first.timestamp last.timestamp) := by
  unfold Precedes at h
  unfold beyond
  by_cases hrev : event.isReverse
  · rw [if_pos hrev] at h ⊢
    have hone : (1 : U64) ≤ last.timestamp := by
      rw [BitVec.le_def]
      exact htime.1
    have hsub : (last.timestamp - 1).toNat = last.timestamp.toNat - 1 := BitVec.toNat_sub_of_le hone
    rw [if_pos h, checkedSub, if_pos hone, Option.bind_some]
    by_cases hzero : last.timestamp - 1 = 0
    · rw [if_pos hzero]
      refine .panicked hrev ?_
      rw [hzero] at hsub
      have : (0 : U64).toNat = 0 := rfl
      omega
    · have hne : (last.timestamp - 1).toNat ≠ 0 := fun heq => hzero (BitVec.eq_of_toNat_eq heq)
      rw [if_neg hzero]
      by_cases hmore : event.timestampMin ≤ last.timestamp - 1 ∨ event.timestampMin = 0
      · rw [if_pos hmore]
        refine .resume ?_
        rw [if_pos hrev]
        omega
      · rw [if_neg hmore]
        rw [not_or] at hmore
        refine .finished (fun _ => by omega) fun t ht hlater => ?_
        rw [Precedes, if_pos hrev, BitVec.lt_def] at hlater
        have hmin := ht.1
        rw [BitVec.le_def] at hmin
        exact hmore.1 (by rw [BitVec.le_def]; omega)
  · rw [if_neg hrev] at h ⊢
    have hadd : (last.timestamp + 1).toNat = last.timestamp.toNat + 1 := by
      rw [BitVec.toNat_add_of_lt]
      · rfl
      · have : (1 : U64).toNat = 1 := rfl
        omega
    have hfits : checkedAdd last.timestamp 1 = some (last.timestamp + 1) := by
      rw [checkedAdd_eq_some_iff, hadd]
      rfl
    have hmax : last.timestamp + 1 ≠ BitVec.allOnes 64 := by
      intro heq
      have := congrArg BitVec.toNat heq
      rw [hadd, BitVec.toNat_allOnes] at this
      omega
    rw [if_pos h, hfits, Option.bind_some, if_neg hmax]
    by_cases hmore : last.timestamp + 1 ≤ event.timestampMax ∨ event.timestampMax = 0
    · rw [if_pos hmore]
      refine .resume ?_
      rw [if_neg hrev, hadd]
    · rw [if_neg hmore]
      rw [not_or] at hmore
      refine .finished (fun hrev' => absurd hrev' hrev) fun t ht hlater => ?_
      rw [Precedes, if_neg hrev, BitVec.lt_def] at hlater
      have hle := ht.2.resolve_right hmore.2
      rw [BitVec.le_def] at hle
      exact hmore.1 (by rw [BitVec.le_def]; omega)

/-! ## One query -/

inductive ReadUpTo (event : AccountFilter) (selected : ℕ → List Transfer) (n : ℕ) :
    PageState → Option Transfer → Prop
  | start (hn : n = 0) : ReadUpTo event selected n .start none
  | resume {timestampBegin : U64} {last : Transfer} (hlast : last ∈ event.view selected n)
      (hbegin : if event.isReverse then
        last.timestamp.toNat = timestampBegin.toNat + 1 ∧ 0 < timestampBegin.toNat
        else timestampBegin.toNat = last.timestamp.toNat + 1) :
      ReadUpTo event selected n (.resume timestampBegin) (some last)

theorem inRange_iff (t : Transfer) : event.InRange t ↔
    event.timestampMin.toNat ≤ t.timestamp.toNat ∧
      (t.timestamp.toNat ≤ event.timestampMax.toNat ∨ event.timestampMax.toNat = 0) := by
  rw [InRange, BitVec.le_def, BitVec.le_def, ← BitVec.toNat_inj]
  rfl

theorem precedes_iff (a b : Transfer) : event.Precedes a b ↔
    if event.isReverse then b.timestamp.toNat < a.timestamp.toNat
    else a.timestamp.toNat < b.timestamp.toNat := by
  rw [Precedes, BitVec.lt_def, BitVec.lt_def]

theorem atState_resume {timestampBegin : U64} {filter : AccountFilter}
    (h : event.atState (.resume timestampBegin) = some filter) :
    filter.isReverse = event.isReverse ∧ filter.limit = event.limit ∧
      filter.timestampMin = (if event.isReverse then event.timestampMin else timestampBegin) ∧
      filter.timestampMax = (if event.isReverse then timestampBegin else event.timestampMax) := by
  by_cases hrev : event.isReverse
  · rw [atState, if_pos hrev, Option.some.injEq] at h
    subst h
    exact ⟨rfl, rfl, (if_pos hrev).symm, (if_pos hrev).symm⟩
  · rw [atState, if_neg hrev, Option.some.injEq] at h
    subst h
    exact ⟨rfl, rfl, (if_neg hrev).symm, (if_neg hrev).symm⟩

/-- Moving the bound past a transfer leaves what comes after it. -/
theorem window_resume (h : SelectedTransfers selected) {n : ℕ} {timestampBegin : U64}
    {last : Transfer} (hlast : last ∈ event.view selected n)
    (hbegin : if event.isReverse then
      last.timestamp.toNat = timestampBegin.toNat + 1 ∧ 0 < timestampBegin.toNat
      else timestampBegin.toNat = last.timestamp.toNat + 1)
    {filter : AccountFilter} (hfilter : event.atState (.resume timestampBegin) = some filter) :
    filter.window (selected n) = remaining event.Precedes (some last) (event.view selected n) := by
  obtain ⟨hmem, hrange⟩ := mem_window.1 hlast
  rw [inRange_iff] at hrange
  obtain ⟨hreverse, _, hmin, hmax⟩ := atState_resume hfilter
  by_cases hrev : event.isReverse
  · rw [if_pos hrev] at hmem hbegin hmin hmax
    have hinit : selected 0 <+: selected n := by
      clear hmem hlast
      induction n with
      | zero => exact List.prefix_rfl
      | succ n ih => exact ih.trans (h.grows n)
    obtain ⟨more, hmore⟩ := hinit
    -- what was added since the first query is later than the bound
    have hlater : more.reverse.filter (fun t => filter.InRange t) = [] := by
      refine List.filter_eq_nil_iff.2 fun t ht => ?_
      have hsorted := h.sorted n
      rw [← hmore, List.pairwise_append] at hsorted
      have hlt := hsorted.2.2 last hmem t (List.mem_reverse.1 ht)
      rw [BitVec.lt_def] at hlt
      rw [decide_eq_true_eq, inRange_iff, hmax]
      omega
    have hview : event.view selected n = event.window (selected 0) := by
      rw [view, if_pos hrev]
    rw [hview, window, hreverse, if_pos hrev, ← hmore, List.reverse_append, List.filter_append,
      hlater, List.nil_append, remaining, window, if_pos hrev, List.filter_filter]
    refine List.filter_congr fun t _ => ?_
    rw [← Bool.decide_and, decide_eq_decide, inRange_iff, inRange_iff, precedes_iff, if_pos hrev,
      hmin, hmax]
    omega
  · rw [if_neg hrev] at hmem hbegin hmin hmax
    have hview : event.view selected n = event.window (selected n) := by
      rw [view, if_neg hrev]
    rw [hview, window, hreverse, if_neg hrev, remaining, window, if_neg hrev, List.filter_filter]
    refine List.filter_congr fun t _ => ?_
    rw [← Bool.decide_and, decide_eq_decide, inRange_iff, inRange_iff, precedes_iff, if_neg hrev,
      hmin, hmax]
    omega

theorem window_atState (h : SelectedTransfers selected) {n : ℕ} {state : PageState}
    {last : Option Transfer} (hat : ReadUpTo event selected n state last) {filter : AccountFilter}
    (hfilter : event.atState state = some filter) :
    filter.window (selected n) = remaining event.Precedes last (event.view selected n) := by
  cases hat with
  | start hn =>
      cases hfilter
      subst hn
      rw [view, ite_self]
      rfl
  | resume hlast hbegin => exact window_resume h hlast hbegin hfilter

theorem atState_of_readUpTo {n : ℕ} {state : PageState} {last : Option Transfer}
    (hat : ReadUpTo event selected n state last) : ∃ filter, event.atState state = some filter := by
  cases hat with
  | start => exact ⟨event, rfl⟩
  | @resume timestampBegin _ _ _ =>
      by_cases hrev : event.isReverse
      · exact ⟨_, if_pos hrev⟩
      · exact ⟨_, if_neg hrev⟩

theorem afterPage_atState {state : PageState} {filter : AccountFilter}
    (h : event.atState state = some filter) (page : List Transfer) :
    filter.limit = event.limit ∧ filter.afterPage page = event.afterPage page := by
  cases state with
  | start =>
      cases h
      exact ⟨rfl, rfl⟩
  | resume timestampBegin =>
      obtain ⟨hreverse, hlimit, hmin, hmax⟩ := atState_resume h
      refine ⟨hlimit, ?_⟩
      unfold afterPage beyond
      rw [hreverse, hlimit, hmin, hmax]
      by_cases hrev : event.isReverse
      · simp only [if_pos hrev]
      · simp only [if_neg hrev]
  | finished => cases h

/-- The answers to the queries of one stream. -/
def Answers (event : AccountFilter) (batchMax : ℕ) (selected : ℕ → List Transfer)
    (query : ℕ → AccountFilter → Except PacketStatus (List Transfer)) : Prop :=
  ∀ n state filter, event.atState state = some filter →
    query n filter = .ok (filter.answer batchMax (selected n))

variable {batchMax : ℕ} {query : ℕ → AccountFilter → Except PacketStatus (List Transfer)}

inductive PullOf (event : AccountFilter) (selected : ℕ → List Transfer) (n : ℕ)
    (left : List Transfer) : Pulled → Prop
  | short (hshort : left.length < event.limit.toNat) :
      PullOf event selected n left (.yielded (.ok left) .finished)
  | full {last : Transfer} {next : PageState} (hfull : event.limit.toNat ≤ left.length)
      (hlast : (left.take event.limit.toNat).getLast? = some last)
      (hfirst : event.isReverse → last.timestamp.toNat ≠ 1)
      (hnext : ReadUpTo event selected (n + 1) next (some last)) :
      PullOf event selected n left (.yielded (.ok (left.take event.limit.toNat)) next)
  | last {last : Transfer} (hfull : event.limit.toNat ≤ left.length)
      (hlast : (left.take event.limit.toNat).getLast? = some last)
      (hfirst : event.isReverse → last.timestamp.toNat ≠ 1)
      (hnone : ∀ m, remaining event.Precedes (some last) (event.view selected m) = []) :
      PullOf event selected n left (.yielded (.ok (left.take event.limit.toNat)) .finished)
  | panicked {last : Transfer} (hfull : event.limit.toNat ≤ left.length)
      (hlast : (left.take event.limit.toNat).getLast? = some last) (hrev : event.isReverse)
      (hfirst : last.timestamp.toNat = 1) : PullOf event selected n left .panicked

theorem pull_cases (h : SelectedTransfers selected) (hquery : event.Answers batchMax selected query)
    (hlimit : 1 < event.limit.toNat) (hbatch : event.limit.toNat ≤ batchMax) {n : ℕ}
    {state : PageState} {last : Option Transfer} (hat : ReadUpTo event selected n state last) :
    PullOf event selected n (remaining event.Precedes last (event.view selected n))
      (event.pull (query n) state) := by
  obtain ⟨filter, hfilter⟩ := atState_of_readUpTo hat
  obtain ⟨hsame, hafter⟩ := afterPage_atState hfilter
    ((remaining event.Precedes last (event.view selected n)).take event.limit.toNat)
  have hpage : query n filter =
      .ok ((remaining event.Precedes last (event.view selected n)).take event.limit.toNat) := by
    rw [hquery n state filter hfilter, answer, window_atState h hat hfilter, hsame,
      Nat.min_eq_left hbatch]
  have hpull : event.pull (query n) state = match event.afterPage
      ((remaining event.Precedes last (event.view selected n)).take event.limit.toNat) with
      | none => .panicked
      | some next => .yielded
          (.ok ((remaining event.Precedes last (event.view selected n)).take event.limit.toNat))
          next := by
    rw [pull, hfilter]
    simp only [hpage, hafter]
  rw [hpull]
  have hgrows := view_grows event h
  have hsorted := hgrows.remaining_sorted last n
  have hfrom : ∀ t ∈ remaining event.Precedes last (event.view selected n),
      t ∈ event.view selected n := fun t ht => mem_of_mem_remaining ht
  revert hsorted hfrom
  generalize remaining event.Precedes last (event.view selected n) = left
  intro hsorted hfrom
  have hsmall : ¬ 2 ^ 32 ≤ (left.take event.limit.toNat).length := by
    rw [List.length_take]
    have := event.limit.isLt
    omega
  by_cases hfull : event.limit.toNat ≤ left.length
  · -- a full page has two transfers, the first and the last
    have hlength : (left.take event.limit.toNat).length = event.limit.toNat := by
      rw [List.length_take]
      omega
    obtain ⟨first, rest, hrest⟩ : ∃ first rest, left.take event.limit.toNat = first :: rest :=
      List.exists_cons_of_ne_nil (List.ne_nil_of_length_pos (by omega))
    obtain ⟨last', hlast'⟩ : ∃ last', (left.take event.limit.toNat).getLast? = some last' := by
      rw [hrest, List.getLast?_cons]
      exact ⟨_, rfl⟩
    have hmem : last' ∈ left := List.mem_of_mem_take (List.mem_of_getLast? hlast')
    have hprecedes : event.Precedes first last' := by
      have hpairs := hsorted.sublist (List.take_sublist event.limit.toNat left)
      rw [hrest] at hpairs hlast' hlength
      refine (List.pairwise_cons.1 hpairs).1 last' ?_
      cases rest with
      | nil =>
          rw [List.length_singleton] at hlength
          omega
      | cons second rest =>
          rw [List.getLast?_cons_cons] at hlast'
          exact List.mem_of_getLast? hlast'
    have hstate : event.afterPage (left.take event.limit.toNat) =
        event.beyond first.timestamp last'.timestamp := by
      rw [afterPage, if_neg hsmall, if_pos hlength, hlast', hrest]
      rfl
    rw [hstate]
    have hcases := beyond_cases hprecedes (view_times h (hfrom last' hmem))
    revert hcases
    generalize event.beyond first.timestamp last'.timestamp = next
    intro hcases
    cases hcases with
    | resume hbegin =>
        refine .full hfull hlast' (fun hrev => ?_) (.resume ?_ hbegin)
        · rw [if_pos hrev] at hbegin
          omega
        · exact (hgrows.mono (Nat.le_succ n)).subset (hfrom last' hmem)
    | finished hfirst hnone =>
        refine .last hfull hlast' hfirst fun m => List.filter_eq_nil_iff.2 fun t ht => ?_
        rw [decide_eq_true_eq]
        exact hnone t (mem_window.1 ht).2
    | panicked hrev hfirst => exact .panicked hfull hlast' hrev hfirst
  · have hall : left.take event.limit.toNat = left := List.take_of_length_le (by omega)
    have hstate : event.afterPage left = some .finished := by
      rw [hall] at hsmall
      rw [afterPage, if_neg hsmall, if_neg (by omega)]
    rw [hall, hstate]
    exact .short (by omega)

/-! ## The whole stream -/

/-- Full pages in reverse that end with a transfer of the first instant. -/
def EndsAtFirstInstant (event : AccountFilter) (left : List Transfer) : Prop :=
  event.isReverse ∧ event.limit.toNat ∣ left.length ∧ ∃ t ∈ left, t.timestamp.toNat = 1

structure Collected (event : AccountFilter) (fuel : ℕ) (first final : List Transfer)
    (pages : List (List Transfer)) (out : StreamEnd) : Prop where
  read : pages.flatten <+: final
  ended : out = .ended → pages.flatten = final ∧ ¬ event.EndsAtFirstInstant first
  panicked : out = .panicked → event.EndsAtFirstInstant first
  unfinished : out = .unfinished → (fuel - 1) * event.limit.toNat ≤ pages.flatten.length

theorem view_of_isReverse (h : event.isReverse) (n m : ℕ) :
    event.view selected n = event.view selected m := by
  simp only [view, if_pos h]

/-- Only the last transfer in reverse can be of the first instant. -/
theorem timestamp_ne_one {xs : List Transfer} {n : ℕ} {last : Transfer}
    (h : SelectedTransfers selected) (hxs : ∀ t ∈ xs, t ∈ event.view selected n)
    (hsorted : xs.Pairwise event.Precedes) (hlast : xs.getLast? = some last)
    (hrev : event.isReverse) (hne : last.timestamp.toNat ≠ 1) {t : Transfer} (ht : t ∈ xs) :
    t.timestamp.toNat ≠ 1 := by
  obtain ⟨init, rfl⟩ := List.getLast?_eq_some_iff.1 hlast
  rcases List.mem_append.1 ht with hinit | hself
  · have hprecedes := (List.pairwise_append.1 hsorted).2.2 t hinit last (by simp)
    have htime := (view_times h (hxs last (by simp))).1
    rw [precedes_iff, if_pos hrev] at hprecedes
    omega
  · rwa [List.mem_singleton.1 hself]

theorem remaining_first_instant {last : Transfer} (h : SelectedTransfers selected)
    (hrev : event.isReverse) (hfirst : last.timestamp.toNat = 1) (n : ℕ) :
    remaining event.Precedes (some last) (event.view selected n) = [] := by
  refine List.filter_eq_nil_iff.2 fun t ht => ?_
  have := (view_times h ht).1
  rw [decide_eq_true_eq, precedes_iff, if_pos hrev]
  omega

theorem collect_panicked {n : ℕ} {state : PageState}
    (hpull : event.pull (query n) state = .panicked) (fuel : ℕ) :
    event.collect query (fuel + 1) n state = ([], .panicked) := by
  rw [collect, hpull]

theorem collect_yielded {n : ℕ} {state next : PageState}
    {item : Except PacketStatus (List Transfer)}
    (hpull : event.pull (query n) state = .yielded item next) (fuel : ℕ) :
    event.collect query (fuel + 1) n state =
      (item :: (event.collect query fuel (n + 1) next).1,
        (event.collect query fuel (n + 1) next).2) := by
  rw [collect, hpull]

theorem collect_finished (fuel n : ℕ) :
    event.collect query fuel n .finished = ([], if fuel = 0 then .unfinished else .ended) := by
  cases fuel with
  | zero => rfl
  | succ fuel => rfl

theorem Collected.zero (first final : List Transfer) :
    Collected event 0 first final [] .unfinished where
  read := List.nil_prefix
  ended := nofun
  panicked := nofun
  unfinished _ := by
    rw [Nat.zero_sub, Nat.zero_mul]
    exact Nat.zero_le _

theorem Collected.finish {left : List Transfer} (hnot : ¬ event.EndsAtFirstInstant left)
    (fuel : ℕ) : Collected event (fuel + 1) left left [left]
      (if fuel = 0 then .unfinished else .ended) where
  read := by
    rw [List.flatten_singleton]
  ended _ := ⟨List.flatten_singleton, hnot⟩
  panicked hout := by split_ifs at hout
  unfinished hout := by
    split_ifs at hout with hfuel
    rw [hfuel, Nat.zero_add, Nat.sub_self, Nat.zero_mul]
    exact Nat.zero_le _

/-- A full page before what is left after it. -/
theorem Collected.cons {fuel : ℕ} {page first final : List Transfer} {pages : List (List Transfer)}
    {out : StreamEnd} (hc : Collected event fuel first final pages out)
    (hpage : page.length = event.limit.toNat)
    (hfirst : event.isReverse → ∀ t ∈ page, t.timestamp.toNat ≠ 1) :
    Collected event (fuel + 1) (page ++ first) (page ++ final) (page :: pages) out := by
  have hends : event.EndsAtFirstInstant (page ++ first) ↔ event.EndsAtFirstInstant first := by
    unfold EndsAtFirstInstant
    rw [List.length_append, hpage, Nat.dvd_add_right (dvd_refl _)]
    refine and_congr_right fun hrev => and_congr_right fun _ => ⟨?_, ?_⟩
    · rintro ⟨t, ht, htime⟩
      exact ⟨t, (List.mem_append.1 ht).resolve_left fun hmem => hfirst hrev t hmem htime, htime⟩
    · rintro ⟨t, ht, htime⟩
      exact ⟨t, List.mem_append_right _ ht, htime⟩
  refine ⟨?_, fun hout => ?_, fun hout => hends.2 (hc.panicked hout), fun hout => ?_⟩
  · rw [List.flatten_cons]
    exact (List.prefix_append_right_inj page).2 hc.read
  · rw [List.flatten_cons, (hc.ended hout).1, hends]
    exact ⟨rfl, (hc.ended hout).2⟩
  · have hlength := hc.unfinished hout
    rw [List.flatten_cons, List.length_append, hpage, Nat.add_sub_cancel]
    cases fuel with
    | zero =>
        rw [Nat.zero_mul]
        exact Nat.zero_le _
    | succ fuel =>
        rw [Nat.add_sub_cancel] at hlength
        rw [Nat.succ_mul]
        omega

theorem Collected.congr_first {fuel : ℕ} {first first' final : List Transfer}
    {pages : List (List Transfer)} {out : StreamEnd}
    (hc : Collected event fuel first final pages out) (h : event.isReverse → first = first') :
    Collected event fuel first' final pages out := by
  have hends : event.EndsAtFirstInstant first ↔ event.EndsAtFirstInstant first' :=
    and_congr_right fun hrev => by rw [h hrev]
  exact ⟨hc.read, fun hout => (hc.ended hout).imp_right (mt hends.2),
    fun hout => hends.1 (hc.panicked hout), hc.unfinished⟩

theorem collect_spec (h : SelectedTransfers selected)
    (hquery : event.Answers batchMax selected query) (hlimit : 1 < event.limit.toNat)
    (hbatch : event.limit.toNat ≤ batchMax) (fuel : ℕ) {n : ℕ} {state : PageState}
    {last : Option Transfer} (hat : ReadUpTo event selected n state last) :
    ∃ pages out, event.collect query fuel n state = (pages.map .ok, out) ∧
      Collected event fuel (remaining event.Precedes last (event.view selected n))
        (remaining event.Precedes last (event.view selected (n + pages.length - 1))) pages out := by
  induction fuel generalizing n state last with
  | zero => exact ⟨[], .unfinished, rfl, .zero _ _⟩
  | succ fuel ih =>
      have hpull := pull_cases h hquery hlimit hbatch hat
      have hgrows := view_grows event h
      have hsorted := hgrows.remaining_sorted last n
      generalize hpulled : event.pull (query n) state = pulled at hpull
      cases hpull with
      | short hshort =>
          have hnot : ¬ event.EndsAtFirstInstant
              (remaining event.Precedes last (event.view selected n)) := by
            rintro ⟨_, hdvd, t, ht, _⟩
            have := Nat.le_of_dvd (List.length_pos_of_mem ht) hdvd
            omega
          refine ⟨[remaining event.Precedes last (event.view selected n)], _, ?_, .finish hnot fuel⟩
          rw [collect_yielded hpulled, collect_finished]
          rfl
      | @full last' next hfull hlast hfirst hnext =>
          have hlength : ((remaining event.Precedes last (event.view selected n)).take
              event.limit.toNat).length = event.limit.toNat := by
            rw [List.length_take, Nat.min_eq_left hfull]
          obtain ⟨pages, out, hpages, hcollected⟩ := ih hnext
          refine ⟨(remaining event.Precedes last (event.view selected n)).take event.limit.toNat ::
            pages, out, ?_, ?_⟩
          · rw [collect_yielded hpulled, hpages]
            rfl
          · have hm : n + (pages.length + 1) - 1 = n + 1 + pages.length - 1 := by omega
            have hnow := hgrows.remaining_full le_rfl hfull hlast
            rw [List.length_cons, hm,
              hgrows.remaining_full (m := n + 1 + pages.length - 1) (by omega) hfull hlast]
            refine Collected.congr_first (Collected.cons hcollected hlength fun hrev t ht => ?_)
              fun hrev => ?_
            · exact timestamp_ne_one h (fun t ht => mem_of_mem_remaining (List.mem_of_mem_take ht))
                (hsorted.sublist (List.take_sublist _ _)) hlast hrev (hfirst hrev) ht
            · rw [view_of_isReverse hrev (n + 1) n]
              exact hnow.symm
      | @last last' hfull hlast hfirst hnone =>
          have hnow := hgrows.remaining_full le_rfl hfull hlast
          rw [hnone, List.append_nil] at hnow
          refine ⟨[remaining event.Precedes last (event.view selected n)], _, ?_,
            .finish ?_ fuel⟩
          · rw [collect_yielded hpulled, collect_finished, ← hnow]
            rfl
          · rintro ⟨hrev, _, t, ht, htime⟩
            rw [← hnow] at hlast
            exact timestamp_ne_one h (fun t ht => mem_of_mem_remaining ht) hsorted hlast hrev
              (hfirst hrev) ht htime
      | @panicked last' hfull hlast hrev hfirst =>
          have hnow := hgrows.remaining_full le_rfl hfull hlast
          rw [remaining_first_instant h hrev hfirst, List.append_nil] at hnow
          refine ⟨[], .panicked, collect_panicked hpulled fuel, List.nil_prefix, nofun, fun _ => ?_,
            nofun⟩
          refine ⟨hrev, ?_, last', List.mem_of_mem_take (List.mem_of_getLast? hlast), hfirst⟩
          rw [hnow, List.length_take, Nat.min_eq_left hfull]

/-- A paged query whose limit fits a message reads the window, in pages, as it is at its last
query, or in reverse as it was at its first; it fails exactly where full pages in reverse end with
a transfer of the first instant. -/
theorem paged_reads_window (h : SelectedTransfers selected)
    (hquery : event.Answers batchMax selected query) (hlimit : 1 < event.limit.toNat)
    (hbatch : event.limit.toNat ≤ batchMax) (fuel : ℕ) :
    ∃ pages out, getAccountTransfersPaged query event fuel = (pages.map .ok, out) ∧
      Collected event fuel (event.view selected 0) (event.view selected (pages.length - 1))
        pages out := by
  obtain ⟨pages, out, hpages, hcollected⟩ :=
    collect_spec h hquery hlimit hbatch fuel (.start rfl)
  rw [Nat.zero_add] at hcollected
  refine ⟨pages, out, ?_, hcollected⟩
  rw [getAccountTransfersPaged, if_pos hlimit, hpages]

def threeTransfers : List Transfer :=
  [.moving 1 11 12 5 1 0 1, .moving 2 11 12 5 1 0 2, .moving 3 11 12 5 1 0 3]

def latestFirst : AccountFilter := ⟨11, 0, 0, 0, 0, 0, 0, 2, 5⟩

theorem selected_threeTransfers : SelectedTransfers fun _ => threeTransfers where
  sorted _ := by decide
  grows _ := List.prefix_rfl
  times _ := by decide

theorem answers_threeTransfers : latestFirst.Answers 8189 (fun _ => threeTransfers)
    fun _ filter => .ok (filter.answer 8189 threeTransfers) :=
  fun _ _ _ _ => rfl

theorem paged_reads_window_latestFirst : ∃ (pages : List (List Transfer)) (out : StreamEnd),
    getAccountTransfersPaged (fun _ filter => .ok (filter.answer 8189 threeTransfers))
        latestFirst 3 = (pages.map .ok, out) ∧
      Collected latestFirst 3 (latestFirst.view (fun _ => threeTransfers) 0)
        (latestFirst.view (fun _ => threeTransfers) (pages.length - 1)) pages out :=
  paged_reads_window selected_threeTransfers answers_threeTransfers (by decide) (by decide) 3

/-! ## Complete pages -/

/-- A limit beyond what fits a message takes the first message for the end. -/
theorem collect_truncated {xs : List Transfer} (hquery : event.Answers batchMax (fun _ => xs) query)
    (hbatch : batchMax < event.limit.toNat) (fuel : ℕ) :
    event.collect query (fuel + 1) 0 .start =
      ([.ok ((event.window xs).take batchMax)], if fuel = 0 then .unfinished else .ended) := by
  have hpage : query 0 event = .ok ((event.window xs).take batchMax) := by
    rw [hquery 0 .start event rfl, answer, Nat.min_eq_right hbatch.le]
  have hlength : ((event.window xs).take batchMax).length < event.limit.toNat := by
    rw [List.length_take]
    omega
  have hafter : event.afterPage ((event.window xs).take batchMax) = some .finished := by
    have := event.limit.isLt
    rw [afterPage, if_neg (by omega), if_neg (by omega)]
  have hpull : event.pull (query 0) .start =
      .yielded (.ok ((event.window xs).take batchMax)) .finished := by
    rw [pull, atState]
    simp only [hpage, hafter]
  rw [collect_yielded hpull, collect_finished]

/-- Where the cluster does not change, the pages are the whole window exactly when the limit fits a
message and the stream does not end on the first instant, or all of the window fits one
message. -/
theorem paged_complete_iff {xs : List Transfer} (h : SelectedTransfers fun _ => xs)
    (hquery : event.Answers batchMax (fun _ => xs) query) (hlimit : 1 < event.limit.toNat) :
    (∃ (fuel : ℕ) (pages : List (List Transfer)),
      getAccountTransfersPaged query event fuel = (pages.map .ok, .ended) ∧
        pages.flatten = event.window xs) ↔
      (event.limit.toNat ≤ batchMax ∧ ¬ event.EndsAtFirstInstant (event.window xs)) ∨
        (batchMax < event.limit.toNat ∧ (event.window xs).length ≤ batchMax) := by
  have hstart (fuel : ℕ) : getAccountTransfersPaged query event fuel =
      event.collect query fuel 0 .start := if_pos hlimit
  rcases le_or_gt event.limit.toNat batchMax with hbatch | hbatch
  · constructor
    · rintro ⟨fuel, pages, hpages, _⟩
      obtain ⟨pages', out, hpages', hcollected⟩ :=
        collect_spec h hquery hlimit hbatch fuel (.start rfl)
      rw [hstart, hpages', Prod.mk.injEq] at hpages
      exact .inl ⟨hbatch, (hcollected.ended hpages.2).2⟩
    · rintro (⟨_, hnot⟩ | ⟨hlt, _⟩)
      · -- a page more than there are transfers is enough
        obtain ⟨pages, out, hpages, hcollected⟩ :=
          collect_spec h hquery hlimit hbatch ((event.window xs).length + 2) (.start rfl)
        cases out with
        | ended =>
            exact ⟨_, pages, (hstart _).trans hpages, (hcollected.ended rfl).1⟩
        | panicked => exact absurd (hcollected.panicked rfl) hnot
        | unfinished =>
            have hread : pages.flatten.length ≤ (event.window xs).length :=
              hcollected.read.length_le
            have hlong := hcollected.unfinished rfl
            rw [show (event.window xs).length + 2 - 1 = (event.window xs).length + 1 from rfl]
              at hlong
            have : (event.window xs).length + 1 ≤
                ((event.window xs).length + 1) * event.limit.toNat :=
              Nat.le_mul_of_pos_right _ (by omega)
            omega
      · omega
  · constructor
    · rintro ⟨fuel, pages, hpages, hall⟩
      cases fuel with
      | zero =>
          rw [hstart, Prod.mk.injEq] at hpages
          cases hpages.2
      | succ fuel =>
          rw [hstart, collect_truncated hquery hbatch, Prod.mk.injEq] at hpages
          have hone : pages = [(event.window xs).take batchMax] :=
            (List.map_injective_iff.2 fun _ _ => Except.ok.inj) hpages.1.symm
          rw [hone, List.flatten_singleton, List.take_eq_self_iff] at hall
          exact .inr ⟨hbatch, hall⟩
    · rintro (⟨hle, _⟩ | ⟨_, hall⟩)
      · omega
      · refine ⟨2, [event.window xs], ?_, List.flatten_singleton⟩
        rw [hstart, collect_truncated hquery hbatch, List.take_of_length_le hall]
        rfl

theorem paged_complete_iff_latestFirst :
    (∃ (fuel : ℕ) (pages : List (List Transfer)), getAccountTransfersPaged
        (fun _ filter => .ok (filter.answer 8189 threeTransfers)) latestFirst fuel =
          (pages.map .ok, .ended) ∧ pages.flatten = latestFirst.window threeTransfers) ↔
      (latestFirst.limit.toNat ≤ 8189 ∧
          ¬ latestFirst.EndsAtFirstInstant (latestFirst.window threeTransfers)) ∨
        (8189 < latestFirst.limit.toNat ∧ (latestFirst.window threeTransfers).length ≤ 8189) :=
  paged_complete_iff selected_threeTransfers answers_threeTransfers (by decide)

end AccountFilter

end TbManager
