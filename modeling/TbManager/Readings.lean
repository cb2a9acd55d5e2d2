import TbManager.Outcome

/-!
# Readings

A reading is what an iterator has before it: the items that it still yields and
how it stops after them. Readings are joined as lists are, up to the first one
that does not reach its end.
-/

namespace TbManager

structure Reading (ε α : Type) where
  items : List α
  stop : Outcome ε Unit
  deriving DecidableEq, Repr

namespace Reading

variable {ε ε' α β σ : Type}

def nil : Reading ε α := ⟨[], .ok ()⟩

def ofItems (as : List α) : Reading ε α := ⟨as, .ok ()⟩

def failed (e : ε) : Reading ε α := ⟨[], .err e⟩

def cons (a : α) (r : Reading ε α) : Reading ε α := ⟨a :: r.items, r.stop⟩

protected def append (r s : Reading ε α) : Reading ε α :=
  match r.stop with
  | .ok () => ⟨r.items ++ s.items, s.stop⟩
  | .err _ => r
  | .panic => r
  | .running => r

instance : Append (Reading ε α) := ⟨Reading.append⟩

def join (rs : List (Reading ε α)) : Reading ε α := rs.foldr (· ++ ·) nil

def ofOutcome (x : Outcome ε β) (f : β → Reading ε α) : Reading ε α :=
  match x with
  | .ok b => f b
  | .err e => failed e
  | .panic => ⟨[], .panic⟩
  | .running => ⟨[], .running⟩

def mapErr (f : ε → ε') (r : Reading ε α) : Reading ε' α := ⟨r.items, r.stop.mapErr f⟩

def results (r : Reading ε α) : List (Except ε α) :=
  r.items.map .ok ++
    match r.stop with
    | .err e => [.error e]
    | _ => []

@[simp] theorem append_nil (r : Reading ε α) : r ++ nil = r := by
  obtain ⟨items, stop⟩ := r
  change Reading.append _ _ = _
  cases stop with
  | ok u => simp [Reading.append, nil]
  | err e => rfl
  | panic => rfl
  | running => rfl

@[simp] theorem cons_append (a : α) (r s : Reading ε α) : cons a r ++ s = cons a (r ++ s) := by
  obtain ⟨items, stop⟩ := r
  cases stop <;> rfl

theorem append_of_stop_ne {r : Reading ε α} (h : r.stop ≠ .ok ()) (s : Reading ε α) :
    r ++ s = r := by
  obtain ⟨items, stop⟩ := r
  cases stop with
  | ok u => exact absurd rfl h
  | err e => rfl
  | panic => rfl
  | running => rfl

@[simp] theorem join_nil : join ([] : List (Reading ε α)) = nil := rfl

@[simp] theorem join_cons (r : Reading ε α) (rs : List (Reading ε α)) :
    join (r :: rs) = r ++ join rs := rfl

theorem join_ofItems (parts : List (List α)) :
    join (parts.map ofItems) = (ofItems parts.flatten : Reading ε α) := by
  induction parts with
  | nil => rfl
  | cons part parts ih =>
      rw [List.map_cons, join_cons, ih]
      rfl

theorem mapErr_append (f : ε → ε') (r s : Reading ε α) :
    (r ++ s).mapErr f = r.mapErr f ++ s.mapErr f := by
  obtain ⟨items, stop⟩ := r
  cases stop <;> rfl

theorem results_mapErr (f : ε → ε') (r : Reading ε α) :
    (r.mapErr f).results = r.results.map (Except.mapError f) := by
  obtain ⟨items, stop⟩ := r
  have hitems : (items.map (Except.ok : α → Except ε α)).map (Except.mapError f) =
      items.map Except.ok := by
    rw [List.map_map]
    rfl
  unfold results
  rw [List.map_append]
  change items.map Except.ok ++ _ = (items.map Except.ok).map (Except.mapError f) ++ _
  rw [hitems]
  cases stop <;> rfl

/-- A panic after the first reading or, if that ends, after the second. -/
theorem stop_append_panic {r s : Reading ε α}
    (h : r.stop = .panic ∨ r.stop = .ok () ∧ s.stop = .panic) : (r ++ s).stop = .panic := by
  obtain ⟨items, stop⟩ := r
  rcases h with h | ⟨h, hs⟩
  · cases h
    rfl
  · cases h
    exact hs

theorem stop_append_iff {r s : Reading ε α} :
    (r ++ s).stop = .ok () ↔ r.stop = .ok () ∧ s.stop = .ok () := by
  obtain ⟨items, stop⟩ := r
  change (Reading.append _ _).stop = _ ↔ _
  cases stop <;> simp [Reading.append]

theorem stop_join_iff {rs : List (Reading ε α)} :
    (join rs).stop = .ok () ↔ ∀ r ∈ rs, r.stop = .ok () := by
  induction rs with
  | nil => simp [nil]
  | cons r rs ih => rw [join_cons, stop_append_iff, ih, List.forall_mem_cons]

theorem finished_join {rs : List (Reading ε α)} (h : ∀ r ∈ rs, r.stop.Finished) :
    (join rs).stop.Finished := by
  induction rs with
  | nil => trivial
  | cons r rs ih =>
      have hr := h r List.mem_cons_self
      have hrs := ih fun r hr => h r (List.mem_cons_of_mem _ hr)
      obtain ⟨items, stop⟩ := r
      cases stop with
      | ok u => exact hrs
      | err e => trivial
      | panic => exact hr
      | running => exact hr

theorem finished_of_mapErr {f : ε → ε'} {r : Reading ε α} (h : (r.mapErr f).stop.Finished) :
    r.stop.Finished := by
  obtain ⟨items, stop⟩ := r
  cases stop with
  | ok u => trivial
  | err e => trivial
  | panic => exact h
  | running => exact h

/-! ## Families of readings -/

/-- All readings of a family are one, which is the reference but for the error itself. -/
def Settles {ι : Type} (run : ι → Reading ε α) (ref : Reading Unit α) : Prop :=
  ∃ r, (∀ i, run i = r) ∧ r.mapErr (fun _ => ()) = ref

section Settles

variable {ι : Type} {run run' : ι → Reading ε α} {ref ref' : Reading Unit α}

theorem Settles.stop_iff (h : Settles run ref) (i : ι) :
    (run i).stop = .ok () ↔ ref.stop = .ok () := by
  obtain ⟨⟨items, stop⟩, hrun, rfl⟩ := h
  rw [hrun]
  cases stop <;> simp [mapErr, Outcome.mapErr]

/-- The second readings count only where the first ones reach their end. -/
theorem Settles.append (h : Settles run ref) (h' : ref.stop = .ok () → Settles run' ref') :
    Settles (fun i => run i ++ run' i) (ref ++ ref') := by
  obtain ⟨r, hrun, rfl⟩ := h
  by_cases hstop : r.stop = .ok ()
  · have href : (r.mapErr fun _ => ()).stop = .ok () := by
      rw [mapErr, hstop]
      rfl
    obtain ⟨r', hrun', rfl⟩ := h' href
    refine ⟨r ++ r', fun i => ?_, mapErr_append _ r r'⟩
    dsimp only
    rw [hrun, hrun']
  · refine ⟨r, fun i => ?_, ?_⟩
    · dsimp only
      rw [hrun, append_of_stop_ne hstop]
    · rw [append_of_stop_ne]
      intro hok
      obtain ⟨items, stop⟩ := r
      cases stop with
      | ok u => exact hstop rfl
      | err e => cases hok
      | panic => cases hok
      | running => cases hok

end Settles

/-- All readings of a family are one, which ends or has an error. -/
def Steady {ι : Type} (run : ι → Reading ε α) : Prop :=
  ∃ r, (∀ i, run i = r) ∧ r.stop.Finished

theorem Settles.steady {ι : Type} {run : ι → Reading ε α} {ref : Reading Unit α}
    (h : Settles run ref) (href : ref.stop.Finished) : Steady run := by
  obtain ⟨r, hrun, rfl⟩ := h
  exact ⟨r, hrun, finished_of_mapErr href⟩

theorem steady_ofOutcome {ι : Type} {run : ι → Outcome ε β} {f : β → Reading ε α}
    (h : Outcome.Settled run) (hf : ∀ b, (f b).stop.Finished) :
    Steady fun i => ofOutcome (run i) f := by
  obtain ⟨r, hr⟩ := h
  refine ⟨ofOutcome (.ofExcept r) f, fun i => congrArg (ofOutcome · f) (hr i), ?_⟩
  cases r with
  | ok b => exact hf b
  | error e => trivial

theorem steady_join {ι : Type} {f : ι → β → Reading ε α} {xs : List β}
    (h : ∀ x ∈ xs, Steady fun i => f i x) : Steady fun i => join (xs.map (f i)) := by
  induction xs with
  | nil => exact ⟨nil, fun _ => rfl, trivial⟩
  | cons x xs ih =>
      obtain ⟨r, hr, hfinished⟩ := h x List.mem_cons_self
      obtain ⟨s, hs, hfinished'⟩ := ih fun y hy => h y (List.mem_cons_of_mem x hy)
      refine ⟨r ++ s, fun i => congrArg₂ (· ++ ·) (hr i) (hs i), ?_⟩
      obtain ⟨items, stop⟩ := r
      cases stop with
      | ok u => exact hfinished'
      | err e => trivial
      | panic => exact hfinished
      | running => exact hfinished

/-! ## Iterators of a reading -/

/-- One call of an iterator takes the first item off a reading; `R` relates the
new state to what is left, `S` holds after the error. -/
inductive Takes (R : σ → Reading ε α → Prop) (S : σ → Prop) :
    Outcome ε (Option (Except ε α) × σ) → Reading ε α → Prop
  | item {a : α} {as : List α} {stop : Outcome ε Unit} {st : σ} (h : R st ⟨as, stop⟩) :
      Takes R S (.ok (some (.ok a), st)) ⟨a :: as, stop⟩
  | finish {st : σ} (h : R st nil) : Takes R S (.ok (none, st)) ⟨[], .ok ()⟩
  | fail {e : ε} {st : σ} (h : S st) : Takes R S (.ok (some (.error e), st)) ⟨[], .err e⟩
  | panic : Takes R S .panic ⟨[], .panic⟩
  | running : Takes R S .running ⟨[], .running⟩

theorem Takes.mono {S S' : σ → Prop} {R R' : σ → Reading ε α → Prop}
    {out : Outcome ε (Option (Except ε α) × σ)} {r : Reading ε α} (h : Takes R S out r)
    (hR : ∀ st r, R st r → R' st r) (hS : ∀ st, S st → S' st) : Takes R' S' out r := by
  cases h with
  | item h => exact .item (hR _ _ h)
  | finish h => exact .finish (hR _ _ h)
  | fail h => exact .fail (hS _ h)
  | panic => exact .panic
  | running => exact .running

/-- A call that goes on to a second reading where the first is used up. -/
theorem Takes.append {S S' : σ → Prop} {R R' : σ → Reading ε α → Prop}
    {out : Outcome ε (Option (Except ε α) × σ)} {r s : Reading ε α}
    {k : Option (Except ε α) × σ → Outcome ε (Option (Except ε α) × σ)} (h : Takes R S out r)
    (hitem : ∀ a st r, R st r → Takes R' S' (k (some (.ok a), st)) (cons a (r ++ s)))
    (hfinish : ∀ st, R st nil → Takes R' S' (k (none, st)) s)
    (hfail : ∀ e st, S st → Takes R' S' (k (some (.error e), st)) (failed e)) :
    Takes R' S' (out >>= k) (r ++ s) := by
  cases h with
  | @item a as stop st h =>
      change Takes R' S' _ (cons a ⟨as, stop⟩ ++ s)
      rw [cons_append]
      exact hitem _ _ _ h
  | finish h => exact hfinish _ h
  | fail h => exact hfail _ _ h
  | panic => exact .panic
  | running => exact .running

/-- A load either changes the state so that a reading is before it, or fails as the reading does. -/
inductive Loads (R : σ → Reading ε α → Prop) : Outcome ε σ → Reading ε α → Prop
  | ok {st : σ} {r : Reading ε α} (h : R st r) : Loads R (.ok st) r
  | err {e : ε} : Loads R (.err e) (failed e)
  | panic : Loads R .panic ⟨[], .panic⟩
  | running : Loads R .running ⟨[], .running⟩

theorem Loads.mono {R R' : σ → Reading ε α → Prop} {x : Outcome ε σ} {r : Reading ε α}
    (h : Loads R x r) (hR : ∀ st r, R st r → R' st r) : Loads R' x r := by
  cases h with
  | ok h => exact .ok (hR _ _ h)
  | err => exact .err
  | panic => exact .panic
  | running => exact .running

/-- A call that loads a first reading and goes on with it. -/
theorem Loads.takes {τ : Type} {S' : τ → Prop} {R : σ → Reading ε α → Prop}
    {R' : τ → Reading ε α → Prop} {x : Outcome ε σ} {r s : Reading ε α}
    {k : Except ε σ → Outcome ε (Option (Except ε α) × τ)} (h : Loads R x r)
    (hok : ∀ st, R st r → Takes R' S' (k (.ok st)) (r ++ s))
    (herr : ∀ e, Takes R' S' (k (.error e)) (failed e)) :
    Takes R' S' (x.attempt >>= k) (r ++ s) := by
  cases h with
  | ok h => exact hok _ h
  | err => exact herr _
  | panic => exact .panic
  | running => exact .running

/-- Every call of the iterator takes the next item, and none after the last or the error. -/
def Simulates (next : σ → Outcome ε (Option (Except ε α) × σ)) (R : σ → Reading ε α → Prop) :
    Prop :=
  ∀ st r, R st r → Takes R (fun st => R st nil) (next st) r

variable {next : σ → Outcome ε (Option (Except ε α) × σ)} {R : σ → Reading ε α → Prop}
  {st : σ} {r : Reading ε α}

theorem Simulates.yields (hsim : Simulates next R) (hR : R st r) (hstop : r.stop.Finished) :
    Outcome.Yields next st r.results := by
  have hnil : ∀ st, R st nil → Outcome.Yields next st [] := by
    intro st hR
    have htakes := hsim st nil hR
    generalize hnext : next st = out at htakes
    cases htakes with
    | finish h => exact .nil hnext
  obtain ⟨items, stop⟩ := r
  induction items generalizing st with
  | nil =>
      have htakes := hsim st _ hR
      generalize hnext : next st = out at htakes
      cases htakes with
      | finish h => exact .nil hnext
      | fail h => exact .cons hnext (hnil _ h)
      | panic => exact hstop.elim
      | running => exact hstop.elim
  | cons a items ih =>
      have htakes := hsim st _ hR
      generalize hnext : next st = out at htakes
      cases htakes with
      | item h => exact .cons hnext (ih h hstop)

theorem take_append_replicate_succ (xs : List β) (b : β) (n : ℕ) :
    (xs ++ List.replicate (n + 1) b).take n = (xs ++ List.replicate n b).take n := by
  rw [List.take_append, List.take_append, List.take_replicate, List.take_replicate]
  congr 2
  omega

theorem Simulates.produces (hsim : Simulates next R) (hR : R st r) (hstop : r.stop.Finished) :
    Outcome.Produces next st r.results := by
  intro n
  induction n generalizing st r with
  | zero => rfl
  | succ n ih =>
      have htakes := hsim st r hR
      generalize hnext : next st = out at htakes
      rw [Outcome.nextCalls, hnext]
      cases htakes with
      | item h =>
          rw [Outcome.ok_bind, ih h hstop, ← take_append_replicate_succ]
          rfl
      | finish h =>
          rw [Outcome.ok_bind, ih h trivial]
          rfl
      | fail h =>
          rw [Outcome.ok_bind, ih h trivial, ← take_append_replicate_succ]
          rfl
      | panic => exact hstop.elim
      | running => exact hstop.elim

theorem Simulates.nextCalls_panic (hsim : Simulates next R) (hR : R st r)
    (hstop : r.stop = .panic) : Outcome.nextCalls next (r.items.length + 1) st = .panic := by
  obtain ⟨items, stop⟩ := r
  cases hstop
  induction items generalizing st with
  | nil =>
      have htakes := hsim st _ hR
      generalize hnext : next st = out at htakes
      rw [List.length_nil, Outcome.nextCalls, hnext]
      cases htakes with
      | panic => rfl
  | cons a items ih =>
      have htakes := hsim st _ hR
      generalize hnext : next st = out at htakes
      rw [Outcome.nextCalls, hnext]
      cases htakes with
      | item h =>
          rw [Outcome.ok_bind, List.length_cons, ih h]
          rfl

theorem Simulates.drain_panic (hsim : Simulates next R) (hR : R st r) (hstop : r.stop = .panic)
    {fuel : ℕ} (hfuel : r.items.length < fuel) : Outcome.drain next fuel st = .panic := by
  obtain ⟨items, stop⟩ := r
  cases hstop
  induction items generalizing st fuel with
  | nil =>
      obtain ⟨fuel, rfl⟩ := Nat.exists_eq_add_of_lt hfuel
      have htakes := hsim st _ hR
      generalize hnext : next st = out at htakes
      rw [Outcome.drain, hnext]
      cases htakes with
      | panic => rfl
  | cons a items ih =>
      rw [List.length_cons] at hfuel
      obtain ⟨fuel, rfl⟩ : ∃ n, fuel = n + 1 := ⟨fuel - 1, by omega⟩
      have htakes := hsim st _ hR
      generalize hnext : next st = out at htakes
      rw [Outcome.drain, hnext]
      cases htakes with
      | item h =>
          rw [Outcome.ok_bind]
          dsimp only
          rw [ih h (Nat.lt_of_succ_lt_succ hfuel)]
          rfl

theorem opens_of_steady {ι : Type} {run : ι → ℕ → Outcome ε σ}
    {nexts : ι → σ → Outcome ε (Option (Except ε α) × σ)} {R : ι → σ → Reading ε α → Prop}
    {readings : ι → Reading ε α} (hsim : ∀ i, Simulates (nexts i) (R i))
    (hrun : ∀ i, ∃ st, Outcome.Returns (run i) (.ok st) ∧ R i st (readings i))
    (h : Steady readings) : Outcome.Opens run nexts := by
  obtain ⟨r, hr, hfinished⟩ := h
  refine .inr ⟨r.results, fun i => ?_⟩
  obtain ⟨st, hst, hR⟩ := hrun i
  rw [hr i] at hR
  exact ⟨st, hst, (hsim i).yields hR hfinished⟩

end Reading

end TbManager
