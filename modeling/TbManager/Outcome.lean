import Mathlib

/-!
# Outcomes of fallible loops

A computation returns a value or an error, panics, or is still running when its
fuel is used up. Iterators are a state with a fallible `next`; what such an
iterator yields is a list, and the adapters that skip, take and collect are
functions of that list.
-/

namespace TbManager

universe u

/-! ## Optional and fallible values -/

theorem exceptBind_eq_ok_iff {ε α β : Type} {x : Except ε α} {f : α → Except ε β} {b : β} :
    x >>= f = .ok b ↔ ∃ a, x = .ok a ∧ f a = .ok b := by
  cases x with
  | ok a =>
      constructor
      · exact fun h => ⟨a, rfl, h⟩
      · rintro ⟨a', ha, h⟩
        cases ha
        exact h
  | error e =>
      constructor
      · exact fun h => (by cases h)
      · rintro ⟨a, ha, -⟩
        cases ha

section MapM

variable {α β γ : Type*} {f : α → Option β}

theorem mapM_eq_some_map {g : α → β} {xs : List α} (h : ∀ x ∈ xs, f x = some (g x)) :
    xs.mapM f = some (xs.map g) := by
  induction xs with
  | nil => rfl
  | cons x xs ih =>
      rw [List.mapM_cons, h x List.mem_cons_self, ih fun y hy => h y (List.mem_cons_of_mem x hy)]
      rfl

theorem exists_of_mem_mapM {xs : List α} {ys : List β} (h : xs.mapM f = some ys) {y : β}
    (hy : y ∈ ys) : ∃ x ∈ xs, f x = some y := by
  induction xs generalizing ys with
  | nil =>
      cases h
      cases hy
  | cons x xs ih =>
      simp only [List.mapM_cons, Option.bind_eq_bind, Option.bind_eq_some_iff] at h
      obtain ⟨y', hx, ys', hxs, hys⟩ := h
      rw [← Option.some.inj hys] at hy
      rcases List.mem_cons.1 hy with rfl | hy
      · exact ⟨x, List.mem_cons_self, hx⟩
      · obtain ⟨z, hz, hzy⟩ := ih hxs hy
        exact ⟨z, List.mem_cons_of_mem x hz, hzy⟩

theorem map_eq_of_mapM {xs : List α} {ys : List β} (h : xs.mapM f = some ys) {g : α → γ}
    {g' : β → γ} (hg : ∀ x y, f x = some y → g' y = g x) : ys.map g' = xs.map g := by
  induction xs generalizing ys with
  | nil =>
      cases h
      rfl
  | cons x xs ih =>
      simp only [List.mapM_cons, Option.bind_eq_bind, Option.bind_eq_some_iff] at h
      obtain ⟨y, hx, ys', hxs, hys⟩ := h
      rw [← Option.some.inj hys, List.map_cons, List.map_cons, hg x y hx, ih hxs]

end MapM

/-! ## Outcomes -/

inductive Outcome (ε α : Type u) where
  | ok (a : α)
  | err (e : ε)
  | panic
  | running
  deriving DecidableEq, Repr

namespace Outcome

variable {ε α β σ : Type u}

protected def bind (x : Outcome ε α) (f : α → Outcome ε β) : Outcome ε β :=
  match x with
  | ok a => f a
  | err e => err e
  | panic => panic
  | running => running

instance : Monad (Outcome ε) where
  pure := ok
  bind := Outcome.bind

@[simp] theorem ok_bind (a : α) (f : α → Outcome ε β) : (ok a >>= f) = f a := rfl

@[simp] theorem err_bind (e : ε) (f : α → Outcome ε β) : (err e >>= f) = err e := rfl

@[simp] theorem panic_bind (f : α → Outcome ε β) : (panic >>= f : Outcome ε β) = panic := rfl

@[simp] theorem running_bind (f : α → Outcome ε β) :
    (running >>= f : Outcome ε β) = running := rfl

theorem bind_eq_ok_iff {x : Outcome ε α} {f : α → Outcome ε β} {b : β} :
    x >>= f = ok b ↔ ∃ a, x = ok a ∧ f a = ok b := by
  constructor
  · intro h
    cases x with
    | ok a => exact ⟨a, rfl, h⟩
    | err e => cases h
    | panic => cases h
    | running => cases h
  · rintro ⟨a, rfl, h⟩
    exact h

/-- No value is a panic. -/
def ofOption : Option α → Outcome ε α
  | some a => ok a
  | none => panic

def ofExcept : Except ε α → Outcome ε α
  | .ok a => ok a
  | .error e => err e

/-- `ok_or_else`. -/
def okOr (o : Option α) (e : ε) : Outcome ε α :=
  match o with
  | some a => ok a
  | none => err e

/-- The result of a computation as a value, unless it panics. -/
def attempt : Outcome ε α → Outcome ε (Except ε α)
  | ok a => ok (.ok a)
  | err e => ok (.error e)
  | panic => panic
  | running => running

@[simp] theorem ofOption_some (a : α) : (ofOption (some a) : Outcome ε α) = ok a := rfl

@[simp] theorem ofOption_none : (ofOption none : Outcome ε α) = panic := rfl

theorem ofOption_eq_ok {o : Option α} {a : α} (h : (ofOption o : Outcome ε α) = ok a) :
    o = some a := by
  cases o with
  | none => cases h
  | some b =>
      cases h
      rfl

@[simp] theorem ofExcept_ok (a : α) : (ofExcept (.ok a) : Outcome ε α) = ok a := rfl

@[simp] theorem attempt_ok (a : α) : (ok a : Outcome ε α).attempt = ok (.ok a) := rfl

@[simp] theorem attempt_err (e : ε) : (err e : Outcome ε α).attempt = ok (.error e) := rfl

/-- An attempt goes on after a value and after an error, not after a panic. -/
theorem attempt_eq_ok_iff {x : Outcome ε α} {r : Except ε α} :
    x.attempt = ok r ↔ (∃ a, x = ok a ∧ r = .ok a) ∨ ∃ e, x = err e ∧ r = .error e := by
  constructor
  · intro h
    cases x with
    | ok a => exact .inl ⟨a, rfl, (Outcome.ok.inj h).symm⟩
    | err e => exact .inr ⟨e, rfl, (Outcome.ok.inj h).symm⟩
    | panic => cases h
    | running => cases h
  · rintro (⟨a, rfl, rfl⟩ | ⟨e, rfl, rfl⟩)
    · rfl
    · rfl

def mapErr {ε' : Type u} (f : ε → ε') : Outcome ε α → Outcome ε' α
  | ok a => ok a
  | err e => err (f e)
  | panic => panic
  | running => running

/-- A value or an error. -/
def Finished : Outcome ε α → Prop
  | ok _ => True
  | err _ => True
  | panic => False
  | running => False

theorem ofExcept_mapError_ok {ε' : Type u} {x : Except ε' α} {f : ε' → ε} {a : α}
    (h : ofExcept (x.mapError f) = ok a) : x = .ok a := by
  cases x with
  | ok b =>
      cases h
      rfl
  | error e => cases h

/-- The outcome of a loop, given enough fuel. -/
def Returns (run : ℕ → Outcome ε α) (r : Outcome ε α) : Prop := ∃ n, ∀ fuel, n ≤ fuel → run fuel = r

theorem Returns.unique {run : ℕ → Outcome ε α} {r r' : Outcome ε α} (h : Returns run r)
    (h' : Returns run r') : r = r' := by
  obtain ⟨n, hn⟩ := h
  obtain ⟨m, hm⟩ := h'
  rw [← hn (max n m) (le_max_left n m), hm (max n m) (le_max_right n m)]

theorem returns_const (r : Outcome ε α) : Returns (fun _ => r) r := ⟨0, fun _ _ => rfl⟩

theorem Returns.bind {run : ℕ → Outcome ε α} {k : ℕ → α → Outcome ε β} {a : α}
    {r : Outcome ε β} (h : Returns run (ok a)) (hk : Returns (fun n => k n a) r) :
    Returns (fun n => run n >>= k n) r := by
  obtain ⟨n, hn⟩ := h
  obtain ⟨m, hm⟩ := hk
  refine ⟨max n m, fun fuel hfuel => ?_⟩
  dsimp only
  rw [hn fuel ((le_max_left n m).trans hfuel), ok_bind]
  exact hm fuel ((le_max_right n m).trans hfuel)

theorem Returns.bind_err {run : ℕ → Outcome ε α} {k : ℕ → α → Outcome ε β} {e : ε}
    (h : Returns run (err e)) : Returns (fun n => run n >>= k n) (err e) := by
  obtain ⟨n, hn⟩ := h
  refine ⟨n, fun fuel hfuel => ?_⟩
  dsimp only
  rw [hn fuel hfuel, err_bind]

theorem Returns.bind_panic {run : ℕ → Outcome ε α} {k : ℕ → α → Outcome ε β}
    (h : Returns run panic) : Returns (fun n => run n >>= k n) panic := by
  obtain ⟨n, hn⟩ := h
  refine ⟨n, fun fuel hfuel => ?_⟩
  dsimp only
  rw [hn fuel hfuel, panic_bind]

theorem finished_ofExcept (r : Except ε α) : (ofExcept r).Finished := by
  cases r <;> trivial

theorem Finished.bind {x : Outcome ε α} {f : α → Outcome ε β} (h : x.Finished)
    (hf : ∀ a, x = ok a → (f a).Finished) : (x >>= f).Finished := by
  cases x with
  | ok a => exact hf a rfl
  | err e => trivial
  | panic => exact h.elim
  | running => exact h.elim

/-! ## Builds that agree -/

section Builds

variable {ι : Type}

/-- Every build returns the same value or the same error. -/
def Settled (run : ι → Outcome ε α) : Prop := ∃ r : Except ε α, ∀ i, run i = ofExcept r

/-- With enough fuel every build returns the same value or the same error. -/
def Survives (run : ι → ℕ → Outcome ε α) : Prop := ∃ r : Except ε α, ∀ i, Returns (run i) (ofExcept r)

theorem settled_of_finished {x : Outcome ε α} (h : x.Finished) : Settled fun _ : ι => x := by
  cases x with
  | ok a => exact ⟨.ok a, fun _ => rfl⟩
  | err e => exact ⟨.error e, fun _ => rfl⟩
  | panic => exact h.elim
  | running => exact h.elim

theorem Settled.survives {run : ι → Outcome ε α} (h : Settled run) :
    Survives fun i _ => run i := by
  obtain ⟨r, hr⟩ := h
  exact ⟨r, fun i => hr i ▸ returns_const _⟩

theorem Survives.bind {run : ι → ℕ → Outcome ε α} {k : ι → ℕ → α → Outcome ε β}
    (h : Survives run) (hk : ∀ a, (∀ i, Returns (run i) (ok a)) → Survives fun i n => k i n a) :
    Survives fun i n => run i n >>= k i n := by
  obtain ⟨r, hr⟩ := h
  cases r with
  | error e => exact ⟨.error e, fun i => (hr i).bind_err⟩
  | ok a =>
      obtain ⟨r', hr'⟩ := hk a hr
      exact ⟨r', fun i => (hr i).bind (hr' i)⟩

theorem not_survives_of_panic {run : ι → ℕ → Outcome ε α} {i : ι} (h : Returns (run i) panic) :
    ¬ Survives run := by
  rintro ⟨r, hr⟩
  have heq := h.unique (hr i)
  cases r <;> cases heq

end Builds

/-! ## Iterators -/

section Iterator

variable (next : σ → Outcome ε (Option (Except ε α) × σ))

/-- The items an iterator yields until it is exhausted. -/
inductive Yields : σ → List (Except ε α) → Prop
  | nil {st st' : σ} (h : next st = ok (none, st')) : Yields st []
  | cons {st st' : σ} {x : Except ε α} {xs : List (Except ε α)}
      (h : next st = ok (some x, st')) (hrest : Yields st' xs) : Yields st (x :: xs)

/-- The results of the first calls. -/
def nextCalls : ℕ → σ → Outcome ε (List (Option (Except ε α)))
  | 0, _ => ok []
  | n + 1, st => do
    let r ← next st
    let rest ← nextCalls n r.2
    ok (r.1 :: rest)

/-- The calls return these items and then none, however often they are repeated. -/
def Produces (st : σ) (xs : List (Except ε α)) : Prop :=
  ∀ n, nextCalls next n st = ok ((xs.map some ++ List.replicate n none).take n)

/-- The items up to the first call that returns none. -/
def drain : ℕ → σ → Outcome ε (List (Except ε α))
  | 0, _ => running
  | fuel + 1, st => do
    let r ← next st
    match r with
    | (none, _) => ok []
    | (some x, st) => do
      let rest ← drain fuel st
      ok (x :: rest)

/-- `advance_by`: the state after some items, none if there are not so many. -/
def skipItems : ℕ → σ → Outcome ε (Option σ)
  | 0, st => ok (some st)
  | n + 1, st => do
    let r ← next st
    match r with
    | (none, _) => ok none
    | (some _, st) => skipItems n st

/-- `take(k).collect::<Result<Vec<_>, _>>()`: nothing is read after the first error. -/
def collectItems : ℕ → σ → Outcome ε (List α)
  | 0, _ => ok []
  | k + 1, st => do
    let r ← next st
    match r with
    | (none, _) => ok []
    | (some (.error e), _) => err e
    | (some (.ok a), st) => do
      let rest ← collectItems k st
      ok (a :: rest)

/-- `skip(n).take(k).collect::<Result<Vec<_>, _>>()`. -/
def pageItems (n k : ℕ) (st : σ) : Outcome ε (List α) :=
  if k = 0 then ok []
  else do
    let st ← skipItems next n st
    match st with
    | none => ok []
    | some st => collectItems next k st

variable {next}

theorem drain_eq {st : σ} {xs : List (Except ε α)} (h : Yields next st xs) {fuel : ℕ}
    (hfuel : xs.length < fuel) : drain next fuel st = ok xs := by
  induction fuel generalizing st xs with
  | zero => cases hfuel
  | succ fuel ih =>
      cases h with
      | nil hnext =>
          rw [drain, hnext]
          rfl
      | cons hnext hrest =>
          rw [List.length_cons] at hfuel
          rw [drain, hnext, ok_bind]
          dsimp only
          rw [ih hrest (by omega), ok_bind]

theorem returns_drain {st : σ} {xs : List (Except ε α)} (h : Yields next st xs) :
    Returns (fun fuel => drain next fuel st) (ok xs) :=
  ⟨xs.length + 1, fun _ hfuel => drain_eq h hfuel⟩

theorem collectItems_of_yields {st : σ} {xs : List (Except ε α)} (h : Yields next st xs) (k : ℕ) :
    collectItems next k st = ofExcept ((xs.take k).mapM id) := by
  induction k generalizing st xs with
  | zero => rfl
  | succ k ih =>
      cases h with
      | nil hnext =>
          rw [collectItems, hnext]
          rfl
      | @cons _ _ x xs hnext hrest =>
          rw [collectItems, hnext, List.take_succ_cons, List.mapM_cons]
          cases x with
          | error e => rfl
          | ok a =>
              change (collectItems next k _ >>= fun rest => ok (a :: rest)) = _
              rw [ih hrest]
              cases (xs.take k).mapM id <;> rfl

theorem skipItems_eq {st : σ} {xs : List (Except ε α)} (h : Yields next st xs) (n : ℕ) :
    (skipItems next n st = ok none ∧ xs.drop n = []) ∨
      ∃ st', skipItems next n st = ok (some st') ∧ Yields next st' (xs.drop n) := by
  induction n generalizing st xs with
  | zero => exact .inr ⟨st, rfl, h⟩
  | succ n ih =>
      cases h with
      | nil hnext =>
          left
          rw [skipItems, hnext]
          exact ⟨rfl, rfl⟩
      | cons hnext hrest =>
          rw [skipItems, hnext]
          exact ih hrest

/-- A page of an iterator is a page of its list, or the first error on it. -/
theorem pageItems_of_yields {st : σ} {xs : List (Except ε α)} (h : Yields next st xs) (n k : ℕ) :
    pageItems next n k st = ofExcept (((xs.drop n).take k).mapM id) := by
  unfold pageItems
  by_cases hk : k = 0
  · rw [if_pos hk, hk]
    rfl
  · rw [if_neg hk]
    rcases skipItems_eq h n with ⟨hskip, hdrop⟩ | ⟨st', hskip, hrest⟩
    · rw [hskip, hdrop, List.take_nil]
      rfl
    · rw [hskip]
      exact collectItems_of_yields hrest k

theorem mapM_map_ok (as : List α) : (as.map (Except.ok : α → Except ε α)).mapM id = .ok as := by
  induction as with
  | nil => rfl
  | cons a as ih =>
      rw [List.map_cons, List.mapM_cons, ih]
      rfl

section Opens

variable {ι : Type} {run : ι → ℕ → Outcome ε σ}
  {nexts : ι → σ → Outcome ε (Option (Except ε α) × σ)}

/-- Every build fails alike to open an iterator, or opens one that yields the same items. -/
def Opens (run : ι → ℕ → Outcome ε σ) (nexts : ι → σ → Outcome ε (Option (Except ε α) × σ)) :
    Prop :=
  (∃ e, ∀ i, Returns (run i) (err e)) ∨
    ∃ xs, ∀ i, ∃ st, Returns (run i) (ok st) ∧ Yields (nexts i) st xs

theorem Opens.survives_drain (h : Opens run nexts) :
    Survives fun i fuel => run i fuel >>= drain (nexts i) fuel := by
  rcases h with ⟨e, he⟩ | ⟨xs, hxs⟩
  · exact ⟨.error e, fun i => (he i).bind_err⟩
  · refine ⟨.ok xs, fun i => ?_⟩
    obtain ⟨st, hst, hyields⟩ := hxs i
    exact hst.bind (returns_drain hyields)

theorem Opens.survives_page (h : Opens run nexts) (n k : ℕ) :
    Survives fun i fuel => run i fuel >>= pageItems (nexts i) n k := by
  rcases h with ⟨e, he⟩ | ⟨xs, hxs⟩
  · exact ⟨.error e, fun i => (he i).bind_err⟩
  · refine ⟨((xs.drop n).take k).mapM id, fun i => ?_⟩
    obtain ⟨st, hst, hyields⟩ := hxs i
    refine hst.bind ?_
    rw [pageItems_of_yields hyields]
    exact returns_const _

end Opens

/-- A page of an iterator without errors is a page of its list. -/
theorem pageItems_eq {st : σ} {as : List α} (h : Yields next st (as.map .ok)) (n k : ℕ) :
    pageItems next n k st = ok ((as.drop n).take k) := by
  rw [pageItems_of_yields h, ← List.map_drop, ← List.map_take, mapM_map_ok]
  rfl

end Iterator

end Outcome

end TbManager
