import TbManager.Readings

/-!
# Collecting an iterator

An iterator is collected up to its end or its first error. What an opening gives is the
list of the items that the opened iterator yields, or the error of the opening.
-/

namespace TbManager.Outcome

variable {ε ε' α β σ : Type}

theorem Returns.map {run : ℕ → Outcome ε α} {r : Outcome ε α} (h : Returns run r)
    (f : Outcome ε α → Outcome ε' β) : Returns (fun fuel => f (run fuel)) (f r) := by
  obtain ⟨n, hn⟩ := h
  exact ⟨n, fun fuel hfuel => congrArg f (hn fuel hfuel)⟩

theorem ofExcept_bind (x : Except ε α) (f : α → Except ε β) :
    ofExcept (x >>= f) = ofExcept x >>= fun a => ofExcept (f a) := by
  cases x with
  | ok a => rfl
  | error e => rfl

theorem ofExcept_mapErr (f : ε → ε') (x : Except ε α) :
    (ofExcept x).mapErr f = ofExcept (x.mapError f) := by
  cases x with
  | ok a => rfl
  | error e => rfl

theorem Returns.andThen {run : ℕ → Outcome ε α} {r : Outcome ε α} (h : Returns run r)
    (k : α → Outcome ε β) : Returns (fun fuel => run fuel >>= k) (r >>= k) :=
  h.map fun x => x >>= k

theorem Returns.bind_ofExcept {run : ℕ → Outcome ε α} {x : Except ε α}
    {k : ℕ → α → Outcome ε β} {r : α → Outcome ε β} (h : Returns run (ofExcept x))
    (hk : ∀ a, x = .ok a → Returns (fun fuel => k fuel a) (r a)) :
    Returns (fun fuel => run fuel >>= k fuel) (ofExcept x >>= r) := by
  cases x with
  | ok a => exact h.bind (hk a rfl)
  | error e => exact h.bind_err

theorem eq_map_ok_of_mapError {f : ε → ε'} {xs : List (Except ε α)} {as : List α}
    (h : xs.map (Except.mapError f) = as.map .ok) : xs = as.map .ok := by
  induction as generalizing xs with
  | nil => exact List.map_eq_nil_iff.1 h
  | cons a as ih =>
      obtain ⟨x, xs, rfl, hx, hxs⟩ := List.map_eq_cons_iff.1 h
      cases x with
      | error e => cases hx
      | ok b =>
          cases hx
          rw [List.map_cons, ih hxs]

def ofResult : Option (Except ε α) → Outcome ε α
  | some x => ofExcept x
  | none => panic

theorem ofResult_eq_ok {o : Option (Except ε α)} {a : α} (h : ofResult o = ok a) :
    o = some (.ok a) := by
  rcases o with _ | (e | b)
  · cases h
  · cases h
  · cases h
    rfl

section Collect

variable (next : σ → Outcome ε (Option (Except ε α) × σ))

/-- `collect::<Result<Vec<_>, _>>()`: nothing is read after the first error. -/
def collect : ℕ → σ → Outcome ε (List α)
  | 0, _ => running
  | fuel + 1, st => do
    let r ← next st
    match r with
    | (none, _) => ok []
    | (some (.error e), _) => err e
    | (some (.ok a), st) => do
      let rest ← collect fuel st
      ok (a :: rest)

variable {next} {st : σ} {xs : List (Except ε α)}

theorem collect_eq (h : Yields next st xs) {fuel : ℕ} (hfuel : xs.length < fuel) :
    collect next fuel st = ofExcept (xs.mapM id) := by
  induction fuel generalizing st xs with
  | zero => cases hfuel
  | succ fuel ih =>
      cases h with
      | nil hnext =>
          rw [collect, hnext]
          rfl
      | @cons _ _ x xs hnext hrest =>
          rw [List.length_cons] at hfuel
          rw [collect, hnext, ok_bind, List.mapM_cons]
          cases x with
          | error e => rfl
          | ok a =>
              change (collect next fuel _ >>= fun rest => ok (a :: rest)) = _
              rw [ih hrest (by omega)]
              cases xs.mapM id <;> rfl

theorem returns_collect (h : Yields next st xs) :
    Returns (fun fuel => collect next fuel st) (ofExcept (xs.mapM id)) :=
  ⟨xs.length + 1, fun _ hfuel => collect_eq h hfuel⟩

/-- The first calls produce the items, and then one call ends the iteration. -/
theorem Produces.yields (h : Produces next st xs) : Yields next st xs := by
  have hfirst : ∀ {st : σ} {x : Option (Except ε α)} {rest : List (Option (Except ε α))} {n : ℕ},
      nextCalls next (n + 1) st = ok (x :: rest) →
        ∃ st', next st = ok (x, st') ∧ nextCalls next n st' = ok rest := by
    intro st x rest n hcalls
    obtain ⟨⟨y, st'⟩, hnext, hcalls⟩ := bind_eq_ok_iff.1 hcalls
    obtain ⟨ys, hys, hcons⟩ := bind_eq_ok_iff.1 hcalls
    cases hcons
    exact ⟨st', hnext, hys⟩
  induction xs generalizing st with
  | nil =>
      obtain ⟨st', hnext, -⟩ := hfirst (h 1)
      exact .nil hnext
  | cons x xs ih =>
      obtain ⟨st', hnext, -⟩ := hfirst (h 1)
      refine .cons hnext (ih fun n => ?_)
      have hcalls := h (n + 1)
      rw [List.map_cons, List.cons_append, List.take_succ_cons,
        Reading.take_append_replicate_succ] at hcalls
      obtain ⟨st'', hnext', hrest⟩ := hfirst hcalls
      rw [hnext, ok.injEq, Prod.mk.injEq] at hnext'
      rw [hnext'.2]
      exact hrest

end Collect

section OpensAs

variable (next : σ → Outcome ε (Option (Except ε α) × σ))

inductive OpensAs (run : ℕ → Outcome ε σ) : Except ε (List (Except ε α)) → Prop
  | opened {st : σ} {xs : List (Except ε α)} (hrun : Returns run (ok st))
      (hyields : Yields next st xs) : OpensAs run (.ok xs)
  | failed {e : ε} (hrun : Returns run (err e)) : OpensAs run (.error e)

theorem Opens.opensAs {ι : Type} {run : ι → ℕ → Outcome ε σ}
    {nexts : ι → σ → Outcome ε (Option (Except ε α) × σ)} (h : Opens run nexts) :
    ∃ r, ∀ i, OpensAs (nexts i) (run i) r := by
  rcases h with ⟨e, he⟩ | ⟨xs, hxs⟩
  · exact ⟨.error e, fun i => .failed (he i)⟩
  · refine ⟨.ok xs, fun i => ?_⟩
    obtain ⟨st, hst, hyields⟩ := hxs i
    exact .opened hst hyields

variable {next} {run : ℕ → Outcome ε σ} {r : Except ε (List (Except ε α))}

variable (next) in
def collectOpened (read : ε → ε') (refused : ε → Except ε' (List α)) (opened : Outcome ε σ)
    (fuel : ℕ) : Outcome ε' (List α) :=
  match opened with
  | ok st => (collect next fuel st).mapErr read
  | err e => ofExcept (refused e)
  | panic => panic
  | running => running

theorem OpensAs.returns_drain (h : OpensAs next run r) :
    Returns (fun fuel => run fuel >>= drain next fuel) (ofExcept r) := by
  cases h with
  | opened hrun hyields => exact hrun.bind (Outcome.returns_drain hyields)
  | failed hrun => exact hrun.bind_err

/-- Collecting gives all items, the first error among them or what stands in for them. -/
theorem OpensAs.returns_collectOpened (read : ε → ε') (refused : ε → Except ε' (List α))
    (h : OpensAs next run r) :
    Returns (fun fuel => collectOpened next read refused (run fuel) fuel)
      (ofExcept (match r with
        | .ok xs => (xs.mapM id).mapError read
        | .error e => refused e)) := by
  cases h with
  | opened hrun hyields =>
      obtain ⟨n, hn⟩ := hrun
      obtain ⟨m, hm⟩ := (returns_collect hyields).map (mapErr read)
      refine ⟨max n m, fun fuel hfuel => ?_⟩
      dsimp only at hm ⊢
      rw [hn fuel ((le_max_left n m).trans hfuel), collectOpened,
        hm fuel ((le_max_right n m).trans hfuel), ofExcept_mapErr]
  | failed hrun =>
      obtain ⟨n, hn⟩ := hrun
      refine ⟨n, fun fuel hfuel => ?_⟩
      dsimp only
      rw [hn fuel hfuel, collectOpened]

end OpensAs

end TbManager.Outcome
