import Mathlib

/-!
# Runs of a partial step function

A run is a list of actions that are all enabled in their turn. A property that
every step keeps holds at the end of a run; a property that a step keeps exactly
when a guard holds before it holds throughout a run exactly when every step of
the run meets the guard; a system whose steps are runs of another one simulates
it over whole runs.
-/

namespace TbManager

variable {σ α : Type*} (step : σ → α → Option σ)

def runFrom : σ → List α → Option σ
  | s, [] => some s
  | s, a :: as => (step s a).bind fun s' => runFrom s' as

def Throughout (P : σ → Prop) (s : σ) (as : List α) : Prop :=
  ∀ before after s', as = before ++ after → runFrom step s before = some s' → P s'

def StepsMeet (G : σ → α → Prop) (s : σ) (as : List α) : Prop :=
  ∀ before a after s', as = before ++ a :: after → runFrom step s before = some s' → G s' a

variable {step} {s s' : σ} {a : α} {as bs : List α}

theorem runFrom_cons (h : runFrom step s (a :: as) = some s') :
    ∃ s₁, step s a = some s₁ ∧ runFrom step s₁ as = some s' := by
  rwa [runFrom, Option.bind_eq_some_iff] at h

theorem runFrom_append :
    runFrom step s (as ++ bs) = (runFrom step s as).bind fun s₁ => runFrom step s₁ bs := by
  induction as generalizing s with
  | nil => rfl
  | cons a as ih =>
      rw [List.cons_append, runFrom, runFrom, Option.bind_assoc]
      congr 1
      funext s₁
      exact ih

theorem runFrom_singleton : runFrom step s [a] = step s a := by
  rw [runFrom]
  cases step s a with
  | none => rfl
  | some s₁ => rfl

theorem runFrom_concat (h : runFrom step s (as ++ [a]) = some s') :
    ∃ s₁, runFrom step s as = some s₁ ∧ step s₁ a = some s' := by
  rw [runFrom_append, Option.bind_eq_some_iff] at h
  obtain ⟨s₁, has, ha⟩ := h
  exact ⟨s₁, has, by rwa [runFrom_singleton] at ha⟩

theorem StepsMeet.head {G : σ → α → Prop} (h : StepsMeet step G s (a :: as)) : G s a :=
  h [] a as s rfl rfl

theorem StepsMeet.tail {G : σ → α → Prop} (h : StepsMeet step G s (a :: as))
    (ha : step s a = some s') : StepsMeet step G s' as := by
  intro before b after s₁ has hrun
  apply h (a :: before) b after s₁ (by rw [has, List.cons_append])
  rw [runFrom, ha]
  exact hrun

theorem stepsMeet_of_forall {P : α → Prop} (h : ∀ a ∈ as, P a) :
    StepsMeet step (fun _ => P) s as := by
  intro before a after s' has _
  exact h a (has ▸ List.mem_append_right _ List.mem_cons_self)

/-- What every guarded step keeps holds at the end of a guarded run. -/
theorem invariant_of_stepsMeet {I : σ → Prop} {G : σ → α → Prop}
    (hstep : ∀ s a s', I s → G s a → step s a = some s' → I s') (hI : I s)
    (hG : StepsMeet step G s as) (hrun : runFrom step s as = some s') : I s' := by
  induction as generalizing s with
  | nil =>
      rw [runFrom, Option.some.injEq] at hrun
      rwa [← hrun]
  | cons a as ih =>
      obtain ⟨s₁, ha, hrest⟩ := runFrom_cons hrun
      exact ih (hstep s a s₁ hI hG.head ha) (hG.tail ha) hrest

theorem invariant_run {I : σ → Prop} (hstep : ∀ s a s', I s → step s a = some s' → I s')
    (hI : I s) (hrun : runFrom step s as = some s') : I s' :=
  invariant_of_stepsMeet (fun s a s' hs _ ha => hstep s a s' hs ha) hI
    (fun _ _ _ _ _ _ => trivial) hrun

/-- An invariant may speak of the actions that the run has taken. -/
theorem history_run {I : List α → σ → Prop}
    (hstep : ∀ as s a s', I as s → step s a = some s' → I (as ++ [a]) s') (hI : I [] s)
    (hrun : runFrom step s as = some s') : I as s' := by
  induction as using List.reverseRecOn generalizing s' with
  | nil =>
      rw [runFrom, Option.some.injEq] at hrun
      exact hrun ▸ hI
  | append_singleton as a ih =>
      obtain ⟨s₁, hbefore, ha⟩ := runFrom_concat hrun
      exact hstep as s₁ a s' (ih hbefore) ha

/-- Where each step is followed by a run of another system, each run is. -/
theorem simulation_run {τ β : Type*} {step₂ : τ → β → Option τ} {R : σ → τ → Prop}
    {f : α → List β} {t : τ}
    (hstep : ∀ s a s' t, R s t → step s a = some s' →
      ∃ t', runFrom step₂ t (f a) = some t' ∧ R s' t')
    (hR : R s t) (hrun : runFrom step s as = some s') :
    ∃ t', runFrom step₂ t (as.flatMap f) = some t' ∧ R s' t' := by
  induction as generalizing s t with
  | nil =>
      rw [runFrom, Option.some.injEq] at hrun
      exact ⟨t, rfl, hrun ▸ hR⟩
  | cons a as ih =>
      obtain ⟨s₁, ha, hrest⟩ := runFrom_cons hrun
      obtain ⟨t₁, hfirst, hR₁⟩ := hstep s a s₁ t hR ha
      obtain ⟨t', hmore, hlast⟩ := ih hR₁ hrest
      refine ⟨t', ?_, hlast⟩
      rw [List.flatMap_cons, runFrom_append, hfirst]
      exact hmore

/-- Where a step keeps a property exactly under a guard, a run has the property
throughout exactly when each of its steps meets the guard. -/
theorem throughout_iff_stepsMeet {I P : σ → Prop} {G : σ → α → Prop}
    (hstep : ∀ s a s', I s → step s a = some s' → I s')
    (hguard : ∀ s a s', I s → P s → step s a = some s' → (P s' ↔ G s a)) (hI : I s) (hP : P s)
    (hrun : runFrom step s as = some s') :
    Throughout step P s as ↔ StepsMeet step G s as := by
  constructor
  · intro h before a after s₁ has hbefore
    rw [has, runFrom_append, hbefore, Option.bind_some] at hrun
    obtain ⟨s₂, ha, _⟩ := runFrom_cons hrun
    have hnext : runFrom step s (before ++ [a]) = some s₂ := by
      rw [runFrom_append, hbefore, Option.bind_some, runFrom_singleton, ha]
    have hP₂ := h (before ++ [a]) after s₂ (by rw [has, List.append_assoc]; rfl) hnext
    have hP₁ := h before (a :: after) s₁ has hbefore
    exact (hguard s₁ a s₂ (invariant_run hstep hI hbefore) hP₁ ha).1 hP₂
  · intro h before
    induction before using List.reverseRecOn with
    | nil =>
        intro after s₁ _ hbefore
        rw [runFrom, Option.some.injEq] at hbefore
        rwa [← hbefore]
    | append_singleton before a ih =>
        intro after s₁ has hbefore
        obtain ⟨s₀, hinit, ha⟩ := runFrom_concat hbefore
        rw [List.append_assoc, List.singleton_append] at has
        have hP₀ := ih (a :: after) s₀ has hinit
        exact (hguard s₀ a s₁ (invariant_run hstep hI hinit) hP₀ ha).2
          (h before a after s₀ has hinit)

/-! ## Parties in a list -/

/-- The count of a property when one party moves on. -/
theorem countP_set_add {β : Type*} {p : β → Bool} {xs : List β} {i : ℕ} {x : β} (y : β)
    (h : xs[i]? = some x) :
    (xs.set i y).countP p + (if p x then 1 else 0) = xs.countP p + if p y then 1 else 0 := by
  obtain ⟨hi, rfl⟩ := List.getElem?_eq_some_iff.1 h
  have hle := List.boole_getElem_le_countP (p := p) hi
  rw [List.countP_set hi]
  omega

theorem set_of_getElem? {β : Type*} {xs : List β} {i : ℕ} {x : β} (h : xs[i]? = some x) :
    xs.set i x = xs := by
  obtain ⟨hi, rfl⟩ := List.getElem?_eq_some_iff.1 h
  exact List.set_getElem_self hi

end TbManager
