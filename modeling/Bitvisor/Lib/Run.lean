import Mathlib.Data.List.Basic

namespace StepRun

variable {σ α β : Type}

/-- Run a partial step function over the inputs in order, keeping what each
step returns; `none` as soon as one step fails. -/
def runSteps (step : σ → α → Option (σ × β)) : σ → List α → Option (σ × List β)
  | s, [] => some (s, [])
  | s, a :: as =>
      (step s a).bind fun (s', b) => (runSteps step s' as).map fun (s'', bs) => (s'', b :: bs)

section Rules

variable {step : σ → α → Option (σ × β)}

@[simp]
theorem runSteps_nil (s : σ) : runSteps step s [] = some (s, []) := rfl

theorem runSteps_invariant_of (I : σ → Prop) (P : α → Prop)
    (hstep : ∀ s a s' b, P a → I s → step s a = some (s', b) → I s') :
    ∀ (as : List α) (s s' : σ) (bs : List β), (∀ a ∈ as, P a) → I s →
      runSteps step s as = some (s', bs) → I s' := by
  intro as
  induction as with
  | nil =>
    intro s s' bs _ hs h
    simp only [runSteps_nil, Option.some.injEq, Prod.mk.injEq] at h
    rw [← h.1]
    exact hs
  | cons a as ih =>
    intro s s' bs hP hs h
    simp only [runSteps, Option.bind_eq_some_iff, Option.map_eq_some_iff] at h
    obtain ⟨⟨s₁, b⟩, hst, ⟨s₂, bs'⟩, hrun, hpair⟩ := h
    simp only [Prod.mk.injEq] at hpair
    rw [← hpair.1]
    have ha : P a := hP a List.mem_cons_self
    exact ih s₁ s₂ bs' (fun a' ha' => hP a' (List.mem_cons_of_mem a ha')) (hstep s a s₁ b ha hs hst) hrun

/-- The invariant rule for every input. -/
theorem runSteps_invariant (I : σ → Prop)
    (hstep : ∀ s a s' b, I s → step s a = some (s', b) → I s') :
    ∀ (as : List α) (s s' : σ) (bs : List β), I s → runSteps step s as = some (s', bs) → I s' :=
  fun as s s' bs => runSteps_invariant_of I (fun _ => True) (fun s a s' b _ => hstep s a s' b)
    as s s' bs (fun _ _ => trivial)

/-- The invariant rule for a fold in `Option`: what every successful step
keeps holds after every successful fold. -/
theorem foldlM_invariant {f : σ → α → Option σ} (I : σ → Prop)
    (hstep : ∀ s a s', I s → f s a = some s' → I s') :
    ∀ (as : List α) (s s' : σ), I s → as.foldlM f s = some s' → I s' := by
  intro as
  induction as with
  | nil =>
    intro s s' hs h
    rw [List.foldlM_nil, Option.pure_def, Option.some.injEq] at h
    rwa [← h]
  | cons a as ih =>
    intro s s' hs h
    rw [List.foldlM_cons] at h
    cases ha : f s a with
    | none =>
      rw [ha] at h
      exact absurd h (by simp)
    | some s₁ =>
      rw [ha] at h
      exact ih s₁ s' (hstep s a s₁ hs ha) h

/-- A run of a step relation: the inputs in turn and what each step returns. -/
inductive RelRun {τ : Type} (spec : τ → α → τ → β → Prop) : τ → List α → τ → List β → Prop
  | nil (t : τ) : RelRun spec t [] t []
  | cons {t t₁ t' : τ} {a : α} {as : List α} {b : β} {bs : List β} :
      spec t a t₁ b → RelRun spec t₁ as t' bs → RelRun spec t (a :: as) t' (b :: bs)

/-- The simulation rule: when every step from a state related to an abstract
one, with room for one more step, succeeds and matches an abstract step into
related states with room for the rest, a run that fits the room succeeds and
matches a run of the abstract steps. -/
theorem runSteps_simulation {τ : Type} (spec : τ → α → τ → β → Prop) (R : σ → τ → Prop)
    (Fits : Nat → σ → Prop)
    (hstep : ∀ k s t a, R s t → Fits (k + 1) s →
      ∃ s' b t', step s a = some (s', b) ∧ spec t a t' b ∧ R s' t' ∧ Fits k s') :
    ∀ (as : List α) (s : σ) (t : τ), R s t → Fits as.length s →
      ∃ s' bs t', runSteps step s as = some (s', bs) ∧ RelRun spec t as t' bs ∧ R s' t' := by
  intro as
  induction as with
  | nil =>
    intro s t hR _
    exact ⟨s, [], t, rfl, RelRun.nil t, hR⟩
  | cons a as ih =>
    intro s t hR hfits
    obtain ⟨s₁, b, t₁, hst, hspec, hR₁, hfits₁⟩ := hstep as.length s t a hR hfits
    obtain ⟨s', bs, t', hrun, hrel, hR'⟩ := ih s₁ t₁ hR₁ hfits₁
    refine ⟨s', b :: bs, t', ?_, RelRun.cons hspec hrel, hR'⟩
    simp only [runSteps, hst, Option.bind_some, hrun, Option.map_some]

end Rules

end StepRun
