import Mathlib.Data.List.Basic

/-!
# Runs of a labelled transition system

A system is a relation `step s i s'`: in state `s` the event `i` can lead to
`s'`. A run is a finite sequence of steps together with the events it took,
newest last, and a property of every reachable state is an invariant: it
holds at the start and every step preserves it. A run whose every step also
meets a side condition on the state before it is a run of the guarded system,
so the conditional invariants need no rule of their own.
-/

namespace Bedrock.Lib

variable {σ ι : Type*}

/-- The runs from `s₀`: the events taken and the state after them. -/
inductive Run (step : σ → ι → σ → Prop) (s₀ : σ) : List ι → σ → Prop
  | nil : Run step s₀ [] s₀
  | snoc {tr s i s'} : Run step s₀ tr s → step s i s' →
      Run step s₀ (tr ++ [i]) s'

/-- The system in which the steps also meet a condition on the state they
start from. -/
def Guarded (step : σ → ι → σ → Prop) (G : σ → ι → Prop) (s : σ) (i : ι)
    (s' : σ) : Prop :=
  G s i ∧ step s i s'

variable {step : σ → ι → σ → Prop} {s₀ s : σ} {tr : List ι}

theorem Run.invariant {I : σ → Prop} (h₀ : I s₀)
    (hstep : ∀ s i s', I s → step s i s' → I s') (h : Run step s₀ tr s) :
    I s := by
  induction h with
  | nil => exact h₀
  | snoc _ hs ih => exact hstep _ _ _ ih hs

/-- An invariant that also speaks about the events so far. -/
theorem Run.trace_invariant {I : List ι → σ → Prop} (h₀ : I [] s₀)
    (hstep : ∀ tr s i s', I tr s → step s i s' → I (tr ++ [i]) s')
    (h : Run step s₀ tr s) : I tr s := by
  induction h with
  | nil => exact h₀
  | snoc _ hs ih => exact hstep _ _ _ _ ih hs

/-- Refinement by a function: where every step from a state of the invariant
moves the abstraction by a deterministic abstract step, a run moves it by the
fold of its events. -/
theorem Run.refines {τ : Type*} (I : σ → Prop) (abs : σ → τ)
    (astep : τ → ι → τ) (h₀ : I s₀)
    (hstep : ∀ s i s', I s → step s i s' → I s' ∧ abs s' = astep (abs s) i)
    (h : Run step s₀ tr s) : I s ∧ abs s = tr.foldl astep (abs s₀) := by
  induction h with
  | nil => exact ⟨h₀, rfl⟩
  | snoc _ hs ih =>
      obtain ⟨hinv, habs⟩ := hstep _ _ _ ih.1 hs
      refine ⟨hinv, ?_⟩
      rw [habs, ih.2, List.foldl_append, List.foldl_cons, List.foldl_nil]

/-- A guarded run is a run of the system. -/
theorem Run.of_guarded {G : σ → ι → Prop}
    (h : Run (Guarded step G) s₀ tr s) : Run step s₀ tr s := by
  induction h with
  | nil => exact .nil
  | snoc _ hs ih => exact .snoc ih hs.2

/-- A run whose side condition follows from an invariant is guarded. -/
theorem Run.guarded {G : σ → ι → Prop} {I : σ → Prop} (h₀ : I s₀)
    (hstep : ∀ s i s', I s → step s i s' → G s i ∧ I s')
    (h : Run step s₀ tr s) : Run (Guarded step G) s₀ tr s ∧ I s := by
  induction h with
  | nil => exact ⟨.nil, h₀⟩
  | snoc _ hs ih =>
      obtain ⟨hg, hinv⟩ := hstep _ _ _ ih.2 hs
      exact ⟨.snoc ih.1 ⟨hg, hs⟩, hinv⟩

theorem Run.cons {i : ι} {s₁ : σ} (h : step s₀ i s₁) (hrun : Run step s₁ tr s) :
    Run step s₀ (i :: tr) s := by
  induction hrun with
  | nil => exact .snoc .nil h
  | snoc _ hs ih => exact .snoc ih hs

theorem Run.single {i : ι} (h : step s₀ i s) : Run step s₀ [i] s :=
  .snoc .nil h

end Bedrock.Lib
