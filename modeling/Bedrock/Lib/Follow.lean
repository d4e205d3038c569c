import Mathlib.Data.List.Basic

/-!
# Following a path of labels

A partial step `f s i` says where the label `i` leads from `s`, if it leads
anywhere. A path is a list of labels and following it is core's monadic fold;
the first label that leads nowhere ends it.

Two steps are compared here, one of which knows part of what the other knows.
Where the smaller one succeeds the two agree, so on a path that the larger one
can follow they differ exactly at a label the smaller one does not know.

How far a path leads (`followTo`) is said for every path, also for one that
cannot be followed to its end.
-/

namespace Bedrock.Lib

universe u v

variable {σ : Type u} {ι : Type v} {f g : σ → ι → Option σ} {P : σ → ι → Prop}

/-- Where the labels of a path lead from `s`. -/
def follow (f : σ → ι → Option σ) (s : σ) (path : List ι) : Option σ :=
  path.foldlM f s

/-- How many labels of a path lead somewhere before the first that does not. -/
def followDepth (f : σ → ι → Option σ) : σ → List ι → Nat
  | _, [] => 0
  | s, i :: path =>
      match f s i with
      | some t => followDepth f t path + 1
      | none => 0

/-- How far a path leads: the state it is followed to, and the labels left there. -/
def followTo (f : σ → ι → Option σ) : σ → List ι → σ × List ι
  | s, [] => (s, [])
  | s, i :: path =>
      match f s i with
      | some t => followTo f t path
      | none => (s, i :: path)

/-- `P` holds of every label of the path together with the state in which it
is followed. -/
def Along (f : σ → ι → Option σ) (P : σ → ι → Prop) : σ → List ι → Prop
  | _, [] => True
  | s, i :: path => P s i ∧ ∀ t, f s i = some t → Along f P t path

theorem follow_cons {s : σ} {i : ι} {path : List ι} :
    follow f s (i :: path) = (f s i).bind fun t => follow f t path := rfl

theorem follow_some {s t : σ} {i : ι} {path : List ι} (h : f s i = some t) :
    follow f s (i :: path) = follow f t path := by
  rw [follow_cons, h, Option.bind_some]

theorem follow_none {s : σ} {i : ι} {path : List ι} (h : f s i = none) :
    follow f s (i :: path) = none := by
  rw [follow_cons, h, Option.bind_none]

theorem followDepth_some {s t : σ} {i : ι} {path : List ι} (h : f s i = some t) :
    followDepth f s (i :: path) = followDepth f t path + 1 := by
  rw [followDepth, h]

theorem followDepth_none {s : σ} {i : ι} {path : List ι} (h : f s i = none) :
    followDepth f s (i :: path) = 0 := by
  rw [followDepth, h]

theorem followTo_some {s t : σ} {i : ι} {path : List ι} (h : f s i = some t) :
    followTo f s (i :: path) = followTo f t path := by
  rw [followTo, h]

theorem followTo_none {s : σ} {i : ι} {path : List ι} (h : f s i = none) :
    followTo f s (i :: path) = (s, i :: path) := by
  rw [followTo, h]

/-- What every step keeps holds where a path leads. -/
theorem followTo_invariant {I : σ → Prop} (hstep : ∀ s i t, I s → f s i = some t → I t) {s : σ}
    (hs : I s) (path : List ι) : I (followTo f s path).1 := by
  induction path generalizing s with
  | nil => exact hs
  | cons i path ih =>
      cases hf : f s i with
      | none =>
          rw [followTo_none hf]
          exact hs
      | some t =>
          rw [followTo_some hf]
          exact ih (hstep s i t hs hf)

section

variable {I : σ → Prop}
  (hle : ∀ s i t, I s → g s i = some t → f s i = some t)
  (hstep : ∀ s i t, I s → f s i = some t → I t)

include hstep

theorem follow_invariant {s t : σ} {path : List ι} (hs : I s) (h : follow f s path = some t) :
    I t := by
  induction path generalizing s with
  | nil =>
      injection h with h
      exact h ▸ hs
  | cons i path ih =>
      cases hf : f s i with
      | none => rw [follow_none hf] at h; cases h
      | some r =>
          rw [follow_some hf] at h
          exact ih (hstep s i r hs hf) h

include hle

/-- Where the smaller step can go all the way, the larger one goes the same
way. -/
theorem follow_mono {s t : σ} {path : List ι} (hs : I s) (h : follow g s path = some t) :
    follow f s path = some t := by
  induction path generalizing s with
  | nil => exact h
  | cons i path ih =>
      cases hg : g s i with
      | none => rw [follow_none hg] at h; cases h
      | some r =>
          have hf := hle s i r hs hg
          rw [follow_some hg] at h
          rw [follow_some hf]
          exact ih (hstep s i r hs hf) h

/-- On a path the larger step can follow, the smaller one follows it exactly
when it knows every label on the way. -/
theorem follow_eq_iff {s t : σ} {path : List ι} (hs : I s) (h : follow f s path = some t) :
    follow g s path = some t ↔ Along f (fun r i => (g r i).isSome) s path := by
  induction path generalizing s with
  | nil => exact ⟨fun _ => trivial, fun _ => h⟩
  | cons i path ih =>
      cases hg : g s i with
      | none =>
          rw [follow_none hg]
          constructor
          · intro hnone
            cases hnone
          · rintro ⟨hsome, -⟩
            rw [hg] at hsome
            cases hsome
      | some r =>
          have hf := hle s i r hs hg
          rw [follow_some hf] at h
          rw [follow_some hg, ih (hstep s i r hs hf) h]
          constructor
          · intro hall
            refine ⟨Option.isSome_of_eq_some hg, fun t ht => ?_⟩
            rw [hf] at ht
            injection ht with ht
            exact ht ▸ hall
          · rintro ⟨-, hall⟩
            exact hall r hf

end

end Bedrock.Lib
