import Mathlib.Order.Defs.Unbundled

/-!
# Stateful programs that may stop

A program of an imperative language is read here as a function of its state
that either returns a value or stops for a reason `ε`, and says in both cases
what the state is afterwards. That is core's `EStateM`; the state of a run
that stopped is not thrown away, so a statement about a run need not begin
with the run having returned.

The lemmas come in two directions. Forwards, a sequence is evaluated one step
at a time from the equations of its steps. Backwards, a sequence that
returned is taken apart into the returns of its steps. `Keeps` is the third
way to look at a program: whatever it answers, its two end states stand in a
given relation, and for a preorder that is a property of the steps alone.
`Commutes` compares two runs: a program that does not look at a part of its
state runs the same whatever that part is. `Parallel` compares two runs whose
states are related in any way.
-/

namespace Bedrock.Lib

/-- A program over the state `σ` that returns an `α` or stops with an `ε`. -/
abbrev Exec (ε σ α : Type) : Type := EStateM ε σ α

namespace Exec

variable {ε σ α β : Type}

/-- The state a run ends in, returned or stopped. -/
def final : EStateM.Result ε σ α → σ
  | .ok _ s => s
  | .error _ s => s

@[simp] theorem final_ok {a : α} {s : σ} :
    final (.ok a s : EStateM.Result ε σ α) = s := rfl

@[simp] theorem final_error {e : ε} {s : σ} :
    final (.error e s : EStateM.Result ε σ α) = s := rfl

/-- What a run returned, if it did. -/
def answer : EStateM.Result ε σ α → Option α
  | .ok a _ => some a
  | .error _ _ => none

theorem ok_of_answer {r : EStateM.Result ε σ α} {a : α} (h : answer r = some a) :
    r = .ok a (final r) := by
  cases r with
  | ok b s =>
      injection h with h
      rw [h]
      rfl
  | error e s => cases h

/-! ## Evaluating a sequence -/

theorem bind_ok {x : Exec ε σ α} {f : α → Exec ε σ β} {s s' : σ} {a : α}
    (h : x.run s = .ok a s') : (x >>= f).run s = (f a).run s' := by
  rw [EStateM.run_bind, h]

theorem bind_error {x : Exec ε σ α} {f : α → Exec ε σ β} {s s' : σ} {e : ε}
    (h : x.run s = .error e s') : (x >>= f).run s = .error e s' := by
  rw [EStateM.run_bind, h]

/-- Equal runs of two programs stay equal when the value is mapped. -/
theorem map_run_congr {x y : Exec ε σ α} {s t : σ} (f : α → β) (h : x.run s = y.run t) :
    (f <$> x).run s = (f <$> y).run t := by
  have hmap : ∀ (z : Exec ε σ α) (u : σ), (f <$> z).run u =
      match z.run u with
      | .ok a u' => .ok (f a) u'
      | .error e u' => .error e u' := fun _ _ => rfl
  rw [hmap, hmap, h]

/-! ## Taking a return apart -/

theorem bind_inv {x : Exec ε σ α} {f : α → Exec ε σ β} {s s'' : σ} {b : β}
    (h : (x >>= f).run s = .ok b s'') :
    ∃ a s', x.run s = .ok a s' ∧ (f a).run s' = .ok b s'' := by
  cases hx : x.run s with
  | ok a s' => exact ⟨a, s', rfl, by rw [← bind_ok hx]; exact h⟩
  | error e s' => rw [bind_error hx] at h; cases h

theorem bind_iff {x : Exec ε σ α} {f : α → Exec ε σ β} {s s'' : σ} {b : β} :
    (x >>= f).run s = .ok b s'' ↔
      ∃ a s', x.run s = .ok a s' ∧ (f a).run s' = .ok b s'' :=
  ⟨bind_inv, fun ⟨_, _, hx, hf⟩ => by rw [bind_ok hx, hf]⟩

theorem pure_inv {a b : α} {s s' : σ}
    (h : (pure a : Exec ε σ α).run s = .ok b s') : b = a ∧ s' = s := by
  injection h with hb hs
  exact ⟨hb.symm, hs.symm⟩

/-! ## What a program does to its state whatever it answers -/

/-- The end states of every run of `x` are related to its start by `R`. -/
def Keeps (R : σ → σ → Prop) (x : Exec ε σ α) : Prop :=
  ∀ s, R s (final (x.run s))

variable {R : σ → σ → Prop}

theorem Keeps.of_ok {x : Exec ε σ α} (hx : Keeps R x) {s s' : σ} {a : α}
    (h : x.run s = .ok a s') : R s s' := by
  have hs := hx s
  rw [h] at hs
  exact hs

theorem Keeps.of_error {x : Exec ε σ α} (hx : Keeps R x) {s s' : σ} {e : ε}
    (h : x.run s = .error e s') : R s s' := by
  have hs := hx s
  rw [h] at hs
  exact hs

theorem Keeps.mono {S : σ → σ → Prop} {x : Exec ε σ α} (hx : Keeps R x)
    (hle : ∀ s s', R s s' → S s s') : Keeps S x :=
  fun s => hle _ _ (hx s)

theorem Keeps.pure [Std.Refl R] (a : α) : Keeps R (pure a : Exec ε σ α) :=
  fun s => refl_of R s

theorem Keeps.throw [Std.Refl R] (e : ε) : Keeps R (throw e : Exec ε σ α) :=
  fun s => refl_of R s

theorem Keeps.get [Std.Refl R] : Keeps R (get : Exec ε σ σ) :=
  fun s => refl_of R s

theorem Keeps.modify {f : σ → σ} (hf : ∀ s, R s (f s)) :
    Keeps R (modify f : Exec ε σ PUnit) := hf

theorem Keeps.bind [IsTrans σ R] {x : Exec ε σ α} {f : α → Exec ε σ β}
    (hx : Keeps R x) (hf : ∀ a, Keeps R (f a)) : Keeps R (x >>= f) := by
  intro s
  cases h : x.run s with
  | ok a s' =>
      rw [bind_ok h]
      exact trans_of R (hx.of_ok h) (hf a s')
  | error e s' =>
      rw [bind_error h]
      exact hx.of_error h

/-- A step whose answer is known in advance. -/
theorem Keeps.bind_value {x : Exec ε σ α} {f : α → Exec ε σ β} {a : α}
    (hx : ∀ s, x.run s = .ok a s) (hf : Keeps R (f a)) : Keeps R (x >>= f) := by
  intro s
  rw [bind_ok (hx s)]
  exact hf s

theorem Keeps.ite {c : Prop} [Decidable c] {x y : Exec ε σ α}
    (hx : Keeps R x) (hy : Keeps R y) : Keeps R (if c then x else y) := by
  split
  · exact hx
  · exact hy

/-- Every run of `x` that returns relates its start to its end by `R`. -/
def OnReturn (R : σ → σ → Prop) (x : Exec ε σ α) : Prop :=
  ∀ ⦃s a s'⦄, x.run s = .ok a s' → R s s'

theorem Keeps.onReturn {x : Exec ε σ α} (hx : Keeps R x) : OnReturn R x :=
  fun _ _ _ h => hx.of_ok h

theorem OnReturn.mono {S : σ → σ → Prop} {x : Exec ε σ α} (hx : OnReturn R x)
    (hle : ∀ s s', R s s' → S s s') : OnReturn S x :=
  fun _ _ _ h => hle _ _ (hx h)

theorem OnReturn.pure [Std.Refl R] (a : α) : OnReturn R (pure a : Exec ε σ α) :=
  (Keeps.pure a).onReturn

theorem OnReturn.bind [IsTrans σ R] {x : Exec ε σ α} {f : α → Exec ε σ β}
    (hx : OnReturn R x) (hf : ∀ a, OnReturn R (f a)) : OnReturn R (x >>= f) := by
  intro s b s' h
  obtain ⟨a, s₁, hfirst, hrest⟩ := bind_inv h
  exact trans_of R (hx hfirst) (hf a hrest)

theorem OnReturn.ite {c : Prop} [Decidable c] {x y : Exec ε σ α}
    (hx : OnReturn R x) (hy : OnReturn R y) : OnReturn R (if c then x else y) := by
  split
  · exact hx
  · exact hy

/-- The relation of two states that agree on an observation. -/
def Same {τ : Sort*} (f : σ → τ) (s t : σ) : Prop := f t = f s

instance {τ : Sort*} (f : σ → τ) : Std.Refl (Same f) := ⟨fun _ => rfl⟩

instance {τ : Sort*} (f : σ → τ) : IsTrans σ (Same f) :=
  ⟨fun _ _ _ h₁ h₂ => Eq.trans h₂ h₁⟩

/-! ## What a program does not look at -/

/-- The same result with another state. -/
def mapState (g : σ → σ) : EStateM.Result ε σ α → EStateM.Result ε σ α
  | .ok a s => .ok a (g s)
  | .error e s => .error e (g s)

/-- Whether `g` is applied before or after a run of `x` makes no difference. -/
def Commutes (g : σ → σ) (x : Exec ε σ α) : Prop :=
  ∀ s, x.run (g s) = mapState g (x.run s)

section

variable {g : σ → σ}

theorem Commutes.of_ok {x : Exec ε σ α} (hx : Commutes g x) {s s' : σ} {a : α}
    (h : x.run s = .ok a s') : x.run (g s) = .ok a (g s') := by
  rw [hx s, h]
  rfl

theorem Commutes.pure (a : α) : Commutes g (pure a : Exec ε σ α) := fun _ => rfl

theorem Commutes.throw (e : ε) : Commutes g (throw e : Exec ε σ α) := fun _ => rfl

theorem Commutes.modify {f : σ → σ} (hf : ∀ s, f (g s) = g (f s)) :
    Commutes g (modify f : Exec ε σ PUnit) :=
  fun s => congrArg (EStateM.Result.ok PUnit.unit) (hf s)

theorem Commutes.bind {x : Exec ε σ α} {f : α → Exec ε σ β} (hx : Commutes g x)
    (hf : ∀ a, Commutes g (f a)) : Commutes g (x >>= f) := by
  intro s
  cases h : x.run s with
  | ok a s' => rw [bind_ok (hx.of_ok h), bind_ok h, hf a s']
  | error e s' =>
      have hg : x.run (g s) = .error e (g s') := by
        rw [hx s, h]
        rfl
      rw [bind_error hg, bind_error h]
      rfl

/-- A program that reads the state and uses nothing of it that `g` changes. -/
theorem Commutes.bind_get {f : σ → Exec ε σ β} (hg : ∀ s, f (g s) = f s)
    (hf : ∀ s, Commutes g (f s)) : Commutes g (get >>= f) := by
  intro s
  rw [bind_ok (EStateM.run_get (g s)), bind_ok (EStateM.run_get s), hg, hf s]

theorem Commutes.ite {c : Prop} [Decidable c] {x y : Exec ε σ α} (hx : Commutes g x)
    (hy : Commutes g y) : Commutes g (if c then x else y) := by
  split
  · exact hx
  · exact hy

end

/-! ## Two runs side by side -/

/-- Two results with the same answer and related states. -/
def Related (R : σ → σ → Prop) : EStateM.Result ε σ α → EStateM.Result ε σ α → Prop
  | .ok a s, .ok b t => b = a ∧ R s t
  | .error e s, .error e' t => e' = e ∧ R s t
  | _, _ => False

/-- From related states `x` ends the same way, in related states. -/
def Parallel (R : σ → σ → Prop) (x : Exec ε σ α) : Prop :=
  ∀ s t, R s t → Related R (x.run s) (x.run t)

theorem Related.of_ok {r r' : EStateM.Result ε σ α} {a : α} {s : σ}
    (h : Related R r r') (hr : r = .ok a s) : ∃ t, r' = .ok a t ∧ R s t := by
  subst hr
  cases r' with
  | ok b t => exact ⟨t, by rw [h.1], h.2⟩
  | error e t => exact h.elim

theorem Related.of_error {r r' : EStateM.Result ε σ α} {e : ε} {s : σ}
    (h : Related R r r') (hr : r = .error e s) : ∃ t, r' = .error e t ∧ R s t := by
  subst hr
  cases r' with
  | ok b t => exact h.elim
  | error e' t => exact ⟨t, by rw [h.1], h.2⟩

/-- The relation between the two steps may say more than the one wanted at the
end. -/
theorem related_bind {S : σ → σ → Prop} {x : Exec ε σ α} {f : α → Exec ε σ β} {s t : σ}
    (hx : Related S (x.run s) (x.run t)) (hle : ∀ s t, S s t → R s t)
    (hf : ∀ a s' t', x.run s = .ok a s' → S s' t' →
      Related R ((f a).run s') ((f a).run t')) :
    Related R ((x >>= f).run s) ((x >>= f).run t) := by
  cases hs : x.run s with
  | ok a s' =>
      obtain ⟨t', ht, hr⟩ := hx.of_ok hs
      rw [bind_ok hs, bind_ok ht]
      exact hf a s' t' hs hr
  | error e s' =>
      obtain ⟨t', ht, hr⟩ := hx.of_error hs
      rw [bind_error hs, bind_error ht]
      exact ⟨rfl, hle s' t' hr⟩

theorem Parallel.pure (a : α) : Parallel R (pure a : Exec ε σ α) :=
  fun _ _ h => ⟨rfl, h⟩

theorem Parallel.throw (e : ε) : Parallel R (throw e : Exec ε σ α) :=
  fun _ _ h => ⟨rfl, h⟩

theorem Parallel.modify {f : σ → σ} (hf : ∀ s t, R s t → R (f s) (f t)) :
    Parallel R (modify f : Exec ε σ PUnit) :=
  fun s t h => ⟨rfl, hf s t h⟩

theorem Parallel.bind {x : Exec ε σ α} {f : α → Exec ε σ β} (hx : Parallel R x)
    (hf : ∀ a, Parallel R (f a)) : Parallel R (x >>= f) :=
  fun s t h => related_bind (hx s t h) (fun _ _ h => h) fun a s' t' _ hr => hf a s' t' hr

theorem Parallel.ite {c : Prop} [Decidable c] {x y : Exec ε σ α} (hx : Parallel R x)
    (hy : Parallel R y) : Parallel R (if c then x else y) := by
  split
  · exact hx
  · exact hy

end Exec

end Bedrock.Lib
