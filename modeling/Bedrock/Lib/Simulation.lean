import Bedrock.Lib.Exec

/-!
# One program seen in another

Two programs over different states, where the states of the one are seen as
states of the other. The runs of the first keep an invariant and stop for
certain reasons only; and where a run ends in a good state, it began in one,
and the second program does what can be seen of it.

Goodness is read backwards, from the end of a run to its beginning. So it may
be something that grows along a run, such as a log that must not hold certain
entries: the whole run is good as soon as its end is.
-/

namespace Bedrock.Lib.Exec

variable {ε σ τ α β : Type}

/-- How states are seen, and what is asked of the runs. -/
structure View (ε σ τ : Type) where
  map : σ → τ
  inv : σ → Prop
  good : σ → Prop
  stops : ε → Prop

/-- What can be seen of a result. -/
def View.result (V : View ε σ τ) : EStateM.Result ε σ α → EStateM.Result ε τ α
  | .ok a s => .ok a (V.map s)
  | .error e s => .error e (V.map s)

/-- The run of `x` from `s`, seen in `y`. -/
structure View.At (V : View ε σ τ) (x : Exec ε σ α) (y : Exec ε τ α) (s : σ) : Prop where
  inv : V.inv (final (x.run s))
  stops : ∀ e t, x.run s = .error e t → V.stops e
  seen : V.good (final (x.run s)) → V.good s ∧ y.run (V.map s) = V.result (x.run s)

/-- Every run of `x` from a state with the invariant is seen in `y`. -/
def Simulates (V : View ε σ τ) (x : Exec ε σ α) (y : Exec ε τ α) : Prop :=
  ∀ s, V.inv s → V.At x y s

variable {V : View ε σ τ}

theorem View.At.of_ok {x : Exec ε σ α} {y : Exec ε τ α} {s s' : σ} {a : α} (h : V.At x y s)
    (hrun : x.run s = .ok a s') :
    V.inv s' ∧ (V.good s' → V.good s ∧ y.run (V.map s) = .ok a (V.map s')) := by
  have hinv := h.inv
  have hseen := h.seen
  rw [hrun] at hinv hseen
  exact ⟨hinv, hseen⟩

theorem View.At.of_error {x : Exec ε σ α} {y : Exec ε τ α} {s s' : σ} {e : ε} (h : V.At x y s)
    (hrun : x.run s = .error e s') :
    V.inv s' ∧ V.stops e ∧
      (V.good s' → V.good s ∧ y.run (V.map s) = .error e (V.map s')) := by
  have hinv := h.inv
  have hseen := h.seen
  rw [hrun] at hinv hseen
  exact ⟨hinv, h.stops e s' hrun, hseen⟩

/-- A result that is seen to return does return. -/
theorem View.of_result_ok {r : EStateM.Result ε σ α} {a : α} {t : τ} (h : V.result r = .ok a t) :
    ∃ s, r = .ok a s ∧ V.map s = t := by
  cases r with
  | ok b s =>
      injection h with hb hs
      exact ⟨s, by rw [hb], hs⟩
  | error e s => cases h

theorem View.of_result_error {r : EStateM.Result ε σ α} {e : ε} {t : τ}
    (h : V.result r = .error e t) : ∃ s, r = .error e s ∧ V.map s = t := by
  cases r with
  | ok b s => cases h
  | error e' s =>
      injection h with he hs
      exact ⟨s, by rw [he], hs⟩

theorem at_ok {x : Exec ε σ α} {y : Exec ε τ α} {s s' : σ} {a : α} (hx : x.run s = .ok a s')
    (hinv : V.inv s')
    (hseen : V.good s' → V.good s ∧ y.run (V.map s) = .ok a (V.map s')) : V.At x y s := by
  refine ⟨?_, fun e t hrun => ?_, ?_⟩
  · rw [hx]
    exact hinv
  · rw [hx] at hrun
    cases hrun
  · rw [hx]
    exact hseen

theorem at_error {x : Exec ε σ α} {y : Exec ε τ α} {s s' : σ} {e : ε}
    (hx : x.run s = .error e s') (hinv : V.inv s') (hstops : V.stops e)
    (hseen : V.good s' → V.good s ∧ y.run (V.map s) = .error e (V.map s')) : V.At x y s := by
  refine ⟨?_, fun e' t hrun => ?_, ?_⟩
  · rw [hx]
    exact hinv
  · rw [hx] at hrun
    injection hrun with he
    exact he ▸ hstops
  · rw [hx]
    exact hseen

/-! ## Programs -/

theorem Simulates.pure (a : α) : Simulates V (pure a : Exec ε σ α) (pure a) :=
  fun _ hs => at_ok rfl hs fun hg => ⟨hg, rfl⟩

theorem Simulates.throw {e : ε} (he : V.stops e) :
    Simulates V (throw e : Exec ε σ α) (throw e) :=
  fun _ hs => at_error rfl hs he fun hg => ⟨hg, rfl⟩

theorem Simulates.modify {f : σ → σ} {g : τ → τ} (hinv : ∀ s, V.inv s → V.inv (f s))
    (hgood : ∀ s, V.good (f s) → V.good s) (hmap : ∀ s, g (V.map s) = V.map (f s)) :
    Simulates V (modify f : Exec ε σ PUnit) (modify g) :=
  fun s hs => at_ok (EStateM.run_modify f s) (hinv s hs) fun hg =>
    ⟨hgood s hg, congrArg (EStateM.Result.ok PUnit.unit) (hmap s)⟩

/-- What follows a step that returned need only be seen from where it returned. -/
theorem View.At.bind_at {x : Exec ε σ α} {y : Exec ε τ α} {f : α → Exec ε σ β}
    {g : α → Exec ε τ β} {s : σ} (hx : V.At x y s)
    (hf : ∀ a s', x.run s = .ok a s' → V.At (f a) (g a) s') :
    V.At (x >>= f) (y >>= g) s := by
  cases hrun : x.run s with
  | ok a s' =>
      have hnext := hf a s' hrun
      refine ⟨?_, fun e t h => ?_, fun hgood => ?_⟩
      · rw [bind_ok hrun]
        exact hnext.inv
      · rw [bind_ok hrun] at h
        exact hnext.stops e t h
      · rw [bind_ok hrun] at hgood ⊢
        obtain ⟨hgood', hrest⟩ := hnext.seen hgood
        obtain ⟨hs, hy⟩ := (hx.of_ok hrun).2 hgood'
        exact ⟨hs, (bind_ok hy).trans hrest⟩
  | error e s' =>
      obtain ⟨hinv, hstops, hseen⟩ := hx.of_error hrun
      exact at_error (bind_error hrun) hinv hstops fun hgood =>
        ⟨(hseen hgood).1, bind_error (hseen hgood).2⟩

/-- After a step whose end is known, the rest need only be seen from there. -/
theorem View.At.after {x : Exec ε σ α} {y : Exec ε τ α} {f : α → Exec ε σ β}
    {g : α → Exec ε τ β} {s s' : σ} {a : α} (hx : V.At x y s) (hrun : x.run s = .ok a s')
    (hf : V.At (f a) (g a) s') : V.At (x >>= f) (y >>= g) s := by
  refine hx.bind_at fun b t h => ?_
  rw [hrun] at h
  injection h with ha hs
  subst ha hs
  exact hf

theorem View.At.bind {x : Exec ε σ α} {y : Exec ε τ α} {f : α → Exec ε σ β}
    {g : α → Exec ε τ β} {s : σ} (hx : V.At x y s) (hf : ∀ a, Simulates V (f a) (g a)) :
    V.At (x >>= f) (y >>= g) s :=
  hx.bind_at fun a s' hrun => hf a s' (hx.of_ok hrun).1

theorem Simulates.bind {x : Exec ε σ α} {y : Exec ε τ α} {f : α → Exec ε σ β}
    {g : α → Exec ε τ β} (hx : Simulates V x y) (hf : ∀ a, Simulates V (f a) (g a)) :
    Simulates V (x >>= f) (y >>= g) :=
  fun s hs => (hx s hs).bind hf

/-- A step whose answer is known in advance. -/
theorem Simulates.bind_value {x : Exec ε σ α} {y : Exec ε τ α} {f : α → Exec ε σ β}
    {g : α → Exec ε τ β} {a : α} (hx : ∀ s, x.run s = .ok a s) (hy : ∀ t, y.run t = .ok a t)
    (hf : Simulates V (f a) (g a)) : Simulates V (x >>= f) (y >>= g) := by
  intro s hs
  have h := hf s hs
  refine ⟨?_, fun e t hrun => ?_, fun hgood => ?_⟩
  · rw [bind_ok (hx s)]
    exact h.inv
  · rw [bind_ok (hx s)] at hrun
    exact h.stops e t hrun
  · rw [bind_ok (hx s)] at hgood ⊢
    exact ⟨(h.seen hgood).1, (bind_ok (hy _)).trans (h.seen hgood).2⟩

/-- A program that begins with a look at the state. -/
theorem View.At.bind_get {f : σ → Exec ε σ β} {g : τ → Exec ε τ β} {s : σ}
    (hf : V.At (f s) (g (V.map s)) s) : V.At (get >>= f) (get >>= g) s := by
  refine ⟨?_, fun e t hrun => ?_, fun hgood => ?_⟩
  · rw [bind_ok (EStateM.run_get s)]
    exact hf.inv
  · rw [bind_ok (EStateM.run_get s)] at hrun
    exact hf.stops e t hrun
  · rw [bind_ok (EStateM.run_get s)] at hgood ⊢
    exact ⟨(hf.seen hgood).1, (bind_ok (EStateM.run_get _)).trans (hf.seen hgood).2⟩

theorem Simulates.bind_get {f : σ → Exec ε σ β} {g : τ → Exec ε τ β}
    (h : ∀ s, V.inv s → V.At (f s) (g (V.map s)) s) :
    Simulates V (get >>= f) (get >>= g) :=
  fun s hs => .bind_get (h s hs)

theorem Simulates.ite {c : Prop} [Decidable c] {x x' : Exec ε σ α} {y y' : Exec ε τ α}
    (hx : Simulates V x y) (hx' : Simulates V x' y') :
    Simulates V (if c then x else x') (if c then y else y') := by
  split
  · exact hx
  · exact hx'

end Bedrock.Lib.Exec
