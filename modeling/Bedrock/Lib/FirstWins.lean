import Mathlib.Logic.Function.Basic

/-!
# Where the first one wins

A partial map `κ → Option ν` that is only ever extended: an insertion at a key
that has a value is ignored. After any sequence of insertions a key has the
value of the first insertion at it. And a search that stops at the first element
of a kind: without one it has gone as far as the last.
-/

namespace Bedrock.Lib

variable {κ ν γ : Type*} [DecidableEq κ]

/-- Insert where nothing is yet. -/
def insertNew (f : κ → Option ν) (x : κ) (v : ν) : κ → Option ν :=
  Function.update f x ((f x).or (some v))

theorem insertNew_self {f : κ → Option ν} {x : κ} {v : ν} :
    insertNew f x v x = (f x).or (some v) := Function.update_self ..

theorem insertNew_ne {f : κ → Option ν} {x y : κ} {v : ν} (h : y ≠ x) :
    insertNew f x v y = f y := Function.update_of_ne h ..

theorem insertNew_some {f : κ → Option ν} {x : κ} {v : ν} (h : f x ≠ none) :
    insertNew f x v = f := by
  obtain ⟨w, hw⟩ := Option.ne_none_iff_exists'.mp h
  rw [insertNew, hw, Option.some_or, ← hw, Function.update_eq_self]

/-- A key has the value of the first insertion at it, unless it had one from
the start. -/
theorem foldl_insertNew {key : γ → κ} {val : γ → ν} (l : List γ)
    (f : κ → Option ν) (x : κ) :
    l.foldl (fun f c => insertNew f (key c) (val c)) f x =
      (f x).or ((l.find? fun c => key c = x).map val) := by
  induction l generalizing f with
  | nil => simp
  | cons c l ih =>
      rw [List.foldl_cons, ih]
      by_cases h : key c = x
      · rw [List.find?_cons_of_pos (by simpa using h), ← h,
          insertNew_self, Option.or_assoc]
        rfl
      · rw [List.find?_cons_of_neg (by simpa using h),
          insertNew_ne (Ne.symm h)]

/-- Where a search through `l` for an element of the kind `p` stops: at the first,
or at the last of all; at `a` if there are none. -/
def firstOrLast {α : Type*} (p : α → Bool) (l : List α) (a : α) : α :=
  (l.find? p).getD (l.getLastD a)

theorem firstOrLast_cons {α : Type*} (p : α → Bool) (b : α) (l : List α) (a : α) :
    firstOrLast p (b :: l) a = if p b then b else firstOrLast p l b := by
  rw [firstOrLast, firstOrLast, List.getLastD_cons]
  by_cases h : p b = true
  · rw [List.find?_cons_of_pos h, if_pos h]
    rfl
  · rw [List.find?_cons_of_neg h, if_neg h]

end Bedrock.Lib
