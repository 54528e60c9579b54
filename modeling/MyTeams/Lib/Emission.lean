import Mathlib.Data.List.Basic

/-!
# Runs that put something out

A step relation `step s new s'` whose steps put out lists, and its runs: `Emits step s out s'` says
that steps lead from `s` to `s'` and put out `out`, one list after the other. This is
`Relation.ReflTransGen` with an account of what was put out, so a statement about `out` is one about
the steps that were taken, not about what some state remembers of them.
-/

namespace Emission

variable {σ α : Type*}

/-- Any number of steps, and all that they put out. -/
inductive Emits (step : σ → List α → σ → Prop) (s : σ) : List α → σ → Prop
  | refl : Emits step s [] s
  | tail {out new : List α} {s' s'' : σ} (h : Emits step s out s') (hstep : step s' new s'') :
    Emits step s (out ++ new) s''

namespace Emits

variable {step : σ → List α → σ → Prop} {s s' s'' : σ} {out out' : List α}

theorem single (h : step s out s') : Emits step s out s' := refl.tail h

theorem trans (h : Emits step s out s') (h' : Emits step s' out' s'') :
    Emits step s (out ++ out') s'' := by
  induction h' with
  | refl => rwa [List.append_nil]
  | tail _ hstep ih =>
    rw [← List.append_assoc]
    exact ih.tail hstep

/-- **Invariant rule**: what relates the start to nothing put out, and is kept by every step,
relates the end of a run to all that it put out. -/
theorem rule {R : List α → σ → Prop} (h : Emits step s out s') (start : R [] s)
    (next : ∀ {out new s' s''}, R out s' → step s' new s'' → R (out ++ new) s'') : R out s' := by
  induction h with
  | refl => exact start
  | tail _ hstep ih => exact next ih hstep

end Emits

end Emission
