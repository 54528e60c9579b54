import Mathlib.Data.List.Basic

/-!
# Two runs side by side

That an observer of a deterministic system learns nothing of a secret is a statement about two runs:
the inputs differ in the secret only, and what the observer sees is the same. It is proved by
walking the two runs side by side, with a relation between their states that every pair of steps
keeps.

`run` is the state after a list of actions, `Along` says that a condition holds at every step of one
run, and `SideBySide R Q` that the states of two runs are related by `R` at every point and their
steps by `Q`. The last two are recursive, for proofs, and `along_iff`, `SideBySide.states` and
`SideBySide.steps` read them by positions.
-/

namespace Lockstep

variable {σ α : Type*} (step : α → σ → σ)

/-- The state after a list of actions. -/
def run (as : List α) (s : σ) : σ := as.foldl (fun s a ↦ step a s) s

@[simp] theorem run_nil (s : σ) : run step [] s = s := rfl

@[simp] theorem run_cons (a : α) (as : List α) (s : σ) :
    run step (a :: as) s = run step as (step a s) := rfl

/-! ### One run -/

/-- `P` holds of every action of a run, in the state it meets. -/
def Along (P : σ → α → Prop) : List α → σ → Prop
  | [], _ => True
  | a :: as, s => P s a ∧ Along P as (step a s)

variable {step} {P : σ → α → Prop} {as bs : List α} {s : σ}

theorem along_append :
    Along step P (as ++ bs) s ↔ Along step P as s ∧ Along step P bs (run step as s) := by
  induction as generalizing s with
  | nil => exact (true_and _).symm.to_iff
  | cons a as ih =>
    rw [List.cons_append, Along, Along, ih, and_assoc]
    rfl

/-- The condition by positions. -/
theorem along_iff :
    Along step P as s ↔ ∀ k a, as[k]? = some a → P (run step (as.take k) s) a := by
  induction as generalizing s with
  | nil => simp [Along]
  | cons a as ih =>
    rw [Along, ih]
    constructor
    · rintro ⟨hfirst, hrest⟩ k b hb
      cases k with
      | zero => exact Option.some.inj hb ▸ hfirst
      | succ k => exact hrest k b hb
    · exact fun h ↦ ⟨h 0 a rfl, fun k b hb ↦ h (k + 1) b hb⟩

/-! ### Two runs -/

variable (step) in
/-- Two runs whose states are related by `R` at every point, and whose steps by `Q`. -/
inductive SideBySide (R : σ → σ → Prop) (Q : σ → α → σ → α → Prop) :
    List α → σ → List α → σ → Prop
  | nil {s s' : σ} (h : R s s') : SideBySide R Q [] s [] s'
  | cons {a a' : α} {as as' : List α} {s s' : σ} (h : R s s') (hstep : Q s a s' a')
    (rest : SideBySide R Q as (step a s) as' (step a' s')) :
    SideBySide R Q (a :: as) s (a' :: as') s'

namespace SideBySide

variable {R : σ → σ → Prop} {Q : σ → α → σ → α → Prop} {as' bs' : List α} {s' : σ}

/-- A run beside itself. -/
theorem refl (hR : ∀ s, R s s) (hQ : ∀ s a, Q s a s a) (as : List α) (s : σ) :
    SideBySide step R Q as s as s := by
  induction as generalizing s with
  | nil => exact .nil (hR s)
  | cons a as ih => exact .cons (hR s) (hQ s a) (ih _)

theorem mono {R₁ : σ → σ → Prop} (h : SideBySide step R Q as s as' s')
    (hR : ∀ s s', R s s' → R₁ s s') :
    SideBySide step R₁ Q as s as' s' := by
  induction h with
  | nil h => exact .nil (hR _ _ h)
  | cons h hQ _ ih => exact .cons (hR _ _ h) hQ ih

theorem append (h : SideBySide step R Q as s as' s')
    (h' : SideBySide step R Q bs (run step as s) bs' (run step as' s')) :
    SideBySide step R Q (as ++ bs) s (as' ++ bs') s' := by
  induction h with
  | nil => exact h'
  | cons hR hQ _ ih => exact .cons hR hQ (ih h')

theorem length_eq (h : SideBySide step R Q as s as' s') : as.length = as'.length := by
  induction h with
  | nil => rfl
  | cons _ _ _ ih => rw [List.length_cons, List.length_cons, ih]

/-- The states by positions. -/
theorem states (h : SideBySide step R Q as s as' s') (k : ℕ) :
    R (run step (as.take k) s) (run step (as'.take k) s') := by
  induction h generalizing k with
  | nil h => rw [List.take_nil]; exact h
  | cons h _ _ ih =>
    cases k with
    | zero => exact h
    | succ k => exact ih k

/-- The steps by positions. -/
theorem steps (h : SideBySide step R Q as s as' s') {k : ℕ} {a : α} (ha : as[k]? = some a) :
    ∃ a', as'[k]? = some a' ∧ Q (run step (as.take k) s) a (run step (as'.take k) s') a' := by
  induction h generalizing k with
  | nil => cases ha
  | cons _ hQ _ ih =>
    cases k with
    | zero =>
      obtain rfl := Option.some.inj ha
      exact ⟨_, rfl, hQ⟩
    | succ k => exact ih ha

end SideBySide

end Lockstep
