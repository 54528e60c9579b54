import Mathlib.Data.List.Basic
import Mathlib.Data.List.Forall2
import Mathlib.Logic.Function.Basic
import Mathlib.Logic.Relation

/-!
# Atomic services

A service that several parties use, without buffers, bytes or concurrency: parties connect, make
requests and hang up, one at a time, and each request has its whole effect at once. It changes the
data of the service, and it tells the parties that are connected something. What a request does is a
matter of the `Rules`; what the service has done is its history, a list of `Happening`s.

`Runs R hs S` says that the service can get to the state `S` by the history `hs`. Whoever shows of
an implementation that each of its steps is none or one step of the service (`runs_of_reachable`)
may forget how it is made: its state is a function of the history if the rules leave no choice
(`Runs.unique`), and if every request is replied to, the replies that a party was told are those to
its requests, in their order (`Runs.replies`).
-/

namespace AtomicService

variable {κ ρ σ μ : Type*}

/-- What happens at a service. -/
inductive Happening (κ ρ : Type*)
  | connect (k : κ)
  | request (k : κ) (r : ρ)
  | hangup (k : κ)

/-- What a service does at once: the data it leaves, and what it tells the parties. -/
structure Effect (κ σ μ : Type*) where
  data : σ
  tells : κ → List μ

/-- **The rules of a service**: which effects the `n`-th request may have, and which it may have
that a party hangs up. -/
structure Rules (κ ρ σ μ : Type*) where
  init : σ
  serves : ℕ → κ → ρ → σ → Effect κ σ μ → Prop
  leaves : ℕ → κ → σ → Effect κ σ μ → Prop

/-- The state of a service: its data, how many requests were made, and what each party that is
connected has been told since it connected. -/
structure State (κ σ μ : Type*) where
  data : σ
  asked : ℕ
  told : κ → Option (List μ)

/-- The service before anything has happened. -/
def Rules.start (R : Rules κ ρ σ μ) : State κ σ μ := ⟨R.init, 0, fun _ ↦ none⟩

/-- What everybody has been told after an effect. -/
def State.hears (S : State κ σ μ) (e : Effect κ σ μ) (k : κ) : Option (List μ) :=
  (S.told k).map (· ++ e.tells k)

theorem State.hears_eq_some {S : State κ σ μ} {e : Effect κ σ μ} {k : κ} {ms : List μ}
    (h : S.hears e k = some ms) : ∃ ms', S.told k = some ms' ∧ ms = ms' ++ e.tells k := by
  obtain ⟨ms', hms', rfl⟩ := Option.map_eq_some_iff.1 h
  exact ⟨ms', hms', rfl⟩

section Steps

variable [DecidableEq κ]

/-- **One happening.** -/
inductive Step (R : Rules κ ρ σ μ) (S : State κ σ μ) : Happening κ ρ → State κ σ μ → Prop
  | connect {k : κ} (h : S.told k = none) :
    Step R S (.connect k) ⟨S.data, S.asked, Function.update S.told k (some [])⟩
  | request {k : κ} {r : ρ} {e : Effect κ σ μ} (h : (S.told k).isSome)
    (he : R.serves S.asked k r S.data e) :
    Step R S (.request k r) ⟨e.data, S.asked + 1, S.hears e⟩
  | hangup {k : κ} {e : Effect κ σ μ} (h : (S.told k).isSome) (he : R.leaves S.asked k S.data e) :
    Step R S (.hangup k) ⟨e.data, S.asked, Function.update (S.hears e) k none⟩

/-- **A run**, with its history. -/
inductive Runs (R : Rules κ ρ σ μ) : List (Happening κ ρ) → State κ σ μ → Prop
  | start : Runs R [] R.start
  | next {hs : List (Happening κ ρ)} {S S' : State κ σ μ} {h : Happening κ ρ} (hruns : Runs R hs S)
    (hstep : Step R S h S') : Runs R (hs ++ [h]) S'

variable {R : Rules κ ρ σ μ} {hs : List (Happening κ ρ)} {S S' : State κ σ μ}

/-! ### Implementations -/

/-- **Refinement rule**: an implementation whose every step is none of the service, or one that is
added to the history, runs like the service. -/
theorem runs_of_reachable {ι : Type*} {next : ι → ι → Prop} {history : ι → List (Happening κ ρ)}
    {view : ι → State κ σ μ} {i₀ i : ι} (hstart : history i₀ = [] ∧ view i₀ = R.start)
    (hnext : ∀ i i', Relation.ReflTransGen next i₀ i → next i i' →
      (history i' = history i ∧ view i' = view i) ∨
      ∃ h, history i' = history i ++ [h] ∧ Step R (view i) h (view i'))
    (h : Relation.ReflTransGen next i₀ i) : Runs R (history i) (view i) := by
  induction h with
  | refl =>
    rw [hstart.1, hstart.2]
    exact .start
  | tail hbefore hstep ih =>
    rcases hnext _ _ hbefore hstep with ⟨hhistory, hview⟩ | ⟨h, hhistory, hview⟩
    · rw [hhistory, hview]
      exact ih
    · rw [hhistory]
      exact ih.next hview

/-! ### Rules without a choice -/

/-- The rules leave no choice. -/
structure Rules.Functional (R : Rules κ ρ σ μ) : Prop where
  serves : ∀ {n k r x e e'}, R.serves n k r x e → R.serves n k r x e' → e = e'
  leaves : ∀ {n k x e e'}, R.leaves n k x e → R.leaves n k x e' → e = e'

theorem Step.unique (hR : R.Functional) {h : Happening κ ρ} (hS : Step R S h S') {S'' : State κ σ μ}
    (hS' : Step R S h S'') : S' = S'' := by
  cases hS with
  | connect => cases hS' with | connect => rfl
  | request _ he =>
    cases hS' with
    | request _ he' => rw [hR.serves he he']
  | hangup _ he =>
    cases hS' with
    | hangup _ he' => rw [hR.leaves he he']

/-- **The history determines the state.** -/
theorem Runs.unique (hR : R.Functional) (hS : Runs R hs S) (hS' : Runs R hs S') : S = S' := by
  induction hS generalizing S' with
  | start =>
    generalize heq : ([] : List (Happening κ ρ)) = hs at hS'
    cases hS' with
    | start => rfl
    | next => exact absurd heq.symm (List.append_ne_nil_of_right_ne_nil _ (List.cons_ne_nil _ _))
  | @next hs _ _ h _ hstep ih =>
    generalize heq : hs ++ [h] = hs' at hS'
    cases hS' with
    | start => exact absurd heq (List.append_ne_nil_of_right_ne_nil _ (List.cons_ne_nil _ _))
    | next hruns' hstep' =>
      obtain ⟨rfl, hsingle⟩ := List.append_inj' heq rfl
      obtain rfl := List.singleton_inj.1 hsingle
      rw [← ih hruns'] at hstep'
      exact hstep.unique hR hstep'

/-! ### Replies -/

/-- The requests of a party since it connected last. -/
def requestsSince (k : κ) (hs : List (Happening κ ρ)) : List ρ :=
  hs.foldl
    (fun rs h ↦
      match h with
      | .connect d => if d = k then [] else rs
      | .request d r => if d = k then rs ++ [r] else rs
      | .hangup _ => rs)
    []

theorem requestsSince_concat (k : κ) (hs : List (Happening κ ρ)) (h : Happening κ ρ) :
    requestsSince k (hs ++ [h]) =
      match h with
      | .connect d => if d = k then [] else requestsSince k hs
      | .request d r => if d = k then requestsSince k hs ++ [r] else requestsSince k hs
      | .hangup _ => requestsSince k hs := by
  rw [requestsSince, List.foldl_append]
  rfl

/-- **Requests are replied to**: whoever makes one is told a single reply to it, which is in the
relation `Q` to the request; and whatever else anybody is told is no reply. -/
structure Rules.Replies (R : Rules κ ρ σ μ) (reply : μ → Bool) (Q : ρ → μ → Prop) : Prop where
  own : ∀ {n k r x e}, R.serves n k r x e → ∃ m, (e.tells k).filter reply = [m] ∧ Q r m
  others : ∀ {n k r x e d}, R.serves n k r x e → d ≠ k → (e.tells d).filter reply = []
  leaves : ∀ {n k x e d}, R.leaves n k x e → d ≠ k → (e.tells d).filter reply = []

/-- **The replies that a party was told are those to its requests, in their order.** -/
theorem Runs.replies {reply : μ → Bool} {Q : ρ → μ → Prop} (hR : R.Replies reply Q)
    (h : Runs R hs S) {k : κ} {ms : List μ} (hk : S.told k = some ms) :
    List.Forall₂ Q (requestsSince k hs) (ms.filter reply) := by
  induction h generalizing ms with
  | start => cases hk
  | @next hs S _ _ hruns hstep ih =>
    rw [requestsSince_concat]
    cases hstep with
    | @connect d hd =>
      dsimp only at hk ⊢
      rcases eq_or_ne d k with rfl | hne
      · rw [Function.update_self] at hk
        rw [if_pos rfl, ← Option.some.inj hk]
        exact .nil
      · rw [Function.update_of_ne hne.symm] at hk
        rw [if_neg hne]
        exact ih hk
    | @request d r e hd he =>
      obtain ⟨ms', hms', rfl⟩ := State.hears_eq_some hk
      dsimp only
      rw [List.filter_append]
      rcases eq_or_ne d k with rfl | hne
      · obtain ⟨m, hm, hQ⟩ := hR.own he
        rw [if_pos rfl, hm]
        exact List.rel_append (ih hms') (.cons hQ .nil)
      · rw [if_neg hne, hR.others he hne.symm, List.append_nil]
        exact ih hms'
    | @hangup d e hd he =>
      dsimp only at hk ⊢
      rcases eq_or_ne d k with rfl | hne
      · rw [Function.update_self] at hk
        cases hk
      · rw [Function.update_of_ne hne.symm] at hk
        obtain ⟨ms', hms', rfl⟩ := State.hears_eq_some hk
        rw [List.filter_append, hR.leaves he hne.symm, List.append_nil]
        exact ih hms'

end Steps

end AtomicService
