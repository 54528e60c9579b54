import Mathlib.Data.List.TakeWhile

/-!
# Quoted and bare arguments

A line of arguments over any alphabet, with a blank `sp` and a quote `q`: an argument is **quoted**,
between two quotes and without a quote inside, or **bare**, up to the next blank. `Lexed` says which
tokens a line is made of, `Unclosed` that a quote is opened and never closed. Every line is one or
the other (`lexed_or_unclosed`), and its tokens are determined by it (`Lexed.unique`).

A quoted argument ends at its second quote, so another argument can follow without a blank. A bare
one goes on through any quotes that it does not start with.
-/

namespace Quoting

variable {α : Type*}

/-- A token of a line. -/
inductive Token (α : Type*)
  | blank
  | quoted (a : List α)
  | bare (a : List α)

/-- The argument that a token is. -/
def Token.arg? : Token α → Option (List α)
  | .blank => none
  | .quoted a => some a
  | .bare a => some a

/-- The arguments of a line. -/
def args (ts : List (Token α)) : List (List α) := ts.filterMap Token.arg?

theorem args_append (ts us : List (Token α)) : args (ts ++ us) = args ts ++ args us :=
  List.filterMap_append

theorem args_replicate_blank (n : ℕ) : args (List.replicate n (.blank : Token α)) = [] :=
  List.filterMap_eq_nil_iff.2 fun t ht ↦ by
    rw [List.eq_of_mem_replicate ht]
    rfl

variable (sp q : α)

/-- The line is at its end, or goes on with `x`. -/
def Ends (x : α) (s : List α) : Prop := ∀ y ∈ s.head?, y = x

/-- **The tokens of a line.** -/
inductive Lexed : List (Token α) → List α → Prop
  | nil : Lexed [] []
  | blank {ts : List (Token α)} {s : List α} (h : Lexed ts s) : Lexed (.blank :: ts) (sp :: s)
  | quoted {ts : List (Token α)} {s a : List α} (ha : q ∉ a) (h : Lexed ts s) :
    Lexed (.quoted a :: ts) (q :: (a ++ q :: s))
  | bare {ts : List (Token α)} {s a : List α} {b : α} (hsp : b ≠ sp) (hq : b ≠ q) (ha : sp ∉ a)
    (hs : Ends sp s) (h : Lexed ts s) : Lexed (.bare (b :: a) :: ts) (b :: (a ++ s))

/-- **A quote is opened and never closed.** -/
inductive Unclosed : List α → Prop
  | here {a : List α} (ha : q ∉ a) : Unclosed (q :: a)
  | blank {s : List α} (h : Unclosed s) : Unclosed (sp :: s)
  | quoted {s a : List α} (ha : q ∉ a) (h : Unclosed s) : Unclosed (q :: (a ++ q :: s))
  | bare {s a : List α} {b : α} (hsp : b ≠ sp) (hq : b ≠ q) (ha : sp ∉ a) (hs : Ends sp s)
    (h : Unclosed s) : Unclosed (b :: (a ++ s))

variable {sp q}

/-! ### Where a token ends -/

theorem ends_cons (x : α) (s : List α) : Ends x (x :: s) := by
  rintro y hy
  exact (Option.mem_some_iff.1 hy).symm

theorem ends_nil (x : α) : Ends x [] := by
  rintro y hy
  cases hy

section Scan

variable [DecidableEq α] {x : α} {a s : List α}

theorem takeWhile_append_of_ends (ha : x ∉ a) (hs : Ends x s) :
    (a ++ s).takeWhile (· != x) = a := by
  have hall : ∀ y ∈ a, (y != x) = true := fun y hy ↦ bne_iff_ne.2 fun h ↦ ha (h ▸ hy)
  rw [List.takeWhile_append_of_pos hall]
  cases s with
  | nil => rw [List.takeWhile_nil, List.append_nil]
  | cons y s =>
    obtain rfl := hs y rfl
    rw [List.takeWhile_cons_of_neg (by simp), List.append_nil]

theorem dropWhile_append_of_ends (ha : x ∉ a) (hs : Ends x s) :
    (a ++ s).dropWhile (· != x) = s := by
  have hsplit := (a ++ s).takeWhile_append_dropWhile (p := (· != x))
  rw [takeWhile_append_of_ends ha hs] at hsplit
  exact List.append_cancel_left hsplit

/-- A line is cut at the first `x` in one way. -/
theorem append_inj_of_ends {b t : List α} (ha : x ∉ a) (hs : Ends x s) (hb : x ∉ b) (ht : Ends x t)
    (h : a ++ s = b ++ t) : a = b ∧ s = t := by
  have htake : a = b := by
    rw [← takeWhile_append_of_ends ha hs, h, takeWhile_append_of_ends hb ht]
  subst htake
  exact ⟨rfl, List.append_cancel_left h⟩

variable (x s) in
/-- Every line is a part without `x`, and what follows it. -/
theorem exists_append_ends : ∃ a t, s = a ++ t ∧ x ∉ a ∧ Ends x t := by
  induction s with
  | nil => exact ⟨[], [], rfl, List.not_mem_nil, ends_nil x⟩
  | cons y s ih =>
    by_cases hy : y = x
    · subst hy
      exact ⟨[], y :: s, rfl, List.not_mem_nil, ends_cons y s⟩
    · obtain ⟨a, t, rfl, ha, ht⟩ := ih
      exact ⟨y :: a, t, rfl, by simp [ha, Ne.symm hy], ht⟩

end Scan

/-! ### What a line starts with -/

section Inversion

variable {ts : List (Token α)} {s : List α}

theorem Lexed.of_nil (h : Lexed sp q ts []) : ts = [] := by
  cases h
  rfl

theorem Lexed.of_blank (hne : sp ≠ q) (h : Lexed sp q ts (sp :: s)) :
    ∃ us, ts = .blank :: us ∧ Lexed sp q us s := by
  generalize hline : sp :: s = line at h
  cases h with
  | nil => cases hline
  | blank h =>
    obtain ⟨-, rfl⟩ := List.cons.inj hline
    exact ⟨_, rfl, h⟩
  | quoted => exact absurd (List.cons.inj hline).1 hne
  | bare hsp => exact absurd (List.cons.inj hline).1.symm hsp

theorem Lexed.of_quote (hne : sp ≠ q) (h : Lexed sp q ts (q :: s)) :
    ∃ a t us, ts = .quoted a :: us ∧ s = a ++ q :: t ∧ q ∉ a ∧ Lexed sp q us t := by
  generalize hline : q :: s = line at h
  cases h with
  | nil => cases hline
  | blank => exact absurd (List.cons.inj hline).1.symm hne
  | quoted ha h =>
    obtain ⟨-, rfl⟩ := List.cons.inj hline
    exact ⟨_, _, _, rfl, rfl, ha, h⟩
  | bare _ hq => exact absurd (List.cons.inj hline).1.symm hq

theorem Lexed.of_bare {b : α} (hsp : b ≠ sp) (hq : b ≠ q) (h : Lexed sp q ts (b :: s)) :
    ∃ a t us, ts = .bare (b :: a) :: us ∧ s = a ++ t ∧ sp ∉ a ∧ Ends sp t ∧ Lexed sp q us t := by
  generalize hline : b :: s = line at h
  cases h with
  | nil => cases hline
  | blank => exact absurd (List.cons.inj hline).1 hsp
  | quoted => exact absurd (List.cons.inj hline).1 hq
  | bare _ _ ha hs h =>
    obtain ⟨rfl, rfl⟩ := List.cons.inj hline
    exact ⟨_, _, _, rfl, rfl, ha, hs, h⟩

end Inversion

/-! ### The main facts -/

section Main

variable [DecidableEq α]

/-- **A line determines its tokens.** -/
theorem Lexed.unique (hne : sp ≠ q) {ts us : List (Token α)} {s : List α} (h : Lexed sp q ts s)
    (h' : Lexed sp q us s) : ts = us := by
  induction h generalizing us with
  | nil => exact h'.of_nil.symm
  | blank _ ih =>
    obtain ⟨us, rfl, hus⟩ := h'.of_blank hne
    rw [ih hus]
  | quoted ha _ ih =>
    obtain ⟨b, t, us, rfl, heq, hb, hus⟩ := h'.of_quote hne
    obtain ⟨rfl, hrest⟩ := append_inj_of_ends ha (ends_cons q _) hb (ends_cons q _) heq
    obtain ⟨-, rfl⟩ := List.cons.inj hrest
    rw [ih hus]
  | bare hsp hq ha hs _ ih =>
    obtain ⟨b, t, us, rfl, heq, hb, ht, hus⟩ := h'.of_bare hsp hq
    obtain ⟨rfl, rfl⟩ := append_inj_of_ends ha hs hb ht heq
    rw [ih hus]

variable (sp q) in
/-- **Every line has tokens, or an unclosed quote.** -/
theorem lexed_or_unclosed (s : List α) : (∃ ts, Lexed sp q ts s) ∨ Unclosed sp q s := by
  induction hn : s.length using Nat.strong_induction_on generalizing s with
  | _ n ih =>
    subst hn
    cases s with
    | nil => exact .inl ⟨[], .nil⟩
    | cons b s =>
      by_cases hsp : b = sp
      · subst hsp
        obtain ⟨ts, h⟩ | h := ih s.length (Nat.lt_succ_self _) s rfl
        · exact .inl ⟨_, h.blank⟩
        · exact .inr h.blank
      by_cases hq : b = q
      · subst hq
        by_cases hmem : b ∈ s
        · obtain ⟨a, t, rfl, ha⟩ := List.eq_append_cons_of_mem hmem
          have hlt : t.length < (b :: (a ++ b :: t)).length := by
            rw [List.length_cons, List.length_append, List.length_cons]
            omega
          obtain ⟨ts, h⟩ | h := ih t.length hlt t rfl
          · exact .inl ⟨_, .quoted ha h⟩
          · exact .inr (.quoted ha h)
        · exact .inr (.here hmem)
      · obtain ⟨a, t, rfl, ha, ht⟩ := exists_append_ends sp s
        have hlt : t.length < (b :: (a ++ t)).length := by
          rw [List.length_cons, List.length_append]
          omega
        obtain ⟨ts, h⟩ | h := ih t.length hlt t rfl
        · exact .inl ⟨_, .bare hsp hq ha ht h⟩
        · exact .inr (.bare hsp hq ha ht h)

end Main

/-! ### Lines without bare arguments -/

/-- No argument is bare. -/
def AllQuoted (ts : List (Token α)) : Prop := ∀ a, Token.bare a ∉ ts

theorem AllQuoted.tail {t : Token α} {ts : List (Token α)} (h : AllQuoted (t :: ts)) :
    AllQuoted ts := fun a ha ↦ h a (List.mem_cons_of_mem t ha)

theorem allQuoted_replicate (n : ℕ) : AllQuoted (List.replicate n (.blank : Token α)) := by
  intro a ha
  cases List.eq_of_mem_replicate ha

theorem lexed_replicate (n : ℕ) : Lexed sp q (List.replicate n .blank) (List.replicate n sp) := by
  induction n with
  | zero => exact .nil
  | succ n ih => exact ih.blank

/-- Blanks and quoted arguments do not run into what follows. -/
theorem Lexed.append {ts us : List (Token α)} {s t : List α} (hts : AllQuoted ts)
    (h : Lexed sp q ts s) (h' : Lexed sp q us t) : Lexed sp q (ts ++ us) (s ++ t) := by
  induction h with
  | nil => exact h'
  | blank _ ih => exact (ih hts.tail).blank
  | quoted ha _ ih =>
    rw [List.cons_append, List.cons_append, List.append_assoc]
    exact .quoted ha (ih hts.tail)
  | bare => exact absurd List.mem_cons_self (hts _)

theorem Lexed.append_unclosed {ts : List (Token α)} {s t : List α} (hts : AllQuoted ts)
    (h : Lexed sp q ts s) (h' : Unclosed sp q t) : Unclosed sp q (s ++ t) := by
  induction h with
  | nil => exact h'
  | blank _ ih => exact (ih hts.tail).blank
  | quoted ha _ ih =>
    rw [List.cons_append, List.append_assoc]
    exact .quoted ha (ih hts.tail)
  | bare => exact absurd List.mem_cons_self (hts _)

end Quoting
