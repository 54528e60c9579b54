import Mathlib.Data.List.Forall2

/-!
# Updating the first match

Programs that keep records in a growing array often look one up by scanning for the first match and
then write through the pointer they found. `updateFirst p f` is that write; `List.find?` is the
lookup. The laws say how the two interact, and that appending at the end never changes what an
already successful lookup finds.
-/

namespace FirstMatch

variable {α β κ : Type*}

/-- Apply `f` to the first element satisfying `p`. -/
def updateFirst (p : α → Bool) (f : α → α) : List α → List α
  | [] => []
  | a :: l => if p a then f a :: l else a :: updateFirst p f l

@[simp] theorem length_updateFirst (p : α → Bool) (f : α → α) (l : List α) :
    (updateFirst p f l).length = l.length := by
  induction l with
  | nil => rfl
  | cons a l ih => by_cases ha : p a <;> simp [updateFirst, ha, ih]

/-- An element of the updated list is an old one or the image of the match. -/
theorem mem_updateFirst {p : α → Bool} {f : α → α} {l : List α} {b : α}
    (h : b ∈ updateFirst p f l) : b ∈ l ∨ ∃ a, l.find? p = some a ∧ b = f a := by
  induction l with
  | nil => exact absurd h List.not_mem_nil
  | cons a l ih =>
    by_cases ha : p a
    · rw [updateFirst, if_pos ha, List.mem_cons] at h
      rcases h with rfl | h
      · exact Or.inr ⟨a, by rw [List.find?_cons_of_pos ha], rfl⟩
      · exact Or.inl (List.mem_cons_of_mem _ h)
    · rw [updateFirst, if_neg ha, List.mem_cons] at h
      rcases h with rfl | h
      · exact Or.inl List.mem_cons_self
      · rcases ih h with h | ⟨c, hc, rfl⟩
        · exact Or.inl (List.mem_cons_of_mem _ h)
        · exact Or.inr ⟨c, by rw [List.find?_cons_of_neg ha, hc], rfl⟩

/-- Every position holds what it held, but the one of the match. -/
theorem getElem?_updateFirst (p : α → Bool) (f : α → α) (l : List α) (i : ℕ) :
    (updateFirst p f l)[i]? = l[i]? ∨
      ∃ a, l.findIdx? p = some i ∧ l[i]? = some a ∧ (updateFirst p f l)[i]? = some (f a) := by
  induction l generalizing i with
  | nil => exact .inl rfl
  | cons a l ih =>
    by_cases ha : p a
    · rw [updateFirst, if_pos ha, List.findIdx?_cons, if_pos ha]
      cases i with
      | zero => exact .inr ⟨a, rfl, rfl, rfl⟩
      | succ i => exact .inl rfl
    · rw [updateFirst, if_neg ha, List.findIdx?_cons, if_neg ha]
      cases i with
      | zero => exact .inl rfl
      | succ i =>
        rcases ih i with hsame | ⟨b, hidx, hb, hnew⟩
        · exact .inl hsame
        · exact .inr ⟨b, by rw [hidx]; rfl, hb, hnew⟩

/-- An update that leaves the match alone leaves everything alone. -/
theorem updateFirst_eq_self {p : α → Bool} {f : α → α} {l : List α}
    (h : ∀ a, l.find? p = some a → f a = a) : updateFirst p f l = l := by
  induction l with
  | nil => rfl
  | cons a l ih =>
    by_cases ha : p a
    · rw [updateFirst, if_pos ha, h a (List.find?_cons_of_pos ha)]
    · rw [updateFirst, if_neg ha, ih fun b hb ↦ h b (by rw [List.find?_cons_of_neg ha, hb])]

/-- Two updates of the same match are one. -/
theorem updateFirst_updateFirst {p : α → Bool} {f g : α → α} (hp : ∀ a, p (f a) = p a)
    (l : List α) : updateFirst p g (updateFirst p f l) = updateFirst p (fun a ↦ g (f a)) l := by
  induction l with
  | nil => rfl
  | cons a l ih =>
    by_cases ha : p a
    · rw [updateFirst, if_pos ha, updateFirst, if_pos ((hp a).trans ha), updateFirst, if_pos ha]
    · rw [updateFirst, if_neg ha, updateFirst, if_neg ha, updateFirst, if_neg ha, ih]

/-- The match is what is at its position. -/
theorem find?_of_findIdx? {p : α → Bool} {l : List α} {i : ℕ} (h : l.findIdx? p = some i) :
    l.find? p = l[i]? := by
  rw [List.find?_eq_bind_findIdx?_getElem?, h]
  rfl

theorem exists_findIdx? {p : α → Bool} {l : List α} {a : α} (h : l.find? p = some a) :
    ∃ i, l.findIdx? p = some i ∧ l[i]? = some a := by
  rw [List.find?_eq_bind_findIdx?_getElem?] at h
  exact Option.bind_eq_some_iff.1 h

/-- The updated list holds the image of the match at its position. -/
theorem getElem?_updateFirst_of_findIdx? {p : α → Bool} (f : α → α) {l : List α} {i : ℕ}
    (h : l.findIdx? p = some i) : (updateFirst p f l)[i]? = l[i]?.map f := by
  induction l generalizing i with
  | nil => cases h
  | cons a l ih =>
    rw [List.findIdx?_cons] at h
    rw [updateFirst]
    split_ifs at h ⊢
    · obtain rfl := Option.some.inj h
      rfl
    · obtain ⟨j, hj, rfl⟩ := Option.map_eq_some_iff.1 h
      exact ih hj

/-- An update that keeps a projection keeps the list of projections. -/
theorem map_updateFirst {p : α → Bool} {f : α → α} {g : α → κ} (hg : ∀ a, g (f a) = g a)
    (l : List α) : (updateFirst p f l).map g = l.map g := by
  induction l with
  | nil => rfl
  | cons a l ih => by_cases ha : p a <;> simp [updateFirst, ha, ih, hg]

/-- An update that a map carries over is an update of the mapped list. -/
theorem map_updateFirst_eq {p : α → Bool} {q : β → Bool} {f : α → α} {f' : β → β} {g : α → β}
    (hp : ∀ a, p a = q (g a)) (hf : ∀ a, g (f a) = f' (g a)) (l : List α) :
    (updateFirst p f l).map g = updateFirst q f' (l.map g) := by
  induction l with
  | nil => rfl
  | cons a l ih =>
    rw [updateFirst, List.map_cons, updateFirst, ← hp]
    split_ifs
    · rw [List.map_cons, hf]
    · rw [List.map_cons, ih]

/-- With distinct keys, an update is of the match alone. -/
theorem forall_updateFirst_iff {p : α → Bool} {f : α → α} {key : α → κ} {l : List α} {a : α}
    (hnodup : (l.map key).Nodup) (hfind : l.find? p = some a) {P : α → Prop} :
    (∀ b ∈ updateFirst p f l, P b) ↔ P (f a) ∧ ∀ b ∈ l, key b ≠ key a → P b := by
  induction l with
  | nil => cases hfind
  | cons c l ih =>
    obtain ⟨hc, hnodup⟩ := List.nodup_cons.1 hnodup
    have hother : ∀ b ∈ l, key b ≠ key c := fun b hb heq ↦ hc (heq ▸ List.mem_map_of_mem hb)
    by_cases hp : p c
    · rw [List.find?_cons_of_pos hp] at hfind
      obtain rfl := Option.some.inj hfind
      rw [updateFirst, if_pos hp, List.forall_mem_cons, List.forall_mem_cons]
      exact and_congr_right fun _ ↦ ⟨fun h ↦ ⟨fun hne ↦ absurd rfl hne, fun b hb _ ↦ h b hb⟩,
        fun h b hb ↦ h.2 b hb (hother b hb)⟩
    · rw [List.find?_cons_of_neg hp] at hfind
      have hne : key c ≠ key a := Ne.symm (hother a (List.mem_of_find?_eq_some hfind))
      rw [updateFirst, if_neg hp, List.forall_mem_cons, List.forall_mem_cons, ih hnodup hfind,
        forall_prop_of_true hne]
      exact and_left_comm

/-! ### Positions -/

/-- A property of all elements outlives a modification that keeps it. -/
theorem forall_mem_modify {l : List α} {i : ℕ} {f : α → α} {Q : α → Prop} (h : ∀ a ∈ l, Q a)
    (hf : ∀ a, l[i]? = some a → Q (f a)) : ∀ a ∈ l.modify i f, Q a := by
  intro a ha
  obtain ⟨j, hj⟩ := List.mem_iff_getElem?.1 ha
  rw [List.getElem?_modify] at hj
  obtain ⟨b, hb, rfl⟩ := Option.map_eq_some_iff.1 hj
  split_ifs with hij
  · exact hf b (hij ▸ hb)
  · exact h b (List.mem_of_getElem? hb)

theorem getElem?_of_prefix {l l' : List α} (h : l <+: l') {i : ℕ} {a : α} (ha : l[i]? = some a) :
    l'[i]? = some a := by
  obtain ⟨hi, rfl⟩ := List.getElem?_eq_some_iff.1 ha
  exact List.prefix_iff_getElem?.1 h i hi

/-- At all positions of a list are its elements. -/
theorem map_range_getElem? (f : α → β) (l : List α) :
    (List.range l.length).map (fun i ↦ l[i]?.map f) = l.map fun a ↦ some (f a) := by
  refine List.ext_getElem (by simp) fun i h _ ↦ ?_
  have hi : i < l.length := by simpa using h
  simp [List.getElem?_eq_getElem hi]

/-- At the positions of the matches are the matches. -/
theorem map_findIdxs_getElem? (f : α → β) (p : α → Bool) (l : List α) :
    (l.findIdxs p).map (fun i ↦ l[i]?.map f) = (l.filter p).map fun a ↦ some (f a) := by
  induction l with
  | nil => rfl
  | cons a l ih =>
    have htail : (l.findIdxs p 1).map (fun i ↦ (a :: l)[i]?.map f) =
        (l.filter p).map fun a ↦ some (f a) := by
      rw [List.findIdxs_start, List.map_map, ← ih]
      rfl
    rw [List.findIdxs_cons, List.filter_cons]
    split_ifs
    · rw [List.map_cons, List.map_cons, htail]
      rfl
    · exact htail

/-! ### Related lists -/

section Related

variable {r : α → β → Prop} {p : α → Bool} {q : β → Bool} {l : List α} {m : List β}

/-- Lookups in related lists find related elements. -/
theorem rel_find? (h : List.Forall₂ r l m) (hpq : ∀ a b, r a b → q b = p a) :
    Option.Rel r (l.find? p) (m.find? q) := by
  induction h with
  | nil => exact .none
  | @cons a b l m hab _ ih =>
    by_cases ha : p a
    · rw [List.find?_cons_of_pos ha, List.find?_cons_of_pos ((hpq a b hab).trans ha)]
      exact .some hab
    · have hb : ¬ q b := fun hb ↦ ha ((hpq a b hab).symm.trans hb)
      rw [List.find?_cons_of_neg ha, List.find?_cons_of_neg hb]
      exact ih

/-- Updates of related matches leave related lists. -/
theorem rel_updateFirst {f : α → α} {g : β → β} (h : List.Forall₂ r l m)
    (hpq : ∀ a b, r a b → q b = p a) (hfg : ∀ a b, p a = true → r a b → r (f a) (g b)) :
    List.Forall₂ r (updateFirst p f l) (updateFirst q g m) := by
  induction h with
  | nil => exact .nil
  | @cons a b l m hab h ih =>
    rw [updateFirst, updateFirst, hpq a b hab]
    split_ifs with ha
    · exact .cons (hfg a b ha hab) h
    · exact .cons hab ih

end Related

/-! ### Lookup by key -/

variable [BEq κ] [LawfulBEq κ] {key : α → κ}

/-- **Lookup after update**: with a key that the update keeps, the lookup of the updated key finds
the updated element and every other lookup is unchanged. -/
theorem find?_updateFirst {f : α → α} (hkey : ∀ a, key (f a) = key a) (k k' : κ) (l : List α) :
    (updateFirst (fun a ↦ key a == k) f l).find? (fun a ↦ key a == k') =
      if k == k' then (l.find? fun a ↦ key a == k').map f else l.find? fun a ↦ key a == k' := by
  induction l with
  | nil => simp [updateFirst]
  | cons a l ih =>
    rcases eq_or_ne (key a) k with ha | ha
    · rcases eq_or_ne k k' with hk | hk
      · simp [updateFirst, ha, hkey, hk]
      · simp [updateFirst, ha, hkey, hk]
    · rcases eq_or_ne (key a) k' with hk' | hk'
      · have hne : k ≠ k' := fun h ↦ ha (hk'.trans h.symm)
        simp [updateFirst, hk', hne, hne.symm]
      · simpa [updateFirst, ha, hk', List.find?_cons] using ih

/-- A successful lookup survives an update: it finds the same element, or its image. -/
theorem find?_updateFirst_of_some {f : α → α} (hkey : ∀ a, key (f a) = key a) (k : κ) {k' : κ}
    {l : List α} {a : α} (h : l.find? (fun a ↦ key a == k') = some a) :
    (updateFirst (fun a ↦ key a == k) f l).find? (fun a ↦ key a == k') =
      some (if k == k' then f a else a) := by
  rw [find?_updateFirst hkey, h]
  split_ifs <;> rfl

omit [BEq κ] [LawfulBEq κ] in
/-- A successful lookup survives appending at the end. -/
theorem find?_append_of_some {p : α → Bool} {l : List α} {a : α} (h : l.find? p = some a)
    (m : List α) : (l ++ m).find? p = some a := by
  rw [List.find?_append, h, Option.some_or]

end FirstMatch
