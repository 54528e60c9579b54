import MyTeams.Lib.Forest

/-!
# Forests addressed by name

A writer who holds a path of keys appends at its end (`insertAt`). A reader who is told only the
last of them looks for the node of that name wherever it is, and appends below it (`insertBelow`).
When no two labels have the same key both do the same, whatever the reader keeps of a label
(`relabel`).
-/

universe u v w

namespace Forest

open FirstMatch

variable {α : Type u} {β : Type w} {κ : Type v} [BEq κ]

/-! ### Relabelling -/

mutual

/-- The tree with its labels replaced. -/
def RoseTree.relabel (g : α → β) : RoseTree α → RoseTree β
  | .node a f => .node (g a) (relabel g f)

/-- The forest with its labels replaced. -/
def relabel (g : α → β) : List (RoseTree α) → List (RoseTree β)
  | [] => []
  | t :: f => t.relabel g :: relabel g f

end

theorem relabel_append (g : α → β) (f f' : List (RoseTree α)) :
    relabel g (f ++ f') = relabel g f ++ relabel g f' := by
  induction f with
  | nil => rfl
  | cons t f ih => rw [List.cons_append, relabel, relabel, ih, List.cons_append]

theorem RoseTree.relabel_leaf (g : α → β) (a : α) :
    (RoseTree.leaf a).relabel g = RoseTree.leaf (g a) := by
  rw [RoseTree.leaf, RoseTree.relabel, Forest.relabel, RoseTree.leaf]

/-! ### Insertion by name -/

mutual

/-- Append a leaf `x` below every node of the tree whose label satisfies `p`. -/
def RoseTree.insertBelow (p : α → Bool) (x : α) : RoseTree α → RoseTree α
  | .node a f => .node a (if p a then insertBelow p x f ++ [.leaf x] else insertBelow p x f)

/-- Append a leaf `x` below every node of the forest whose label satisfies `p`. -/
def insertBelow (p : α → Bool) (x : α) : List (RoseTree α) → List (RoseTree α)
  | [] => []
  | t :: f => t.insertBelow p x :: insertBelow p x f

end

section Below

variable {p : α → Bool} {x : α}

mutual

theorem RoseTree.insertBelow_of_not : ∀ (t : RoseTree α), (∀ a ∈ t.labels, p a = false) →
    t.insertBelow p x = t
  | .node a f, h => by
    rw [RoseTree.labels, List.forall_mem_cons] at h
    rw [RoseTree.insertBelow, h.1, if_neg Bool.false_ne_true, insertBelow_of_not f h.2]

/-- Where no label has the name, nothing is appended. -/
theorem insertBelow_of_not : ∀ (f : List (RoseTree α)), (∀ a ∈ labels f, p a = false) →
    insertBelow p x f = f
  | [], _ => rfl
  | t :: f, h => by
    rw [labels, List.forall_mem_append] at h
    rw [insertBelow, RoseTree.insertBelow_of_not t h.1, insertBelow_of_not f h.2]

end

mutual

theorem RoseTree.relabel_insertBelow {g : α → β} {q : β → Bool} (hq : ∀ a, q (g a) = p a) :
    ∀ t : RoseTree α, (t.insertBelow p x).relabel g = (t.relabel g).insertBelow q (g x)
  | .node a f => by
    rw [RoseTree.insertBelow, RoseTree.relabel, RoseTree.relabel, RoseTree.insertBelow, hq]
    by_cases ha : p a = true
    · rw [if_pos ha, if_pos ha, relabel_append, relabel_insertBelow hq f]
      rw [relabel, relabel, RoseTree.relabel_leaf]
    · rw [if_neg ha, if_neg ha, relabel_insertBelow hq f]

/-- Insertion by name needs no more of a label than the name. -/
theorem relabel_insertBelow {g : α → β} {q : β → Bool} (hq : ∀ a, q (g a) = p a) :
    ∀ f : List (RoseTree α), relabel g (insertBelow p x f) = insertBelow q (g x) (relabel g f)
  | [] => rfl
  | t :: f => by
    rw [insertBelow, relabel, relabel, insertBelow, RoseTree.relabel_insertBelow hq t,
      relabel_insertBelow hq f]

end

variable {key : α → κ} {f g : List (RoseTree α)} {t : RoseTree α}

omit [BEq κ] in
/-- With distinct keys, nothing below a root has the key of the root. -/
theorem Distinct.root_ne {l r : List (RoseTree α)} (h : Distinct key (l ++ t :: r)) {a : α}
    (ha : a ∈ labels t.children) : key t.label ≠ key a := by
  rw [Distinct, labels_append, labels, RoseTree.labels_eq, List.map_append, List.map_append,
    List.nodup_append, List.nodup_append, List.map_cons, List.nodup_cons] at h
  exact fun hsame ↦ h.2.1.1.1 (List.mem_map.2 ⟨a, ha, hsame.symm⟩)

end Below

/-! ### Names and paths -/

section Paths

variable {key : α → κ} {f g : List (RoseTree α)} {t t' : RoseTree α}

omit [BEq κ] in
/-- With distinct keys, two trees that share a key are the same. -/
theorem Distinct.eq_of_key_eq (h : Distinct key f) (ht : t ∈ f) (ht' : t' ∈ f) {a b : α}
    (ha : a ∈ t.labels) (hb : b ∈ t'.labels) (hkey : key a = key b) : t = t' := by
  have hmem {t : RoseTree α} {f : List (RoseTree α)} (ht : t ∈ f) {a : α} (ha : a ∈ t.labels) :
      key a ∈ (labels f).map key := by
    obtain ⟨l, r, rfl⟩ := List.append_of_mem ht
    rw [labels_append, labels]
    exact List.mem_map_of_mem (List.mem_append_right _ (List.mem_append_left _ ha))
  induction f with
  | nil => cases ht
  | cons t₀ f ih =>
    rw [Distinct, labels, List.map_append, List.nodup_append] at h
    obtain ⟨-, htail, hdisjoint⟩ := h
    rcases List.mem_cons.1 ht with rfl | hf <;> rcases List.mem_cons.1 ht' with rfl | hf'
    · rfl
    · exact absurd hkey (hdisjoint _ (List.mem_map_of_mem ha) _ (hmem hf' hb))
    · exact absurd hkey.symm (hdisjoint _ (List.mem_map_of_mem hb) _ (hmem hf ha))
    · exact ih htail hf hf'

variable [LawfulBEq κ]

/-- The first step of a path. -/
theorem exists_of_childrenAt_cons {k : κ} {ks : List κ} (h : (childrenAt key (k :: ks) f).isSome) :
    ∃ t ∈ f, key t.label = k ∧ (childrenAt key ks t.children).isSome := by
  obtain ⟨g, hg⟩ := Option.isSome_iff_exists.1 h
  obtain ⟨t, ht, hg⟩ := Option.bind_eq_some_iff.1 hg
  exact ⟨t, List.mem_of_find?_eq_some ht,
    eq_of_beq (List.find?_some (p := fun t : RoseTree α ↦ key t.label == k) ht), hg ▸ rfl⟩

/-- Where a path leads there is a label with its last key. -/
theorem exists_mem_labels_of_path {ks : List κ} {k : κ}
    (h : (childrenAt key (ks ++ [k]) f).isSome) :
    ∃ a ∈ labels f, key a = k := by
  induction ks generalizing f with
  | nil =>
    obtain ⟨t, ht, hk, -⟩ := exists_of_childrenAt_cons h
    exact ⟨t.label, (roots_sublist f).subset (List.mem_map_of_mem ht), hk⟩
  | cons k₀ ks ih =>
    obtain ⟨t, ht, -, hbelow⟩ := exists_of_childrenAt_cons h
    obtain ⟨a, ha, hk⟩ := ih hbelow
    exact ⟨a, (labels_children_sublist ht).subset ha, hk⟩

/-- With distinct keys, no path leads to the key of a root but the one of length one. -/
theorem Distinct.not_path_of_root (h : Distinct key f) {k k₀ : κ} {ks : List κ}
    (hroot : (Forest.childrenAt key [k] f).isSome) :
    ¬ (Forest.childrenAt key (k₀ :: ks ++ [k]) f).isSome := by
  intro hpath
  obtain ⟨t, ht, hk, -⟩ := exists_of_childrenAt_cons hroot
  obtain ⟨t', ht', -, hbelow⟩ := exists_of_childrenAt_cons hpath
  obtain ⟨a, ha, hk'⟩ := exists_mem_labels_of_path hbelow
  obtain rfl := h.eq_of_key_eq ht ht' (by rw [RoseTree.labels_eq]; exact List.mem_cons_self)
    (by rw [RoseTree.labels_eq]; exact List.mem_cons_of_mem _ ha) (hk.trans hk'.symm)
  obtain ⟨l, r, rfl⟩ := List.append_of_mem ht
  exact h.root_ne ha (hk.trans hk'.symm)

/-- **The last key of a path says where it leads**, when no two labels have the same key. -/
theorem Distinct.path_eq (h : Distinct key f) {ks ks' : List κ} {k : κ}
    (hks : (Forest.childrenAt key (ks ++ [k]) f).isSome)
    (hks' : (Forest.childrenAt key (ks' ++ [k]) f).isSome) : ks = ks' := by
  induction ks generalizing f ks' with
  | nil =>
    cases ks' with
    | nil => rfl
    | cons k' ks' => exact absurd hks' (h.not_path_of_root hks)
  | cons k₀ ks ih =>
    cases ks' with
    | nil => exact absurd hks (h.not_path_of_root hks')
    | cons k' ks' =>
      obtain ⟨t, ht, rfl, hbelow⟩ := exists_of_childrenAt_cons hks
      obtain ⟨t', ht', rfl, hbelow'⟩ := exists_of_childrenAt_cons hks'
      obtain ⟨a, ha, hk⟩ := exists_mem_labels_of_path hbelow
      obtain ⟨a', ha', hk'⟩ := exists_mem_labels_of_path hbelow'
      obtain rfl := h.eq_of_key_eq ht ht'
        (by rw [RoseTree.labels_eq]; exact List.mem_cons_of_mem _ ha)
        (by rw [RoseTree.labels_eq]; exact List.mem_cons_of_mem _ ha') (hk.trans hk'.symm)
      rw [ih (h.children ht) hbelow hbelow']

end Paths

end Forest
