import MyTeams.Lib.FirstMatch
import Mathlib.Data.List.Nodup

/-!
# Forests that grow at the leaves

Records that hold vectors of records, which hold vectors of records, form a forest of labels.
Programs address such a forest by **keys** — at each level the first record with the key — and add
to it by appending a record to the vector that a path of keys leads to. Nothing is ever moved, so a
path of **positions** that leads to a record once leads to that record for good.

`childrenAt` reads by keys, `insertAt` appends by keys, `labelAt` reads by positions. Navigation
recurses on the path, and the laws are inductions on it.
-/

namespace Forest

open FirstMatch

universe u v

/-- A label with the trees below it. -/
inductive RoseTree (α : Type u)
  | node (label : α) (children : List (RoseTree α))

variable {α : Type u} {κ : Type v} [BEq κ]

/-- The label of the root. -/
def RoseTree.label : RoseTree α → α
  | .node a _ => a

/-- The trees below the root. -/
def RoseTree.children : RoseTree α → List (RoseTree α)
  | .node _ f => f

/-- A tree of one label. -/
def RoseTree.leaf (a : α) : RoseTree α := .node a []

@[simp] theorem RoseTree.label_node (a : α) (f : List (RoseTree α)) : (node a f).label = a := rfl

@[simp] theorem RoseTree.children_node (a : α) (f : List (RoseTree α)) :
    (node a f).children = f := rfl

@[simp] theorem RoseTree.label_leaf (a : α) : (RoseTree.leaf a).label = a := rfl

@[simp] theorem RoseTree.children_leaf (a : α) : (RoseTree.leaf a).children = [] := rfl

/-! ### Addresses -/

variable (key : α → κ)

/-- The trees below the node that a path of keys leads to. -/
def childrenAt : List κ → List (RoseTree α) → Option (List (RoseTree α))
  | [], f => some f
  | k :: ks, f => (f.find? fun t ↦ key t.label == k).bind fun t ↦ childrenAt ks t.children

/-- Append a tree below the node that a path of keys leads to. -/
def insertAt (x : RoseTree α) : List κ → List (RoseTree α) → List (RoseTree α)
  | [], f => f ++ [x]
  | k :: ks, f =>
    updateFirst (fun t ↦ key t.label == k) (fun t ↦ .node t.label (insertAt x ks t.children)) f

/-- The labels below the node that a path of keys leads to; none when it leads nowhere. -/
def listing (ks : List κ) (f : List (RoseTree α)) : List α :=
  ((childrenAt key ks f).getD []).map RoseTree.label

/-- The label at a path of positions. -/
def labelAt : List ℕ → List (RoseTree α) → Option α
  | [], _ => none
  | i :: p, f => f[i]?.bind fun t ↦ if p = [] then some t.label else labelAt p t.children

mutual

/-- How many labels a tree holds. -/
def RoseTree.size : RoseTree α → ℕ
  | .node _ f => 1 + size f

/-- How many labels a forest holds. -/
def size : List (RoseTree α) → ℕ
  | [] => 0
  | t :: f => t.size + size f

end

variable {key}

@[simp] theorem childrenAt_nil (f : List (RoseTree α)) : childrenAt key [] f = some f := rfl

theorem childrenAt_cons {k : κ} {f : List (RoseTree α)} {t : RoseTree α}
    (h : f.find? (fun t ↦ key t.label == k) = some t) (ks : List κ) :
    childrenAt key (k :: ks) f = childrenAt key ks t.children := by
  rw [childrenAt, h, Option.bind_some]

theorem childrenAt_cons_of_none {k : κ} {f : List (RoseTree α)}
    (h : f.find? (fun t ↦ key t.label == k) = none) (ks : List κ) :
    childrenAt key (k :: ks) f = none := by
  rw [childrenAt, h, Option.bind_none]

/-! ### Reading by keys after an insertion -/

variable (key) in
/-- Looking up a key of the first level. -/
theorem find?_insertAt_cons [LawfulBEq κ] (x : RoseTree α) (k k' : κ) (ks : List κ)
    (f : List (RoseTree α)) :
    (insertAt key x (k :: ks) f).find? (fun t ↦ key t.label == k') =
      if k == k' then
        (f.find? fun t ↦ key t.label == k').map fun t ↦ .node t.label (insertAt key x ks t.children)
      else f.find? fun t ↦ key t.label == k' :=
  have hkey (t : RoseTree α) :
      key (RoseTree.node t.label (insertAt key x ks t.children)).label = key t.label := rfl
  find?_updateFirst hkey k k' f

/-- The labels of the first level are not touched by an insertion below. -/
theorem map_label_insertAt_cons (x : RoseTree α) (k : κ) (ks : List κ) (f : List (RoseTree α)) :
    (insertAt key x (k :: ks) f).map RoseTree.label = f.map RoseTree.label :=
  map_updateFirst (f := fun t ↦ .node t.label (insertAt key x ks t.children)) (fun _ ↦ rfl) f

@[simp] theorem listing_nil (ks : List κ) : listing key ks ([] : List (RoseTree α)) = [] := by
  cases ks <;> rfl

/-- Nothing is listed below a new leaf. -/
theorem listing_append_leaf (a : α) (k : κ) (ks : List κ) (f : List (RoseTree α)) :
    listing key (k :: ks) (f ++ [.leaf a]) = listing key (k :: ks) f := by
  rcases hfind : f.find? fun t ↦ key t.label == k with - | t
  · rw [listing, listing, childrenAt_cons_of_none hfind]
    rcases hleaf : [RoseTree.leaf a].find? fun t ↦ key t.label == k with - | t
    · rw [childrenAt_cons_of_none (by rw [List.find?_append, hfind, hleaf]; rfl)]
    · rw [childrenAt_cons (by rw [List.find?_append, hfind, Option.none_or, hleaf]),
        List.mem_singleton.1 (List.mem_of_find?_eq_some hleaf)]
      cases ks <;> rfl
  · rw [listing, listing, childrenAt_cons hfind, childrenAt_cons (find?_append_of_some hfind _)]

/-- **The log law**: where an insertion leads somewhere, it adds its label at the end of the listing
there, and changes no other listing. -/
theorem listing_insertAt [LawfulBEq κ] {a : α} {ks : List κ} {f : List (RoseTree α)}
    (h : (childrenAt key ks f).isSome) (ks' : List κ) :
    listing key ks' (insertAt key (.leaf a) ks f) =
      listing key ks' f ++ if ks == ks' then [a] else [] := by
  induction ks generalizing f ks' with
  | nil =>
    rw [insertAt]
    cases ks' with
    | nil => simp [listing]
    | cons k' ks' => rw [listing_append_leaf, if_neg (by simp), List.append_nil]
  | cons k ks ih =>
    cases ks' with
    | nil =>
      rw [listing, listing, childrenAt_nil, childrenAt_nil, Option.getD_some, Option.getD_some,
        map_label_insertAt_cons, if_neg (by simp), List.append_nil]
    | cons k' ks' =>
      rcases hfind : f.find? fun t ↦ key t.label == k with - | t
      · rw [childrenAt_cons_of_none hfind] at h
        cases h
      rw [childrenAt_cons hfind] at h
      have hafter := find?_insertAt_cons key (.leaf a) k k' ks f
      rcases eq_or_ne k k' with rfl | hk
      · rw [if_pos (beq_self_eq_true k), hfind, Option.map_some] at hafter
        rw [listing, listing, childrenAt_cons hafter, childrenAt_cons hfind, List.cons_beq_cons,
          beq_self_eq_true, Bool.true_and]
        exact ih h ks'
      · rw [if_neg (by simpa using hk)] at hafter
        rw [listing, listing, childrenAt, hafter, ← childrenAt, if_neg (by simp [hk]),
          List.append_nil]

/-! ### Reading by positions after an insertion -/

theorem labelAt_cons {i : ℕ} {f : List (RoseTree α)} {t : RoseTree α} (h : f[i]? = some t)
    (p : List ℕ) :
    labelAt (i :: p) f = if p = [] then some t.label else labelAt p t.children := by
  rw [labelAt, h, Option.bind_some]

theorem labelAt_cons_of_none {i : ℕ} {f : List (RoseTree α)} (h : f[i]? = none) (p : List ℕ) :
    labelAt (i :: p) f = none := by
  rw [labelAt, h, Option.bind_none]

theorem exists_of_labelAt {i : ℕ} {p : List ℕ} {f : List (RoseTree α)} {a : α}
    (h : labelAt (i :: p) f = some a) :
    ∃ t, f[i]? = some t ∧ (if p = [] then some t.label else labelAt p t.children) = some a :=
  Option.bind_eq_some_iff.1 h

/-- **Positions are stable**: what a path of positions led to it still leads to. -/
theorem labelAt_insertAt {p : List ℕ} {f : List (RoseTree α)} {b : α} (h : labelAt p f = some b)
    (x : RoseTree α) (ks : List κ) : labelAt p (insertAt key x ks f) = some b := by
  induction ks generalizing p f with
  | nil =>
    cases p with
    | nil => cases h
    | cons i p =>
      obtain ⟨t, ht, hb⟩ := exists_of_labelAt h
      have hi := (List.getElem?_eq_some_iff.1 ht).1
      rw [insertAt, labelAt_cons (by rw [List.getElem?_append_left hi, ht]), hb]
  | cons k ks ih =>
    cases p with
    | nil => cases h
    | cons i p =>
      obtain ⟨t, ht, hb⟩ := exists_of_labelAt h
      rcases getElem?_updateFirst (fun t : RoseTree α ↦ key t.label == k)
        (fun t ↦ .node t.label (insertAt key x ks t.children)) f i with hsame | ⟨t', -, ht', hnew⟩
      · rw [insertAt, labelAt_cons (hsame.trans ht), hb]
      · obtain rfl := Option.some.inj (ht.symm.trans ht')
        rw [insertAt, labelAt_cons hnew]
        split_ifs at hb ⊢
        · exact hb
        · exact ih hb

/-- The node at positions `p` is new: it was appended where the keys `ks` lead. -/
structure Appended (key : α → κ) (ks : List κ) (f : List (RoseTree α)) (p : List ℕ) : Prop where
  /-- There was no node before. -/
  absent : labelAt p f = none
  /-- It lies one level below the node that the keys lead to. -/
  length : p.length = ks.length + 1
  /-- It lies in the tree that the first key finds. -/
  root : ∀ k ∈ ks.head?, ∃ i ∈ p.head?, (f.findIdx? fun t ↦ key t.label == k) = some i

/-- **What a path of positions leads to after an insertion**: what it led to, or the new label. -/
theorem labelAt_of_insertAt {p : List ℕ} {f : List (RoseTree α)} {a b : α} {ks : List κ}
    (h : labelAt p (insertAt key (.leaf a) ks f) = some b) :
    labelAt p f = some b ∨ b = a ∧ Appended key ks f p := by
  -- the path of keys leads down, and the path of positions has to follow it
  induction ks generalizing p f with
  | nil =>
    cases p with
    | nil => cases h
    | cons i p =>
      obtain ⟨t, ht, hb⟩ := exists_of_labelAt h
      rw [insertAt, List.getElem?_append] at ht
      split_ifs at ht with hi
      · exact .inl ((labelAt_cons ht p).trans hb)
      · obtain rfl : t = .leaf a := List.mem_singleton.1 (List.mem_of_getElem? ht)
        have hnone : labelAt (i :: p) f = none :=
          labelAt_cons_of_none (List.getElem?_eq_none (Nat.not_lt.1 hi)) p
        split_ifs at hb with hp
        · exact .inr ⟨(Option.some.inj hb).symm, hnone, by simp [hp], by simp⟩
        · cases p with
          | nil => exact absurd rfl hp
          | cons j p => rw [labelAt] at hb; cases hb
  | cons k ks ih =>
    cases p with
    | nil => cases h
    | cons i p =>
      obtain ⟨t, ht, hb⟩ := exists_of_labelAt h
      rcases getElem?_updateFirst (fun t : RoseTree α ↦ key t.label == k)
        (fun t ↦ .node t.label (insertAt key (.leaf a) ks t.children)) f i with
        hsame | ⟨t', hidx, ht', hnew⟩
      · exact .inl ((labelAt_cons (hsame.symm.trans ht) p).trans hb)
      · obtain rfl := Option.some.inj (ht.symm.trans hnew)
        rw [labelAt_cons ht']
        split_ifs at hb ⊢ with hp
        · exact .inl hb
        · refine (ih hb).imp_right fun ⟨hba, hnew⟩ ↦ ⟨hba, ?_, ?_, ?_⟩
          · rw [labelAt_cons ht', if_neg hp, hnew.absent]
          · rw [List.length_cons, List.length_cons, hnew.length]
          · exact fun k' hk' ↦ ⟨i, rfl, Option.some.inj hk' ▸ hidx⟩

/-! ### From keys to positions -/

variable (key) in
/-- The positions of the node that a path of keys leads to. -/
def positionAt : List κ → List (RoseTree α) → Option (List ℕ)
  | [], _ => some []
  | k :: ks, f =>
    (f.findIdx? fun t ↦ key t.label == k).bind fun i ↦
      f[i]?.bind fun t ↦ (positionAt ks t.children).map (i :: ·)

section Positions

variable {k : κ} {ks : List κ} {f g : List (RoseTree α)} {t : RoseTree α} {i : ℕ} {p : List ℕ}

theorem positionAt_cons (hi : (f.findIdx? fun t ↦ key t.label == k) = some i) (ht : f[i]? = some t)
    (ks : List κ) : positionAt key (k :: ks) f = (positionAt key ks t.children).map (i :: ·) := by
  rw [positionAt, hi, Option.bind_some, ht, Option.bind_some]

/-- The first step of a path of keys. -/
theorem childrenAt_cons_cases (h : childrenAt key (k :: ks) f = some g) :
    ∃ i t, (f.findIdx? fun t ↦ key t.label == k) = some i ∧ f[i]? = some t ∧
      childrenAt key ks t.children = some g := by
  obtain ⟨t, hfind, hg⟩ := Option.bind_eq_some_iff.1 h
  obtain ⟨i, hi, ht⟩ := exists_findIdx? hfind
  exact ⟨i, t, hi, ht, hg⟩

/-- A path of keys that leads to a node leads to its positions. -/
theorem exists_positionAt (h : childrenAt key ks f = some g) :
    ∃ p, positionAt key ks f = some p := by
  induction ks generalizing f with
  | nil => exact ⟨[], rfl⟩
  | cons k ks ih =>
    obtain ⟨i, t, hi, ht, hg⟩ := childrenAt_cons_cases h
    obtain ⟨p, hp⟩ := ih hg
    exact ⟨i :: p, by rw [positionAt_cons hi ht, hp, Option.map_some]⟩

theorem labelAt_cons_concat (ht : f[i]? = some t) (p : List ℕ) (j : ℕ) :
    labelAt (i :: (p ++ [j])) f = labelAt (p ++ [j]) t.children := by
  rw [labelAt_cons ht, if_neg (List.append_ne_nil_of_right_ne_nil p (List.cons_ne_nil j []))]

/-- **Below a node** its children follow by their positions. -/
theorem labelAt_child (h : childrenAt key ks f = some g) (hp : positionAt key ks f = some p)
    (j : ℕ) : labelAt (p ++ [j]) f = g[j]?.map RoseTree.label := by
  induction ks generalizing f p with
  | nil =>
    obtain rfl := Option.some.inj hp
    obtain rfl := Option.some.inj h
    rw [List.nil_append, labelAt]
    cases f[j]? <;> rfl
  | cons k ks ih =>
    obtain ⟨i, t, hi, ht, hg⟩ := childrenAt_cons_cases h
    rw [positionAt_cons hi ht] at hp
    obtain ⟨q, hq, rfl⟩ := Option.map_eq_some_iff.1 hp
    rw [List.cons_append, labelAt_cons_concat ht, ih hg hq]

/-- One more key is one more position. -/
theorem positionAt_concat (h : childrenAt key ks f = some g) (hp : positionAt key ks f = some p)
    (hi : (g.findIdx? fun t ↦ key t.label == k) = some i) :
    positionAt key (ks ++ [k]) f = some (p ++ [i]) := by
  induction ks generalizing f p with
  | nil =>
    obtain rfl := Option.some.inj hp
    obtain rfl := Option.some.inj h
    have hlt : i < f.length := (List.findIdx?_eq_some_iff_getElem.1 hi).1
    rw [List.nil_append, List.nil_append, positionAt_cons hi (List.getElem?_eq_getElem hlt)]
    rfl
  | cons k' ks ih =>
    obtain ⟨j, t, hj, ht, hg⟩ := childrenAt_cons_cases h
    rw [positionAt_cons hj ht] at hp
    obtain ⟨q, hq, rfl⟩ := Option.map_eq_some_iff.1 hp
    rw [List.cons_append, positionAt_cons hj ht, ih hg hq, Option.map_some, List.cons_append]

/-- The node that a key finds is at the positions of the path to it. -/
theorem labelAt_positionAt (h : childrenAt key ks f = some g)
    (hfind : (g.find? fun t ↦ key t.label == k) = some t) :
    ∃ p, positionAt key (ks ++ [k]) f = some p ∧ labelAt p f = some t.label := by
  obtain ⟨p, hp⟩ := exists_positionAt h
  obtain ⟨i, hi, ht⟩ := exists_findIdx? hfind
  exact ⟨p ++ [i], positionAt_concat h hp hi, by rw [labelAt_child h hp, ht, Option.map_some]⟩

/-- **The position of an insertion** follows those of the nodes that are there. -/
theorem labelAt_insertAt_new (h : childrenAt key ks f = some g) (hp : positionAt key ks f = some p)
    (a : α) : labelAt (p ++ [g.length]) (insertAt key (.leaf a) ks f) = some a := by
  induction ks generalizing f p with
  | nil =>
    obtain rfl := Option.some.inj hp
    obtain rfl := Option.some.inj h
    rw [List.nil_append, insertAt,
      labelAt_cons (by rw [List.getElem?_append_right (Nat.le_refl _), Nat.sub_self]; rfl),
      if_pos rfl, RoseTree.label_leaf]
  | cons k ks ih =>
    obtain ⟨i, t, hi, ht, hg⟩ := childrenAt_cons_cases h
    rw [positionAt_cons hi ht] at hp
    obtain ⟨q, hq, rfl⟩ := Option.map_eq_some_iff.1 hp
    have hnew : (insertAt key (.leaf a) (k :: ks) f)[i]? =
        some (.node t.label (insertAt key (.leaf a) ks t.children)) := by
      rw [insertAt, getElem?_updateFirst_of_findIdx? _ hi, ht, Option.map_some]
    rw [List.cons_append, labelAt_cons_concat hnew]
    exact ih hg hq

end Positions

/-! ### Laws of every vector -/

/-- The labels of every vector of the forest satisfy `P`. -/
inductive Everywhere (P : List α → Prop) : List (RoseTree α) → Prop
  | intro {f : List (RoseTree α)} (here : P (f.map RoseTree.label))
    (below : ∀ t ∈ f, Everywhere P t.children) : Everywhere P f

namespace Everywhere

variable {P : List α → Prop} {f : List (RoseTree α)}

theorem here (h : Everywhere P f) : P (f.map RoseTree.label) := by
  cases h with
  | intro here => exact here

theorem descend (h : Everywhere P f) {t : RoseTree α} (ht : t ∈ f) : Everywhere P t.children := by
  cases h with
  | intro _ below => exact below t ht

theorem childrenAt (h : Everywhere P f) {ks : List κ} {g : List (RoseTree α)}
    (hg : childrenAt key ks f = some g) : Everywhere P g := by
  induction ks generalizing f with
  | nil => exact Option.some.inj hg ▸ h
  | cons k ks ih =>
    obtain ⟨t, ht, hg⟩ := Option.bind_eq_some_iff.1 hg
    exact ih (h.descend (List.mem_of_find?_eq_some ht)) hg

variable (key) in
/-- The listings of the forest satisfy it. -/
theorem listing (h : Everywhere P f) (hnil : P []) (ks : List κ) : P (listing key ks f) := by
  rw [Forest.listing]
  rcases hg : Forest.childrenAt key ks f with - | g
  · exact hnil
  · exact (h.childrenAt hg).here

/-- **An insertion keeps a law** if the listing it makes longer satisfies it. -/
theorem insertAt (h : Everywhere P f) (hnil : P []) {a : α} {ks : List κ}
    (hnew : P (Forest.listing key ks f ++ [a])) : Everywhere P (insertAt key (.leaf a) ks f) := by
  induction ks generalizing f with
  | nil =>
    rw [Forest.insertAt]
    refine ⟨by simpa [Forest.listing] using hnew, fun t ht ↦ ?_⟩
    rcases List.mem_append.1 ht with ht | ht
    · exact h.descend ht
    · rw [List.mem_singleton.1 ht]
      exact ⟨hnil, by simp⟩
  | cons k ks ih =>
    refine ⟨?_, fun t ht ↦ ?_⟩
    · rw [map_label_insertAt_cons]
      exact h.here
    · rcases mem_updateFirst ht with ht | ⟨t, hfind, rfl⟩
      · exact h.descend ht
      · rw [Forest.listing, childrenAt_cons hfind, ← Forest.listing] at hnew
        exact ih (h.descend (List.mem_of_find?_eq_some hfind)) hnew

end Everywhere

/-! ### Size -/

theorem size_append (f g : List (RoseTree α)) : size (f ++ g) = size f + size g := by
  induction f with
  | nil => rw [List.nil_append, size, Nat.zero_add]
  | cons t f ih => rw [List.cons_append, size, size, ih, Nat.add_assoc]

theorem RoseTree.size_eq (t : RoseTree α) : t.size = 1 + Forest.size t.children := by
  cases t
  rw [RoseTree.size, RoseTree.children_node]

/-- An insertion adds one label at most. -/
theorem size_insertAt_le (a : α) (ks : List κ) (f : List (RoseTree α)) :
    size (insertAt key (.leaf a) ks f) ≤ size f + 1 := by
  induction ks generalizing f with
  | nil =>
    rw [insertAt, size_append]
    exact Nat.le_refl _
  | cons k ks ih =>
    rw [insertAt]
    induction f with
    | nil => exact Nat.zero_le _
    | cons t f ihf =>
      rw [updateFirst]
      split_ifs
      · rw [size, size, RoseTree.size_eq, RoseTree.size_eq t, RoseTree.children_node]
        have := ih t.children
        omega
      · rw [size, size]
        omega

theorem length_le_size (f : List (RoseTree α)) : f.length ≤ size f := by
  induction f with
  | nil => exact Nat.le_refl 0
  | cons t f ih =>
    rw [List.length_cons, size, RoseTree.size_eq]
    omega

theorem size_children_le {t : RoseTree α} {f : List (RoseTree α)} (h : t ∈ f) :
    size t.children ≤ size f := by
  induction f with
  | nil => cases h
  | cons t' f ih =>
    rw [size, RoseTree.size_eq]
    rcases List.mem_cons.1 h with rfl | h
    · omega
    · exact Nat.le_trans (ih h) (Nat.le_add_left _ _)

/-- Below a node there is no more than there is in the whole forest. -/
theorem size_childrenAt_le {ks : List κ} {f g : List (RoseTree α)}
    (h : childrenAt key ks f = some g) : size g ≤ size f := by
  induction ks generalizing f with
  | nil => exact (Option.some.inj h) ▸ Nat.le_refl _
  | cons k ks ih =>
    obtain ⟨t, ht, hg⟩ := Option.bind_eq_some_iff.1 h
    exact Nat.le_trans (ih hg) (size_children_le (List.mem_of_find?_eq_some ht))

/-! ### All labels -/

mutual

/-- All labels of a tree, the root first. -/
def RoseTree.labels : RoseTree α → List α
  | .node a f => a :: labels f

/-- All labels of a forest. -/
def labels : List (RoseTree α) → List α
  | [] => []
  | t :: f => t.labels ++ labels f

end

theorem RoseTree.labels_eq (t : RoseTree α) : t.labels = t.label :: Forest.labels t.children := by
  cases t
  rw [RoseTree.labels, RoseTree.label_node, RoseTree.children_node]

theorem labels_append (f g : List (RoseTree α)) : labels (f ++ g) = labels f ++ labels g := by
  induction f with
  | nil => rw [List.nil_append, labels, List.nil_append]
  | cons t f ih => rw [List.cons_append, labels, labels, ih, List.append_assoc]

theorem labels_updateFirst_perm {p : RoseTree α → Bool} {g : RoseTree α → RoseTree α}
    {f : List (RoseTree α)} {t : RoseTree α} {a : α} (hfind : f.find? p = some t)
    (hg : (g t).labels.Perm (a :: t.labels)) :
    (labels (updateFirst p g f)).Perm (a :: labels f) := by
  induction f with
  | nil => cases hfind
  | cons t' f ih =>
    rw [updateFirst]
    by_cases hp : p t' = true
    · rw [List.find?_cons_of_pos hp] at hfind
      obtain rfl := Option.some.inj hfind
      rw [if_pos hp, labels, labels]
      exact hg.append_right _
    · rw [List.find?_cons_of_neg hp] at hfind
      rw [if_neg hp, labels, labels]
      exact ((ih hfind).append_left _).trans List.perm_middle

/-- **An insertion adds one label.** -/
theorem labels_insertAt_perm {a : α} {ks : List κ} {f : List (RoseTree α)}
    (h : (childrenAt key ks f).isSome) :
    (labels (insertAt key (.leaf a) ks f)).Perm (a :: labels f) := by
  induction ks generalizing f with
  | nil =>
    rw [insertAt, labels_append]
    exact List.perm_append_singleton a _
  | cons k ks ih =>
    obtain ⟨g, hg⟩ := Option.isSome_iff_exists.1 h
    obtain ⟨t, ht, hg⟩ := Option.bind_eq_some_iff.1 hg
    refine labels_updateFirst_perm ht ?_
    rw [RoseTree.labels_eq, RoseTree.labels_eq t, RoseTree.label_node, RoseTree.children_node]
    exact ((ih (Option.isSome_iff_exists.2 ⟨g, hg⟩)).cons _).trans (List.Perm.swap _ _ _)

/-! ### Distinct keys -/

variable (key) in
/-- No two labels of the forest have the same key. -/
def Distinct (f : List (RoseTree α)) : Prop := ((labels f).map key).Nodup

section Distinct

variable {f g : List (RoseTree α)} {t : RoseTree α}

theorem labels_children_sublist (h : t ∈ f) : (labels t.children).Sublist (labels f) := by
  induction f with
  | nil => cases h
  | cons t' f ih =>
    rw [labels, RoseTree.labels_eq]
    rcases List.mem_cons.1 h with rfl | h
    · exact (List.sublist_append_left _ _).cons _
    · exact (ih h).trans (List.sublist_append_right _ _)

theorem roots_sublist (f : List (RoseTree α)) : (f.map RoseTree.label).Sublist (labels f) := by
  induction f with
  | nil => exact List.Sublist.refl _
  | cons t f ih =>
    rw [labels, RoseTree.labels_eq, List.map_cons, List.cons_append]
    exact (ih.trans (List.sublist_append_right _ _)).cons_cons _

omit [BEq κ] in
theorem Distinct.children (h : Distinct key f) (ht : t ∈ f) : Distinct key t.children :=
  List.Nodup.sublist ((labels_children_sublist ht).map key) h

theorem Distinct.childrenAt (h : Distinct key f) {ks : List κ} (hg : childrenAt key ks f = some g) :
    Distinct key g := by
  induction ks generalizing f with
  | nil => exact Option.some.inj hg ▸ h
  | cons k ks ih =>
    obtain ⟨t, ht, hg⟩ := Option.bind_eq_some_iff.1 hg
    exact ih (h.children (List.mem_of_find?_eq_some ht)) hg

/-- **A tree is found by the key of its root.** -/
theorem Distinct.find? [LawfulBEq κ] (h : Distinct key f) (ht : t ∈ f) :
    (f.find? fun t' ↦ key t'.label == key t.label) = some t := by
  have hroots : (f.map fun t ↦ key t.label).Nodup := by
    have hsublist := List.Nodup.sublist ((roots_sublist f).map key) h
    rwa [List.map_map] at hsublist
  rcases hfind : f.find? fun t' ↦ key t'.label == key t.label with - | t'
  · exact absurd (beq_self_eq_true _) (List.find?_eq_none.1 hfind t ht)
  · have hmatch := List.find?_some (p := fun t' : RoseTree α ↦ key t'.label == key t.label) hfind
    exact hfind.trans <|
      congrArg some (List.inj_on_of_nodup_map hroots (List.mem_of_find?_eq_some hfind) ht
      (eq_of_beq hmatch))

/-- A record whose tree is one of distinct trees is found by its key, up to what the tree shows of
it. -/
theorem Distinct.exists_find? [LawfulBEq κ] {ρ : Type*} {tree : ρ → RoseTree α} {l : List ρ}
    (h : Distinct key (l.map tree)) {r : ρ} (hr : r ∈ l) :
    ∃ r', (l.find? fun r' ↦ key (tree r').label == key (tree r).label) = some r' ∧
      tree r' = tree r := by
  have hfind := h.find? (List.mem_map_of_mem hr)
  rw [List.find?_map] at hfind
  exact Option.map_eq_some_iff.1 hfind

end Distinct

end Forest
