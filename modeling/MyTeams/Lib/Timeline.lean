import Mathlib.Data.List.Sort

/-!
# What two observers have in common

Each observer of a sequence of events keeps a list of those that he has noticed, stamped with their
time. If the stamps of both lists increase, the entries of the one whose stamps occur in the other
are for the same events as those of the other whose stamps occur in the one, in the same order
(`map_stamp_common`); and whatever the two agree on for a single event, they agree on for the whole
list (`map_common`).
-/

namespace Timeline

variable {α β τ : Type*} [LinearOrder τ] {stamp : α → τ} {l l' : List α}

/-- The stamps increase. -/
def Chronological (stamp : α → τ) (l : List α) : Prop := l.Pairwise fun x y ↦ stamp x < stamp y

/-- The entries whose stamps occur in another list. -/
def common (stamp : α → τ) (l l' : List α) : List α := l.filter fun x ↦ stamp x ∈ l'.map stamp

theorem Chronological.sublist (h : Chronological stamp l) (hsub : l'.Sublist l) :
    Chronological stamp l' :=
  List.Pairwise.sublist hsub h

/-- A later entry. -/
theorem Chronological.append (h : Chronological stamp l) {new : List α} (hnew : new.length ≤ 1)
    (hlater : ∀ x ∈ l, ∀ y ∈ new, stamp x < stamp y) : Chronological stamp (l ++ new) := by
  refine List.pairwise_append.2 ⟨h, ?_, hlater⟩
  match new, hnew with
  | [], _ => exact .nil
  | [y], _ => exact List.pairwise_singleton _ y

theorem mem_map_common {t : τ} :
    t ∈ (common stamp l l').map stamp ↔ t ∈ l.map stamp ∧ t ∈ l'.map stamp := by
  simp only [common, List.mem_map, List.mem_filter, decide_eq_true_eq]
  constructor
  · rintro ⟨x, ⟨hx, hx'⟩, rfl⟩
    exact ⟨⟨x, hx, rfl⟩, hx'⟩
  · rintro ⟨⟨x, hx, rfl⟩, hx'⟩
    exact ⟨x, ⟨hx, hx'⟩, rfl⟩

/-- **The same events, in the same order.** -/
theorem map_stamp_common (h : Chronological stamp l) (h' : Chronological stamp l') :
    (common stamp l l').map stamp = (common stamp l' l).map stamp := by
  have hsorted {l l' : List α} (h : Chronological stamp l) :
      ((common stamp l l').map stamp).Pairwise (· < ·) :=
    List.pairwise_map.2 (h.sublist List.filter_sublist)
  refine (hsorted h).eq_of_mem_iff (hsorted h') fun t ↦ ?_
  rw [mem_map_common, mem_map_common, and_comm]

omit [LinearOrder τ] in
/-- What is the same for entries with the same stamp is the same for lists with the same stamps. -/
theorem map_eq_of_stamps {f : α → β} (hstamps : l.map stamp = l'.map stamp)
    (hf : ∀ x ∈ l, ∀ y ∈ l', stamp x = stamp y → f x = f y) : l.map f = l'.map f := by
  induction l generalizing l' with
  | nil =>
    rw [List.map_nil, eq_comm, List.map_eq_nil_iff] at hstamps
    rw [hstamps]
  | cons x l ih =>
    cases l' with
    | nil => cases hstamps
    | cons y l' =>
      obtain ⟨hhead, htail⟩ := List.cons.inj hstamps
      rw [List.map_cons, List.map_cons, hf x List.mem_cons_self y List.mem_cons_self hhead,
        ih htail fun x hx y hy ↦ hf x (List.mem_cons_of_mem _ hx) y (List.mem_cons_of_mem _ hy)]

/-- **Agreement on single events is agreement on what is in common.** -/
theorem map_common {f : α → β} (h : Chronological stamp l) (h' : Chronological stamp l')
    (hf : ∀ x ∈ l, ∀ y ∈ l', stamp x = stamp y → f x = f y) :
    (common stamp l l').map f = (common stamp l' l).map f :=
  map_eq_of_stamps (map_stamp_common h h') fun x hx y hy ↦
    hf x (List.mem_of_mem_filter hx) y (List.mem_of_mem_filter hy)

end Timeline
