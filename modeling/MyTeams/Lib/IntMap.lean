import Mathlib.Data.Int.Notation
import Mathlib.Data.List.Basic
import Mathlib.Data.List.Nodup

/-!
# Ordered maps with integer keys

`IntMap α` is the ordered map with integer keys, extensional: two maps with the same entries are
equal. The lemmas restate the library's in the form used here, with key equality in place of
comparison.
-/

/-- An ordered map from integers, as `std::map<int, α>`. -/
abbrev IntMap (α : Type*) := Std.ExtTreeMap ℤ α compare

namespace IntMap

variable {α : Type*} (m : IntMap α)

theorem get_insert (k k' : ℤ) (v : α) :
    (m.insert k v)[k']? = if k = k' then some v else m[k']? := by
  rw [Std.ExtTreeMap.getElem?_insert]
  simp only [Std.compare_eq_iff_eq]

theorem get_insert_self (k : ℤ) (v : α) : (m.insert k v)[k]? = some v := by
  rw [get_insert, if_pos rfl]

theorem get_insert_of_ne {k k' : ℤ} (h : k' ≠ k) (v : α) : (m.insert k v)[k']? = m[k']? := by
  rw [get_insert, if_neg h.symm]

/-- A map with a new entry holds it and the other entries. -/
theorem get_insert_eq_some_iff {k k' : ℤ} {v w : α} :
    (m.insert k v)[k']? = some w ↔ (k' = k ∧ v = w) ∨ (k' ≠ k ∧ m[k']? = some w) := by
  rcases eq_or_ne k' k with rfl | h
  · rw [get_insert_self, Option.some_inj, and_iff_right rfl, or_iff_left fun h ↦ h.1 rfl]
  · rw [get_insert_of_ne m h, and_iff_right h, or_iff_right fun heq ↦ h heq.1]

theorem get_erase (k k' : ℤ) : (m.erase k)[k']? = if k = k' then none else m[k']? := by
  rw [Std.ExtTreeMap.getElem?_erase]
  simp only [Std.compare_eq_iff_eq]

theorem get_erase_self (k : ℤ) : (m.erase k)[k]? = none := by
  rw [get_erase, if_pos rfl]

theorem get_erase_of_ne {k k' : ℤ} (h : k' ≠ k) : (m.erase k)[k']? = m[k']? := by
  rw [get_erase, if_neg h.symm]

/-- An erased map holds the other entries. -/
theorem get_erase_eq_some_iff {k k' : ℤ} {v : α} :
    (m.erase k)[k']? = some v ↔ k' ≠ k ∧ m[k']? = some v := by
  rcases eq_or_ne k' k with rfl | h
  · rw [get_erase_self]
    exact iff_of_false (fun h ↦ by cases h) fun h ↦ h.1 rfl
  · rw [get_erase_of_ne m h, and_iff_right h]

theorem get_alter (k k' : ℤ) (f : Option α → Option α) :
    (m.alter k f)[k']? = if k = k' then f m[k]? else m[k']? := by
  rw [Std.ExtTreeMap.getElem?_alter]
  simp only [Std.compare_eq_iff_eq]

theorem contains_iff {k : ℤ} : m.contains k = true ↔ ∃ v, m[k]? = some v := by
  rw [Std.ExtTreeMap.contains_eq_isSome_getElem?, Option.isSome_iff_exists]

theorem contains_eq_false_iff {k : ℤ} : m.contains k = false ↔ m[k]? = none := by
  rw [Std.ExtTreeMap.contains_eq_isSome_getElem?, Option.isSome_eq_false_iff,
    Option.isNone_iff_eq_none]

theorem contains_insert (k k' : ℤ) (v : α) :
    (m.insert k v).contains k' = (k == k' || m.contains k') := by
  have hkey : (compare k k' == .eq) = (k == k') := by
    rw [Bool.eq_iff_iff, beq_iff_eq, beq_iff_eq, Std.compare_eq_iff_eq]
  rw [Std.ExtTreeMap.contains_insert, hkey]

theorem contains_erase (k k' : ℤ) :
    (m.erase k).contains k' = (k != k' && m.contains k') := by
  have hkey : (compare k k' == .eq) = (k == k') := by
    rw [Bool.eq_iff_iff, beq_iff_eq, beq_iff_eq, Std.compare_eq_iff_eq]
  rw [Std.ExtTreeMap.contains_erase, bne, hkey]
  rfl

theorem mem_toList {k : ℤ} {v : α} : (k, v) ∈ m.toList ↔ m[k]? = some v :=
  Std.ExtTreeMap.mem_toList_iff_getElem?_eq_some

/-- Two maps with the same entries are equal. -/
theorem ext_get {m m' : IntMap α} (h : ∀ k : ℤ, m[k]? = m'[k]?) : m = m' :=
  Std.ExtTreeMap.ext_getElem? fun {k} ↦ h k

/-- Inserting what is there changes nothing. -/
theorem insert_eq_self {k : ℤ} {v : α} (h : m[k]? = some v) : m.insert k v = m := by
  refine ext_get fun k' ↦ ?_
  rcases eq_or_ne k' k with rfl | hk
  · rw [get_insert_self, h]
  · rw [get_insert_of_ne m hk]

/-- The keys are listed once each. -/
theorem nodup_keys : (m.toList.map Prod.fst).Nodup := by
  rw [Std.ExtTreeMap.map_fst_toList_eq_keys]
  exact Std.ExtTreeMap.nodup_keys

theorem mem_keys {k : ℤ} : k ∈ m.toList.map Prod.fst ↔ ∃ v, m[k]? = some v := by
  constructor
  · intro h
    obtain ⟨⟨k', v⟩, hmem, rfl⟩ := List.mem_map.1 h
    exact ⟨v, (mem_toList m).1 hmem⟩
  · rintro ⟨v, hv⟩
    exact List.mem_map_of_mem (f := Prod.fst) ((mem_toList m).2 hv)

/-- A selection of keys by a test on the entries lists no key twice. -/
theorem nodup_filter_keys (p : ℤ × α → Bool) : ((m.toList.filter p).map Prod.fst).Nodup :=
  (nodup_keys m).sublist (List.filter_sublist.map _)

theorem mem_filter_keys {p : ℤ × α → Bool} {k : ℤ} :
    k ∈ (m.toList.filter p).map Prod.fst ↔ ∃ v, m[k]? = some v ∧ p (k, v) = true := by
  simp

end IntMap
