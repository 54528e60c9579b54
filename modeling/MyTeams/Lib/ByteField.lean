import Mathlib.Data.List.TakeWhile
import Mathlib.Data.Vector.Basic

/-!
# Fixed-width byte fields

A field of exactly `n` bytes (`Bytes n`), and the two conventions under which such a field carries a
text of another length: a text is written into a field by truncating it or padding it with zeros
(`fill`), and read back by stopping at the first zero byte (`cut`).
-/

namespace ByteField

/-- A field of exactly `n` bytes. -/
abbrev Bytes (n : ℕ) := List.Vector UInt8 n

/-- Write a text into a zeroed field of `n` bytes: truncated when too long, zero-padded when too
short. -/
def fill (n : ℕ) (l : List UInt8) : Bytes n := ⟨l.takeD n 0, List.takeD_length n l 0⟩

/-- A field of zeros. -/
def zeros (n : ℕ) : Bytes n := List.Vector.replicate n 0

/-- Read a text up to its first zero byte. -/
def cut (l : List UInt8) : List UInt8 := l.takeWhile (· != 0)

/-- A text of exactly the field's width is stored unchanged. -/
theorem toList_fill_of_length {n : ℕ} {l : List UInt8} (h : l.length = n) :
    (fill n l).toList = l := by
  subst h
  show l.takeD l.length 0 = l
  rw [List.takeD_eq_take _ le_rfl, List.take_length]

/-- A text at least as long as the field is stored up to the field's width. -/
theorem toList_fill_of_le {n : ℕ} {l : List UInt8} (h : n ≤ l.length) :
    (fill n l).toList = l.take n :=
  List.takeD_eq_take 0 h

@[simp] theorem fill_toList {n : ℕ} (b : Bytes n) : fill n b.toList = b :=
  List.Vector.eq _ _ (toList_fill_of_length b.toList_length)

@[simp] theorem take_toList {n : ℕ} (b : Bytes n) : b.toList.take n = b.toList :=
  List.take_of_length_le b.toList_length.le

theorem cut_of_not_mem {l : List UInt8} (h : (0 : UInt8) ∉ l) : cut l = l := by
  rw [cut, List.takeWhile_eq_self_iff]
  intro b hb
  rw [bne_iff_ne]
  rintro rfl
  exact h hb

/-- What is read never contains a zero byte. -/
theorem not_mem_cut (l : List UInt8) : (0 : UInt8) ∉ cut l := by
  intro h
  simpa using List.mem_takeWhile_imp h

@[simp] theorem cut_cut (l : List UInt8) : cut (cut l) = cut l := cut_of_not_mem (not_mem_cut l)

/-- What is read from a field is what was written, up to the field's width and its first zero
byte. -/
theorem cut_fill (n : ℕ) (l : List UInt8) : cut (fill n l).toList = cut (l.take n) := by
  show (l.takeD n 0).takeWhile (· != 0) = (l.take n).takeWhile (· != 0)
  induction n generalizing l with
  | zero => simp [List.takeD]
  | succ n ih =>
    cases l with
    | nil => simp [List.takeD]
    | cons b l =>
      rw [List.takeD_succ, List.take_succ_cons, List.takeWhile_cons, List.takeWhile_cons]
      exact if_congr Iff.rfl (congrArg _ (ih l)) rfl

/-- Stopping at a zero byte and stopping after `n` bytes commute. -/
theorem cut_take (n : ℕ) (l : List UInt8) : cut (l.take n) = (cut l).take n :=
  List.take_takeWhile.symm

/-- What is beyond the width of a field does not matter. -/
theorem fill_take (n : ℕ) (l : List UInt8) : fill n (l.take n) = fill n l := by
  refine List.Vector.eq _ _ ?_
  show (l.take n).takeD n 0 = l.takeD n 0
  induction n generalizing l with
  | zero => rfl
  | succ n ih =>
    cases l with
    | nil => rfl
    | cons b l =>
      rw [List.take_succ_cons, List.takeD_succ, List.takeD_succ]
      exact congrArg _ (ih l)

/-- A text without zero bytes is read back up to the field's width. -/
theorem cut_fill_of_not_mem {n : ℕ} {l : List UInt8} (h : (0 : UInt8) ∉ l) :
    cut (fill n l).toList = l.take n := by
  rw [cut_fill, cut_of_not_mem fun hmem ↦ h (List.mem_of_mem_take hmem)]

/-- A text without zero bytes leaves a field of zeros only if it is empty. -/
theorem fill_nil_eq_iff {n : ℕ} (hn : 0 < n) {l : List UInt8} (hl : (0 : UInt8) ∉ l) :
    fill n [] = fill n l ↔ l = [] := by
  refine ⟨fun h ↦ ?_, fun h ↦ by rw [h]⟩
  have hcut : cut (fill n []).toList = cut (fill n l).toList := by rw [h]
  rw [cut_fill, cut_fill_of_not_mem hl, List.take_nil] at hcut
  exact (List.take_eq_nil_iff.1 hcut.symm).resolve_left hn.ne'

/-- A text leaves a zero byte in its field if it is shorter, or has one there itself. -/
theorem zero_mem_fill_iff {n : ℕ} {l : List UInt8} :
    (0 : UInt8) ∈ (fill n l).toList ↔ l.length < n ∨ (0 : UInt8) ∈ l.take n := by
  show (0 : UInt8) ∈ l.takeD n 0 ↔ _
  induction n generalizing l with
  | zero => simp
  | succ n ih =>
    cases l with
    | nil => simp
    | cons b l =>
      rw [List.takeD_succ, List.take_succ_cons, List.mem_cons, List.mem_cons, List.head?_cons,
        List.tail_cons, ih, List.length_cons, Nat.add_lt_add_iff_right]
      exact or_left_comm

theorem length_cut_le {n : ℕ} (b : Bytes n) : (cut b.toList).length ≤ n :=
  (List.takeWhile_prefix _).length_le.trans b.toList_length.le

end ByteField
