import Mathlib.Data.List.Basic

/-!
# Reading fields off a byte buffer

A reader walks over a buffer with an offset. A field is read by `readField`: when too few bytes are
left, it gives a default and does not move. That it did so is remembered in the cursor, although no
reader looks at it.

`Decodes r l a` says that the reader `r`, started on the bytes `l` wherever they lie in a buffer,
gives `a`, has read exactly `l`, and has not run short. It is proved along the structure of the
reader: `decodes_readField` for the leaves, `Decodes.bind` for sequences, `Decodes.times` for
repeated records.
-/

namespace ByteReader

/-- Where a reader is, and whether it ever found too few bytes. -/
structure Cursor where
  off : ℕ
  short : Bool

/-- A reader of a byte buffer. -/
abbrev Reader (α : Type) := ReaderT (List UInt8) (StateM Cursor) α

/-- The start of a buffer. -/
def Cursor.start : Cursor := ⟨0, false⟩

/-- Read a whole buffer. -/
def Reader.read {α : Type} (r : Reader α) (p : List UInt8) : α × Cursor := r p Cursor.start

/-- The field of `size` bytes at the offset, interpreted by `f`; `dflt` when it does not fit. -/
def readField {α : Type} (size : ℕ) (dflt : α) (f : List UInt8 → α) : Reader α := fun p c ↦
  if c.off + size > p.length then (dflt, { c with short := true })
  else (f ((p.drop c.off).take size), { c with off := c.off + size })

/-- Read `n` records, one after the other. -/
def readTimes {α : Type} (r : Reader α) : ℕ → Reader (List α)
  | 0 => pure []
  | n + 1 => do
    let a ← r
    let l ← readTimes r n
    pure (a :: l)

/-- The reader turns exactly the bytes `l` into `a`. -/
def Decodes {α : Type} (r : Reader α) (l : List UInt8) (a : α) : Prop :=
  ∀ (pre post : List UInt8) (short : Bool),
    r (pre ++ l ++ post) ⟨pre.length, short⟩ = (a, ⟨pre.length + l.length, short⟩)

section Decodes

variable {α β : Type} {r : Reader α} {l l' : List UInt8} {a : α}

theorem decodes_pure (a : α) : Decodes (pure a) [] a := fun _ _ _ ↦ rfl

theorem Decodes.bind {f : α → Reader β} {b : β} (hr : Decodes r l a) (hf : Decodes (f a) l' b) :
    Decodes (r >>= f) (l ++ l') b := by
  intro pre post short
  have hfirst := hr pre (l' ++ post) short
  have hsecond := hf (pre ++ l) post short
  rw [← List.append_assoc] at hfirst
  rw [List.length_append] at hsecond
  show (f _) _ _ = _
  rw [← List.append_assoc, hfirst, hsecond, List.length_append, Nat.add_assoc]

/-- A last step that reads nothing. -/
theorem Decodes.map {f : α → β} (hr : Decodes r l a) : Decodes (f <$> r) l (f a) := by
  intro pre post short
  show (f _, _) = _
  rw [hr]

theorem Decodes.bind_pure {f : α → β} (hr : Decodes r l a) :
    Decodes (r >>= fun a ↦ pure (f a)) l (f a) := hr.map

/-- A field that fits is read whole. -/
theorem decodes_readField (l : List UInt8) (dflt : α) (f : List UInt8 → α) :
    Decodes (readField l.length dflt f) l (f l) := by
  intro pre post short
  have hfits : ¬ pre.length + l.length > (pre ++ l ++ post).length := by
    rw [List.length_append, List.length_append]
    omega
  show (if pre.length + l.length > (pre ++ l ++ post).length then _ else _) = _
  rw [if_neg hfits, List.append_assoc, List.drop_left, List.take_left]

/-- Records that decode one by one decode as a list. -/
theorem Decodes.times {ρ : Type} {bytes : ρ → List UInt8} {value : ρ → α}
    (h : ∀ x, Decodes r (bytes x) (value x)) (xs : List ρ) :
    Decodes (readTimes r xs.length) (xs.map bytes).flatten (xs.map value) := by
  induction xs with
  | nil => exact decodes_pure []
  | cons x xs ih => exact (h x).bind ih.bind_pure

/-- A reader that decodes a whole buffer ends at its end and has not run short. -/
theorem Decodes.read (h : Decodes r l a) : r.read l = (a, ⟨l.length, false⟩) := by
  have hwhole := h [] [] false
  rw [List.nil_append, List.append_nil, List.length_nil, Nat.zero_add] at hwhole
  exact hwhole

end Decodes

/-! ### Buffers that are too short

A value is right for a field if it is the default or what the bytes of the field say. A reader that
has not run short gives such values. After it has run short it may find another, narrower field
where it stopped, and then it gives what lies there. -/

/-- `a` is right for the field of `size` bytes at `pos`: it is the default, or the field is in the
buffer and `a` is what its bytes say. -/
def FieldAt {α : Type} (size : ℕ) (dflt : α) (f : List UInt8 → α) (p : List UInt8) (pos : ℕ)
    (a : α) : Prop :=
  a = dflt ∨ pos + size ≤ p.length ∧ a = f ((p.drop pos).take size)

section Fields

variable {α : Type} {size : ℕ} {dflt a : α} {f : List UInt8 → α} {p : List UInt8} {off pos : ℕ}
  {short : Bool}

theorem readField_of_le (h : off + size ≤ p.length) :
    readField size dflt f p ⟨off, short⟩ = (f ((p.drop off).take size), ⟨off + size, short⟩) :=
  if_neg (Nat.not_lt.2 h)

theorem readField_of_lt (h : p.length < off + size) :
    readField size dflt f p ⟨off, short⟩ = (dflt, ⟨off, true⟩) :=
  if_pos h

/-- A field that is read at its own position is right. -/
theorem fieldAt_readField (size : ℕ) (dflt : α) (f : List UInt8 → α) (p : List UInt8) (c : Cursor) :
    FieldAt size dflt f p c.off (readField size dflt f p c).1 := by
  rcases Nat.lt_or_ge p.length (c.off + size) with h | h
  · exact .inl (congrArg Prod.fst (readField_of_lt h))
  · exact .inr ⟨h, congrArg Prod.fst (readField_of_le h)⟩

/-- The default is all that is right for a field that is not in the buffer. -/
theorem fieldAt_iff_of_lt (h : p.length < pos + size) : FieldAt size dflt f p pos a ↔ a = dflt :=
  or_iff_left fun hfits ↦ absurd hfits.1 (Nat.not_le.2 h)

/-- A reader of records keeps to their positions as long as they all are in the buffer. -/
theorem readTimes_of_le {r : Reader α} {P : ℕ → α → Prop}
    (h : ∀ off short, off + size ≤ p.length →
      ∃ a, r p ⟨off, short⟩ = (a, ⟨off + size, short⟩) ∧ P off a) {n : ℕ}
    (hfits : off + n * size ≤ p.length) :
    ∃ l, readTimes r n p ⟨off, short⟩ = (l, ⟨off + n * size, short⟩) ∧
      ∀ i a, l[i]? = some a → P (off + i * size) a := by
  induction n generalizing off with
  | zero => exact ⟨[], by rw [Nat.zero_mul]; rfl, fun i a hi ↦ by cases hi⟩
  | succ n ih =>
    rw [Nat.succ_mul] at hfits ⊢
    obtain ⟨a, hr, ha⟩ := h off short (by omega)
    obtain ⟨l, hl, hall⟩ := @ih (off + size) (by omega)
    refine ⟨a :: l, ?_, fun i b hi ↦ ?_⟩
    · show ((r p ⟨off, short⟩).1 :: (readTimes r n p (r p ⟨off, short⟩).2).1,
        (readTimes r n p (r p ⟨off, short⟩).2).2) = _
      rw [hr, hl, Nat.add_assoc, Nat.add_comm size]
    · cases i with
      | zero =>
        rw [Nat.zero_mul]
        exact Option.some.inj hi ▸ ha
      | succ i =>
        rw [Nat.succ_mul, Nat.add_comm (i * size), ← Nat.add_assoc]
        exact hall i b hi

/-- The number of records that are read is the number that was asked for. -/
theorem length_readTimes (r : Reader α) (n : ℕ) (p : List UInt8) (c : Cursor) :
    (readTimes r n p c).1.length = n := by
  induction n generalizing c with
  | zero => rfl
  | succ n ih => exact congrArg Nat.succ (ih (r p c).2)

end Fields

end ByteReader
