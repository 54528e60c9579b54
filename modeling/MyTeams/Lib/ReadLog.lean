import Mathlib.Data.List.Basic

/-!
# Recorded reads

A computation over byte objects that records every read it makes: the length of the object, the
offset and the size (`Traced`). `Yields x a` says that `x` gives `a` and that all its reads are
inside their objects. It is proved along the structure of the computation, one rule for each way to
build one, so a program and its recording copy are compared and the copy's reads are checked in the
same walk.
-/

namespace ReadLog

/-- A read of `size` bytes at `off`, of an object of `len` bytes. -/
structure Read where
  len : ℕ
  off : ℕ
  size : ℕ
  deriving DecidableEq

/-- The read is inside its object. -/
def Read.InBounds (r : Read) : Prop := r.off + r.size ≤ r.len

/-- A value, and the reads made for it. -/
structure Traced (α : Type) where
  val : α
  reads : List Read

namespace Traced

variable {α β : Type}

instance : Monad Traced where
  pure a := ⟨a, []⟩
  bind x f := ⟨(f x.val).val, x.reads ++ (f x.val).reads⟩

/-- Read `size` bytes at `off`. A read beyond the end gives what there is. -/
def slice (src : List UInt8) (off size : ℕ) : Traced (List UInt8) :=
  ⟨(src.drop off).take size, [⟨src.length, off, size⟩]⟩

/-- **The computation gives `a`, and reads in bounds.** -/
def Yields (x : Traced α) (a : α) : Prop := x.val = a ∧ ∀ r ∈ x.reads, r.InBounds

theorem yields_pure (a : α) : Yields (pure a) a := ⟨rfl, fun _ hr ↦ absurd hr List.not_mem_nil⟩

theorem Yields.bind {x : Traced α} {a : α} {f : α → Traced β} {b : β} (hx : Yields x a)
    (hf : Yields (f a) b) : Yields (x >>= f) b := by
  obtain ⟨rfl, hreads⟩ := hx
  refine ⟨hf.1, fun r hr ↦ ?_⟩
  rcases List.mem_append.1 hr with hr | hr
  · exact hreads r hr
  · exact hf.2 r hr

/-- A read of a range that the object has. -/
theorem yields_slice {src : List UInt8} {off size : ℕ} (h : off + size ≤ src.length) :
    Yields (slice src off size) ((src.drop off).take size) := by
  refine ⟨rfl, fun r hr ↦ ?_⟩
  rw [List.mem_singleton.1 hr]
  exact h

/-- A read of a whole object. -/
theorem yields_slice_whole {src : List UInt8} {size : ℕ} (h : src.length = size) :
    Yields (slice src 0 size) src := by
  have hread := yields_slice (show 0 + size ≤ src.length by omega)
  rwa [List.drop_zero, List.take_of_length_le (Nat.le_of_eq h)] at hread

theorem yields_ite {c : Prop} [Decidable c] {x y : Traced α} {a b : α} (pos : c → Yields x a)
    (neg : ¬ c → Yields y b) : Yields (if c then x else y) (if c then a else b) := by
  split_ifs with h
  · exact pos h
  · exact neg h

/-- A loop over a list. -/
theorem yields_foldlM {γ : Type} {f : α → γ → Traced α} {g : α → γ → α} {l : List γ}
    (h : ∀ a, ∀ x ∈ l, Yields (f a x) (g a x)) (a : α) : Yields (l.foldlM f a) (l.foldl g a) := by
  induction l generalizing a with
  | nil => exact yields_pure a
  | cons x l ih =>
    rw [List.foldlM_cons, List.foldl_cons]
    exact (h a x List.mem_cons_self).bind (ih (fun a y hy ↦ h a y (List.mem_cons_of_mem x hy)) _)

end Traced

end ReadLog
