import Mathlib.Data.List.Basic
import Mathlib.Data.List.Infix

/-!
# Frames over a byte stream

A stream protocol cuts an unbounded stream into frames, while the transport hands the stream over in
pieces of its own choosing. A receiver keeps what it has not consumed yet, appends each piece, and
takes frames off the front while it can. This module proves, once and for any alphabet and any frame
type, what such a receiver sees.

* `FrameCodec` is the interface: a `scan` that looks at the front of a buffer, and the encoder it
  inverts. `scan` may also **refuse** a stream for good.
* `parse` is the receiver's loop, run to exhaustion. `parse_append` is the law everything rests on:
  parsing `a ++ b` is parsing `a`, then parsing what `a` left over followed by `b`.
* `foldl_absorb`: feeding pieces one by one gives the parse of the whole stream — the result does
  not depend on where the stream was cut.
* `parse_spec` says the parse is the *maximal* one: the stream is the frames found, encoded,
  followed by a tail that starts with no complete frame.
* `parse_of_prefix`: a receiver that has seen part of an encoded sequence holds a prefix of it.
-/

namespace FrameStream

variable {β φ : Type*}

/-- What the front of a buffer holds. -/
inductive Scan (β φ : Type*)
  /-- No complete frame yet. -/
  | more
  /-- No frame can start here, whatever follows. -/
  | refuse
  /-- A complete frame, and the rest of the buffer. -/
  | frame (f : φ) (rest : List β)

/-- A frame format together with the scanner that recognizes it. -/
structure FrameCodec (β φ : Type*) where
  /-- The frames the format can carry. -/
  Valid : φ → Prop
  /-- The encoding of a frame. -/
  enc : φ → List β
  /-- One look at the front of a buffer. -/
  scan : List β → Scan β φ
  /-- An empty buffer is never refused. -/
  scan_nil : scan [] = .more
  /-- The scanner finds an encoded frame whatever follows it. -/
  scan_enc : ∀ {f : φ} (more : List β), Valid f → scan (enc f ++ more) = .frame f more
  /-- And it finds nothing else. -/
  enc_of_scan : ∀ {buf : List β} {f : φ} {rest : List β},
    scan buf = .frame f rest → Valid f ∧ buf = enc f ++ rest
  /-- A refusal does not depend on what follows. -/
  refuse_append : ∀ {buf : List β} (more : List β), scan buf = .refuse →
    scan (buf ++ more) = .refuse

/-- The outcome of parsing a stream: the frames found, and the unconsumed buffer — or `none` when
the stream was refused. -/
@[ext] structure Parsed (β φ : Type*) where
  frames : List φ
  rest : Option (List β)

namespace FrameCodec

variable (C : FrameCodec β φ)

/-! ### What one scan guarantees -/

theorem enc_ne_nil {f : φ} (hf : C.Valid f) : C.enc f ≠ [] := by
  intro h
  have hscan := C.scan_enc [] hf
  rw [h, List.append_nil, C.scan_nil] at hscan
  cases hscan

/-- A scan that finds a frame shortens the buffer. -/
theorem rest_lt_of_scan {buf rest : List β} {f : φ} (h : C.scan buf = .frame f rest) :
    rest.length < buf.length := by
  obtain ⟨hf, rfl⟩ := C.enc_of_scan h
  have := List.length_pos_iff.2 (C.enc_ne_nil hf)
  rw [List.length_append]
  omega

/-- A frame found stays found when the buffer grows. -/
theorem scan_append {buf rest : List β} {f : φ} (more : List β) (h : C.scan buf = .frame f rest) :
    C.scan (buf ++ more) = .frame f (rest ++ more) := by
  obtain ⟨hf, rfl⟩ := C.enc_of_scan h
  rw [List.append_assoc, C.scan_enc _ hf]

/-- A receiver that has seen part of a stream that starts with a frame waits until the frame is
complete, and then finds it. -/
theorem scan_of_prefix {f : φ} (hf : C.Valid f) {buf more tail : List β}
    (h : buf ++ more = C.enc f ++ tail) :
    C.scan buf = .more ∧ buf.length < (C.enc f).length ∨
      ∃ rest, C.scan buf = .frame f rest ∧ buf = C.enc f ++ rest ∧ rest ++ more = tail := by
  have hwhole : C.scan (buf ++ more) = .frame f tail := h ▸ C.scan_enc tail hf
  rcases hscan : C.scan buf with - | - | ⟨g, rest⟩
  · refine .inl ⟨rfl, Nat.lt_of_not_le fun hle ↦ ?_⟩
    obtain ⟨rest, rfl⟩ := (List.prefix_of_prefix_length_le (h ▸ List.prefix_append _ _)
      (List.prefix_append buf more) hle : C.enc f <+: buf)
    rw [C.scan_enc rest hf] at hscan
    cases hscan
  · rw [C.refuse_append more hscan] at hwhole
    cases hwhole
  · rw [C.scan_append more hscan] at hwhole
    obtain ⟨rfl, hrest⟩ := Scan.frame.inj hwhole
    exact .inr ⟨rest, rfl, (C.enc_of_scan hscan).2, hrest⟩

/-! ### The receiver's loop -/

/-- The receiver's loop with at most `n` rounds. -/
def parseFuel : ℕ → List β → Parsed β φ
  | 0, buf => ⟨[], some buf⟩
  | n + 1, buf =>
    match C.scan buf with
    | .more => ⟨[], some buf⟩
    | .refuse => ⟨[], none⟩
    | .frame f rest => ⟨f :: (parseFuel n rest).frames, (parseFuel n rest).rest⟩

/-- The receiver's loop, with as many rounds as the buffer can pay for. -/
def parse (buf : List β) : Parsed β φ := C.parseFuel (buf.length + 1) buf

/-- Rounds beyond the buffer's length change nothing. -/
theorem parseFuel_of_lt {n m : ℕ} {buf : List β} (hn : buf.length < n) (hm : buf.length < m) :
    C.parseFuel n buf = C.parseFuel m buf := by
  induction n generalizing m buf with
  | zero => omega
  | succ n ih =>
    obtain ⟨m, rfl⟩ : ∃ k, m = k + 1 := ⟨m - 1, by omega⟩
    rcases hs : C.scan buf with - | - | ⟨f, rest⟩
    · simp only [parseFuel, hs]
    · simp only [parseFuel, hs]
    · have hlt := C.rest_lt_of_scan hs
      have hn' : rest.length < n := by omega
      have hm' : rest.length < m := by omega
      simp only [parseFuel, hs, ih hn' hm']

theorem parse_of_more {buf : List β} (h : C.scan buf = .more) : C.parse buf = ⟨[], some buf⟩ := by
  simp only [parse, parseFuel, h]

theorem parse_of_refuse {buf : List β} (h : C.scan buf = .refuse) : C.parse buf = ⟨[], none⟩ := by
  simp only [parse, parseFuel, h]

theorem parse_of_frame {buf rest : List β} {f : φ} (h : C.scan buf = .frame f rest) :
    C.parse buf = ⟨f :: (C.parse rest).frames, (C.parse rest).rest⟩ := by
  have hlt := C.rest_lt_of_scan h
  have hfuel : C.parseFuel buf.length rest = C.parse rest :=
    C.parseFuel_of_lt (by omega) (by omega)
  simp only [parse, parseFuel, h]
  rw [hfuel]
  rfl

@[simp] theorem parse_nil : C.parse [] = ⟨[], some []⟩ := C.parse_of_more C.scan_nil

/-- Induction along the loop: one case per outcome of `scan`. -/
theorem scan_induction {motive : List β → Prop}
    (more : ∀ buf, C.scan buf = .more → motive buf)
    (refuse : ∀ buf, C.scan buf = .refuse → motive buf)
    (frame : ∀ buf f rest, C.scan buf = .frame f rest → motive rest → motive buf)
    (buf : List β) : motive buf := by
  induction hn : buf.length using Nat.strong_induction_on generalizing buf with
  | _ n ih =>
    rcases hs : C.scan buf with - | - | ⟨f, rest⟩
    · exact more buf hs
    · exact refuse buf hs
    · exact frame buf f rest hs (ih rest.length (hn ▸ C.rest_lt_of_scan hs) rest rfl)

/-! ### Cutting the stream -/

/-- What a receiver holds after one more piece: what it had left over, followed by the piece, is
parsed again. A refused stream stays refused. -/
def absorb (p : Parsed β φ) (piece : List β) : Parsed β φ :=
  match p.rest with
  | none => p
  | some rest => ⟨p.frames ++ (C.parse (rest ++ piece)).frames, (C.parse (rest ++ piece)).rest⟩

/-- **Parsing composes**: parsing `a ++ b` is parsing `a` and then absorbing `b`. -/
theorem parse_append (a b : List β) : C.parse (a ++ b) = C.absorb (C.parse a) b := by
  induction a using C.scan_induction with
  | more a h => simp only [C.parse_of_more h, absorb, List.nil_append]
  | refuse a h => simp only [C.parse_of_refuse h, C.parse_of_refuse (C.refuse_append b h), absorb]
  | frame a f rest h ih =>
    rw [C.parse_of_frame h, C.parse_of_frame (C.scan_append b h), ih]
    rcases hr : (C.parse rest).rest with - | r <;> simp only [absorb, hr, List.cons_append]

/-- **The cut does not matter**: absorbing pieces one by one gives the parse of their
concatenation. -/
theorem foldl_absorb (a : List β) (pieces : List (List β)) :
    pieces.foldl C.absorb (C.parse a) = C.parse (a ++ pieces.flatten) := by
  induction pieces generalizing a with
  | nil => simp
  | cons p ps ih =>
    rw [List.foldl_cons, ← C.parse_append, ih, List.flatten_cons, List.append_assoc]

/-! ### The parse is the maximal one -/

/-- What is left of a stream after its frames: a tail with no complete frame at its front, kept when
it may still grow into one and dropped when it is refused. -/
def IsTail (tail : List β) : Option (List β) → Prop
  | some rest => tail = rest ∧ C.scan tail = .more
  | none => C.scan tail = .refuse

/-- **Specification of the parse**: the stream is the frames found, each encoded, followed by a tail
that starts with no complete frame. -/
theorem parse_spec (buf : List β) :
    (∀ f ∈ (C.parse buf).frames, C.Valid f) ∧
      ∃ tail, buf = ((C.parse buf).frames.map C.enc).flatten ++ tail ∧
        C.IsTail tail (C.parse buf).rest := by
  induction buf using C.scan_induction with
  | more buf h => simp [C.parse_of_more h, IsTail, h]
  | refuse buf h => simp [C.parse_of_refuse h, IsTail, h]
  | frame buf f rest h ih =>
    obtain ⟨hvalid, tail, hrest, htail⟩ := ih
    obtain ⟨hf, hbuf⟩ := C.enc_of_scan h
    rw [C.parse_of_frame h]
    refine ⟨List.forall_mem_cons.2 ⟨hf, hvalid⟩, tail, ?_, htail⟩
    rw [List.map_cons, List.flatten_cons, List.append_assoc, ← hrest, hbuf]

/-- Parsing an encoded sequence finds exactly that sequence, then goes on with what follows. -/
theorem parse_enc_append {fs : List φ} (hfs : ∀ f ∈ fs, C.Valid f) (tail : List β) :
    C.parse ((fs.map C.enc).flatten ++ tail) =
      ⟨fs ++ (C.parse tail).frames, (C.parse tail).rest⟩ := by
  induction fs with
  | nil => rfl
  | cons f fs ih =>
    obtain ⟨hf, hfs⟩ := List.forall_mem_cons.1 hfs
    rw [List.map_cons, List.flatten_cons, List.append_assoc, C.parse_of_frame (C.scan_enc _ hf),
      ih hfs]
    rfl

/-- **Nothing is lost or reordered in transit**: a receiver that has seen the first part `seen` of
an encoded sequence holds a prefix of the sequence, and the bytes it keeps together with the bytes
still to come encode exactly the frames it does not have yet. -/
theorem parse_of_prefix {fs : List φ} (hfs : ∀ f ∈ fs, C.Valid f) {seen later : List β}
    (h : seen ++ later = (fs.map C.enc).flatten) :
    ∃ got todo rest, fs = got ++ todo ∧ C.parse seen = ⟨got, some rest⟩ ∧
      rest ++ later = (todo.map C.enc).flatten := by
  have hwhole : C.parse (seen ++ later) = ⟨fs, some []⟩ := by
    have := C.parse_enc_append hfs []
    rw [List.append_nil] at this
    rw [h, this, parse_nil, List.append_nil]
  obtain ⟨-, tail, hseen, htail⟩ := C.parse_spec seen
  rw [C.parse_append] at hwhole
  rcases hr : (C.parse seen).rest with - | rest
  · simp only [absorb, hr] at hwhole
    rw [hwhole] at hr
    cases hr
  · simp only [absorb, hr, Parsed.mk.injEq] at hwhole
    rw [hr] at htail
    obtain ⟨rfl, -⟩ := htail
    refine ⟨(C.parse seen).frames, (C.parse (tail ++ later)).frames, tail, hwhole.1.symm,
      Parsed.ext rfl hr, ?_⟩
    have hsplit : ((C.parse seen).frames.map C.enc).flatten ++ (tail ++ later) =
        ((C.parse seen).frames.map C.enc).flatten ++
          ((C.parse (tail ++ later)).frames.map C.enc).flatten := by
      rw [← List.append_assoc, ← hseen, h, ← List.flatten_append, ← List.map_append, hwhole.1]
    exact List.append_cancel_left hsplit

end FrameCodec

end FrameStream
