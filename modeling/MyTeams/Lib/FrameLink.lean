import MyTeams.Lib.FrameStream
import Mathlib.Logic.Relation

/-!
# A link that carries frames

A sender encodes frames into a send buffer and writes the front of it, piece by piece, to a FIFO
byte channel; a receiver moves pieces of the channel into a receive buffer and takes frames off its
front. `Link` is the state of both, with two ghost lists: the frames queued so far, and the frames
handled so far.

The conservation law `Intact` says that every byte encoded is in a handled frame or in one of the
three places in between. It is kept by every step, and everything follows from it: the frames
handled are a prefix of those queued (`Intact.prefix_queued`), and all of them once everything is
drained (`Intact.handled_eq`).
-/

namespace FrameStream

variable {β φ : Type*}

/-- Two ends of a connection and what is between them. -/
@[ext] structure Link (β φ : Type*) where
  /-- The frames queued so far. -/
  queued : List φ
  sendBuf : List β
  wire : List β
  recvBuf : List β
  /-- The frames handled so far. -/
  handled : List φ

namespace Link

variable (C : FrameCodec β φ)

/-- One step of one end. -/
inductive Step : Link β φ → Link β φ → Prop
  /-- A frame is encoded into the send buffer. -/
  | queue {l : Link β φ} {f : φ} (hf : C.Valid f) :
    Step l { l with queued := l.queued ++ [f], sendBuf := l.sendBuf ++ C.enc f }
  /-- The front of the send buffer is written. -/
  | write {l : Link β φ} (n : ℕ) :
    Step l { l with sendBuf := l.sendBuf.drop n, wire := l.wire ++ l.sendBuf.take n }
  /-- The front of the channel is read. -/
  | read {l : Link β φ} {tmp rest : List β} (h : l.wire = tmp ++ rest) :
    Step l { l with wire := rest, recvBuf := l.recvBuf ++ tmp }
  /-- A frame is taken off the receive buffer. -/
  | handle {l : Link β φ} {f : φ} {rest : List β} (h : C.scan l.recvBuf = .frame f rest) :
    Step l { l with recvBuf := rest, handled := l.handled ++ [f] }

/-- Any number of steps. -/
abbrev Steps : Link β φ → Link β φ → Prop := Relation.ReflTransGen (Step C)

/-- **Conservation**: every byte encoded is in a handled frame or on its way. -/
structure Intact (l : Link β φ) : Prop where
  queued : ∀ f ∈ l.queued, C.Valid f
  handled : ∀ f ∈ l.handled, C.Valid f
  bytes : (l.queued.map C.enc).flatten =
    (l.handled.map C.enc).flatten ++ (l.recvBuf ++ (l.wire ++ l.sendBuf))

variable {C}

theorem Intact.step {l l' : Link β φ} (h : Intact C l) (hstep : Step C l l') : Intact C l' := by
  cases hstep with
  | queue hf =>
    refine ⟨?_, h.handled, ?_⟩
    · intro f' hf'
      rcases List.mem_append.1 hf' with hf' | hf'
      · exact h.queued f' hf'
      · rwa [List.mem_singleton.1 hf']
    · rw [List.map_append, List.flatten_append, h.bytes, List.map_singleton, List.flatten_singleton]
      simp only [List.append_assoc]
  | write n =>
    refine ⟨h.queued, h.handled, ?_⟩
    rw [h.bytes]
    simp only [List.append_assoc, List.take_append_drop]
  | read hwire =>
    refine ⟨h.queued, h.handled, ?_⟩
    rw [h.bytes, hwire]
    simp only [List.append_assoc]
  | @handle f rest hscan =>
    obtain ⟨hf, hbuf⟩ := C.enc_of_scan hscan
    refine ⟨h.queued, ?_, ?_⟩
    · intro f' hf'
      rcases List.mem_append.1 hf' with hf' | hf'
      · exact h.handled f' hf'
      · rwa [List.mem_singleton.1 hf']
    · rw [h.bytes, hbuf, List.map_append, List.flatten_append, List.map_singleton,
        List.flatten_singleton]
      simp only [List.append_assoc]

theorem Intact.steps {l l' : Link β φ} (h : Intact C l) (hsteps : Steps C l l') : Intact C l' := by
  induction hsteps with
  | refl => exact h
  | tail _ hstep ih => exact ih.step hstep

/-- A sender that queues frames and writes some bytes keeps the rest. -/
theorem Intact.send {l : Link β φ} (h : Intact C l) {fs : List φ} (hfs : ∀ f ∈ fs, C.Valid f)
    {out buf : List β} (hbytes : out ++ buf = l.sendBuf ++ (fs.map C.enc).flatten) :
    Intact C { l with
      queued := l.queued ++ fs
      wire := l.wire ++ out
      sendBuf := buf } := by
  refine ⟨fun f hf ↦ (List.mem_append.1 hf).elim (h.queued f) (hfs f), h.handled, ?_⟩
  rw [List.map_append, List.flatten_append, h.bytes]
  dsimp only
  rw [List.append_assoc l.wire, hbytes]
  simp only [List.append_assoc]

/-- An idle link. -/
theorem intact_idle : Intact C ⟨[], [], [], [], []⟩ :=
  ⟨by simp, by simp, rfl⟩

/-- What the receiver will make of its buffer is the next part of what was queued. -/
theorem Intact.parse {l : Link β φ} (h : Intact C l) :
    ∃ todo rest, l.queued = l.handled ++ (C.parse l.recvBuf).frames ++ todo ∧
      (C.parse l.recvBuf).rest = some rest ∧
      rest ++ (l.wire ++ l.sendBuf) = (todo.map C.enc).flatten := by
  have hbytes := h.bytes.symm
  rw [← List.append_assoc] at hbytes
  obtain ⟨got, todo, rest, hqueued, hparse, htodo⟩ := C.parse_of_prefix h.queued hbytes
  rw [C.parse_enc_append h.handled] at hparse
  obtain ⟨rfl, hrest⟩ := Parsed.mk.inj hparse
  exact ⟨todo, rest, hqueued, hrest, htodo⟩

/-- **Nothing is lost, reordered or duplicated**: what is handled is a prefix of what was queued. -/
theorem Intact.prefix_queued {l : Link β φ} (h : Intact C l) : l.handled <+: l.queued := by
  obtain ⟨todo, rest, hqueued, -⟩ := h.parse
  exact ⟨_, by rw [hqueued, List.append_assoc]⟩

/-- The frame that is taken off next is the next one that was queued. -/
theorem Intact.next_queued {l : Link β φ} (h : Intact C l) {f : φ} {rest : List β}
    (hscan : C.scan l.recvBuf = .frame f rest) : l.queued[l.handled.length]? = some f := by
  obtain ⟨todo, htodo⟩ := (h.step (.handle hscan)).prefix_queued
  have htodo : l.handled ++ [f] ++ todo = l.queued := htodo
  rw [← htodo, List.append_assoc, List.getElem?_append_right (Nat.le_refl _), Nat.sub_self]
  rfl

/-- **And nothing is kept back**: once everything is drained, all of it is handled. -/
theorem Intact.handled_eq {l : Link β φ} (h : Intact C l) (hsend : l.sendBuf = [])
    (hwire : l.wire = []) (hrecv : l.recvBuf = []) : l.handled = l.queued := by
  obtain ⟨todo, rest, hqueued, hrest, htodo⟩ := h.parse
  rw [hrecv, C.parse_nil] at hqueued hrest
  obtain rfl := Option.some.inj hrest
  rw [hwire, hsend] at htodo
  rcases todo with - | ⟨f, todo⟩
  · rw [hqueued, List.append_nil, List.append_nil]
  · have hf : C.Valid f := h.queued f (by rw [hqueued]; simp)
    rw [List.map_cons, List.flatten_cons] at htodo
    exact absurd (List.append_eq_nil_iff.1 htodo.symm).1 (C.enc_ne_nil hf)

/-- A receiver that runs its loop on the buffer makes as many steps as there are frames. -/
theorem steps_of_parse {l : Link β φ} {rest : List β} (h : (C.parse l.recvBuf).rest = some rest) :
    Steps C l { l with
      recvBuf := rest
      handled := l.handled ++ (C.parse l.recvBuf).frames } := by
  obtain ⟨queued, sendBuf, wire, recvBuf, handled⟩ := l
  dsimp only at h ⊢
  induction recvBuf using C.scan_induction generalizing handled with
  | more buf hscan =>
    rw [C.parse_of_more hscan] at h ⊢
    obtain rfl := Option.some.inj h
    rw [List.append_nil]
  | refuse buf hscan =>
    rw [C.parse_of_refuse hscan] at h
    cases h
  | frame buf f rest' hscan ih =>
    rw [C.parse_of_frame hscan] at h ⊢
    have hrest := ih (handled ++ [f]) h
    rw [List.append_assoc] at hrest
    exact .head (.handle hscan) hrest

end Link

end FrameStream
