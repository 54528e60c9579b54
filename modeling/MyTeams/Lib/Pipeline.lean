import MyTeams.Lib.FrameLink
import Mathlib.Algebra.Order.Monoid.Unbundled.Basic

/-!
# How long a frame is under way

A pipeline is a row of stages, each of which hands on what the one before has handed to it. Count
what each stage has handed on so far: if in every round every stage that is behind hands on at least
one item, then `n` items have passed `j` stages after `n + j` rounds, whatever else enters meanwhile
(`pipeline`). Nobody has to wait for those who came later.

A link is such a pipeline of bytes, with two stages: the sender writes, the receiver reads.
`Serviced` is what a round has to do for it, and `Serviced.delivered` bounds the number of rounds
until everything that had been queued is handled.
-/

/-- **A pipeline of `j` stages** has passed `n` items after `n + j` rounds. -/
theorem pipeline {x : ℕ → ℕ → ℕ} {n j : ℕ} (hsource : ∀ k, n ≤ x 0 k)
    (hstep : ∀ i < j, ∀ k < n + j, min (x i k) (x (i + 1) k + 1) ≤ x (i + 1) (k + 1)) :
    n ≤ x j (n + j) := by
  -- after `k + i` rounds the first `k` items have passed the first `i` stages
  have hpassed : ∀ i ≤ j, ∀ k ≤ n, k ≤ x i (k + i) := by
    intro i hi
    induction i with
    | zero => exact fun k hk ↦ hk.trans (hsource _)
    | succ i ih =>
      intro k hk
      induction k with
      | zero => exact Nat.zero_le _
      | succ k ihk =>
        have hbefore : k + 1 ≤ x i (k + 1 + i) := ih (Nat.le_of_succ_le hi) (k + 1) hk
        have hbehind : k ≤ x (i + 1) (k + (i + 1)) := ihk (Nat.le_of_succ_le hk)
        have hnext := hstep i hi (k + 1 + i) (by omega)
        rw [show k + 1 + i = k + (i + 1) by omega] at hbefore hnext
        rw [show k + 1 + (i + 1) = k + (i + 1) + 1 by omega]
        exact (Nat.le_min.2 ⟨hbefore, Nat.succ_le_succ hbehind⟩).trans hnext
  exact hpassed j (Nat.le_refl j) n (Nat.le_refl n)

namespace FrameStream

variable {β φ : Type*}

namespace Link

variable (C : FrameCodec β φ)

/-- How many bytes the receiver has read. -/
def arrived (l : Link β φ) : ℕ := (l.handled.map C.enc).flatten.length + l.recvBuf.length

/-- How many bytes the sender has written. -/
def written (l : Link β φ) : ℕ := l.arrived C + l.wire.length

/-- How many bytes the sender has encoded. -/
def encoded (l : Link β φ) : ℕ := (l.queued.map C.enc).flatten.length

/-- How many bytes are under way. -/
def underWay (l : Link β φ) : ℕ := l.wire.length + l.sendBuf.length

variable {C} {l l' l'' : Link β φ}

theorem Intact.encoded_eq (h : Intact C l) : l.encoded C = l.written C + l.sendBuf.length := by
  rw [encoded, h.bytes, written, arrived]
  simp only [List.length_append]
  omega

variable (C) in
/-- Neither end goes back. -/
structure Advances (l l' : Link β φ) : Prop where
  queued : l.queued <+: l'.queued
  written : l.written C ≤ l'.written C
  arrived : l.arrived C ≤ l'.arrived C

namespace Advances

theorem refl (l : Link β φ) : Advances C l l := ⟨List.prefix_refl _, Nat.le_refl _, Nat.le_refl _⟩

theorem trans (h : Advances C l l') (h' : Advances C l' l'') : Advances C l l'' :=
  ⟨h.queued.trans h'.queued, h.written.trans h'.written, h.arrived.trans h'.arrived⟩

theorem encoded (h : Advances C l l') : l.encoded C ≤ l'.encoded C :=
  ((h.queued.map C.enc).flatten).length_le

/-- The sender does something. -/
theorem of_sender (hqueued : l.queued <+: l'.queued) (hwire : l.wire.length ≤ l'.wire.length)
    (hrecv : l'.recvBuf = l.recvBuf) (hhandled : l'.handled = l.handled) : Advances C l l' := by
  have harrived : l'.arrived C = l.arrived C := by rw [Link.arrived, Link.arrived, hrecv, hhandled]
  refine ⟨hqueued, ?_, harrived.ge⟩
  rw [Link.written, Link.written, harrived]
  exact Nat.add_le_add_left hwire _

/-- The receiver does something. -/
theorem of_receiver (hl : Intact C l) (hl' : Intact C l') (hqueued : l'.queued = l.queued)
    (hbuf : l'.sendBuf = l.sendBuf) (hwire : l'.wire.length ≤ l.wire.length) : Advances C l l' := by
  have hencoded : l'.encoded C = l.encoded C := by rw [Link.encoded, Link.encoded, hqueued]
  have he := hl.encoded_eq
  have he' := hl'.encoded_eq
  rw [hbuf] at he'
  -- what was written stays, and less of it is in the channel
  have hwritten : l'.written C = l.written C := by omega
  have hsplit : l'.arrived C + l'.wire.length = l.arrived C + l.wire.length := hwritten
  exact ⟨hqueued ▸ List.prefix_refl _, hwritten.ge, by omega⟩

end Advances

variable (C) in
/-- The sender has written something if it had something to write, and the receiver has read
something if there was something to read. -/
structure Works (l l' : Link β φ) : Prop where
  writes : l.sendBuf ≠ [] → l.written C < l'.written C
  reads : l.wire ≠ [] → l.arrived C < l'.arrived C

instance (l l' : Link β φ) [DecidableEq β] : Decidable (Works C l l') :=
  decidable_of_iff ((l.sendBuf ≠ [] → l.written C < l'.written C) ∧
    (l.wire ≠ [] → l.arrived C < l'.arrived C)) ⟨fun h ↦ ⟨h.1, h.2⟩, fun h ↦ ⟨h.1, h.2⟩⟩

variable (C) in
/-- **A round of service.** -/
structure Serviced (l l' : Link β φ) : Prop extends Advances C l l', Works C l l'

namespace Serviced

theorem min_le_written (h : Serviced C l l') (hl : Intact C l) :
    min (l.encoded C) (l.written C + 1) ≤ l'.written C := by
  have he := hl.encoded_eq
  rcases eq_or_ne l.sendBuf [] with hempty | hne
  · rw [hempty, List.length_nil, Nat.add_zero] at he
    exact (Nat.min_le_left _ _).trans (he.le.trans h.written)
  · exact (Nat.min_le_right _ _).trans (h.writes hne)

theorem min_le_arrived (h : Serviced C l l') :
    min (l.written C) (l.arrived C + 1) ≤ l'.arrived C := by
  rcases eq_or_ne l.wire [] with hempty | hne
  · have hsame : l.written C = l.arrived C := by rw [Link.written, hempty]; rfl
    exact (Nat.min_le_left _ _).trans (hsame.le.trans h.arrived)
  · exact (Nat.min_le_right _ _).trans (h.reads hne)

end Serviced

/-- What has arrived is handled, except for an incomplete frame. -/
theorem Intact.prefix_handled (h : Intact C l) (hsettled : C.scan l.recvBuf = .more)
    {fs : List φ} (hfs : fs <+: l.queued) (harrived : (fs.map C.enc).flatten.length ≤ l.arrived C) :
    fs <+: l.handled := by
  obtain ⟨todo, rest, hqueued, hrest, htodo⟩ := h.parse
  rw [C.parse_of_more hsettled] at hqueued hrest
  obtain rfl := Option.some.inj hrest
  rw [List.append_nil] at hqueued
  rcases List.prefix_or_prefix_of_prefix hfs (hqueued ▸ List.prefix_append _ _)
    with hle | ⟨rest, rfl⟩
  · exact hle
  -- otherwise the next frame has arrived, and would be handled
  cases rest with
  | nil => rw [List.append_nil]
  | cons f rest =>
    have hnext : f :: rest <+: todo := by
      rw [hqueued] at hfs
      exact (List.prefix_append_right_inj _).1 hfs
    obtain ⟨more, rfl⟩ := hnext
    have hf : C.Valid f := h.queued f (by rw [hqueued]; simp)
    rw [List.cons_append, List.map_cons, List.flatten_cons] at htodo
    rcases C.scan_of_prefix hf htodo with ⟨-, hlt⟩ | ⟨rest', hframe, -⟩
    · rw [arrived, List.map_append, List.flatten_append, List.map_cons, List.flatten_cons,
        List.length_append, List.length_append] at harrived
      omega
    · rw [hsettled] at hframe
      cases hframe

theorem Serviced.advances {L : ℕ → Link β φ} {k : ℕ} (h : ∀ i < k, Serviced C (L i) (L (i + 1)))
    {i j : ℕ} (hij : i ≤ j) (hj : j ≤ k) : Advances C (L i) (L j) := by
  induction j, hij using Nat.le_induction with
  | base => exact .refl _
  | succ j _ ih => exact (ih (Nat.le_of_succ_le hj)).trans (h j hj).toAdvances

/-- **Delivery**: after as many rounds as bytes were under way, and two more, everything that had
been queued is handled, however much was queued meanwhile. -/
theorem Serviced.delivered {L : ℕ → Link β φ} {k : ℕ} (hintact : ∀ i ≤ k, Intact C (L i))
    (hserviced : ∀ i < k, Serviced C (L i) (L (i + 1))) (hk : (L 0).underWay + 2 ≤ k)
    (hsettled : C.scan (L k).recvBuf = .more) : (L 0).queued <+: (L k).handled := by
  have hadvances {j : ℕ} (hj : j ≤ k) : Advances C (L 0) (L j) := advances hserviced j.zero_le hj
  -- what was encoded, written and read, counted from what had been read at the start
  let base := (L 0).arrived C
  let x (i j : ℕ) : ℕ :=
    match i with
    | 0 => (L 0).encoded C - base
    | 1 => (L j).written C - base
    | _ => (L j).arrived C - base
  have hencoded : (L 0).encoded C = base + (L 0).underWay := by
    rw [(hintact 0 k.zero_le).encoded_eq, Link.written, underWay]
    omega
  have hpassed : (L 0).underWay ≤ x 2 ((L 0).underWay + 2) := by
    refine pipeline (fun j ↦ ?_) fun i hi j hj ↦ ?_
    · show _ ≤ (L 0).encoded C - base
      omega
    · have hj : j < k := Nat.lt_of_lt_of_le hj hk
      have hbase : base ≤ (L j).arrived C := (hadvances hj.le).arrived
      rcases i with - | i
      · have hle := (hserviced j hj).min_le_written (hintact j hj.le)
        have hgrows := (hadvances hj.le).encoded
        have hwritten : (L j).arrived C ≤ (L j).written C := Nat.le_add_right _ _
        show min ((L 0).encoded C - base) ((L j).written C - base + 1) ≤
          (L (j + 1)).written C - base
        omega
      · obtain rfl : i = 0 := by omega
        have hle := (hserviced j hj).min_le_arrived
        show min ((L j).written C - base) ((L j).arrived C - base + 1) ≤
          (L (j + 1)).arrived C - base
        omega
  have harrived : (L 0).encoded C ≤ (L k).arrived C := by
    have hpassed : (L 0).underWay ≤ (L ((L 0).underWay + 2)).arrived C - base := hpassed
    have hlater := (advances hserviced hk (Nat.le_refl k)).arrived
    have hbase : base ≤ (L ((L 0).underWay + 2)).arrived C := (hadvances hk).arrived
    omega
  exact (hintact k (Nat.le_refl k)).prefix_handled hsettled (hadvances (Nat.le_refl k)).queued
    harrived

end Link

end FrameStream
