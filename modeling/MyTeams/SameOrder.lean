import MyTeams.Lib.Timeline
import MyTeams.Server.Issuer
import MyTeams.Subscriptions

/-!
# Everybody hears the same story

There is one server, and it does one thing after the other; for each it queues at most one message
to each connection. So the mail of every client is in the order in which the server did things
(`Chronicled`), and what two clients have both been told, they have been told in the same order, and
in the same words unless one of them had asked for it (`same_order`). Nothing of the kind is in the
code: it follows from the single loop and from the order of the bytes on each connection.
-/

namespace MyTeams

open FirstMatch FrameStream Server Timeline

/-- When a message was queued: how much had happened at the server. -/
def Mail.time (x : Mail) : ℕ := x.before.trace.length

/-! ### One action -/

/-- Everybody is told at most one thing. -/
theorem Serves.length_messagesTo_le {host : Host} {fd : Fd} {payload : List UInt8}
    {data : ServerData} {cmd : Option Command} {a : Answer} (h : Serves host fd payload data cmd a)
    (d : Fd) : (a.messagesTo fd d).length ≤ 1 := by
  rcases eq_or_ne d fd with rfl | hd
  · rw [messagesTo_self]
    exact Nat.le_refl 1
  cases hevents : a.events with
  | nil =>
    rw [Answer.messagesTo, if_neg hd, hevents]
    exact Nat.zero_le 1
  | cons e es =>
    have hevent : (e.1, e.2) ∈ a.events := hevents ▸ List.mem_cons_self
    obtain ⟨evt, b, -, hpushes⟩ := h.pushes hevent
    rw [messagesTo_of_event hd hpushes.events hpushes.nodup]
    split_ifs
    · exact Nat.le_refl 1
    · exact Nat.zero_le 1

/-- Whoever did not ask is told the same. -/
theorem Serves.messagesTo_eq {host : Host} {fd : Fd} {payload : List UInt8} {data : ServerData}
    {cmd : Option Command} {a : Answer} (h : Serves host fd payload data cmd a) {d d' : Fd}
    (hd : d ≠ fd) (hd' : d' ≠ fd) {m m' : Msg} (hm : m ∈ a.messagesTo fd d)
    (hm' : m' ∈ a.messagesTo fd d') : m = m' := by
  cases hevents : a.events with
  | nil =>
    rw [Answer.messagesTo, if_neg hd, hevents] at hm
    cases hm
  | cons e es =>
    have hevent : (e.1, e.2) ∈ a.events := hevents ▸ List.mem_cons_self
    obtain ⟨evt, b, -, hpushes⟩ := h.pushes hevent
    rw [messagesTo_of_event hd hpushes.events hpushes.nodup] at hm
    rw [messagesTo_of_event hd' hpushes.events hpushes.nodup] at hm'
    split_ifs at hm hm'
    · exact (List.mem_singleton.1 hm).trans (List.mem_singleton.1 hm').symm
    · cases hm'
    · cases hm
    · cases hm

namespace Server

variable {host : ℕ → Host} {s : Server}

theorem Reachable.length_mailOf_le (h : Reachable host s) {a : Action} (ha : s.Enabled a) (d : Fd) :
    (mailOf host s a d).length ≤ 1 := by
  rw [mailOf, List.length_map]
  rcases answer_perform host h.sessionsWf ha with ⟨answer, hserves, -, hnew⟩ | ⟨-, -, hnew⟩
  · rw [hnew]
    split_ifs
    · rw [List.length_map]
      exact hserves.length_messagesTo_le d
    · exact Nat.zero_le 1
  · rw [hnew]
    exact Nat.zero_le 1

/-- Whoever is told something is told after what was told before. -/
theorem trace_lt_of_mailOf {a : Action} {d : Fd} {x : Mail} (hx : x ∈ mailOf host s a d) :
    s.trace.length < (perform host a s).trace.length := by
  obtain ⟨t, ht, -⟩ := trace_perform host s a
  obtain ⟨b, hb, rfl⟩ := List.mem_map.1 hx
  have hnew : newMessages d s (perform host a s) = queuedOn d t :=
    newMessages_of_append (by rw [ht, queuedOn_append])
  rw [ht, List.length_append]
  refine Nat.lt_add_of_pos_right (List.length_pos_iff.2 ?_)
  rintro rfl
  rw [hnew] at hb
  cases hb

/-- What two connections are told that did not ask. -/
theorem Reachable.bytes_eq (h : Reachable host s) {a : Action} (ha : s.Enabled a) {d d' : Fd}
    (hd : a.fd ≠ d) (hd' : a.fd ≠ d') {x y : Mail} (hx : x ∈ mailOf host s a d)
    (hy : y ∈ mailOf host s a d') : x.bytes = y.bytes := by
  obtain ⟨b, hb, rfl⟩ := List.mem_map.1 hx
  obtain ⟨b', hb', rfl⟩ := List.mem_map.1 hy
  rcases answer_perform host h.sessionsWf ha with ⟨answer, hserves, -, hnew⟩ | ⟨-, -, hnew⟩
  · rw [hnew] at hb hb'
    split_ifs at hb hb'
    · obtain ⟨m, hm, rfl⟩ := List.mem_map.1 hb
      obtain ⟨m', hm', rfl⟩ := List.mem_map.1 hb'
      exact congrArg Msg.bytes (hserves.messagesTo_eq hd.symm hd'.symm hm hm')
    · cases hb'
    · cases hb
    · cases hb
  · rw [hnew] at hb
    cases hb

end Server

/-! ### Runs -/

namespace Net

variable {host : ℕ → Host} {io : ℕ → Option ℕ} {N : Net}

/-- **The mail is in the order of what the server did**: it does one thing at a time, and tells
nobody two things at once. -/
structure Chronicled (N : Net) : Prop where
  ordered : ∀ p ∈ N.peers, Chronological Mail.time p.mail
  past : ∀ p ∈ N.peers, ∀ x ∈ p.mail, x.time < N.server.trace.length
  same : ∀ p ∈ N.peers, ∀ q ∈ N.peers, ∀ x ∈ p.mail, ∀ y ∈ q.mail, x.time = y.time →
    x.before = y.before ∧ x.cause = y.cause

theorem chronicled_start : start.Chronicled :=
  ⟨fun _ hp ↦ absurd hp List.not_mem_nil, fun _ hp ↦ absurd hp List.not_mem_nil,
    fun _ hp ↦ absurd hp List.not_mem_nil⟩

/-- Moves of a client. -/
theorem Chronicled.modify (h : N.Chronicled) (i : ℕ) {f : Peer → Peer}
    (hmail : ∀ p, (f p).mail = p.mail) :
    Chronicled ⟨N.server, N.peers.modify i f⟩ := by
  have hold : ∀ p ∈ N.peers.modify i f, ∃ q ∈ N.peers, p.mail = q.mail :=
    forall_mem_modify (fun q hq ↦ ⟨q, hq, rfl⟩) fun q hq ↦ ⟨q, List.mem_of_getElem? hq, hmail q⟩
  refine ⟨fun p hp ↦ ?_, fun p hp ↦ ?_, fun p hp p' hp' ↦ ?_⟩
  · obtain ⟨q, hq, heq⟩ := hold p hp
    exact heq ▸ h.ordered q hq
  · obtain ⟨q, hq, heq⟩ := hold p hp
    exact heq ▸ h.past q hq
  · obtain ⟨q, hq, heq⟩ := hold p hp
    obtain ⟨q', hq', heq'⟩ := hold p' hp'
    rw [heq, heq']
    exact h.same q hq q' hq'

/-- **One action of the server**: what it queues is later than all mail. -/
theorem Chronicled.act (h : N.Chronicled) (hs : Reachable host N.server) {a : Action}
    (ha : N.server.Enabled a) : (N.move host io (.act a)).Chronicled := by
  have hmail : ∀ p ∈ (N.move host io (.act a)).peers, p.mail = [] ∨ ∃ q ∈ N.peers,
      p.mail = q.mail ∨ p.mail = q.mail ++ mailOf host N.server a q.fd := by
    intro p hp
    rcases List.mem_append.1 hp with hp | hp
    · obtain ⟨q, hq, rfl⟩ := List.mem_map.1 hp
      refine .inr ⟨q, hq, ?_⟩
      rw [Peer.serve]
      split_ifs
      · exact .inr rfl
      · exact .inl rfl
    · obtain ⟨fd, rfl, rfl⟩ := mem_accepted.1 hp
      exact .inl rfl
  have hnew {fd : Fd} {x : Mail} (hx : x ∈ mailOf host N.server a fd) :
      x.before = N.server ∧ x.cause = a := by
    obtain ⟨b, -, rfl⟩ := List.mem_map.1 hx
    exact ⟨rfl, rfl⟩
  have htime {fd : Fd} {x : Mail} (hx : x ∈ mailOf host N.server a fd) :
      x.time = N.server.trace.length := congrArg (fun s : Server ↦ s.trace.length) (hnew hx).1
  -- a message is one of before, or one of this action
  have hcases : ∀ p ∈ (N.move host io (.act a)).peers, ∀ x ∈ p.mail,
      (∃ q ∈ N.peers, x ∈ q.mail) ∨ ∃ fd, x ∈ mailOf host N.server a fd := by
    intro p hp x hx
    rcases hmail p hp with heq | ⟨q, hq, heq | heq⟩
    · rw [heq] at hx
      cases hx
    · exact .inl ⟨q, hq, heq ▸ hx⟩
    · rw [heq] at hx
      exact (List.mem_append.1 hx).imp (fun hx ↦ ⟨q, hq, hx⟩) fun hx ↦ ⟨_, hx⟩
  refine ⟨fun p hp ↦ ?_, fun p hp x hx ↦ ?_, fun p hp p' hp' x hx y hy hxy ↦ ?_⟩
  · rcases hmail p hp with heq | ⟨q, hq, heq | heq⟩
    · rw [heq]
      exact .nil
    · exact heq ▸ h.ordered q hq
    · rw [heq]
      refine (h.ordered q hq).append (hs.length_mailOf_le ha q.fd) fun x hx y hy ↦ ?_
      rw [htime hy]
      exact h.past q hq x hx
  · rcases hcases p hp x hx with ⟨q, hq, hx⟩ | ⟨fd, hx⟩
    · obtain ⟨t, ht, -⟩ := trace_perform host N.server a
      show x.time < (perform host a N.server).trace.length
      rw [ht, List.length_append]
      exact Nat.lt_add_right _ (h.past q hq x hx)
    · rw [htime hx]
      exact trace_lt_of_mailOf hx
  · rcases hcases p hp x hx with ⟨q, hq, hx⟩ | ⟨fd, hx⟩ <;>
      rcases hcases p' hp' y hy with ⟨q', hq', hy⟩ | ⟨fd', hy⟩
    · exact h.same q hq q' hq' x hx y hy hxy
    · have hlt := h.past q hq x hx
      rw [hxy, htime hy] at hlt
      exact absurd hlt (Nat.lt_irrefl _)
    · have hlt := h.past q' hq' y hy
      rw [← hxy, htime hx] at hlt
      exact absurd hlt (Nat.lt_irrefl _)
    · obtain ⟨hx₁, hx₂⟩ := hnew hx
      obtain ⟨hy₁, hy₂⟩ := hnew hy
      exact ⟨hx₁.trans hy₁.symm, hx₂.trans hy₂.symm⟩

theorem chronicled_of_steps {allowed : Net → NetMove → Prop} (h : Steps host io allowed start N) :
    N.Chronicled := by
  induction h with
  | refl => exact chronicled_start
  | tail hsteps hstep ih =>
    obtain ⟨m, hm, -, rfl⟩ := hstep
    cases m with
    | type j buf => exact ih.modify j fun _ ↦ rfl
    | flush j => exact ih.modify j fun _ ↦ rfl
    | read j n => exact ih.modify j fun _ ↦ rfl
    | act a => exact ih.act (identified_of_steps hsteps).1 hm.1

end Net

/-! ### Two clients -/

namespace Peer

/-- The messages that a client has handled. -/
def heard (p : Peer) : List Mail := p.mail.take p.client.handled.length

/-- Those of them that neither `p` nor `q` has asked for. -/
def heardOfOthers (p q : Peer) : List Mail :=
  p.heard.filter fun x ↦ x.cause.fd ≠ p.fd ∧ x.cause.fd ≠ q.fd

/-- Those of them that `q` has handled, too. -/
def shared (p q : Peer) : List Mail := common Mail.time (p.heardOfOthers q) (q.heardOfOthers p)

theorem Linked.map_heard {host : ℕ → Host} {A : Server → Action → Prop} {s : Server} {p : Peer}
    (h : p.Linked host A s) : p.heard.map Mail.frame = p.client.handled := by
  obtain ⟨buf, hintact, -⟩ := h.down
  have hfirst : p.client.handled <+: p.mail.map Mail.frame := hintact.prefix_queued
  rw [heard, List.map_take]
  exact (List.prefix_iff_eq_take.1 hfirst).symm

end Peer

namespace Net

variable {host : ℕ → Host} {io : ℕ → Option ℕ} {N : Net}

/-- **Everybody hears the same story.** In every run of the loops in which at most `capacity` frames
are dispatched, each client has handled some messages `heard`, each for another action of the
server. The actions that two clients have both heard of, they have heard of in the same order; and
of those that neither had asked for, both have been told in the same words. -/
theorem same_order (hrun : Turns host io start N) (hserved : N.server.served ≤ capacity)
    {p q : Peer} (hp : p ∈ N.peers) (hq : q ∈ N.peers) :
    (p.heard.map Mail.frame = p.client.handled ∧ Chronological Mail.time p.heard) ∧
      (common Mail.time p.heard q.heard).map (fun x ↦ (x.before, x.cause)) =
        (common Mail.time q.heard p.heard).map (fun x ↦ (x.before, x.cause)) ∧
      (p.shared q).map Mail.frame = (q.shared p).map Mail.frame := by
  have hsteps := fitting_of_turns hrun hserved
  have hchronicled := chronicled_of_steps hsteps
  have hheard {p : Peer} (hp : p ∈ N.peers) : Chronological Mail.time p.heard :=
    (hchronicled.ordered p hp).sublist (List.take_sublist _ _)
  have hmail {p : Peer} {x : Mail} (hx : x ∈ p.heard) : x ∈ p.mail := List.mem_of_mem_take hx
  refine ⟨⟨((sound_of_fitting hsteps).linked p hp).map_heard, hheard hp⟩, ?_, ?_⟩
  · refine map_common (hheard hp) (hheard hq) fun x hx y hy hxy ↦ ?_
    obtain ⟨hbefore, hcause⟩ := hchronicled.same p hp q hq x (hmail hx) y (hmail hy) hxy
    rw [hbefore, hcause]
  · refine map_common ((hheard hp).sublist List.filter_sublist)
      ((hheard hq).sublist List.filter_sublist) fun x hx y hy hxy ↦ ?_
    obtain ⟨hx, hothers⟩ := List.mem_filter.1 hx
    obtain ⟨hxp, hxq⟩ := of_decide_eq_true hothers
    have hy := List.mem_of_mem_filter hy
    obtain ⟨hbefore, hcause⟩ := hchronicled.same p hp q hq x (hmail hx) y (hmail hy) hxy
    -- both were queued by the same action
    obtain ⟨i, hi⟩ := List.mem_iff_getElem?.1 (hmail hx)
    obtain ⟨j, hj⟩ := List.mem_iff_getElem?.1 (hmail hy)
    obtain ⟨hreachable, henabled, hxmail, -⟩ :=
      (((identified_of_steps hsteps).2 p hp).1.mail i x hi)
    obtain ⟨-, -, hymail, -⟩ := (((identified_of_steps hsteps).2 q hq).1.mail j y hj)
    rw [← hbefore, ← hcause] at hymail
    have hbytes := hreachable.bytes_eq henabled hxp hxq hxmail hymail
    rw [Mail.frame, Mail.frame, hbytes]

/-- What the server reads and writes when it can read and write everything. -/
def readAll (N : Net) : Turn :=
  .server none fun fd ↦
    ⟨false, (N.peers.find? fun p ↦ p.fd = fd ∧ p.up ≠ []).map Peer.up, some (some 65535)⟩

/-- Something is typed into a client. -/
def typing (i : ℕ) (line : Str) (_ : Net) : Turn := .client i (some line) false none

/-- A client reads up to `n` bytes. -/
def reading (i n : ℕ) (_ : Net) : Turn := .client i none false (some n)

/-- A connection is accepted. -/
def accepting (fd : Fd) (_ : Net) : Turn := .server (some fd) fun _ ↦ ⟨false, none, none⟩

/-- One turn after the other. -/
def played (ts : List (Net → Turn)) (N : Net) : Net :=
  ts.foldl (fun N t ↦ N.take plainHost (fun _ ↦ some 65535) (t N)) N

/-- Each turn can be taken. -/
def Plays : List (Net → Turn) → Net → Prop
  | [], _ => True
  | t :: ts, N => N.Takes (t N) ∧ Plays ts (N.take plainHost (fun _ ↦ some 65535) (t N))

instance : ∀ (ts : List (Net → Turn)) (N : Net), Decidable (Plays ts N)
  | [], _ => instDecidableTrue
  | t :: ts, N =>
    have := instDecidablePlays ts (N.take plainHost (fun _ ↦ some 65535) (t N))
    inferInstanceAs (Decidable (N.Takes (t N) ∧
      Plays ts (N.take plainHost (fun _ ↦ some 65535) (t N))))

theorem turns_played {ts : List (Net → Turn)} (h : Plays ts N) :
    Turns plainHost (fun _ ↦ some 65535) N (played ts N) := by
  induction ts generalizing N with
  | nil => exact .refl
  | cons t ts ih => exact .head ⟨t N, h.1, rfl⟩ (ih h.2)

/-- Three users log in, and one of them creates two teams. Another reads what there is for him in
two pieces, with a team of his own in between. -/
def threeUsers : List (Net → Turn) :=
  [accepting 4, accepting 5, accepting 6, typing 0 (text "/login a\n"), readAll,
    typing 1 (text "/login b\n"), readAll, typing 2 (text "/login c\n"), readAll,
    typing 2 (text "/create d e\n"), readAll, reading 0 2000, typing 0 (text "/create f g\n"),
    readAll, typing 2 (text "/create h i\n"), readAll, readAll, reading 1 5000, reading 0 5000]

/-- The second client. -/
def secondPeer (N : Net) : Peer := N.peers[1]?.getD (Peer.start 5)

/-- The login of the third and his two teams. -/
theorem same_order_threeUsers :
    let N := played threeUsers start
    (N.firstPeer.shared N.secondPeer).map Mail.frame =
      (N.secondPeer.shared N.firstPeer).map Mail.frame ∧
      (N.firstPeer.shared N.secondPeer).map (fun x ↦ x.frame.1) =
        [Event.userLoggedIn.code, Event.teamCreated.code, Event.teamCreated.code] := by
  have hturns : Turns plainHost (fun _ ↦ some 65535) start (played threeUsers start) :=
    turns_played (by decide +kernel)
  have hq : (played threeUsers start).secondPeer ∈ (played threeUsers start).peers := by
    have hsome : (played threeUsers start).peers[1]?.isSome := by decide +kernel
    obtain ⟨q, hq⟩ := Option.isSome_iff_exists.1 hsome
    rw [secondPeer, hq, Option.getD_some]
    exact List.mem_of_getElem? hq
  exact ⟨(same_order hturns (by decide +kernel) (firstPeer_mem (by decide +kernel)) hq).2.2,
    by decide +kernel⟩

end Net

end MyTeams
