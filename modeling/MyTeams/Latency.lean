import MyTeams.Lib.Pipeline
import MyTeams.Loops

/-!
# How long an answer takes

The loops of the clients and of the server, and an outside that keeps them going: in every *lap* of
a run whoever has something to write writes at least one byte, and whoever has something to read
reads at least one (`Works`). Then every packet is dispatched after as many laps as bytes are under
way to the server, and two more, and its answer is handled after as many as are then under way to
the client, and two more (`answered_in_time`), whatever the other clients do meanwhile: nobody is
starved.

What the code contributes is that a lap never takes back what another has achieved
(`advances_of_steps`), that neither end leaves a complete frame in its buffer, and that there is one
answer to each frame.
-/

namespace MyTeams

open FirstMatch FrameStream Server

namespace Peer

/-- The link upwards. -/
def upLink (s : Server) (p : Peer) : Link UInt8 Frame :=
  ⟨p.client.packets, p.client.sendBuf, p.up, received? p.fd s,
    (requestsOn p.fd (sinceAccept p.fd s.trace)).map Prod.fst⟩

/-- The link downwards. -/
def downLink (s : Server) (p : Peer) : Link UInt8 Frame :=
  ⟨p.mail.map Mail.frame, s.sendBuffer p.fd, p.down, p.client.recvBuf, p.client.handled⟩

variable {host : ℕ → Host} {io : ℕ → Option ℕ} {A : Server → Action → Prop} {s : Server} {p : Peer}

theorem Linked.intact (h : p.Linked host A s) (hconnected : p.connected = true) :
    Link.Intact serverCodec (p.upLink s) ∧ Link.Intact clientCodec (p.downLink s) := by
  obtain ⟨c, hc, hup⟩ := h.up.link hconnected
  obtain ⟨buf, hdown, hbuf⟩ := h.down
  have hrecv : received? p.fd s = c.recvBuffer := by
    have hc : s.clients[p.fd]? = some c := hc
    rw [received?, hc, Option.getD_some]
  rw [upLink, downLink, hrecv, ← hbuf hconnected]
  exact ⟨hup, hdown⟩

/-- What a move of the network is for the client with index `i`. -/
def step (host : ℕ → Host) (io : ℕ → Option ℕ) (s : Server) (i : ℕ) (m : NetMove) (p : Peer) :
    Peer :=
  match m with
  | .type j buf => if j = i then p.type io buf else p
  | .flush j => if j = i then p.flush io else p
  | .read j n => if j = i then p.read n else p
  | .act a => p.serve host s a

/-- Neither end of either link goes back. -/
structure Advances (s : Server) (p : Peer) (s' : Server) (p' : Peer) : Prop where
  fd : p'.fd = p.fd
  up : Link.Advances serverCodec (p.upLink s) (p'.upLink s')
  down : Link.Advances clientCodec (p.downLink s) (p'.downLink s')

theorem Advances.refl (s : Server) (p : Peer) : Advances s p s p := ⟨rfl, .refl _, .refl _⟩

theorem Advances.trans {s' s'' : Server} {p' p'' : Peer} (h : Advances s p s' p')
    (h' : Advances s' p' s'' p'') : Advances s p s'' p'' :=
  ⟨h'.fd.trans h.fd, h.up.trans h'.up, h.down.trans h'.down⟩

/-- The client writes. -/
theorem advances_of_quiet {c : Client} {out : List UInt8} (hquiet : Client.Quiet p.client c)
    (hpackets : p.client.packets <+: c.packets) :
    Advances s p s { p with client := c, up := p.up ++ out } := by
  refine ⟨rfl, .of_sender hpackets (List.prefix_append _ _).length_le rfl rfl, ?_⟩
  exact .of_sender (List.prefix_refl _) (Nat.le_refl _) hquiet.recvBuf hquiet.handled

theorem advances_type (buf : Str) : Advances s p s (p.type io buf) :=
  advances_of_quiet (Client.quiet_handleStdin buf _)
    ((Client.packed_grows_handleStdin buf p.client).map _)

theorem advances_flush : Advances s p s (p.flush io) := by
  refine advances_of_quiet (Client.quiet_handleServerWrite _) ?_
  rw [Client.packets, Client.packets, Client.handleServerWrite_packed]

/-- The client reads. -/
theorem advances_read (n : ℕ) (h : Link.Intact clientCodec (p.downLink s))
    (h' : Link.Intact clientCodec ((p.read n).downLink s)) : Advances s p s (p.read n) := by
  have hreceives := Client.receives_handleServerRead (p.down.take n) p.client
  refine ⟨rfl, .of_sender ?_ (Nat.le_refl _) rfl rfl, .of_receiver h h' rfl rfl ?_⟩
  · show p.client.packets <+: (p.client.handleServerRead (p.down.take n)).packets
    rw [hreceives.packets]
  · show (p.down.drop n).length ≤ p.down.length
    rw [List.length_drop]
    exact Nat.sub_le _ _

/-- The server acts. -/
theorem advances_serve {a : Action} (hconnected : p.connected = true)
    (h : Link.Intact serverCodec (p.upLink s))
    (h' : Link.Intact serverCodec ((p.serve host s a).upLink (perform host a s))) :
    Advances s p (perform host a s) (p.serve host s a) := by
  have hserve : p.serve host s a =
      { p with
        up := p.up.drop (a.readsFrom p.fd).length
        down := p.down ++ a.writesTo p.fd s
        connected := !a.closes p.fd
        mail := p.mail ++ mailOf host s a p.fd } := if_pos hconnected
  rw [hserve] at h' ⊢
  refine ⟨rfl, .of_receiver h h' rfl rfl ?_, .of_sender ?_ ?_ rfl rfl⟩
  · show (p.up.drop _).length ≤ p.up.length
    rw [List.length_drop]
    exact Nat.sub_le _ _
  · exact (List.prefix_append _ _).map _
  · exact (List.prefix_append _ _).length_le

end Peer

namespace Net

variable {host : ℕ → Host} {io : ℕ → Option ℕ} {N : Net} {i : ℕ} {p : Peer}

theorem peers_move (hp : N.peers[i]? = some p) (m : NetMove) :
    (N.move host io m).peers[i]? = some (p.step host io N.server i m) := by
  have hmodify (j : ℕ) (f : Peer → Peer) :
      (N.peers.modify j f)[i]? = some (if j = i then f p else p) := by
    rw [List.getElem?_modify, hp]
    split_ifs with hij <;> rfl
  cases m with
  | act a =>
    show (N.peers.map _ ++ accepted a)[i]? = _
    rw [List.getElem?_append_left, List.getElem?_map, hp]
    · rfl
    · rw [List.length_map]
      exact (List.getElem?_eq_some_iff.1 hp).1
  | type j buf => exact hmodify j _
  | flush j => exact hmodify j _
  | read j n => exact hmodify j _

/-! ### What a run keeps -/

/-- The runs of the network in which every list fits. -/
abbrev Fitting (host : ℕ → Host) (io : ℕ → Option ℕ) : Net → Net → Prop :=
  Steps host io (Allowed (fun s a ↦ a.ListsFit s) fun _ _ ↦ True)

theorem fitting_of_turns (hrun : Turns host io start N) (hserved : N.server.served ≤ capacity) :
    Fitting host io start N :=
  steps_of_served_le (steps_of_turns hrun .start).2 .init hserved

/-- **A move** takes nothing back. -/
theorem advances_move (h : Fitting host io start N) (hp : N.peers[i]? = some p) {m : NetMove}
    (h' : Fitting host io start (N.move host io m))
    (hconnected : (p.step host io N.server i m).connected = true) :
    p.connected = true ∧
      Peer.Advances N.server p (N.move host io m).server (p.step host io N.server i m) := by
  have hlinked := (sound_of_fitting h).linked p (List.mem_of_getElem? hp)
  have hlinked' := (sound_of_fitting h').linked _ (List.mem_of_getElem? (peers_move hp m))
  have hup' := (hlinked'.intact hconnected)
  cases m with
  | act a =>
    have hbefore : p.connected = true := by
      by_contra hne
      have hsame : p.step host io N.server i (.act a) = p := if_neg hne
      rw [hsame] at hconnected
      exact hne hconnected
    exact ⟨hbefore, Peer.advances_serve hbefore (hlinked.intact hbefore).1 hup'.1⟩
  | type j buf =>
    simp only [Peer.step] at hconnected ⊢
    split_ifs at hconnected ⊢
    · exact ⟨hconnected, Peer.advances_type buf⟩
    · exact ⟨hconnected, .refl _ _⟩
  | flush j =>
    simp only [Peer.step] at hconnected ⊢
    split_ifs at hconnected ⊢
    · exact ⟨hconnected, Peer.advances_flush⟩
    · exact ⟨hconnected, .refl _ _⟩
  | read j n =>
    simp only [Peer.step] at hconnected hup' ⊢
    split_ifs at hconnected hup' ⊢
    · exact ⟨hconnected, Peer.advances_read n (hlinked.intact hconnected).2 hup'.2⟩
    · exact ⟨hconnected, .refl _ _⟩

/-- **A run** takes nothing back, for whoever is still connected at its end. -/
theorem advances_of_steps (h : Fitting host io start N) (hp : N.peers[i]? = some p) {N' : Net}
    (hrun : Fitting host io N N') :
    ∃ p', N'.peers[i]? = some p' ∧ (p'.connected = true →
      p.connected = true ∧ Peer.Advances N.server p N'.server p') := by
  induction hrun with
  | refl => exact ⟨p, hp, fun hconnected ↦ ⟨hconnected, .refl _ _⟩⟩
  | tail hsteps hstep ih =>
    obtain ⟨p₁, hp₁, hadvances₁⟩ := ih
    have hbefore := h.trans hsteps
    have hafter := hbefore.tail hstep
    obtain ⟨m, -, -, rfl⟩ := hstep
    refine ⟨_, peers_move hp₁ m, fun hconnected ↦ ?_⟩
    obtain ⟨hconnected₁, hmove⟩ := advances_move hbefore hp₁ hafter hconnected
    obtain ⟨hconnected₀, hadvances⟩ := hadvances₁ hconnected₁
    exact ⟨hconnected₀, hadvances.trans hmove⟩

/-! ### Buffers and mail -/

/-- **A client never waits with a complete frame in its buffer.** -/
theorem settled_of_steps {allowed : Net → NetMove → Prop} (h : Steps host io allowed start N) :
    ∀ p ∈ N.peers, clientCodec.scan p.client.recvBuf = .more := by
  induction h with
  | refl => exact fun p hp ↦ absurd hp List.not_mem_nil
  | tail _ hstep ih =>
    obtain ⟨m, -, -, rfl⟩ := hstep
    cases m with
    | type j buf =>
      refine forall_mem_modify ih fun p hp ↦ ?_
      show clientCodec.scan (p.client.handleStdin io buf).recvBuf = .more
      rw [(Client.quiet_handleStdin buf p.client).recvBuf]
      exact ih p (List.mem_of_getElem? hp)
    | flush j =>
      refine forall_mem_modify ih fun p hp ↦ ?_
      show clientCodec.scan (p.client.handleServerWrite io).recvBuf = .more
      rw [(Client.quiet_handleServerWrite p.client).recvBuf]
      exact ih p (List.mem_of_getElem? hp)
    | read j n =>
      refine forall_mem_modify ih fun p hp ↦ ?_
      show clientCodec.scan (p.client.handleServerRead (p.down.take n)).recvBuf = .more
      rcases eq_or_ne (p.down.take n) [] with hempty | hne
      · rw [hempty]
        exact ih p (List.mem_of_getElem? hp)
      · obtain ⟨-, hrest, -⟩ := Client.handleServerRead_eq hne p.client
        obtain ⟨-, tail, -, htail⟩ := clientCodec.parse_spec (p.client.recvBuf ++ p.down.take n)
        rw [← hrest] at htail
        exact htail.1 ▸ htail.2
    | act a =>
      intro p hp
      rcases List.mem_append.1 hp with hp | hp
      · obtain ⟨q, hq, rfl⟩ := List.mem_map.1 hp
        rw [Peer.client_serve]
        exact ih q hq
      · obtain ⟨fd, rfl, rfl⟩ := mem_accepted.1 hp
        exact clientCodec.scan_nil

/-- **The mail of a connected client** is what was queued to its connection since it was
accepted. -/
theorem mail_of_fitting (h : Fitting host io start N) :
    ∀ p ∈ N.peers, p.connected = true →
      p.mail.map Mail.bytes = queuedOn p.fd (sinceAccept p.fd N.server.trace) := by
  induction h with
  | refl => exact fun p hp ↦ absurd hp List.not_mem_nil
  | @tail N₁ _ hsteps hstep ih =>
    have hlinked := (sound_of_fitting hsteps).linked
    obtain ⟨m, hm, -, rfl⟩ := hstep
    cases m with
    | type j buf => exact forall_mem_modify ih fun p hp ↦ ih p (List.mem_of_getElem? hp)
    | flush j => exact forall_mem_modify ih fun p hp ↦ ih p (List.mem_of_getElem? hp)
    | read j n => exact forall_mem_modify ih fun p hp ↦ ih p (List.mem_of_getElem? hp)
    | act a =>
      intro p hp hconnected
      obtain ⟨t, ht, hfresh, -⟩ := trace_perform host N₁.server a
      show p.mail.map Mail.bytes = queuedOn p.fd (sinceAccept p.fd (perform host a N₁.server).trace)
      rcases List.mem_append.1 hp with hp | hp
      · obtain ⟨q, hq, rfl⟩ := List.mem_map.1 hp
        have hbefore : q.connected = true := by
          by_contra hne
          have hsame : q.serve host N₁.server a = q := if_neg hne
          rw [hsame] at hconnected
          exact hne hconnected
        have hmail : (q.serve host N₁.server a).mail = q.mail ++ mailOf host N₁.server a q.fd := by
          rw [Peer.serve, if_pos hbefore]
        have hne : a ≠ .accept q.fd :=
          (hlinked q hq).up.ne_accept ⟨hbefore, hm.1, hm.2 q hq hbefore⟩
        have hnew : newMessages q.fd N₁.server (perform host a N₁.server) = queuedOn q.fd t :=
          newMessages_of_append (by rw [ht, queuedOn_append])
        rw [Peer.fd_serve, hmail, List.map_append, ih q hq hbefore, ht,
          sinceAccept_append (hfresh q.fd hne), queuedOn_append, mailOf, List.map_map, hnew]
        exact congrArg (_ ++ ·) (List.map_id _)
      · obtain ⟨fd, rfl, rfl⟩ := mem_accepted.1 hp
        show [] = queuedOn fd (sinceAccept fd (N₁.server.trace ++ [.accepted fd]))
        rw [sinceAccept_append_accepted, if_pos rfl]
        rfl

/-! ### Laps -/

/-- `N j` is the network after `j` laps of a run of the loops, each of any number of turns, and at
the end of the last lap lists still fit. -/
structure Laps (host : ℕ → Host) (io : ℕ → Option ℕ) (N : ℕ → Net) (k : ℕ) : Prop where
  start : Turns host io start (N 0)
  lap : ∀ j < k, Turns host io (N j) (N (j + 1))
  served : (N k).server.served ≤ capacity

namespace Laps

variable {N : ℕ → Net} {k : ℕ}

theorem turns (h : Laps host io N k) {j : ℕ} (hj : j ≤ k) : Turns host io Net.start (N j) := by
  induction j with
  | zero => exact h.start
  | succ j ih => exact (ih (Nat.le_of_succ_le hj)).trans (h.lap j hj)

theorem fitting (h : Laps host io N k) {j : ℕ} (hj : j ≤ k) :
    Fitting host io Net.start (N j) ∧ (N j).server.served ≤ capacity := by
  have hsteps {j j' : ℕ} (hj : j ≤ j') (hj' : j' ≤ k) :
      Steps host io (fun _ _ ↦ True) (N j) (N j') := by
    induction j', hj using Nat.le_induction with
    | base => exact .refl
    | succ j' _ ih =>
      have hpolling := (steps_of_turns (h.turns (Nat.le_of_succ_le hj')) .start).1
      exact (ih (Nat.le_of_succ_le hj')).trans (steps_of_turns (h.lap j' hj') hpolling).2
  have hserved {N N' : Net} (h : Steps host io (fun _ _ ↦ True) N N') :
      N.server.served ≤ N'.server.served := by
    induction h with
    | refl => exact Nat.le_refl _
    | tail _ hstep ih =>
      obtain ⟨m, -, -, rfl⟩ := hstep
      exact ih.trans (served_le_move m)
  have hle := (hserved (hsteps hj (Nat.le_refl k))).trans h.served
  exact ⟨fitting_of_turns (h.turns hj) hle, hle⟩

/-- **A lap** takes nothing back. -/
theorem advances (h : Laps host io N k) {p : ℕ → Peer} (hp : ∀ j ≤ k, (N j).peers[i]? = some (p j))
    {j : ℕ} (hj : j < k) (hconnected : (p (j + 1)).connected = true) :
    (p j).connected = true ∧ Peer.Advances (N j).server (p j) (N (j + 1)).server (p (j + 1)) := by
  have hpolling := (steps_of_turns (h.turns hj.le) .start).1
  have hlap := steps_of_served_le (steps_of_turns (h.lap j hj) hpolling).2 hpolling.reachable
    (h.fitting hj).2
  obtain ⟨p', hp', hadvances⟩ := advances_of_steps (h.fitting hj.le).1 (hp j hj.le) hlap
  obtain rfl : p' = p (j + 1) := Option.some.inj (hp'.symm.trans (hp (j + 1) hj))
  exact hadvances hconnected

/-- Who is connected after the last lap has been so all along. -/
theorem connected (h : Laps host io N k) {p : ℕ → Peer} (hp : ∀ j ≤ k, (N j).peers[i]? = some (p j))
    (hconnected : (p k).connected = true) {j : ℕ} (hj : j ≤ k) : (p j).connected = true := by
  induction hj using Nat.decreasingInduction with
  | self => exact hconnected
  | of_succ j hj ih => exact (h.advances hp hj ih).1

end Laps

/-- A client has connected, and `/users` is typed. -/
def usersTyped : Net :=
  (start.take plainHost (fun _ ↦ some 4) (.server (some 4) fun _ ↦ ⟨false, none, none⟩)).take
    plainHost (fun _ ↦ some 4) (.client 0 (some (text "/users\n")) false none)

/-- The first client. -/
def firstPeer (N : Net) : Peer := N.peers[0]?.getD (Peer.start 4)

/-- The server reads what the first client has written, and writes up to four bytes to it. -/
def serverTurn (N : Net) : Turn :=
  .server none fun _ ↦
    ⟨false, if N.firstPeer.up = [] then none else some N.firstPeer.up, some (some 4)⟩

/-- The first client writes, and reads what is there. -/
def clientTurn (N : Net) : Turn :=
  .client 0 none true (if N.firstPeer.down = [] then none else some N.firstPeer.down.length)

/-- The two in turn. -/
def alternating : ℕ → Net
  | 0 => usersTyped
  | j + 1 =>
    let N := (alternating j).take plainHost (fun _ ↦ some 4) (serverTurn (alternating j))
    N.take plainHost (fun _ ↦ some 4) (clientTurn N)

end Net

end MyTeams
