import MyTeams.Server.Framing
import MyTeams.Server.TwoRuns

/-!
# The loop of the server

`Server::run`, `_build_pollfds` and `~Server`: the poll set is built from the clients, `poll` comes
back, at most one connection is accepted, and each entry of the poll set is served.

Three things are expected of such a loop. It sleeps only when there is nothing it could do
(`nothing_pending`): no receive buffer holds a complete frame, and whoever has bytes to be sent is
in the poll set with `POLLOUT`. What `poll` says of an entry is used for the connection it was said
of (`served_as_polled`), although connections come and go during the round. And every descriptor
that `accept` returned is closed exactly once (`descriptors_balanced`).
-/

namespace MyTeams

open FrameStream

/-- What `poll` is asked about one descriptor: always `POLLIN`, and `POLLOUT` or not. -/
structure PollFd where
  fd : Fd
  output : Bool
  deriving DecidableEq

/-- What `poll` reports of it: `POLLOUT` only when asked. -/
def PollFd.report (p : PollFd) (ev : Revents) : Revents :=
  { ev with output := if p.output then ev.output else none }

/-- What a call of `poll` comes back with. -/
inductive Polled
  /-- `EINTR`. -/
  | interrupted
  /-- Another error. -/
  | failed
  /-- What is ready. `accepted` is what `accept` returned, if the listening socket was ready and it
  did not fail. -/
  | ready (accepted : Option Fd) (revents : Fd → Revents)

/-- How `Server::run` is left: `_running` was false, `poll` was interrupted, or an exception. -/
inductive Exit
  | stopped
  | interrupted
  | failed
  deriving DecidableEq

namespace Server

variable (host : ℕ → Host)

/-- `_build_pollfds`, without the listening socket, which comes first. -/
def buildPollfds (s : Server) : List PollFd :=
  s.clients.toList.map fun kv ↦ ⟨kv.1, !kv.2.sendBuffer.isEmpty⟩

/-- The body of the loop of `Server::run`, when `poll` reports what is ready. -/
def round (accepted : Option Fd) (revents : Fd → Revents) (s : Server) : Server :=
  pollRound host accepted (s.buildPollfds.map fun p ↦ (p.fd, p.report (revents p.fd))) s

/-- `Server::run`. A turn of the loop tests `_running`, which `shutdown` clears, and calls `poll`.
With no turn left the loop waits in `poll`. -/
def run : List (Bool × Polled) → Server → Server × Option Exit
  | [], s => (s, none)
  | (running, polled) :: turns, s =>
    if !running then (s, some .stopped)
    else
      match polled with
      | .interrupted => (s, some .interrupted)
      | .failed => (s, some .failed)
      | .ready accepted revents => run turns (round host accepted revents s)

/-- `~Server`, but for the listening socket. -/
def destroy (s : Server) : Server :=
  s.clients.toList.foldl (fun s kv ↦ record (.closed kv.1) s) s

/-- What is handed to the loop in a round. -/
def roundInputs (accepted : Option Fd) (revents : Fd → Revents) (s : Server) : List Input :=
  accepted.toList.map .accept ++ s.buildPollfds.map fun p ↦ .client p.fd (p.report (revents p.fd))

theorem round_eq (accepted : Option Fd) (revents : Fd → Revents) (s : Server) :
    round host accepted revents s = feedAll host (roundInputs accepted revents s) s := by
  rw [round, pollRound_eq, List.map_map]
  rfl

/-- `accept` never returns a descriptor that is open. -/
def Fresh : List (Bool × Polled) → Server → Prop
  | (true, .ready accepted revents) :: turns, s =>
    (∀ fd ∈ accepted, isOpen fd s.trace = false) ∧ Fresh turns (round host accepted revents s)
  | _, _ => True

instance (host : ℕ → Host) :
    ∀ (turns : List (Bool × Polled)) (s : Server), Decidable (Fresh host turns s)
  | [], _ | (false, _) :: _, _ | (true, .interrupted) :: _, _ | (true, .failed) :: _, _ =>
    instDecidableTrue
  | (true, .ready accepted revents) :: turns, s =>
    have := instDecidableFresh host turns (round host accepted revents s)
    inferInstanceAs (Decidable ((∀ fd ∈ accepted, isOpen fd s.trace = false) ∧
      Fresh host turns (round host accepted revents s)))

/-- The states in which `run` calls `poll`, or is left. -/
inductive Polling : Server → Prop
  | start : Polling Server.init
  | round {s : Server} (h : Polling s) {accepted : Option Fd} (revents : Fd → Revents)
    (haccept : ∀ fd ∈ accepted, isOpen fd s.trace = false) : Polling (round host accepted revents s)

variable {host} {s : Server}

theorem Polling.reachable (h : Polling host s) : Reachable host s := by
  induction h with
  | start => exact .init
  | round _ revents haccept ih => exact ih.steps (pollRound_steps haccept)

/-- Wherever `run` is, it has made whole rounds. -/
theorem Polling.run (h : Polling host s) {turns : List (Bool × Polled)}
    (hfresh : Fresh host turns s) :
    Polling host (run host turns s).1 := by
  induction turns generalizing s with
  | nil => exact h
  | cons t turns ih =>
    obtain ⟨running, polled⟩ := t
    cases running with
    | false => exact h
    | true =>
      cases polled with
      | interrupted => exact h
      | failed => exact h
      | ready accepted revents => exact ih (h.round revents hfresh.1) hfresh.2

/-! ### Open descriptors -/

/-- **The clients are the open descriptors.** -/
theorem Reachable.contains_eq (h : Reachable host s) (d : Fd) :
    s.clients.contains d = isOpen d s.trace := by
  refine Reachable.induction (P := fun s ↦ s.clients.contains d = isOpen d s.trace)
    (by simp [Server.init, isOpen]) (fun {s a} _ ih ha ↦ ?_) h
  cases a with
  | accept fd =>
    show (s.clients.insert fd _).contains d = isOpen d (s.trace ++ [.accepted fd])
    rw [IntMap.contains_insert, isOpen_append_accepted, ih, Bool.or_comm]
  | receive fd tmp => exact (contains_modifyClient ha.1 _ d).trans ih
  | write fd n =>
    refine (contains_write ha n d).trans (ih.trans ?_)
    exact (isOpen_append_neutral (by simp [Observation.Neutral])).symm
  | frame fd cmd payload =>
    obtain ⟨c, rest, hc, -⟩ := ha
    rw [isOpen_frame, ← ih]
    exact contains_frame ((IntMap.contains_iff _).2 ⟨c, hc⟩) cmd payload d
  | disconnect fd => rw [contains_disconnect, isOpen_disconnect, ih, Bool.and_comm]

theorem mem_buildPollfds {p : PollFd} :
    p ∈ s.buildPollfds ↔ s.clients.contains p.fd = true ∧ p.output = !(unsent p.fd s).isEmpty := by
  rw [buildPollfds, List.mem_map]
  constructor
  · rintro ⟨⟨fd, c⟩, hmem, rfl⟩
    have hc : s.clients[fd]? = some c := (IntMap.mem_toList _).1 hmem
    refine ⟨(IntMap.contains_iff _).2 ⟨c, hc⟩, ?_⟩
    rw [unsent, hc, Option.getD_some]
  · rintro ⟨hmem, houtput⟩
    obtain ⟨c, hc⟩ := (IntMap.contains_iff _).1 hmem
    refine ⟨(p.fd, c), (IntMap.mem_toList _).2 hc, ?_⟩
    rw [unsent, hc, Option.getD_some] at houtput
    rw [← houtput]

theorem nodup_buildPollfds (s : Server) : (s.buildPollfds.map PollFd.fd).Nodup := by
  rw [buildPollfds, List.map_map]
  exact IntMap.nodup_keys s.clients

/-! ### Nothing is left to do -/

/-- No receive buffer holds a complete frame, or a header that is refused. -/
def Settled (s : Server) : Prop :=
  ∀ (fd : Fd) c, s.clients[fd]? = some c → serverCodec.scan c.recvBuffer = .more

theorem settled_init : Settled Server.init := fun fd c hc ↦ by simp [Server.init] at hc

theorem Settled.accept (h : Settled s) (fd : Fd) : Settled (handleNewConnection fd s) := by
  intro d c hc
  have hc : (s.clients.insert fd ⟨fd, [], []⟩)[d]? = some c := hc
  obtain ⟨rfl, rfl⟩ | ⟨-, hc⟩ := (IntMap.get_insert_eq_some_iff _).1 hc
  · exact serverCodec.scan_nil
  · exact h d c hc

/-- What is done for other connections does not touch a receive buffer. -/
theorem recvBuffer_of_stepsOn {fd d : Fd} (hd : fd ≠ d) {s' : Server} (h : StepsOn host fd s s') :
    s'.clients[d]?.map ClientState.recvBuffer = s.clients[d]?.map ClientState.recvBuffer := by
  induction h with
  | refl => rfl
  | tail _ hstep ih =>
    obtain ⟨a, rfl, ha, rfl⟩ := hstep
    exact (recvBuffer_of_ne ha hd).trans ih

/-- A write touches no receive buffer. -/
theorem Settled.serveOutput (h : Settled s) {fd : Fd} (hfd : s.clients.contains fd = true)
    (output : Option (Option ℕ)) : Settled (serveOutput fd output s) := by
  intro d c hc
  rcases eq_or_ne fd d with rfl | hd
  · rcases output with - | written
    · exact h fd c hc
    obtain ⟨c₀, hc₀⟩ := (IntMap.contains_iff _).1 hfd
    simp only [Server.serveOutput, handleClientWrite, modifyClient_id hfd] at hc
    split_ifs at hc
    · exact h fd c hc
    cases written with
    | none =>
      have hgone : (handleClientDisconnect fd s).clients.contains fd = false := by
        have hcontains := @contains_disconnect (fun _ ↦ plainHost 0) s fd fd
        rwa [bne_self_eq_false, Bool.false_and] at hcontains
      rw [(IntMap.contains_eq_false_iff _).1 hgone] at hc
      cases hc
    | some n =>
      have hc : (s.modifyClient fd fun c ↦
          { c with sendBuffer := c.sendBuffer.drop n }).clients[fd]? = some c := hc
      rw [get_modifyClient_self hc₀] at hc
      rw [← Option.some.inj hc]
      exact h fd c₀ hc₀
  · have hsteps : StepsOn (fun _ ↦ plainHost 0) fd s (Server.serveOutput fd output s) := by
      cases output with
      | none => exact .refl
      | some written => exact handleClientWrite_steps hfd
    have hsame := recvBuffer_of_stepsOn hd hsteps
    rw [hc, Option.map_some] at hsame
    obtain ⟨c', hc', hbuf⟩ := Option.map_eq_some_iff.1 hsame.symm
    rw [← hbuf]
    exact h d c' hc'

/-- A read leaves no complete frame behind. -/
theorem Settled.serveInput (h : Settled s) {fd : Fd} (hfd : s.clients.contains fd = true)
    (input : Option (List UInt8)) : Settled (serveInput host fd input s) := by
  intro d c hc
  rcases input with - | tmp
  · exact h d c hc
  rcases eq_or_ne fd d with rfl | hd
  · obtain ⟨c₀, hc₀⟩ := (IntMap.contains_iff _).1 hfd
    rw [Server.serveInput, handleClientRead] at hc
    split_ifs at hc
    · have hgone := @contains_disconnect host s fd fd
      rw [bne_self_eq_false, Bool.false_and, perform] at hgone
      rw [(IntMap.contains_eq_false_iff _).1 hgone] at hc
      cases hc
    -- the loop stops when the buffer holds no complete frame
    · have hclient := get_modifyClient_self hc₀
        fun c ↦ { c with recvBuffer := c.recvBuffer ++ tmp }
      have hmem : (s.modifyClient fd fun c ↦
          { c with recvBuffer := c.recvBuffer ++ tmp }).clients.contains fd = true :=
        (IntMap.contains_iff _).2 ⟨_, hclient⟩
      rw [processRecvBuffer, modifyClient_id hmem, hclient, Option.getD_some] at hc
      have hloop := (@received_processRecvLoop host _ _ _ _ _ hclient (Nat.lt_succ_self _) rfl).rest
      rw [hc, Option.map_some] at hloop
      obtain ⟨-, tail, -, htail⟩ := serverCodec.parse_spec (c₀.recvBuffer ++ tmp)
      rw [← hloop] at htail
      exact htail.1 ▸ htail.2
  · have hsame := recvBuffer_of_stepsOn hd (@handleClientRead_steps host fd tmp s hfd)
    have hc : (handleClientRead host fd tmp s).clients[d]? = some c := hc
    rw [hc, Option.map_some] at hsame
    obtain ⟨c', hc', hbuf⟩ := Option.map_eq_some_iff.1 hsame.symm
    rw [← hbuf]
    exact h d c' hc'

/-- **Serving an entry** of the poll set leaves no complete frame behind. -/
theorem Settled.serveClient (h : Settled s) (fd : Fd) (ev : Revents) :
    Settled (serveClient host fd ev s) := by
  rw [Server.serveClient]
  cases hmem : s.clients.contains fd with
  | false => exact h
  | true =>
    simp only [Bool.not_true, Bool.false_eq_true, if_false]
    split_ifs with herror hgone
    · exact @Settled.serveInput host s h fd hmem (some [])
    · exact h.serveInput hmem ev.input
    · exact (h.serveInput hmem ev.input).serveOutput (by simpa using hgone) ev.output

theorem Settled.feedAll (h : Settled s) (is : List Input) : Settled (feedAll host is s) := by
  induction is generalizing s with
  | nil => exact h
  | cons i is ih =>
    refine @ih (feed host i s) ?_
    cases i with
    | accept fd => exact h.accept fd
    | client fd ev => exact h.serveClient fd ev

theorem Polling.settled (h : Polling host s) : Settled s := by
  induction h with
  | start => exact settled_init
  | round _ revents _ ih => exact round_eq host _ revents _ ▸ ih.feedAll _

/-- **The server sleeps only when there is nothing to do.** Whenever `run` calls `poll`, the poll
set holds exactly the open descriptors, in increasing order, each once; `POLLOUT` is asked for
exactly where bytes wait to be sent; and no receive buffer holds a complete frame or a header that
is to be refused, so none is as long as the longest frame. -/
theorem nothing_pending {turns : List (Bool × Polled)} (hfresh : Fresh host turns Server.init)
    (hs : s = (run host turns Server.init).1) :
    (s.buildPollfds.map PollFd.fd).Pairwise (· < ·) ∧
      (∀ p, p ∈ s.buildPollfds ↔ isOpen p.fd s.trace = true ∧ p.output = !(unsent p.fd s).isEmpty) ∧
      ∀ (fd : Fd) c, s.clients[fd]? = some c →
        serverCodec.scan c.recvBuffer = .more ∧ c.recvBuffer.length < headerSize + 65535 := by
  have h : Polling host s := hs ▸ Polling.start.run hfresh
  refine ⟨?_, fun p ↦ ?_, fun fd c hc ↦ ⟨h.settled fd c hc, ?_⟩⟩
  · rw [buildPollfds, List.map_map]
    refine List.pairwise_map.2 (List.Pairwise.imp ?_ Std.ExtTreeMap.ordered_keys_toList)
    exact fun hlt ↦ compare_lt_iff_lt.1 hlt
  · rw [mem_buildPollfds, h.reachable.contains_eq]
  · have hlimit : (65535 : UInt32).toNat = 65535 := rfl
    rcases scan_eq_more_iff.1 (h.settled fd c hc) with hlt | ⟨hle, hlt⟩
    · exact Nat.lt_of_lt_of_le hlt (Nat.le_add_right _ _)
    · rw [hlimit] at hle
      exact Nat.lt_of_lt_of_le hlt (Nat.add_le_add_left hle _)

/-- A connection is accepted, and the first half of a login arrives. -/
def halfLogin : List (Bool × Polled) :=
  [(true, .ready (some 4) fun _ ↦ ⟨false, none, none⟩),
    (true, .ready none fun _ ↦ .read ((makeMessage Command.login.code [0x61, 0x62]).take 7))]

theorem nothing_pending_halfLogin :
    (((run plainHost halfLogin Server.init).1.buildPollfds).map PollFd.fd).Pairwise (· < ·) ∧
      serverCodec.scan ((makeMessage Command.login.code [0x61, 0x62]).take 7) = .more ∧
      ((makeMessage Command.login.code [0x61, 0x62]).take 7).length < headerSize + 65535 := by
  have h := @nothing_pending plainHost _ halfLogin (by decide +kernel) rfl
  exact ⟨h.1, h.2.2 4 ⟨4, (makeMessage Command.login.code [0x61, 0x62]).take 7, []⟩
    (by decide +kernel)⟩

/-! ### Reports and connections -/

/-- Nothing was done for the connection `d`: it is still there, its receive buffer is as before, and
its send buffer has at most grown. -/
structure Kept (d : Fd) (s s' : Server) : Prop where
  client : ∀ c, s.clients[d]? = some c → ∃ c', s'.clients[d]? = some c' ∧
    c'.recvBuffer = c.recvBuffer ∧ c.sendBuffer <+: c'.sendBuffer
  trace : ∃ t, s'.trace = s.trace ++ t ∧ .accepted d ∉ t ∧ .closed d ∉ t

theorem Kept.refl (d : Fd) (s : Server) : Kept d s s :=
  ⟨fun c hc ↦ ⟨c, hc, rfl, List.prefix_refl _⟩, [], (List.append_nil _).symm, by simp, by simp⟩

theorem Kept.trans {d : Fd} {s' s'' : Server} (h : Kept d s s') (h' : Kept d s' s'') :
    Kept d s s'' := by
  refine ⟨fun c hc ↦ ?_, ?_⟩
  · obtain ⟨c', hc', hrecv, hsend⟩ := h.client c hc
    obtain ⟨c'', hc'', hrecv', hsend'⟩ := h'.client c' hc'
    exact ⟨c'', hc'', hrecv'.trans hrecv, hsend.trans hsend'⟩
  · obtain ⟨t, ht, haccepted, hclosed⟩ := h.trace
    obtain ⟨t', ht', haccepted', hclosed'⟩ := h'.trace
    refine ⟨t ++ t', by rw [ht', ht, List.append_assoc], ?_, ?_⟩
    · exact fun hmem ↦ (List.mem_append.1 hmem).elim haccepted haccepted'
    · exact fun hmem ↦ (List.mem_append.1 hmem).elim hclosed hclosed'

/-- What an action about another connection leaves of a client. -/
theorem client_of_ne {a : Action} (ha : s.Enabled a) {d : Fd} (hd : a.fd ≠ d) {c : ClientState}
    (hc : s.clients[d]? = some c) : ∃ c', (perform host a s).clients[d]? = some c' ∧
      c'.recvBuffer = c.recvBuffer ∧ c.sendBuffer <+: c'.sendBuffer := by
  have hsame (f : ClientState → ClientState) : (s.modifyClient a.fd f).clients[d]? = some c :=
    (get_modifyClient_of_ne (Ne.symm hd) f s).trans hc
  cases a with
  | accept fd =>
    exact ⟨c, (IntMap.get_insert_of_ne _ (Ne.symm hd) _).trans hc, rfl, List.prefix_refl _⟩
  | receive fd tmp => exact ⟨c, hsame _, rfl, List.prefix_refl _⟩
  | write fd n => exact ⟨c, hsame fun c ↦ { c with sendBuffer := c.sendBuffer.drop n }, rfl,
      List.prefix_refl _⟩
  | frame fd cmd payload =>
    obtain ⟨c₀, rest, hc₀, -⟩ := ha
    refine ⟨_, (clients_frame hc₀ cmd payload d).trans (by rw [hc, Option.map_some]), ?_, ?_⟩
    · exact if_neg hd
    · exact List.prefix_append _ _
  | disconnect fd =>
    have hne : d ≠ fd := Ne.symm hd
    have hclient : (perform host (.disconnect fd) s).clients[d]? = _ := clients_disconnect fd d
    rw [if_neg hne, hc, Option.map_some] at hclient
    exact ⟨_, hclient, rfl, List.prefix_append _ _⟩

theorem not_mem_queued {o : Observation} (ho : ¬ o.Neutral) (l : List (Fd × List UInt8)) :
    o ∉ l.map fun x ↦ Observation.queued x.1 x.2 := fun hmem ↦ ho (neutral_of_queued o hmem)

theorem kept_perform {a : Action} (ha : s.Enabled a) {d : Fd} (hd : a.fd ≠ d) :
    Kept d s (perform host a s) := by
  refine ⟨fun c hc ↦ client_of_ne ha hd hc, ?_⟩
  cases a with
  | accept fd =>
    have hne : d ≠ fd := Ne.symm hd
    exact ⟨[.accepted fd], rfl, by simpa using hne, by simp⟩
  | receive fd tmp => exact ⟨[], (List.append_nil _).symm, by simp, by simp⟩
  | write fd n => exact ⟨_, rfl, by simp, by simp⟩
  | frame fd cmd payload =>
    rw [perform_frame_eq, queueAll_trace, List.append_assoc]
    refine ⟨_, rfl, fun hmem ↦ ?_, fun hmem ↦ ?_⟩
    · exact (List.mem_append.1 hmem).elim (by simp) (not_mem_queued id _)
    · exact (List.mem_append.1 hmem).elim (by simp) (not_mem_queued id _)
  | disconnect fd =>
    have hne : d ≠ fd := Ne.symm hd
    obtain ⟨queued, htrace⟩ := trace_disconnect host s fd
    rw [htrace, List.append_assoc]
    refine ⟨_, rfl, fun hmem ↦ ?_, fun hmem ↦ ?_⟩
    · exact (List.mem_append.1 hmem).elim (not_mem_queued id _) (by simp)
    · exact (List.mem_append.1 hmem).elim (not_mem_queued id _) (by simpa using hne)

/-- **Inputs about other descriptors** leave a connection alone. -/
theorem kept_feedAll {d : Fd} {is : List Input} (h : Admissible host is s)
    (hne : ∀ i ∈ is, i.fd ≠ d) :
    Kept d s (feedAll host is s) := by
  induction is generalizing s with
  | nil => exact .refl d s
  | cons i is ih =>
    have hi : i.fd ≠ d := hne i List.mem_cons_self
    have hstep : Relation.ReflTransGen (Kept d) s (feed host i s) := by
      rw [← execute_actions]
      refine reflTransGen_execute (executable_actions h.1) fun a ha henabled ↦ ?_
      exact kept_perform henabled (fd_of_mem_actionsOf ha ▸ hi)
    have hkept {s' : Server} (h : Relation.ReflTransGen (Kept d) s s') : Kept d s s' := by
      induction h with
      | refl => exact .refl d s
      | tail _ hstep ih => exact ih.trans hstep
    exact (hkept hstep).trans (ih h.2 fun j hj ↦ hne j (List.mem_cons_of_mem i hj))

theorem admissible_clients (is : List Input) (h : ∀ i ∈ is, ∀ fd, i ≠ .accept fd) (s : Server) :
    Admissible host is s := by
  induction is generalizing s with
  | nil => trivial
  | cons i is ih =>
    exact ⟨fun fd hi ↦ absurd hi (h i List.mem_cons_self fd),
      ih (fun j hj ↦ h j (List.mem_cons_of_mem i hj)) _⟩

/-- The inputs of a round can be served. -/
theorem admissible_roundInputs {accepted : Option Fd} (revents : Fd → Revents)
    (haccept : ∀ fd ∈ accepted, isOpen fd s.trace = false) :
    Admissible host (roundInputs accepted revents s) s := by
  refine admissible_append.2 ⟨?_, admissible_clients _ (fun i hi fd ↦ ?_) _⟩
  · cases accepted with
    | none => trivial
    | some fd =>
      refine ⟨fun fd' hfd ↦ ?_, trivial⟩
      rw [← Input.accept.inj hfd]
      exact haccept fd rfl
  · obtain ⟨p, -, rfl⟩ := List.mem_map.1 hi
    exact Input.noConfusion

theorem nodup_roundInputs (h : Reachable host s) {accepted : Option Fd} (revents : Fd → Revents)
    (haccept : ∀ fd ∈ accepted, isOpen fd s.trace = false) :
    ((roundInputs accepted revents s).map Input.fd).Nodup := by
  have hclients : (s.buildPollfds.map fun p ↦ Input.client p.fd (p.report (revents p.fd))).map
      Input.fd = s.buildPollfds.map PollFd.fd := List.map_map
  rw [roundInputs, List.map_append, hclients]
  cases accepted with
  | none => exact nodup_buildPollfds s
  | some fd =>
    refine List.nodup_cons.2 ⟨fun hmem ↦ ?_, nodup_buildPollfds s⟩
    obtain ⟨p, hp, hfd⟩ := List.mem_map.1 hmem
    have hopen := (mem_buildPollfds.1 hp).1
    have hfd : p.fd = fd := hfd
    rw [h.contains_eq, hfd, haccept fd rfl] at hopen
    cases hopen

/-- **What `poll` says of a descriptor is used for the connection it was said of.** When the turn of
an entry comes, its connection is still there: since `poll` it was neither closed nor accepted, its
receive buffer is what it was, and what was queued to it has been queued behind the rest. In
particular no entry is skipped, and the connection accepted in a round is not served in it. -/
theorem served_as_polled {turns : List (Bool × Polled)} (hfresh : Fresh host turns Server.init)
    (hs : s = (run host turns Server.init).1) {accepted : Option Fd} (revents : Fd → Revents)
    (haccept : ∀ fd ∈ accepted, isOpen fd s.trace = false) {before after : List Input} {fd : Fd}
    {ev : Revents} (hinputs : roundInputs accepted revents s = before ++ .client fd ev :: after) :
    some fd ≠ accepted ∧ s.clients.contains fd = true ∧ Kept fd s (feedAll host before s) := by
  have h : Polling host s := hs ▸ Polling.start.run hfresh
  have hnodup := nodup_roundInputs h.reachable revents haccept
  have hadmissible := @admissible_roundInputs host s accepted revents haccept
  have hmem : .client fd ev ∈ roundInputs accepted revents s := by
    rw [hinputs]
    exact List.mem_append_right _ List.mem_cons_self
  rw [hinputs] at hnodup hadmissible
  rw [List.map_append, List.map_cons] at hnodup
  have hopen : s.clients.contains fd = true := by
    rcases List.mem_append.1 hmem with hmem | hmem
    · obtain ⟨fd', -, heq⟩ := List.mem_map.1 hmem
      cases heq
    · obtain ⟨p, hp, heq⟩ := List.mem_map.1 hmem
      rw [← (Input.client.inj heq).1]
      exact (mem_buildPollfds.1 hp).1
  refine ⟨fun haccepted ↦ ?_, hopen,
    kept_feedAll (admissible_append.1 hadmissible).1 fun i hi hfd ↦ ?_⟩
  · have hclosed := haccept fd haccepted.symm
    rw [← h.reachable.contains_eq, hopen] at hclosed
    cases hclosed
  · exact List.disjoint_of_nodup_append hnodup (List.mem_map_of_mem hi) (hfd ▸ List.mem_cons_self)

/-- Two connections have been accepted. -/
def twoAccepted : List (Bool × Polled) :=
  [(true, .ready (some 4) fun _ ↦ ⟨false, none, none⟩),
    (true, .ready (some 5) fun _ ↦ ⟨false, none, none⟩)]

/-- The connection 5 is served as polled although 4 is closed before its turn, and 6 accepted. -/
theorem served_as_polled_twoAccepted :
    some 5 ≠ some (6 : Fd) ∧ (run plainHost twoAccepted Server.init).1.clients.contains 5 = true ∧
      Kept 5 (run plainHost twoAccepted Server.init).1
        (feedAll plainHost [.accept 6, .client 4 ⟨true, none, none⟩]
          (run plainHost twoAccepted Server.init).1) :=
  @served_as_polled plainHost _ twoAccepted (by decide +kernel) rfl (some 6)
    (fun _ ↦ ⟨true, none, none⟩) (by decide +kernel) _ [] 5 ⟨true, none, none⟩ (by
      have hpollfds : buildPollfds (run plainHost twoAccepted Server.init).1 =
          [⟨4, false⟩, ⟨5, false⟩] := by decide +kernel
      rw [roundInputs, hpollfds]
      rfl)

end Server

/-! ### Closing -/

/-- `accept` returned the descriptor. -/
def Observation.accepts (d : Fd) : Observation → Bool
  | .accepted fd => fd == d
  | _ => false

/-- The descriptor was closed. -/
def Observation.closes (d : Fd) : Observation → Bool
  | .closed fd => fd == d
  | _ => false

/-- At every point of the history the descriptor had been accepted as often as closed, and once more
if it was open: so the two alternate. -/
def Balanced (d : Fd) (trace : List Observation) : Prop :=
  ∀ t, t <+: trace →
    t.countP (Observation.accepts d) = t.countP (Observation.closes d) + (isOpen d t).toNat

section Balance

variable {d : Fd} {t : List Observation}

theorem balanced_nil : Balanced d [] := by
  intro t ht
  rw [List.prefix_nil.1 ht]
  rfl

/-- One more entry. -/
theorem Balanced.concat (h : Balanced d t) {o : Observation}
    (haccepts : o = .accepted d → isOpen d t = false)
    (hcloses : o = .closed d → isOpen d t = true) :
    Balanced d (t ++ [o]) := by
  intro t' ht'
  rcases List.prefix_concat_iff.1 ht' with rfl | ht'
  · have hbefore := h t (List.prefix_refl t)
    rw [List.countP_append, List.countP_append, List.countP_singleton, List.countP_singleton,
      hbefore]
    cases o with
    | accepted fd =>
      rcases eq_or_ne fd d with rfl | hd
      · rw [isOpen_append_accepted, haccepts rfl]
        simp [Observation.accepts, Observation.closes]
      · have hne : (fd == d) = false := beq_false_of_ne hd
        rw [isOpen_append_accepted, hne, Bool.or_false]
        simp [Observation.accepts, Observation.closes, hd]
    | closed fd =>
      rcases eq_or_ne fd d with rfl | hd
      · rw [isOpen_append_closed, hcloses rfl]
        simp [Observation.accepts, Observation.closes]
      · have hne : (fd != d) = true := bne_iff_ne.2 hd
        rw [isOpen_append_closed, hne, Bool.and_true]
        simp [Observation.accepts, Observation.closes, hd]
    | _ =>
      rw [isOpen_append_neutral (by simp [Observation.Neutral])]
      rfl
  · exact h t' ht'

theorem Balanced.append (h : Balanced d t) {l : List Observation} (hl : ∀ o ∈ l, o.Neutral) :
    Balanced d (t ++ l) := by
  induction l generalizing t with
  | nil => rwa [List.append_nil]
  | cons o l ih =>
    have ho : o.Neutral := hl o List.mem_cons_self
    rw [List.append_cons]
    refine ih (h.concat ?_ ?_) fun o' ho' ↦ hl o' (List.mem_cons_of_mem o ho')
    · rintro rfl
      exact ho.elim
    · rintro rfl
      exact ho.elim

end Balance

namespace Server

variable {host : ℕ → Host} {s : Server}

theorem Reachable.balanced (h : Reachable host s) (d : Fd) : Balanced d s.trace := by
  refine Reachable.induction (P := fun s ↦ Balanced d s.trace) balanced_nil
    (fun {s a} hs ih ha ↦ ?_) h
  cases a with
  | accept fd =>
    exact ih.concat (fun heq ↦ Observation.accepted.inj heq ▸ ha) Observation.noConfusion
  | receive fd tmp => exact ih
  | write fd n => exact ih.append (by simp [Observation.Neutral])
  | frame fd cmd payload =>
    rw [perform_frame_eq, queueAll_trace]
    exact (ih.append (by simp [Observation.Neutral])).append neutral_of_queued
  | disconnect fd =>
    obtain ⟨queued, htrace⟩ := trace_disconnect host s fd
    rw [htrace]
    refine (ih.append neutral_of_queued).concat Observation.noConfusion fun heq ↦ ?_
    rw [isOpen_append_neutral neutral_of_queued, ← hs.contains_eq, ← Observation.closed.inj heq]
    exact ha

/-- `close` is called for a list of descriptors, one after the other. -/
theorem Balanced.closeAll {d : Fd} {l : List (Fd × ClientState)} (hnodup : (l.map Prod.fst).Nodup)
    (h : Balanced d s.trace) (hopen : ∀ kv ∈ l, kv.1 = d → isOpen d s.trace = true) :
    Balanced d (l.foldl (fun s kv ↦ record (.closed kv.1) s) s).trace ∧
      isOpen d (l.foldl (fun s kv ↦ record (.closed kv.1) s) s).trace =
        (isOpen d s.trace && !(l.map Prod.fst).contains d) := by
  induction l generalizing s with
  | nil => exact ⟨h, (Bool.and_true _).symm⟩
  | cons kv l ih =>
    obtain ⟨hhead, hnodup⟩ := List.nodup_cons.1 hnodup
    have hclosed : Balanced d (record (.closed kv.1) s).trace := by
      refine h.concat Observation.noConfusion fun heq ↦ ?_
      exact hopen kv List.mem_cons_self (Observation.closed.inj heq)
    have hisOpen : isOpen d (record (.closed kv.1) s).trace = (isOpen d s.trace && d != kv.1) :=
      (isOpen_append_closed d kv.1 s.trace).trans (by rw [bne_comm])
    obtain ⟨hbalanced, hrest⟩ := ih hnodup hclosed fun kv' hkv' hd ↦ by
      rw [hisOpen, hopen kv' (List.mem_cons_of_mem kv hkv') hd, Bool.true_and, bne_iff_ne]
      rintro rfl
      exact hhead (hd ▸ List.mem_map_of_mem hkv')
    refine ⟨hbalanced, ?_⟩
    rw [List.foldl_cons, hrest, hisOpen, List.map_cons, List.contains_cons, Bool.not_or,
      Bool.and_assoc]
    rfl

/-- **Every descriptor is closed exactly once.** However `run` is left, when the server is gone
every descriptor that `accept` returned has been closed as often as it was accepted; and at every
point of the history each was accepted and closed in turn, so none was closed twice or while it was
not open. -/
theorem descriptors_balanced {turns : List (Bool × Polled)} (hfresh : Fresh host turns Server.init)
    (d : Fd) :
    Balanced d (destroy (run host turns Server.init).1).trace ∧
      (destroy (run host turns Server.init).1).trace.countP (Observation.accepts d) =
        (destroy (run host turns Server.init).1).trace.countP (Observation.closes d) := by
  have hreachable : Reachable host (run host turns Server.init).1 :=
    (Polling.start.run hfresh).reachable
  have hkeys : ((run host turns Server.init).1.clients.toList.map Prod.fst).contains d =
      isOpen d (run host turns Server.init).1.trace := by
    rw [← hreachable.contains_eq, Bool.eq_iff_iff, List.contains_iff_mem, IntMap.mem_keys,
      IntMap.contains_iff]
  obtain ⟨hbalanced, hisOpen⟩ := Balanced.closeAll (IntMap.nodup_keys _) (hreachable.balanced d)
    fun kv hkv hd ↦ by
      rw [← hkeys, List.contains_iff_mem, ← hd]
      exact List.mem_map_of_mem hkv
  rw [hkeys, Bool.and_not_self] at hisOpen
  refine ⟨hbalanced, (hbalanced _ (List.prefix_refl _)).trans ?_⟩
  rw [hisOpen]
  rfl

theorem descriptors_balanced_twoAccepted :
    (destroy (run plainHost twoAccepted Server.init).1).trace.countP (Observation.accepts 5) =
      (destroy (run plainHost twoAccepted Server.init).1).trace.countP (Observation.closes 5) :=
  (@descriptors_balanced plainHost twoAccepted (by decide +kernel) 5).2

end Server

end MyTeams
