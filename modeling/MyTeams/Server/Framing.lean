import MyTeams.Server.Effects

/-!
# Framing

What a connection makes of the bytes it receives does not depend on how they were cut into reads,
nor on what the other connections do in between. `Received F p` says that a connection has
dispatched the frames of a parse `p` after those in `F` and holds what the parse left over; one read
takes `Received F p` to `Received F (p.absorb tmp)`, and the stream laws of `FrameStream` do the
rest.
-/

namespace MyTeams

open FrameStream

namespace Server

variable {host : ℕ → Host} {s : Server} {fd : Fd} {before : List Frame}

/-- The connection has dispatched `before` and then the frames of `p`, and holds what `p` left over;
when `p` was refused, the connection is gone. -/
structure Received (fd : Fd) (before : List Frame) (p : Parsed UInt8 Frame) (s : Server) :
    Prop where
  frames : framesOn fd s.trace = before ++ p.frames
  rest : s.clients[fd]?.map ClientState.recvBuffer = p.rest

/-- Actions about other connections do not matter. -/
theorem Received.of_stepsOn_ne {p : Parsed UInt8 Frame} {s' : Server} {d : Fd} (hd : d ≠ fd)
    (h : Received fd before p s) (hsteps : StepsOn host d s s') : Received fd before p s' := by
  induction hsteps with
  | refl => exact h
  | tail _ hstep ih =>
    obtain ⟨a, rfl, ha, rfl⟩ := hstep
    exact ⟨(framesOn_of_ne hd).trans ih.frames, (recvBuffer_of_ne ha hd).trans ih.rest⟩

/-- **The receive loop is the parse** of what the buffer holds. -/
theorem received_processRecvLoop {n : ℕ} {c : ClientState} (hc : s.clients[fd]? = some c)
    (hn : c.recvBuffer.length < n) (hbefore : framesOn fd s.trace = before) :
    Received fd before (serverCodec.parse c.recvBuffer) (processRecvLoop host fd n s) := by
  induction n generalizing s c before with
  | zero => omega
  | succ n ih =>
    rw [processRecvLoop_succ hc]
    rcases hscan : serverCodec.scan c.recvBuffer with - | - | ⟨f, rest⟩
    · rw [serverCodec.parse_of_more hscan]
      exact ⟨by rw [hbefore, List.append_nil], by rw [hc]; rfl⟩
    · rw [serverCodec.parse_of_refuse hscan]
      have hframes : framesOn fd (perform host (.disconnect fd) s).trace = framesOn fd s.trace :=
        framesOn_disconnect fd fd
      have hgone : (perform host (.disconnect fd) s).clients[fd]? = none :=
        clients_disconnect_self fd
      exact ⟨by rw [List.append_nil, ← hbefore]; exact hframes, congrArg _ hgone⟩
    · obtain ⟨-, hbuf⟩ := serverCodec.enc_of_scan hscan
      have hlen : (serverCodec.enc f).length = headerSize + f.2.length := length_makeMessage _ _
      have hrest : c.recvBuffer.drop (headerSize + f.2.length) = rest := by
        rw [hbuf, List.drop_left' hlen]
      have hclient : (perform host (.frame fd f.1 f.2) s).clients[fd]? = _ :=
        clients_frame hc f.1 f.2 fd
      rw [hc, Option.map_some, if_pos rfl, hrest] at hclient
      have hframes : framesOn fd (perform host (.frame fd f.1 f.2) s).trace = before ++ [f] := by
        rw [framesOn_frame, if_pos rfl, hbefore]
      have hshort := serverCodec.rest_lt_of_scan hscan
      have hnext := ih hclient (by dsimp only; omega) hframes
      rw [serverCodec.parse_of_frame hscan]
      exact ⟨by rw [hnext.frames, List.append_assoc]; rfl, hnext.rest⟩

/-- A read of a connection appends to its buffer and runs the receive loop. -/
theorem serveClient_read {c : ClientState} (hc : s.clients[fd]? = some c) {tmp : List UInt8}
    (htmp : tmp ≠ []) :
    serveClient host fd (.read tmp) s =
      processRecvLoop host fd ((c.recvBuffer ++ tmp).length + 1)
        (perform host (.receive fd tmp) s) := by
  have hmem : s.clients.contains fd = true := (IntMap.contains_iff _).2 ⟨c, hc⟩
  have hreceive := contains_modifyClient hmem
    (fun c ↦ { c with recvBuffer := c.recvBuffer ++ tmp }) fd
  have hempty : tmp.isEmpty = false := by simpa using htmp
  have hread : serveInput host fd (some tmp) s =
      processRecvLoop host fd ((c.recvBuffer ++ tmp).length + 1)
        (perform host (.receive fd tmp) s) := by
    simp only [serveInput, handleClientRead, hempty, Bool.false_eq_true, if_false,
      processRecvBuffer, modifyClient_id (hreceive.trans hmem), perform]
    rw [get_modifyClient_self hc, Option.getD_some]
  simp only [serveClient, Revents.read, hmem, Bool.not_true, Bool.false_eq_true, if_false, hread]
  split_ifs <;> rfl

/-- **One read** absorbs what it delivers. -/
theorem Received.read {p : Parsed UInt8 Frame} (h : Received fd before p s) {tmp : List UInt8}
    (htmp : tmp ≠ []) :
    Received fd before (serverCodec.absorb p tmp) (serveClient host fd (.read tmp) s) := by
  rcases hrest : p.rest with - | rest
  · have hgone : s.clients[fd]? = none := Option.map_eq_none_iff.1 (h.rest.trans hrest)
    have hmem : s.clients.contains fd = false := (IntMap.contains_eq_false_iff _).2 hgone
    simpa only [serveClient, hmem, Bool.not_false, if_true, FrameCodec.absorb, hrest] using h
  · obtain ⟨c, hc, hbuf⟩ := Option.map_eq_some_iff.1 (h.rest.trans hrest)
    have hclient : (perform host (.receive fd tmp) s).clients[fd]? =
        some { c with recvBuffer := rest ++ tmp } := by
      rw [perform, get_modifyClient_self hc, hbuf]
    have hloop : Received fd (before ++ p.frames) (serverCodec.parse (rest ++ tmp))
        (processRecvLoop host fd ((rest ++ tmp).length + 1) (perform host (.receive fd tmp) s)) :=
      received_processRecvLoop hclient (Nat.lt_succ_self _) h.frames
    rw [serveClient_read hc htmp, hbuf]
    simp only [FrameCodec.absorb, hrest]
    exact ⟨by rw [hloop.frames, List.append_assoc], hloop.rest⟩

/-! ### Whole streams -/

/-- The bytes that a sequence of poll events delivers to a connection. -/
def received (fd : Fd) (events : List (Fd × Revents)) : List UInt8 :=
  events.flatMap fun e ↦ if e.1 = fd then e.2.input.getD [] else []

theorem received_cons (fd : Fd) (e : Fd × Revents) (events : List (Fd × Revents)) :
    received fd (e :: events) =
      (if e.1 = fd then e.2.input.getD [] else []) ++ received fd events :=
  List.flatMap_cons

/-- All events of the connection are reads of at least one byte; what happens to other connections
is arbitrary. -/
def OnlyReads (fd : Fd) (events : List (Fd × Revents)) : Prop :=
  ∀ e ∈ events, e.1 = fd → ∃ tmp, tmp ≠ [] ∧ e.2 = .read tmp

/-- The poll events of any number of rounds, handled in order. -/
def serveAll (host : ℕ → Host) (events : List (Fd × Revents)) (s : Server) : Server :=
  events.foldl (fun s e ↦ serveClient host e.1 e.2 s) s

theorem Received.events {p : Parsed UInt8 Frame} (h : Received fd before p s)
    {events : List (Fd × Revents)} (hreads : OnlyReads fd events) :
    ∃ pieces : List (List UInt8), pieces.flatten = received fd events ∧
      Received fd before (pieces.foldl serverCodec.absorb p) (serveAll host events s) := by
  induction events generalizing p s with
  | nil => exact ⟨[], rfl, h⟩
  | cons e events ih =>
    obtain ⟨hfirst, hreads⟩ := List.forall_mem_cons.1 hreads
    rcases eq_or_ne e.1 fd with he | he
    · obtain ⟨tmp, htmp, hev⟩ := hfirst he
      have hstep : Received fd before (serverCodec.absorb p tmp) (serveClient host e.1 e.2 s) := by
        rw [he, hev]
        exact h.read htmp
      obtain ⟨pieces, hpieces, hall⟩ := ih hstep hreads
      refine ⟨tmp :: pieces, ?_, hall⟩
      rw [List.flatten_cons, hpieces, received_cons, if_pos he, hev]
      rfl
    · obtain ⟨pieces, hpieces, hall⟩ := ih (h.of_stepsOn_ne he serveClient_steps) hreads
      refine ⟨pieces, ?_, hall⟩
      rw [hpieces, received_cons, if_neg he]
      rfl

/-- However the bytes are cut, the connection ends up with the parse of the whole stream. -/
theorem received_serveAll {c : ClientState} (hc : s.clients[fd]? = some c)
    (hempty : c.recvBuffer = []) {events : List (Fd × Revents)} (hreads : OnlyReads fd events) :
    Received fd (framesOn fd s.trace) (serverCodec.parse (received fd events))
      (serveAll host events s) := by
  have hstart : Received fd (framesOn fd s.trace) (serverCodec.parse []) s := by
    rw [FrameCodec.parse_nil]
    exact ⟨(List.append_nil _).symm, by rw [hc, Option.map_some, hempty]⟩
  obtain ⟨pieces, hpieces, hall⟩ := hstart.events hreads
  rwa [serverCodec.foldl_absorb, List.nil_append, hpieces] at hall

/-- **Server framing is independent of chunking.** Let a connection with an empty receive buffer
receive the bytes of `events`, cut into reads in any way and interleaved with anything that happens
to other connections. The frames it dispatches, whether it is disconnected, and the buffer it keeps
otherwise are those of the parse of the whole stream; they are the same when the stream comes in one
read; and the parse is the maximal one: the frames it finds, none above 65535 bytes, followed by a
tail that either is an incomplete frame, which is kept, or starts with an oversized header. -/
theorem framing_independent_of_chunking {c : ClientState} (hc : s.clients[fd]? = some c)
    (hempty : c.recvBuffer = []) {events : List (Fd × Revents)} (hreads : OnlyReads fd events) :
    ∃ (frames : List Frame) (rest : Option (List UInt8)) (tail : List UInt8),
      framesOn fd (serveAll host events s).trace = framesOn fd s.trace ++ frames ∧
      (serveAll host events s).clients[fd]?.map ClientState.recvBuffer = rest ∧
      (received fd events ≠ [] →
        framesOn fd (serveClient host fd (.read (received fd events)) s).trace =
            framesOn fd s.trace ++ frames ∧
          (serveClient host fd (.read (received fd events)) s).clients[fd]?.map
            ClientState.recvBuffer = rest) ∧
      received fd events = (frames.map Frame.bytes).flatten ++ tail ∧
      (∀ f ∈ frames, f.2.length ≤ 65535) ∧
      match rest with
      | some rest =>
        tail = rest ∧ (rest.length < headerSize ∨
          headerPayloadSize rest ≤ 65535 ∧ rest.length < headerSize + headerPayloadSize rest)
      | none => headerSize ≤ tail.length ∧ 65535 < headerPayloadSize tail := by
  have hall : Received fd _ _ (serveAll host events s) := received_serveAll hc hempty hreads
  obtain ⟨hvalid, tail, hsplit, htail⟩ := serverCodec.parse_spec (received fd events)
  refine ⟨_, _, tail, hall.frames, hall.rest, fun hne ↦ ?_, hsplit, hvalid, ?_⟩
  · have hsingle : OnlyReads fd [(fd, .read (received fd events))] := fun e he _ ↦
      ⟨_, hne, by rw [List.mem_singleton.1 he]⟩
    have hstream : received fd [(fd, .read (received fd events))] = received fd events := by
      simp [received, Revents.read]
    have hone : Received fd _ _ (serveAll host [(fd, .read (received fd events))] s) :=
      received_serveAll hc hempty hsingle
    rw [hstream] at hone
    exact ⟨hone.frames, hone.rest⟩
  · rcases hrest : (serverCodec.parse (received fd events)).rest with - | rest
    · rw [hrest] at htail
      exact scan_eq_refuse_iff.1 htail
    · rw [hrest] at htail
      obtain ⟨rfl, hmore⟩ := htail
      exact ⟨rfl, scan_eq_more_iff.1 hmore⟩

/-- A header cut after its first byte, with a byte of another connection in between. -/
def splitHeader : List (Fd × Revents) :=
  [(4, .read [0x00]), (5, .read [0x07]), (4, .read [0x03, 0x00, 0x00, 0x00, 0x00])]

theorem framing_of_splitHeader :
    ∃ (frames : List Frame) (rest : Option (List UInt8)) (tail : List UInt8),
      framesOn 4 (serveAll plainHost splitHeader
          (execute plainHost [.accept 4, .accept 5] Server.init)).trace =
        framesOn 4 (execute plainHost [.accept 4, .accept 5] Server.init).trace ++ frames ∧
      (serveAll plainHost splitHeader (execute plainHost [.accept 4, .accept 5]
        Server.init)).clients[(4 : Fd)]?.map ClientState.recvBuffer = rest ∧
      received 4 splitHeader = (frames.map Frame.bytes).flatten ++ tail := by
  have hclient : (execute plainHost [.accept 4, .accept 5] Server.init).clients[(4 : Fd)]? =
      some ⟨4, [], []⟩ := by decide +kernel
  have hreads : OnlyReads 4 splitHeader := by
    intro e he h4
    rcases List.mem_cons.1 he with rfl | he
    · exact ⟨_, List.cons_ne_nil _ _, rfl⟩
    rcases List.mem_cons.1 he with rfl | he
    · exact absurd h4 (by decide)
    · rw [List.mem_singleton.1 he]
      exact ⟨_, List.cons_ne_nil _ _, rfl⟩
  obtain ⟨frames, rest, tail, hframes, hrest, -, hsplit, -⟩ :=
    @framing_independent_of_chunking plainHost _ _ _ hclient rfl _ hreads
  exact ⟨frames, rest, tail, hframes, hrest, hsplit⟩

end Server

end MyTeams
