import MyTeams.Client.Stream
import MyTeams.Server.Framing

/-!
# Transport

Both directions of a connection as links that carry frames (`FrameStream.Link`). Downwards the
server queues messages with `_queue_bytes`, writes them piece by piece, and the client reads;
upwards the client sends what is typed, with writes that may take any part of the buffer or fail,
and the server reads, while other connections do what they like. In both the two ends of the code
are the two ends of a link, so the frames that come out are a prefix of those that went in, and all
of them in the end.

What went in is read off the schedule (`Emission.Emits`): every step of one carries the frames that
are queued or sent in it, whatever the program remembers of them.
-/

namespace MyTeams

open ByteField Emission FrameStream Server

/-! ### From the server to the client -/

/-- The server, the channel to the client on `fd`, and that client. -/
structure Downlink where
  server : Server
  wire : List UInt8
  client : Client

/-- The send buffer of a connection. -/
def Server.sendBuffer (s : Server) (fd : Fd) : List UInt8 :=
  (s.clients[fd]?.getD default).sendBuffer

/-- One step of the way down, with the frames it queues. -/
inductive DownStep (fd : Fd) : Downlink → List Frame → Downlink → Prop
  /-- A message is queued. -/
  | queue {l : Downlink} {f : Frame} (hf : f.2.length < 2 ^ 32) :
    DownStep fd l [f] { l with server := queueBytes fd (makeMessage f.1 f.2) l.server }
  /-- `_handle_client_write` writes up to `n` bytes. -/
  | write {l : Downlink} (n : ℕ) :
    DownStep fd l [] { l with
      server := handleClientWrite fd (some n) l.server
      wire := l.wire ++ (l.server.sendBuffer fd).take n }
  /-- The client reads the front of the channel. -/
  | read {l : Downlink} {tmp rest : List UInt8} (htmp : tmp ≠ []) (h : l.wire = tmp ++ rest) :
    DownStep fd l [] { l with wire := rest, client := l.client.handleServerRead tmp }

/-- The link that the code implements, for the messages queued since the history `before`. -/
structure DownRefines (fd : Fd) (before : List (List UInt8)) (l : Downlink) (fs : List Frame) :
    Prop where
  connected : l.server.clients.contains fd = true
  queued : queuedOn fd l.server.trace = before ++ fs.map Frame.bytes
  intact : Link.Intact clientCodec
    ⟨fs, l.server.sendBuffer fd, l.wire, l.client.recvBuf, l.client.handled⟩

theorem sendBuffer_of_get {s : Server} {fd : Fd} {c : ClientState} (h : s.clients[fd]? = some c) :
    s.sendBuffer fd = c.sendBuffer := by
  rw [Server.sendBuffer, h]
  rfl

/-- The way down is a link: one step of the code is a few steps of the link. -/
theorem DownRefines.step {fd : Fd} {before : List (List UInt8)} {l l' : Downlink}
    {fs new : List Frame} (h : DownRefines fd before l fs) (hstep : DownStep fd l new l') :
    DownRefines fd before l' (fs ++ new) := by
  obtain ⟨c, hc⟩ := (IntMap.contains_iff _).1 h.connected
  have hbuf := sendBuffer_of_get hc
  cases hstep with
  | @queue f hf =>
    have hvalid : clientCodec.Valid f := by
      have hmax : (0xFFFFFFFF : UInt32).toNat = 2 ^ 32 - 1 := rfl
      show f.2.length ≤ (0xFFFFFFFF : UInt32).toNat
      omega
    have hclient := queueBytes_clients fd (makeMessage f.1 f.2) l.server fd
    rw [hc, Option.map_some, if_pos rfl] at hclient
    refine ⟨(contains_queueBytes _ _ _ _).trans h.connected, ?_, ?_⟩
    · rw [queueBytes_trace, if_pos h.connected, queuedOn_append, h.queued, List.map_append,
        List.append_assoc]
      congr 2
      rw [queuedOn_cons_queued, if_pos rfl]
      rfl
    · have hnext := h.intact.step (.queue hvalid)
      rw [sendBuffer_of_get hclient]
      rw [hbuf] at hnext
      exact hnext
  | write n =>
    have hnext := h.intact.step (.write n)
    rw [List.append_nil]
    rw [hbuf] at hnext ⊢
    simp only [handleClientWrite, modifyClient_id h.connected, hc, Option.getD_some]
    -- `send` is not called on an empty buffer
    split_ifs with hempty
    · refine ⟨h.connected, h.queued, ?_⟩
      rw [List.isEmpty_iff] at hempty
      have hsame := h.intact
      rw [hbuf, hempty] at hsame
      rw [hbuf, hempty, List.take_nil, List.append_nil]
      exact hsame
    · have hclient : (record (.sent fd (c.sendBuffer.take n)) (l.server.modifyClient fd fun c ↦
          { c with sendBuffer := c.sendBuffer.drop n })).clients[fd]? =
            some { c with sendBuffer := c.sendBuffer.drop n } := by
        rw [record, get_modifyClient_self hc]
      refine ⟨(IntMap.contains_iff _).2 ⟨_, hclient⟩, ?_, ?_⟩
      · rw [← h.queued]
        exact (queuedOn_append fd l.server.trace _).trans (List.append_nil _)
      · rw [sendBuffer_of_get hclient]
        exact hnext
  | @read tmp rest htmp hwire =>
    obtain ⟨hhandled, hrest, -⟩ := Client.handleServerRead_eq htmp l.client
    have hread := h.intact.step (.read hwire)
    have hparse := hread.steps (Link.steps_of_parse hrest.symm)
    rw [List.append_nil]
    refine ⟨h.connected, h.queued, ?_⟩
    rw [hhandled]
    exact hparse

/-! ### From the client to the server -/

/-- The client on `fd`, its channel to the server, and the server. -/
structure Uplink where
  client : Client
  wire : List UInt8
  server : Server

/-- The bytes that a client wrote between two of its states. -/
def Client.written (c c' : Client) : List UInt8 := c'.wrote.drop c.wrote.length

theorem Client.SendsBytes.written_eq {c c' : Client} {out : List UInt8}
    (h : SendsBytes c c' out) : Client.written c c' = out := by
  rw [written, h.wrote, List.drop_left]

/-- One step of the way up, with the frames that the client passes to `_send_packet` in it. -/
inductive UpStep (host : ℕ → Host) (io : ℕ → Option ℕ) (fd : Fd) :
    Uplink → List Frame → Uplink → Prop
  /-- Something is typed. -/
  | type {l : Uplink} {buf : Str} {new : List Frame}
      (h : Emits (Client.Issues io) l.client new (l.client.handleStdin io buf)) :
    UpStep host io fd l new { l with
      client := l.client.handleStdin io buf
      wire := l.wire ++ l.client.written (l.client.handleStdin io buf) }
  /-- The client writes again. -/
  | flush {l : Uplink} :
    UpStep host io fd l [] { l with
      client := l.client.handleServerWrite io
      wire := l.wire ++ l.client.written (l.client.handleServerWrite io) }
  /-- The client reads something, whatever it is. -/
  | reply {l : Uplink} (tmp : List UInt8) :
    UpStep host io fd l [] { l with client := l.client.handleServerRead tmp }
  /-- The server reads the front of the channel. -/
  | read {l : Uplink} {tmp rest : List UInt8} (htmp : tmp ≠ []) (h : l.wire = tmp ++ rest) :
    UpStep host io fd l []
      { l with wire := rest, server := serveClient host fd (.read tmp) l.server }
  /-- Something happens to another connection. -/
  | other {l : Uplink} {d : Fd} (hd : d ≠ fd) (ev : Revents) :
    UpStep host io fd l [] { l with server := serveClient host d ev l.server }

/-- The link that the code implements, for the frames sent, and those dispatched since the history
`before`. -/
structure UpRefines (fd : Fd) (before : List Frame) (l : Uplink) (fs : List Frame)
    (recvBuf : List UInt8) (handled : List Frame) : Prop where
  sent : l.client.packets = fs
  received : Received fd before ⟨handled, some recvBuf⟩ l.server
  intact : Link.Intact serverCodec ⟨fs, l.client.sendBuf, l.wire, recvBuf, handled⟩

section Up

variable {host : ℕ → Host} {io : ℕ → Option ℕ} {fd : Fd} {before : List Frame} {l l' : Uplink}
  {fs new : List Frame} {recvBuf : List UInt8} {handled : List Frame}

/-- A step of the client. -/
theorem UpRefines.sends (h : UpRefines fd before l fs recvBuf handled) {c : Client}
    (hsends : Client.Sends l.client c) (hpackets : c.packets = l.client.packets ++ new) :
    UpRefines fd before { l with client := c, wire := l.wire ++ l.client.written c } (fs ++ new)
      recvBuf handled := by
  obtain ⟨out, hout⟩ := hsends
  obtain ⟨rfl, hreceived, hintact⟩ := h
  refine ⟨hpackets, hreceived, ?_⟩
  have hnext := hintact.steps (hout.steps l.wire recvBuf handled)
  rw [hpackets] at hnext
  rw [hout.written_eq]
  exact hnext

/-- The way up is a link: one step of the code is a few steps of the link. -/
theorem UpRefines.step (h : UpRefines fd before l fs recvBuf handled)
    (hstep : UpStep host io fd l new l') :
    ∃ recvBuf' handled', UpRefines fd before l' (fs ++ new) recvBuf' handled' := by
  cases hstep with
  | type hissues =>
    exact ⟨_, _, h.sends (Client.sends_handleStdin _ _) (Client.packets_of_emits hissues)⟩
  | flush =>
    have hpackets : (l.client.handleServerWrite io).packets = l.client.packets ++ [] := by
      rw [List.append_nil, Client.packets, Client.handleServerWrite_packed]
      rfl
    exact ⟨_, _, h.sends Client.sends_handleServerWrite hpackets⟩
  | reply tmp =>
    have hreceives := Client.receives_handleServerRead tmp l.client
    rw [List.append_nil]
    refine ⟨recvBuf, handled, hreceives.packets.trans h.sent, h.received, ?_⟩
    have hintact := h.intact
    rw [← hreceives.sendBuf] at hintact
    exact hintact
  | @read tmp rest htmp hwire =>
    have hread := h.intact.step (.read hwire)
    obtain ⟨todo, rest', -, hrest, -⟩ := hread.parse
    have hreceived : Received fd before _ (serveClient host fd (.read tmp) l.server) :=
      h.received.read htmp
    simp only [FrameCodec.absorb] at hreceived
    dsimp only at hrest
    rw [hrest] at hreceived
    rw [List.append_nil]
    exact ⟨_, _, h.sent, hreceived, hread.steps (Link.steps_of_parse hrest)⟩
  | other hd ev =>
    rw [List.append_nil]
    exact ⟨recvBuf, handled, h.sent, h.received.of_stepsOn_ne hd serveClient_steps, h.intact⟩

end Up

/-! ### Both directions -/

/-- **Transport is lossless, ordered and duplicate-free, in both directions.** Downwards: whatever
is queued to a connection in a schedule, and however it is cut into writes and reads, what the
client has handled is a prefix of it, and all of it once the buffers and the channel are empty.
Upwards: the frames dispatched for a client are a prefix of the packets its command lines sent in
the schedule, all of them once everything is drained; none is too long, and the connection is never
given up. Whatever is typed is a step of such a schedule. -/
theorem transport (host : ℕ → Host) (io : ℕ → Option ℕ) (fd : Fd) :
    (∀ s₀ c fs l, s₀.clients[fd]? = some c → c.sendBuffer = [] →
      Emits (DownStep fd) ⟨s₀, [], Client.init⟩ fs l →
      queuedOn fd l.server.trace = queuedOn fd s₀.trace ++ fs.map Frame.bytes ∧
      l.client.handled <+: fs ∧
      (l.server.sendBuffer fd = [] → l.wire = [] → l.client.recvBuf = [] →
        l.client.handled = fs)) ∧
    (∀ s₀ c fs l, s₀.clients[fd]? = some c → c.recvBuffer = [] →
      Emits (UpStep host io fd) ⟨Client.init, [], s₀⟩ fs l →
      l.client.packets = fs ∧ (∀ f ∈ fs, f.2.length ≤ 65535) ∧
      ∃ (dispatched : List Frame) (c' : ClientState),
        framesOn fd l.server.trace = framesOn fd s₀.trace ++ dispatched ∧
        l.server.clients[fd]? = some c' ∧
        dispatched <+: fs ∧
        (l.client.sendBuf = [] → l.wire = [] → c'.recvBuffer = [] → dispatched = fs)) ∧
    ∀ l buf, ∃ new l', UpStep host io fd l new l' ∧
      l'.client = l.client.handleStdin io buf := by
  refine ⟨fun s₀ c fs l hc hempty hrun ↦ ?_, fun s₀ c fs l hc hempty hrun ↦ ?_, fun l buf ↦ ?_⟩
  · have hstart : DownRefines fd (queuedOn fd s₀.trace) ⟨s₀, [], Client.init⟩ [] := by
      refine ⟨(IntMap.contains_iff _).2 ⟨c, hc⟩, (List.append_nil _).symm, ?_⟩
      rw [sendBuffer_of_get hc, hempty]
      exact Link.intact_idle
    have h : DownRefines fd (queuedOn fd s₀.trace) l fs :=
      hrun.rule (R := fun fs l ↦ DownRefines fd (queuedOn fd s₀.trace) l fs) hstart DownRefines.step
    exact ⟨h.queued, h.intact.prefix_queued, h.intact.handled_eq⟩
  · have hstart : UpRefines fd (framesOn fd s₀.trace) ⟨Client.init, [], s₀⟩ [] [] [] :=
      ⟨rfl, ⟨(List.append_nil _).symm, by rw [hc, Option.map_some, hempty]⟩, Link.intact_idle⟩
    obtain ⟨recvBuf, dispatched, h⟩ :
        ∃ recvBuf dispatched, UpRefines fd (framesOn fd s₀.trace) l fs recvBuf dispatched := by
      refine hrun.rule (R := fun fs l ↦ ∃ recvBuf dispatched,
        UpRefines fd (framesOn fd s₀.trace) l fs recvBuf dispatched) ⟨[], [], hstart⟩ ?_
      rintro fs new l l' ⟨recvBuf, dispatched, h⟩ hstep
      exact h.step hstep
    obtain ⟨c', hc', hbuf⟩ := Option.map_eq_some_iff.1 h.received.rest
    refine ⟨h.sent, h.intact.queued, dispatched, c', h.received.frames, hc',
      h.intact.prefix_queued, fun hsend hwire hrecv ↦ ?_⟩
    exact h.intact.handled_eq hsend hwire (hbuf.symm.trans hrecv)
  · obtain ⟨new, hnew⟩ : ∃ new, Emits (Client.Issues io) l.client new
        (Client.handleStdin io buf l.client) :=
      Client.exists_emits_handleStdin buf l.client
    exact ⟨new, _, .type hnew, rfl⟩

/-- A connection that has just been accepted. -/
def accepted : Server := execute plainHost [.accept 4] Server.init

/-- Two messages for a client, and their bytes. -/
def twoMessages : List Frame :=
  [(Error.unauthorized.code, []), (Response.subscribeOk.code, (fill 36 (text "t1")).toList)]

def twoMessagesBytes : List UInt8 := (twoMessages.map Frame.bytes).flatten

/-- The packets of two command lines, and their bytes. -/
def twoPackets : List Frame :=
  [(Command.users.code, []), (Command.login.code, (fill 32 (text "a")).toList)]

def twoPacketsBytes : List UInt8 := (twoPackets.map Frame.bytes).flatten

/-- The first `write` takes four bytes, the second fails, and the next take twenty each. -/
def slowWrite (n : ℕ) : Option ℕ := if n = 0 then some 4 else if n = 1 then none else some 20

/-- The second message is queued when the first is partly written, and both are read in three
pieces. -/
theorem exists_emits_down : ∃ l, Emits (DownStep 4) ⟨accepted, [], Client.init⟩ twoMessages l ∧
    l.server.sendBuffer 4 = [] ∧ l.wire = [] ∧ l.client.recvBuf = [] := by
  have h₀ : Emits (DownStep 4) ⟨accepted, [], Client.init⟩ [] ⟨accepted, [], Client.init⟩ := .refl
  have h₁ := h₀.tail (.queue (f := (Error.unauthorized.code, [])) (by decide))
  have h₂ := h₁.tail (.write 4)
  have h₃ := h₂.tail (.queue
    (f := (Response.subscribeOk.code, (fill 36 (text "t1")).toList)) (by decide +kernel))
  have h₄ := h₃.tail (@DownStep.read 4 _ (twoMessagesBytes.take 3)
    ((twoMessagesBytes.drop 3).take 1) (by decide +kernel) (by decide +kernel))
  have h₅ := h₄.tail (.write 20)
  have h₆ := h₅.tail (@DownStep.read 4 _ ((twoMessagesBytes.drop 3).take 15)
    ((twoMessagesBytes.drop 18).take 6) (by decide +kernel) (by decide +kernel))
  have h₇ := h₆.tail (.write 100)
  have h₈ := h₇.tail (@DownStep.read 4 _ (twoMessagesBytes.drop 18) [] (by decide +kernel)
    (by decide +kernel))
  exact ⟨_, h₈, by decide +kernel, by decide +kernel, by decide +kernel⟩

/-- A `write` that takes part of the first packet, one that fails, and reads that split the
second. -/
theorem exists_emits_up :
    ∃ l, Emits (UpStep plainHost slowWrite 4) ⟨Client.init, [], accepted⟩ twoPackets l ∧
      l.client.sendBuf = [] ∧ l.wire = [] ∧
      l.server.clients[(4 : Fd)]?.map ClientState.recvBuffer = some [] := by
  have h₀ : Emits (UpStep plainHost slowWrite 4) ⟨Client.init, [], accepted⟩ []
      ⟨Client.init, [], accepted⟩ := .refl
  have h₁ := h₀.tail (@UpStep.type _ _ _ _ (text "/users\n") [(Command.users.code, [])]
    (Client.emits_handleStdin (by decide +kernel)))
  have h₂ := h₁.tail .flush
  have h₃ := h₂.tail (@UpStep.read _ _ 4 _ (twoPacketsBytes.take 3)
    ((twoPacketsBytes.drop 3).take 1) (by decide +kernel) (by decide +kernel))
  have h₄ := h₃.tail (@UpStep.type _ _ _ _ (text "/login \"a\"\n")
    [(Command.login.code, (fill 32 (text "a")).toList)]
    (Client.emits_handleStdin (by decide +kernel)))
  have h₅ := h₄.tail (@UpStep.read _ _ 4 _ ((twoPacketsBytes.drop 3).take 15)
    ((twoPacketsBytes.drop 18).take 6) (by decide +kernel) (by decide +kernel))
  have h₆ := h₅.tail .flush
  have h₇ := h₆.tail (@UpStep.read _ _ 4 _ (twoPacketsBytes.drop 18) [] (by decide +kernel)
    (by decide +kernel))
  exact ⟨_, h₇, by decide +kernel, by decide +kernel, by decide +kernel⟩

/-- Both ways until everything is drained: all that was queued is handled, and all that was sent is
dispatched. -/
theorem transport_drained :
    (∃ l, Emits (DownStep 4) ⟨accepted, [], Client.init⟩ twoMessages l ∧
      l.client.handled = twoMessages) ∧
    ∃ l, Emits (UpStep plainHost slowWrite 4) ⟨Client.init, [], accepted⟩ twoPackets l ∧
      framesOn 4 l.server.trace = framesOn 4 accepted.trace ++ twoPackets := by
  obtain ⟨hdown, hup, -⟩ := transport plainHost slowWrite 4
  have hclient : accepted.clients[(4 : Fd)]? = some ⟨4, [], []⟩ := by decide +kernel
  constructor
  · obtain ⟨l, hrun, hsend, hwire, hrecv⟩ := exists_emits_down
    obtain ⟨-, -, hall⟩ := hdown _ _ _ _ hclient rfl hrun
    exact ⟨l, hrun, hall hsend hwire hrecv⟩
  · obtain ⟨l, hrun, hsend, hwire, hrecv⟩ := exists_emits_up
    obtain ⟨-, -, dispatched, c', hframes, hc', -, hall⟩ := hup _ _ _ _ hclient rfl hrun
    rw [hc'] at hrecv
    obtain rfl := hall hsend hwire (Option.some.inj hrecv)
    exact ⟨l, hrun, hframes⟩

end MyTeams
