import MyTeams.Client.Calls
import MyTeams.Decoding
import MyTeams.Server.Sizes
import MyTeams.Server.TwoRuns
import MyTeams.System

/-!
# Several clients and the server

The system made of the server and any number of CLI clients, each with its two byte channels. Every
connection that the server accepts is a new client; what a client is typed, writes and reads, and
what the server does, happens in any order.

With each client goes its `mail`, the messages that the server has queued for it, each with the
action that queued it and the server that this action met. Nobody reads it: it says what the
client's calls are about. The frames that a client handles are the first of its mail
(`Peer.Linked`), so the calls made while it decodes a frame are those for one message
(`Client.Tells`), and what holds of single messages passes to all calls of all runs
(`Net.sound_of_steps`).
-/

namespace MyTeams

open FirstMatch FrameStream Server

/-! ### The network -/

/-- A message that the server has queued. -/
structure Mail where
  bytes : List UInt8
  /-- The action that queued it. -/
  cause : Action
  /-- The server before that action. -/
  before : Server

/-- A client and its channels. -/
structure Peer where
  /-- The connection, as the server calls it. -/
  fd : Fd
  client : Client
  /-- From the client to the server. -/
  up : List UInt8
  /-- From the server to the client. -/
  down : List UInt8
  /-- Whether the server still has the connection. -/
  connected : Bool
  /-- What the server has queued for the client, oldest first. -/
  mail : List Mail

/-- The server and the clients, in the order in which it accepted them. -/
structure Net where
  server : Server
  peers : List Peer

/-- What can happen next. -/
inductive NetMove
  /-- Something is typed into the client with index `i`. -/
  | type (i : ℕ) (buf : Str)
  /-- That client writes again. -/
  | flush (i : ℕ)
  /-- It reads up to `n` bytes. -/
  | read (i : ℕ) (n : ℕ)
  /-- The server acts. -/
  | act (a : Action)

/-- What an action queues to a connection. -/
def mailOf (host : ℕ → Host) (s : Server) (a : Action) (fd : Fd) : List Mail :=
  (newMessages fd s (perform host a s)).map fun b ↦ ⟨b, a, s⟩

/-- The frame that a message carries. -/
def Mail.frame (x : Mail) : Frame := (headerCode x.bytes, x.bytes.drop headerSize)

namespace Peer

variable (host : ℕ → Host) (io : ℕ → Option ℕ)

/-- A client just after the server has accepted its connection. -/
def start (fd : Fd) : Peer := ⟨fd, Client.init, [], [], true, []⟩

/-- The system that the client makes with the server. -/
def view (s : Server) (p : Peer) : System := ⟨p.client, p.up, p.down, s, p.connected⟩

/-- Something is typed. -/
def type (buf : Str) (p : Peer) : Peer :=
  { p with
    client := p.client.handleStdin io buf
    up := p.up ++ p.client.written (p.client.handleStdin io buf) }

/-- The client writes again. -/
def flush (p : Peer) : Peer :=
  { p with
    client := p.client.handleServerWrite io
    up := p.up ++ p.client.written (p.client.handleServerWrite io) }

/-- The client reads up to `n` bytes. -/
def read (n : ℕ) (p : Peer) : Peer :=
  { p with client := p.client.handleServerRead (p.down.take n), down := p.down.drop n }

/-- What an action of the server means for the client. -/
def serve (s : Server) (a : Action) (p : Peer) : Peer :=
  if p.connected then
    { p with
      up := p.up.drop (a.readsFrom p.fd).length
      down := p.down ++ a.writesTo p.fd s
      connected := !a.closes p.fd
      mail := p.mail ++ mailOf host s a p.fd }
  else p

@[simp]
theorem client_serve (s : Server) (a : Action) (p : Peer) :
    (p.serve host s a).client = p.client := by
  rw [serve]
  split_ifs
  · rfl
  · rfl

@[simp]
theorem fd_serve (s : Server) (a : Action) (p : Peer) : (p.serve host s a).fd = p.fd := by
  rw [serve]
  split_ifs
  · rfl
  · rfl

/-- The messages that reading up to `n` bytes completes. Reading nothing is the end of the
stream. -/
def arriving (n : ℕ) (p : Peer) : List Mail :=
  if p.down.take n = [] then []
  else
    (p.mail.drop p.client.handled.length).take
      (clientCodec.parse (p.client.recvBuf ++ p.down.take n)).frames.length

end Peer

namespace Net

variable (host : ℕ → Host) (io : ℕ → Option ℕ)

/-- The network before the first connection. -/
def start : Net := ⟨Server.init, []⟩

/-- The clients that an action accepts. -/
def accepted : Action → List Peer
  | .accept fd => [.start fd]
  | _ => []

theorem mem_accepted {a : Action} {p : Peer} :
    p ∈ accepted a ↔ ∃ fd, a = .accept fd ∧ p = .start fd := by
  constructor
  · intro hp
    cases a with
    | accept fd => exact ⟨fd, rfl, List.mem_singleton.1 hp⟩
    | _ => cases hp
  · rintro ⟨fd, rfl, rfl⟩
    exact List.mem_singleton_self _

/-- When a move can happen. What the server reads from a connection is the front of its channel. -/
def Enabled (N : Net) : NetMove → Prop
  | .act a => N.server.Enabled a ∧ ∀ p ∈ N.peers, p.connected → a.readsFrom p.fd <+: p.up
  | _ => True

/-- The effect of a move. -/
def move (m : NetMove) (N : Net) : Net :=
  match m with
  | .type i buf => { N with peers := N.peers.modify i (Peer.type io buf) }
  | .flush i => { N with peers := N.peers.modify i (Peer.flush io) }
  | .read i n => { N with peers := N.peers.modify i (Peer.read n) }
  | .act a => ⟨perform host a N.server, N.peers.map (Peer.serve host N.server a) ++ accepted a⟩

/-- One move of those that `allowed` lets through. -/
def Step (allowed : Net → NetMove → Prop) (N N' : Net) : Prop :=
  ∃ m, N.Enabled m ∧ allowed N m ∧ N' = N.move host io m

/-- A run. -/
abbrev Steps (allowed : Net → NetMove → Prop) : Net → Net → Prop :=
  Relation.ReflTransGen (Step host io allowed)

end Net

/-! ### What an action queues -/

namespace Server

variable {host : ℕ → Host} {s : Server}

/-- **Conservation**: what an action writes to a connection, and what it leaves in the send buffer,
is what was there and what it queued. -/
theorem writesTo_append_sendBuffer {a : Action} (ha : s.Enabled a) {d : Fd} {c : ClientState}
    (hc : s.clients[d]? = some c) (haccept : a ≠ .accept d) (hcloses : a.closes d = false) :
    ∃ c', (perform host a s).clients[d]? = some c' ∧
      a.writesTo d s ++ c'.sendBuffer =
        c.sendBuffer ++ (newMessages d s (perform host a s)).flatten := by
  have hd : s.clients.contains d = true := (IntMap.contains_iff _).2 ⟨c, hc⟩
  cases a with
  | accept fd =>
    have hne : d ≠ fd := fun h ↦ haccept (congrArg _ h.symm)
    refine ⟨c, (IntMap.get_insert_of_ne _ hne _).trans hc, ?_⟩
    rw [newMessages_quiet (by simp) (by simp)]
    exact (List.append_nil _).symm
  | receive fd tmp =>
    rw [newMessages_quiet (by simp) (by simp), perform]
    rcases eq_or_ne fd d with rfl | hne
    · exact ⟨_, get_modifyClient_self hc _, (List.append_nil _).symm⟩
    · exact ⟨c, (get_modifyClient_of_ne hne.symm _ _).trans hc, (List.append_nil _).symm⟩
  | write fd n =>
    rw [newMessages_quiet (by simp) (by simp), perform, record, Action.writesTo]
    dsimp only
    rcases eq_or_ne fd d with rfl | hne
    · rw [get_modifyClient_self hc, if_pos rfl, sendBuffer_of_get hc]
      exact ⟨_, rfl, (List.take_append_drop _ _).trans (List.append_nil _).symm⟩
    · rw [get_modifyClient_of_ne hne.symm, if_neg hne]
      exact ⟨c, hc, (List.append_nil _).symm⟩
  | frame fd cmd payload =>
    obtain ⟨c₁, rest, hc₁, -⟩ := ha
    have hclient : (perform host (.frame fd cmd payload) s).clients[d]? = _ :=
      clients_frame hc₁ cmd payload d
    rw [hc] at hclient
    refine ⟨_, hclient, ?_⟩
    rw [newMessages_frame ((IntMap.contains_iff _).2 ⟨c₁, hc₁⟩), if_pos hd]
    rfl
  | disconnect fd =>
    have hne : d ≠ fd := fun h ↦ by simp [Action.closes, h] at hcloses
    rw [newMessages_disconnect, if_pos hd, perform, handleClientDisconnect_eq, record,
      IntMap.get_erase_of_ne _ hne, loseSession, queueAll_clients, hc]
    exact ⟨_, rfl, rfl⟩

variable (host s) in
/-- A connection that is closed is neither written to nor queued anything. -/
theorem nothing_of_closes {a : Action} {d : Fd} (h : a.closes d = true) :
    a.writesTo d s = [] ∧ newMessages d s (perform host a s) = [] := by
  cases a with
  | disconnect fd =>
    obtain rfl : fd = d := eq_of_beq h
    refine ⟨rfl, ?_⟩
    rw [newMessages_disconnect, addressedTo_deliveries, if_pos rfl, ite_self]
  | _ => cases h

end Server

/-! ### What a mail says -/

/-- The message that a mail carries: the answer that queued it has it for this connection. -/
structure Mail.Says (host : ℕ → Host) (fd : Fd) (x : Mail) (m : Msg) : Prop where
  reachable : Reachable host x.before
  answer : ∃ a, Serves (host x.before.served) x.cause.fd x.cause.request.2 x.before.data
    x.cause.request.1 a ∧ m ∈ a.messagesTo x.cause.fd fd
  bytes : x.bytes = m.bytes

namespace Mail

variable {host : ℕ → Host} {fd : Fd} {x : Mail} {m : Msg}

theorem Says.frame (h : x.Says host fd m) : x.frame = (m.code.code, m.body.bytes) := by
  have hbody : m.bytes.drop headerSize = m.body.bytes := List.drop_left' rfl
  rw [Mail.frame, h.bytes, headerCode_bytes, hbody]

theorem Says.fits (h : x.Says host fd m) : m.Fits := by
  obtain ⟨a, hserves, hm⟩ := h.answer
  exact h.reachable.fits_of_mem_msgs hserves (mem_msgs_of_mem_messagesTo hm)

end Mail

/-! ### Calls and mail -/

/-- **Which calls a client made for which message**: the frames handled are the first of the mail,
and for each of them the calls made while it was decoded, prints apart, are some of which `P` holds.
Before the first frame there are only prints. -/
structure Client.Tells (P : ℕ → Mail → List Callback → Prop) (mail : List Mail) (c : Client) :
    Prop where
  le : ∀ e ∈ c.made, e.1 ≤ c.handled.length
  early : ∀ k, (0, k) ∈ c.made → ∃ s, k = .output s
  calls : ∀ j < c.handled.length, ∃ x calls, mail[j]? = some x ∧ c.handled[j]? = some x.frame ∧
    P j x calls ∧ ∀ k, (∀ s, k ≠ .output s) → ((j + 1, k) ∈ c.made ↔ k ∈ calls)

namespace Client

variable {P : ℕ → Mail → List Callback → Prop} {mail : List Mail} {c c' : Client}

theorem tells_init : Client.init.Tells P mail :=
  ⟨fun _ he ↦ absurd he List.not_mem_nil, fun _ hk ↦ absurd hk List.not_mem_nil,
    fun j hj ↦ absurd hj (Nat.not_lt_zero j)⟩

theorem Tells.append (h : c.Tells P mail) (l : List Mail) : c.Tells P (mail ++ l) := by
  refine ⟨h.le, h.early, fun j hj ↦ ?_⟩
  obtain ⟨x, calls, hx, hrest⟩ := h.calls j hj
  exact ⟨x, calls, getElem?_of_prefix (List.prefix_append _ _) hx, hrest⟩

theorem Tells.imp {Q : ℕ → Mail → List Callback → Prop} (h : c.Tells P mail)
    (hPQ : ∀ j < c.handled.length, ∀ x calls, P j x calls → Q j x calls) : c.Tells Q mail := by
  refine ⟨h.le, h.early, fun j hj ↦ ?_⟩
  obtain ⟨x, calls, hx, hframe, hP, hcalls⟩ := h.calls j hj
  exact ⟨x, calls, hx, hframe, hPQ j hj x calls hP, hcalls⟩

/-- The receive buffer does not matter. -/
theorem Tells.recvBuf (h : c.Tells P mail) (buf : List UInt8) :
    Tells P mail { c with recvBuf := buf } := ⟨h.le, h.early, h.calls⟩

theorem Tells.quiet (h : c.Tells P mail) (hquiet : Quiet c c') : c'.Tells P mail := by
  obtain ⟨lines, hlines⟩ := hquiet.made
  have hline {e : ℕ × Callback} (he : e ∈ lines.map fun s ↦ (c.handled.length, .output s)) :
      e.1 = c.handled.length ∧ ∃ s, e.2 = .output s := by
    obtain ⟨s, -, rfl⟩ := List.mem_map.1 he
    exact ⟨rfl, s, rfl⟩
  refine ⟨fun e he ↦ ?_, fun k hk ↦ ?_, fun j hj ↦ ?_⟩
  · rw [hquiet.handled]
    rw [hlines] at he
    exact (List.mem_append.1 he).elim (h.le e) fun he ↦ (hline he).1.le
  · rw [hlines] at hk
    exact (List.mem_append.1 hk).elim (h.early k) fun hk ↦ (hline hk).2
  · rw [hquiet.handled] at hj ⊢
    obtain ⟨x, calls, hx, hframe, hP, hcalls⟩ := h.calls j hj
    refine ⟨x, calls, hx, hframe, hP, fun k hk ↦ ?_⟩
    rw [hlines, List.mem_append, ← hcalls k hk]
    refine or_iff_left fun he ↦ ?_
    obtain ⟨s, hs⟩ := (hline he).2
    exact hk s hs

/-- A call that is no print was made for one of the messages. -/
theorem Tells.exists_mail (h : c.Tells P mail) {n : ℕ} {k : Callback} (he : (n, k) ∈ c.made)
    (hk : ∀ s, k ≠ .output s) : ∃ j x calls, n = j + 1 ∧ mail[j]? = some x ∧
      c.handled[j]? = some x.frame ∧ P j x calls ∧ k ∈ calls := by
  have hle := h.le _ he
  cases n with
  | zero =>
    obtain ⟨s, hs⟩ := h.early k he
    exact absurd hs (hk s)
  | succ j =>
    obtain ⟨x, calls, hx, hframe, hP, hcalls⟩ := h.calls j hle
    exact ⟨j, x, calls, rfl, hx, hframe, hP, (hcalls k hk).1 he⟩

/-- **One message**: its calls are those that the client has to make for it. -/
theorem Tells.handleResponse (h : c.Tells P mail) {host : ℕ → Host} {fd : Fd} {x : Mail} {m : Msg}
    (hx : mail[c.handled.length]? = some x) (hcarries : x.Says host fd m)
    (hlen : m.body.bytes.length < 2 ^ 32) (hP : P c.handled.length x (m.calls c)) :
    (c.handleResponse m.code.code m.body.bytes).Tells P mail := by
  have hmade := made_of_response (hcarries.fits.handleResponse (m.body.count_lt hlen) c)
  have hhandled := (handled_handleResponse m.code.code m.body.bytes c).1
  have hnew {n : ℕ} {k : Callback} :
      (n, k) ∈ (c.handleResponse m.code.code m.body.bytes).made ↔
        (n, k) ∈ c.made ∨ n = c.handled.length + 1 ∧ k ∈ m.calls c := by
    rw [hmade, List.mem_append, List.mem_map]
    refine or_congr_right ⟨?_, ?_⟩
    · rintro ⟨k, hk, heq⟩
      obtain ⟨rfl, rfl⟩ := Prod.mk.inj heq
      exact ⟨rfl, hk⟩
    · rintro ⟨rfl, hk⟩
      exact ⟨k, hk, rfl⟩
  have hlength : (c.handleResponse m.code.code m.body.bytes).handled.length =
      c.handled.length + 1 := by rw [hhandled, List.length_append, List.length_singleton]
  refine ⟨fun e he ↦ ?_, fun k hk ↦ ?_, fun j hj ↦ ?_⟩
  · rw [hlength]
    rcases hnew.1 he with he | ⟨hn, -⟩
    · exact (h.le e he).trans (Nat.le_succ _)
    · exact hn.le
  · rcases hnew.1 hk with hk | ⟨hn, -⟩
    · exact h.early k hk
    · cases hn
  · rw [hlength] at hj
    rcases Nat.lt_succ_iff_lt_or_eq.1 hj with hj | rfl
    · obtain ⟨y, calls, hy, hframe, hPy, hcalls⟩ := h.calls j hj
      refine ⟨y, calls, hy, ?_, hPy, fun k hk ↦ ?_⟩
      · rw [hhandled]
        exact getElem?_of_prefix (List.prefix_append _ _) hframe
      · rw [← hcalls k hk, hnew]
        exact or_iff_left fun hn ↦ hj.ne (Nat.succ.inj hn.1)
    · refine ⟨x, m.calls c, hx, ?_, hP, fun k hk ↦ ?_⟩
      · rw [hhandled, List.getElem?_concat_length, hcarries.frame]
      -- a call with the number of this frame is one of those just made
      · rw [hnew]
        refine (or_iff_right fun he ↦ ?_).trans (and_iff_right rfl)
        exact absurd (h.le _ he) (Nat.not_succ_le_self _)

/-- **The receive loop** makes the calls for the next messages of the mail, one message after the
other. -/
theorem Tells.processRecvLoop {host : ℕ → Host} {fd : Fd} {n : ℕ} (h : c.Tells P mail)
    (hcarries : ∀ x ∈ mail, ∃ m, x.Says host fd m)
    (hlink : ∃ buf wire,
      Link.Intact clientCodec ⟨mail.map Mail.frame, buf, wire, c.recvBuf, c.handled⟩)
    (hP : ∀ j x, c.handled.length ≤ j →
      j < c.handled.length + (clientCodec.parse c.recvBuf).frames.length → mail[j]? = some x →
      ∀ m, x.Says host fd m → ∀ c', c'.useTeamUuid = c.useTeamUuid → P j x (m.calls c')) :
    (c.processRecvLoop n).Tells P mail := by
  induction n generalizing c with
  | zero => exact h
  | succ n ih =>
    rw [processRecvLoop_succ]
    rcases hscan : clientCodec.scan c.recvBuf with - | - | ⟨f, rest⟩
    · exact h
    · exact h
    obtain ⟨buf, wire, hintact⟩ := hlink
    -- the frame is the next message of the mail
    obtain ⟨x, hx, rfl⟩ : ∃ x, mail[c.handled.length]? = some x ∧ x.frame = f := by
      have hget : (mail.map Mail.frame)[c.handled.length]? = some f := hintact.next_queued hscan
      rw [List.getElem?_map] at hget
      exact Option.map_eq_some_iff.1 hget
    obtain ⟨m, hm⟩ := hcarries x (List.mem_of_getElem? hx)
    have hlen : m.body.bytes.length < 2 ^ 32 := by
      have hvalid := (clientCodec.enc_of_scan hscan).1
      rw [hm.frame] at hvalid
      exact Nat.lt_succ_of_le hvalid
    rw [clientCodec.parse_of_frame hscan, List.length_cons] at hP
    obtain ⟨running, uuid, calls, heq⟩ :=
      handleResponse_eq x.frame.1 x.frame.2 { c with recvBuf := rest }
    obtain ⟨hhandled, hbuf⟩ := handled_handleResponse x.frame.1 x.frame.2 { c with recvBuf := rest }
    refine @ih (Client.handleResponse x.frame.1 x.frame.2 { c with recvBuf := rest }) ?_
      ⟨buf, wire, ?_⟩ ?_
    · rw [hm.frame]
      exact (h.recvBuf rest).handleResponse hx hm hlen
        (hP _ x (Nat.le_refl _) (Nat.lt_add_of_pos_right (Nat.succ_pos _)) hx m hm _ rfl)
    · rw [hhandled, hbuf]
      exact hintact.step (.handle hscan)
    · intro j y hj hlt hy m' hm' c' hc'
      rw [hhandled, List.length_append, List.length_singleton] at hj
      rw [hhandled, hbuf, List.length_append, List.length_singleton] at hlt
      have hlt : j < c.handled.length + 1 + (clientCodec.parse rest).frames.length := hlt
      refine hP j y (Nat.le_of_succ_le hj) (by omega) hy m' hm' c' ?_
      rw [hc', heq]

end Client

/-! ### The links of a client -/

/-- The request of an action is not for too long a list. -/
def Server.Action.ListsFit (s : Server) (a : Action) : Prop :=
  MyTeams.ListsFit a.fd a.request.2 s.data a.request.1

instance (s : Server) (a : Action) : Decidable (a.ListsFit s) :=
  inferInstanceAs (Decidable (MyTeams.ListsFit a.fd a.request.2 s.data a.request.1))

/-- **The links of a client**: upwards that of the system which it makes with the server; its mail
are messages, queued by actions that `A` allows; and downwards no byte of the mail is lost as long
as the server has the connection. -/
structure Peer.Linked (host : ℕ → Host) (A : Server → Action → Prop) (s : Server) (p : Peer) :
    Prop where
  up : System.Linked host p.fd (p.view s)
  mail : ∀ x ∈ p.mail, A x.before x.cause ∧ ∃ m, x.Says host p.fd m
  down : ∃ buf, Link.Intact clientCodec
      ⟨p.mail.map Mail.frame, buf, p.down, p.client.recvBuf, p.client.handled⟩ ∧
    (p.connected = true → buf = s.sendBuffer p.fd)

theorem Mail.Says.enc_frame {host : ℕ → Host} {fd : Fd} {x : Mail} {m : Msg}
    (h : x.Says host fd m) :
    clientCodec.enc x.frame = x.bytes := by
  rw [h.frame, h.bytes]
  rfl

namespace Peer

variable {host : ℕ → Host} {io : ℕ → Option ℕ} {A : Server → Action → Prop} {s : Server} {p : Peer}

theorem linked_start {fd : Fd} (h : Reachable host s) (hfd : s.Enabled (.accept fd)) :
    (start fd).Linked host A (perform host (.accept fd) s) := by
  have hclient : (perform host (.accept fd) s).clients[fd]? = some ⟨fd, [], []⟩ :=
    IntMap.get_insert_self _ _ _
  exact ⟨System.linked_start h hfd, fun _ hx ↦ absurd hx List.not_mem_nil, [], Link.intact_idle,
    fun _ ↦ (sendBuffer_of_get hclient).symm⟩

/-- What a client does without handling a frame. -/
theorem Linked.quiet (h : p.Linked host A s) {c : Client} {up : List UInt8}
    (hup : System.Linked host p.fd ⟨c, up, p.down, s, p.connected⟩)
    (hquiet : Client.Quiet p.client c) : Linked host A s { p with client := c, up := up } := by
  obtain ⟨buf, hintact, hbuf⟩ := h.down
  rw [← hquiet.recvBuf, ← hquiet.handled] at hintact
  exact ⟨hup, h.mail, buf, hintact, hbuf⟩

theorem Linked.type (h : p.Linked host A s) (buf : Str) : (p.type io buf).Linked host A s :=
  h.quiet (h.up.move (m := .type buf) trivial) (Client.quiet_handleStdin buf _)

theorem Linked.flush (h : p.Linked host A s) : (p.flush io).Linked host A s :=
  h.quiet (h.up.move (m := .flush) trivial) (Client.quiet_handleServerWrite _)

theorem Linked.read (h : p.Linked host A s) (n : ℕ) : (p.read n).Linked host A s := by
  have hup := @System.Linked.move host (fun _ ↦ none) _ _ h.up (.read n) trivial
  refine ⟨hup, h.mail, ?_⟩
  obtain ⟨buf, hintact, hbuf⟩ := h.down
  have hread := hintact.step (.read (List.take_append_drop n p.down).symm)
  refine ⟨buf, ?_, hbuf⟩
  show Link.Intact clientCodec ⟨_, buf, p.down.drop n, (p.client.handleServerRead _).recvBuf,
    (p.client.handleServerRead _).handled⟩
  rcases eq_or_ne (p.down.take n) [] with hempty | hne
  · rw [hempty] at hread ⊢
    have hprint := Client.quiet_print (text "Server disconnected.\n") p.client
    have hrecv : (p.client.handleServerRead []).recvBuf = p.client.recvBuf ++ [] :=
      (List.append_nil _).symm
    rw [hrecv]
    exact hprint.handled.symm ▸ hread
  · obtain ⟨hhandled, hrest, -⟩ := Client.handleServerRead_eq hne p.client
    rw [hhandled]
    exact hread.steps (Link.steps_of_parse hrest.symm)

/-- An action of the server and the link upwards. -/
theorem up_serve (h : System.Linked host p.fd (p.view s)) {a : Action} (ha : s.Enabled a)
    (hread : p.connected = true → a.readsFrom p.fd <+: p.up) :
    System.Linked host p.fd ((p.serve host s a).view (perform host a s)) := by
  obtain ⟨fd, client, up, down, connected, mail⟩ := p
  cases connected with
  | false =>
    exact ⟨h.reachable.step ha, h.coherent, fun hconnected ↦ absurd hconnected Bool.false_ne_true⟩
  | true => exact @System.Linked.act host (fun _ ↦ none) _ _ h a ⟨rfl, ha, hread rfl⟩

/-- **One action of the server**: what it queues for the client are messages, and together with what
it writes they are conserved. -/
theorem Linked.serve (h : p.Linked host A s) {a : Action} (ha : s.Enabled a)
    (hread : p.connected = true → a.readsFrom p.fd <+: p.up) (hA : A s a) (hfit : a.ListsFit s) :
    (p.serve host s a).Linked host A (perform host a s) := by
  have hup := up_serve h.up ha hread
  obtain ⟨fd, client, up, down, connected, mail⟩ := p
  cases connected with
  | false =>
    exact ⟨hup, h.mail, h.down.imp fun buf hbuf ↦ ⟨hbuf.1, fun h ↦ absurd h Bool.false_ne_true⟩⟩
  | true =>
    have hreachable : Reachable host s := h.up.reachable
    have henabled : System.Enabled fd ⟨client, up, down, s, true⟩ (.act a) :=
      ⟨rfl, ha, hread rfl⟩
    have hne : a ≠ .accept fd := h.up.ne_accept henabled
    obtain ⟨c, hc, -⟩ := h.up.link rfl
    obtain ⟨buf, hintact, hbuf⟩ := h.down
    have hnew : ∀ x ∈ mailOf host s a fd, (∃ m, x.Says host fd m) ∧ x.before = s ∧ x.cause = a ∧
        clientCodec.Valid x.frame ∧ clientCodec.enc x.frame = x.bytes := by
      intro x hx
      obtain ⟨b, hb, rfl⟩ := List.mem_map.1 hx
      obtain ⟨answer, hserves, m, hm, hbytes⟩ :=
        exists_answer_of_newMessages hreachable.sessionsWf ha hb
      have hcarries : Mail.Says host fd ⟨b, a, s⟩ m := ⟨hreachable, ⟨answer, hserves, hm⟩, hbytes⟩
      refine ⟨⟨m, hcarries⟩, rfl, rfl, ?_, hcarries.enc_frame⟩
      rw [hcarries.frame]
      exact Nat.le_of_lt_succ (hserves.length_lt hfit m (mem_msgs_of_mem_messagesTo hm))
    have hmail : ∀ x ∈ mail ++ mailOf host s a fd, A x.before x.cause ∧ ∃ m, x.Says host fd m := by
      intro x hx
      rcases List.mem_append.1 hx with hx | hx
      · exact h.mail x hx
      · obtain ⟨hcarries, hbefore, hcause, -⟩ := hnew x hx
        exact ⟨by rw [hbefore, hcause]; exact hA, hcarries⟩
    refine ⟨hup, hmail, ?_⟩
    show ∃ buf', Link.Intact clientCodec ⟨(mail ++ mailOf host s a fd).map Mail.frame, buf',
      down ++ a.writesTo fd s, _, _⟩ ∧
        ((!a.closes fd) = true → buf' = (perform host a s).sendBuffer fd)
    rw [List.map_append]
    cases hcloses : a.closes fd with
    | true =>
      obtain ⟨hwrites, hqueues⟩ := nothing_of_closes host s hcloses
      rw [hwrites, mailOf, hqueues, List.map_nil, List.map_nil, List.append_nil, List.append_nil]
      exact ⟨buf, hintact, fun h ↦ absurd h Bool.false_ne_true⟩
    | false =>
      obtain ⟨c', hc', hbytes⟩ := writesTo_append_sendBuffer ha hc hne hcloses
      refine ⟨c'.sendBuffer, hintact.send ?_ ?_, fun _ ↦ (sendBuffer_of_get hc').symm⟩
      · intro f hf
        obtain ⟨x, hx, rfl⟩ := List.mem_map.1 hf
        exact (hnew x hx).2.2.2.1
      · have henc : ((mailOf host s a fd).map Mail.frame).map clientCodec.enc =
            newMessages fd s (perform host a s) := by
          rw [List.map_map]
          refine (List.map_congr_left (g := Mail.bytes) fun x hx ↦ (hnew x hx).2.2.2.2).trans ?_
          rw [mailOf, List.map_map]
          exact List.map_id _
        rw [henc, hbytes, hbuf rfl]
        exact congrArg (· ++ _) (sendBuffer_of_get hc).symm

theorem mem_of_mem_arriving {n : ℕ} {x : Mail} (h : x ∈ p.arriving n) : x ∈ p.mail := by
  rw [arriving] at h
  split_ifs at h
  · cases h
  · exact List.mem_of_mem_drop (List.mem_of_mem_take h)

theorem mem_arriving {n j : ℕ} {x : Mail} (hne : p.down.take n ≠ [])
    (hj : p.client.handled.length ≤ j)
    (hlt : j < p.client.handled.length +
      (clientCodec.parse (p.client.recvBuf ++ p.down.take n)).frames.length)
    (hx : p.mail[j]? = some x) : x ∈ p.arriving n := by
  rw [arriving, if_neg hne]
  refine List.mem_of_getElem? (i := j - p.client.handled.length) ?_
  rw [List.getElem?_take_of_lt (by omega), List.getElem?_drop, Nat.add_sub_cancel' hj, hx]

/-- A message that a read completes is handled in it. -/
theorem exists_of_mem_arriving {n : ℕ} {x : Mail} (h : x ∈ p.arriving n) :
    ∃ j, p.client.handled.length ≤ j ∧ j < (p.read n).client.handled.length ∧
      p.mail[j]? = some x := by
  rw [arriving] at h
  split_ifs at h with hempty
  · cases h
  obtain ⟨i, hi⟩ := List.mem_iff_getElem?.1 h
  rw [List.getElem?_take, List.getElem?_drop] at hi
  split_ifs at hi with hlt
  refine ⟨p.client.handled.length + i, Nat.le_add_right _ _, ?_, hi⟩
  show _ < (p.client.handleServerRead (p.down.take n)).handled.length
  rw [(Client.handleServerRead_eq hempty p.client).1, List.length_append]
  exact Nat.add_lt_add_left hlt _

/-- **One read** makes the calls for the messages that it completes. -/
theorem Linked.tells_read (h : p.Linked host A s) {P : ℕ → Mail → List Callback → Prop} {n : ℕ}
    (htells : p.client.Tells P p.mail)
    (hP : ∀ j, p.client.handled.length ≤ j → ∀ x ∈ p.arriving n, ∀ m, x.Says host p.fd m →
      ∀ c : Client, c.useTeamUuid = p.client.useTeamUuid → P j x (m.calls c)) :
    (p.client.handleServerRead (p.down.take n)).Tells P p.mail := by
  obtain ⟨buf, hintact, -⟩ := h.down
  have hread := hintact.step (.read (List.take_append_drop n p.down).symm)
  rcases eq_or_ne (p.down.take n) [] with hempty | hne
  · have hprint := Client.quiet_print (text "Server disconnected.\n") p.client
    rw [hempty]
    exact htells.quiet ⟨hprint.recvBuf, hprint.handled, hprint.made⟩
  · have hsome : ¬ (p.down.take n).isEmpty = true := by simpa using hne
    rw [Client.handleServerRead, if_neg hsome, Client.processRecvBuffer]
    exact (htells.recvBuf _).processRecvLoop (fun x hx ↦ (h.mail x hx).2)
      ⟨buf, p.down.drop n, hread⟩ fun j x hj hlt hx ↦ hP j hj x (mem_arriving hne hj hlt hx)

end Peer

/-! ### Runs -/

namespace Net

variable {host : ℕ → Host} {io : ℕ → Option ℕ} {A : Server → Action → Prop}
  {R : Peer → ℕ → Prop} {N : Net}

/-- The moves in which the server acts under the condition `A`, and the clients read under the
condition `R`. -/
def Allowed (A : Server → Action → Prop) (R : Peer → ℕ → Prop) (N : Net) : NetMove → Prop
  | .act a => A N.server a
  | .read i n => ∀ p ∈ N.peers[i]?, R p n
  | _ => True

/-- The server's state can occur, every client is linked to it, and `P` holds of its calls. -/
structure Sound (host : ℕ → Host) (A : Server → Action → Prop)
    (P : Fd → Mail → List Callback → Prop) (N : Net) : Prop where
  reachable : Reachable host N.server
  linked : ∀ p ∈ N.peers, p.Linked host A N.server
  tells : ∀ p ∈ N.peers, p.client.Tells (fun _ ↦ P p.fd) p.mail

theorem sound_start {P : Fd → Mail → List Callback → Prop} : start.Sound host A P :=
  ⟨.init, fun _ hp ↦ absurd hp List.not_mem_nil, fun _ hp ↦ absurd hp List.not_mem_nil⟩

/-- What `P` has to say of single messages for `Sound` to be kept: it holds of the calls for every
message that a read completes. -/
def Pointwise (host : ℕ → Host) (A : Server → Action → Prop) (R : Peer → ℕ → Prop)
    (P : Fd → Mail → List Callback → Prop) : Prop :=
  ∀ (p : Peer) (n : ℕ), R p n → ∀ x ∈ p.arriving n, A x.before x.cause → ∀ m, x.Says host p.fd m →
    ∀ c : Client, c.useTeamUuid = p.client.useTeamUuid → P p.fd x (m.calls c)

/-- **Every move** keeps a network sound. -/
theorem Sound.move {P : Fd → Mail → List Callback → Prop} (h : N.Sound host A P)
    (hA : ∀ s a, A s a → a.ListsFit s) (hP : Pointwise host A R P) {m : NetMove}
    (hm : N.Enabled m) (hallowed : N.Allowed A R m) : (N.move host io m).Sound host A P := by
  cases m with
  | type i buf =>
    refine ⟨h.reachable, ?_, ?_⟩
    · exact forall_mem_modify h.linked fun p hp ↦ (h.linked p (List.mem_of_getElem? hp)).type buf
    · exact forall_mem_modify h.tells fun p hp ↦
        (h.tells p (List.mem_of_getElem? hp)).quiet (Client.quiet_handleStdin buf _)
  | flush i =>
    refine ⟨h.reachable, ?_, ?_⟩
    · exact forall_mem_modify h.linked fun p hp ↦ (h.linked p (List.mem_of_getElem? hp)).flush
    · exact forall_mem_modify h.tells fun p hp ↦
        (h.tells p (List.mem_of_getElem? hp)).quiet (Client.quiet_handleServerWrite _)
  | read i n =>
    refine ⟨h.reachable, ?_, ?_⟩
    · exact forall_mem_modify h.linked fun p hp ↦ (h.linked p (List.mem_of_getElem? hp)).read n
    · refine forall_mem_modify h.tells fun p hp ↦ ?_
      have hmem := List.mem_of_getElem? hp
      have hlinked := h.linked p hmem
      refine hlinked.tells_read (h.tells p hmem) fun _ _ x hx m hcarries ↦ ?_
      exact hP p n (hallowed p hp) x hx (hlinked.mail x (Peer.mem_of_mem_arriving hx)).1 m hcarries
  | act a =>
    have hlinked : ∀ p ∈ N.peers, (p.serve host N.server a).Linked host A
        (perform host a N.server) :=
      fun p hp ↦ (h.linked p hp).serve hm.1 (hm.2 p hp) hallowed (hA _ _ hallowed)
    have htells : ∀ p ∈ N.peers, (p.serve host N.server a).client.Tells
        (fun _ ↦ P (p.serve host N.server a).fd) (p.serve host N.server a).mail := by
      intro p hp
      rw [Peer.serve]
      split_ifs
      · exact (h.tells p hp).append _
      · exact h.tells p hp
    have hnew : ∀ p ∈ accepted a, p.Linked host A (perform host a N.server) ∧
        p.client.Tells (fun _ ↦ P p.fd) p.mail := by
      intro p hp
      obtain ⟨fd, rfl, rfl⟩ := mem_accepted.1 hp
      exact ⟨Peer.linked_start h.reachable hm.1, Client.tells_init⟩
    refine ⟨h.reachable.step hm.1, ?_, ?_⟩
    · intro p hp
      rcases List.mem_append.1 hp with hp | hp
      · obtain ⟨q, hq, rfl⟩ := List.mem_map.1 hp
        exact hlinked q hq
      · exact (hnew p hp).1
    · intro p hp
      rcases List.mem_append.1 hp with hp | hp
      · obtain ⟨q, hq, rfl⟩ := List.mem_map.1 hp
        exact htells q hq
      · exact (hnew p hp).2

/-- **From messages to runs**: what holds of the calls for every message that a read completes holds
of every call that a client makes in a run. -/
theorem sound_of_steps {P : Fd → Mail → List Callback → Prop} (hA : ∀ s a, A s a → a.ListsFit s)
    (hP : Pointwise host A R P) (hrun : Steps host io (Allowed A R) start N) :
    N.Sound host A P := by
  induction hrun with
  | refl => exact sound_start
  | tail _ hstep ih =>
    obtain ⟨m, hm, hallowed, rfl⟩ := hstep
    exact ih.move hA hP hm hallowed

/-- Where every list fits, what a client calls is what some message says that it was sent. -/
theorem sound_of_fitting (hrun : Steps host io (Allowed Action.ListsFit fun _ _ ↦ True) start N) :
    N.Sound host Action.ListsFit fun fd x calls ↦ ∃ m c, x.Says host fd m ∧ calls = m.calls c :=
  sound_of_steps (fun _ _ h ↦ h) (fun _ _ _ _ _ _ m hm c _ ↦ ⟨m, c, hm, rfl⟩) hrun

/-! ### Concrete runs -/

instance (N : Net) (m : NetMove) : Decidable (N.Enabled m) :=
  match m with
  | .type _ _ | .flush _ | .read _ _ => instDecidableTrue
  | .act a => inferInstanceAs (Decidable (N.server.Enabled a ∧
      ∀ p ∈ N.peers, p.connected → a.readsFrom p.fd <+: p.up))

instance [∀ s a, Decidable (A s a)] [∀ p n, Decidable (R p n)] (N : Net) (m : NetMove) :
    Decidable (N.Allowed A R m) :=
  match m with
  | .type _ _ | .flush _ => instDecidableTrue
  | .read i n => inferInstanceAs (Decidable (∀ p ∈ N.peers[i]?, R p n))
  | .act a => inferInstanceAs (Decidable (A N.server a))

/-- The network after a list of moves. -/
def execute (host : ℕ → Host) (io : ℕ → Option ℕ) (ms : List NetMove) (N : Net) : Net :=
  ms.foldl (fun N m ↦ N.move host io m) N

/-- Each move of a list is possible, and let through, when its turn comes. -/
def Executable (host : ℕ → Host) (io : ℕ → Option ℕ) (allowed : Net → NetMove → Prop) :
    List NetMove → Net → Prop
  | [], _ => True
  | m :: ms, N => N.Enabled m ∧ allowed N m ∧ Executable host io allowed ms (N.move host io m)

instance (host : ℕ → Host) (io : ℕ → Option ℕ) (allowed : Net → NetMove → Prop)
    [∀ N m, Decidable (allowed N m)] :
    ∀ (ms : List NetMove) (N : Net), Decidable (Executable host io allowed ms N)
  | [], _ => instDecidableTrue
  | m :: ms, N =>
    have := instDecidableExecutable host io allowed ms (N.move host io m)
    inferInstanceAs (Decidable (N.Enabled m ∧ allowed N m ∧
      Executable host io allowed ms (N.move host io m)))

theorem steps_execute {allowed : Net → NetMove → Prop} {ms : List NetMove}
    (h : Executable host io allowed ms N) : Steps host io allowed N (execute host io ms N) := by
  induction ms generalizing N with
  | nil => exact .refl
  | cons m ms ih => exact .head ⟨m, h.1, h.2.1, rfl⟩ (ih h.2.2)

/-- A line is typed into the client with index `i`, and the server receives and dispatches its
packet. -/
def command (i : ℕ) (fd : Fd) (line : Str) (cmd : Command) (payload : List UInt8) : List NetMove :=
  .type i line :: (request fd cmd payload).map .act

/-- The server writes up to `n` bytes to the client, which reads them. -/
def deliver (i : ℕ) (fd : Fd) (n : ℕ) : List NetMove := [.act (.write fd n), .read i n]

end Net

end MyTeams
