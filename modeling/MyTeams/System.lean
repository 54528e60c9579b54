import MyTeams.Server.Answers
import MyTeams.Transport
import MyTeams.UseContext

/-!
# One client and the server

The system made of one CLI client, the server, and the two byte channels between them, while other
connections do what they like. Its moves are what is typed, what the two ends read and write, and
every action of the server.

The frame that the server takes is always the client's next packet (`Linked.next`). Whether it is
read in the context it was packed in depends on the frames before it: `context_agreement` says which
runs keep the two contexts together, and `not_createsWherePacked` is one that does not.
-/

namespace MyTeams

open FrameStream Server

/-! ### The system -/

/-- What an action reads from the connection. -/
def Server.Action.readsFrom (fd : Fd) : Action → List UInt8
  | .receive d tmp => if d = fd then tmp else []
  | _ => []

/-- What an action writes to the connection. -/
def Server.Action.writesTo (fd : Fd) (s : Server) : Action → List UInt8
  | .write d n => if d = fd then (s.sendBuffer fd).take n else []
  | _ => []

/-- Whether an action closes the connection. -/
def Server.Action.closes (fd : Fd) : Action → Bool
  | .disconnect d => d == fd
  | _ => false

/-- A client, the server, and the channels between them. -/
structure System where
  client : Client
  /-- From the client to the server. -/
  up : List UInt8
  /-- From the server to the client. -/
  down : List UInt8
  server : Server
  /-- Whether the server still has the connection. -/
  connected : Bool

/-- What can happen next. -/
inductive Move
  /-- Something is typed. -/
  | type (buf : Str)
  /-- The client writes again. -/
  | flush
  /-- The client reads up to `n` bytes; reading nothing is the end of the stream. -/
  | read (n : ℕ)
  /-- The server acts, for this connection or for another. -/
  | act (a : Action)

namespace System

variable (host : ℕ → Host) (io : ℕ → Option ℕ) (fd : Fd)

/-- The system just after the server has accepted the client's connection. -/
def start (s : Server) : System := ⟨Client.init, [], [], perform host (.accept fd) s, true⟩

/-- When a move can happen. What the server reads from the connection is the front of the channel.
When the server has closed the connection, what it does next is no concern of this system. -/
def Enabled (σ : System) : Move → Prop
  | .act a => σ.connected = true ∧ σ.server.Enabled a ∧ a.readsFrom fd <+: σ.up
  | _ => True

/-- The effect of a move. -/
def move (m : Move) (σ : System) : System :=
  match m with
  | .type buf =>
    { σ with
      client := σ.client.handleStdin io buf
      up := σ.up ++ σ.client.written (σ.client.handleStdin io buf) }
  | .flush =>
    { σ with
      client := σ.client.handleServerWrite io
      up := σ.up ++ σ.client.written (σ.client.handleServerWrite io) }
  | .read n => { σ with client := σ.client.handleServerRead (σ.down.take n), down := σ.down.drop n }
  | .act a =>
    { σ with
      up := σ.up.drop (a.readsFrom fd).length
      down := σ.down ++ a.writesTo fd σ.server
      server := perform host a σ.server
      connected := σ.connected && !a.closes fd }

/-- One move of those that `allowed` lets through. -/
def Step (allowed : System → Move → Prop) (σ σ' : System) : Prop :=
  ∃ m, σ.Enabled fd m ∧ allowed σ m ∧ σ' = σ.move host io fd m

/-- A run. -/
abbrev Steps (allowed : System → Move → Prop) : System → System → Prop :=
  Relation.ReflTransGen (Step host io fd allowed)

/-- The frames of this client that the server has dispatched. -/
def served (σ : System) : List Frame :=
  (requestsOn fd (sinceAccept fd σ.server.trace)).map Prod.fst

variable {host io fd} {σ : System}

/-! ### The link to the server -/

/-- **The upward link**: the server's state can occur, the client's context is a function of its
packets, and as long as the server has the connection no byte of them is lost. -/
structure Linked (host : ℕ → Host) (fd : Fd) (σ : System) : Prop where
  reachable : Reachable host σ.server
  coherent : σ.client.Coherent
  link : σ.connected = true → ∃ c, σ.server.clients[fd]? = some c ∧
    Link.Intact serverCodec
      ⟨σ.client.packets, σ.client.sendBuf, σ.up, c.recvBuffer, σ.served fd⟩

theorem linked_start {s : Server} (h : Reachable host s) (hfd : s.Enabled (.accept fd)) :
    Linked host fd (start host fd s) := by
  refine ⟨h.step hfd, Client.coherent_init, fun _ ↦ ⟨⟨fd, [], []⟩, ?_, ?_⟩⟩
  · show (s.clients.insert fd ⟨fd, [], []⟩)[fd]? = _
    rw [IntMap.get_insert_self]
  · have hserved : (start host fd s).served fd = [] := by
      show (requestsOn fd (sinceAccept fd (s.trace ++ [.accepted fd]))).map Prod.fst = []
      rw [sinceAccept_append_accepted, if_pos rfl]
      rfl
    rw [hserved]
    exact Link.intact_idle

/-- A move of the client. -/
theorem Linked.sends (h : Linked host fd σ) {c : Client} (hcoherent : c.Coherent)
    (hsends : Client.Sends σ.client c) :
    Linked host fd { σ with client := c, up := σ.up ++ σ.client.written c } := by
  refine ⟨h.reachable, hcoherent, fun hconnected ↦ ?_⟩
  obtain ⟨s, hs, hintact⟩ := h.link hconnected
  obtain ⟨out, hout⟩ := hsends
  rw [hout.written_eq]
  exact ⟨s, hs, hintact.steps (hout.steps _ _ _)⟩

/-- What an action that does not accept the connection adds to the frames served. -/
theorem served_act {a : Action} (ha : a ≠ .accept fd) :
    (σ.move host io fd (.act a)).served fd =
      σ.served fd ++ (a.requestOn fd σ.server.data).map Prod.fst := by
  obtain ⟨t, ht, hfresh, hrequests⟩ := trace_perform host σ.server a
  show (requestsOn fd (sinceAccept fd (perform host a σ.server).trace)).map Prod.fst = _
  rw [ht, sinceAccept_append (hfresh fd ha), requestsOn_append, hrequests, List.map_append]
  rfl

/-- An open connection is not accepted again. -/
theorem Linked.ne_accept (h : Linked host fd σ) {a : Action} (ha : σ.Enabled fd (.act a)) :
    a ≠ .accept fd := by
  rintro rfl
  obtain ⟨hconnected, hclosed, -⟩ := ha
  obtain ⟨c, hc, -⟩ := h.link hconnected
  have hnone := (h.reachable.registry.of_closed hclosed).1
  rw [hc] at hnone
  cases hnone

/-- Other connections do not read from this one, nor are their requests its own. -/
theorem quiet_of_ne {a : Action} (ha : a.fd ≠ fd) (data : ServerData) :
    a.readsFrom fd = [] ∧ a.requestOn fd data = [] := by
  cases a with
  | receive d tmp => exact ⟨if_neg ha, rfl⟩
  | frame d cmd payload => exact ⟨rfl, if_neg ha⟩
  | _ => exact ⟨rfl, rfl⟩

/-- **One action of the server** is at most one step of the link. -/
theorem Linked.act (h : Linked host fd σ) {a : Action} (ha : σ.Enabled fd (.act a)) :
    Linked host fd (σ.move host io fd (.act a)) := by
  have hne := h.ne_accept ha
  obtain ⟨hconnected, henabled, hread⟩ := ha
  refine ⟨h.reachable.step henabled, h.coherent, fun hstill ↦ ?_⟩
  obtain ⟨c, hc, hintact⟩ := h.link hconnected
  rw [served_act hne]
  show ∃ c', (perform host a σ.server).clients[fd]? = some c' ∧ Link.Intact serverCodec
    ⟨σ.client.packets, σ.client.sendBuf, σ.up.drop (a.readsFrom fd).length, c'.recvBuffer, _⟩
  -- actions on other connections touch neither end of the link
  rcases ne_or_eq a.fd fd with hfd | hfd
  · obtain ⟨hreads, hrequests⟩ := quiet_of_ne hfd σ.server.data
    have hbuf : ((perform host a σ.server).clients[fd]?).map ClientState.recvBuffer =
        some c.recvBuffer := by rw [recvBuffer_of_ne henabled hfd, hc, Option.map_some]
    obtain ⟨c', hc', hsame⟩ := Option.map_eq_some_iff.1 hbuf
    refine ⟨c', hc', ?_⟩
    rw [hreads, hrequests, hsame, List.map_nil, List.append_nil]
    exact hintact
  cases a with
  | accept d => exact absurd (congrArg Action.accept hfd) hne
  | receive d tmp =>
    obtain rfl : d = fd := hfd
    obtain ⟨rest, hup⟩ := hread
    have hreads : (Action.receive d tmp).readsFrom d = tmp := if_pos rfl
    rw [hreads] at hup ⊢
    refine ⟨{ c with recvBuffer := c.recvBuffer ++ tmp }, ?_, ?_⟩
    · rw [perform, get_modifyClient_self hc]
    · have hnext := hintact.step (.read hup.symm)
      rw [← hup, List.drop_left]
      exact (List.append_nil (σ.served d)).symm ▸ hnext
  | frame d cmd payload =>
    obtain rfl : d = fd := hfd
    obtain ⟨c', rest, hc', hscan⟩ := henabled
    obtain rfl := Option.some.inj (hc.symm.trans hc')
    obtain ⟨-, hbuf⟩ := serverCodec.enc_of_scan hscan
    have hlen : (serverCodec.enc (cmd, payload)).length = headerSize + payload.length :=
      length_makeMessage _ _
    have hrest : c.recvBuffer.drop (headerSize + payload.length) = rest := by
      rw [hbuf, List.drop_left' hlen]
    have hclient : (perform host (.frame d cmd payload) σ.server).clients[d]? = _ :=
      clients_frame hc cmd payload d
    rw [hc, Option.map_some, if_pos rfl, hrest] at hclient
    have hrequest : (Action.frame d cmd payload).requestOn d σ.server.data =
        [((cmd, payload), σ.server.data)] := if_pos rfl
    refine ⟨_, hclient, ?_⟩
    rw [hrequest]
    exact hintact.step (.handle hscan)
  | disconnect d =>
    obtain rfl : d = fd := hfd
    simp [move, Action.closes] at hstill
  | write d n =>
    obtain rfl : d = fd := hfd
    refine ⟨{ c with sendBuffer := c.sendBuffer.drop n }, ?_, ?_⟩
    · rw [perform, Server.record, get_modifyClient_self hc]
    · exact (List.append_nil (σ.served d)).symm ▸ hintact

/-- **Every move** keeps the link. -/
theorem Linked.move (h : Linked host fd σ) {m : Move} (hm : σ.Enabled fd m) :
    Linked host fd (σ.move host io fd m) := by
  cases m with
  | type buf => exact h.sends (h.coherent.handleStdin buf) (Client.sends_handleStdin buf _)
  | flush => exact h.sends h.coherent.handleServerWrite Client.sends_handleServerWrite
  | read n =>
    have hreceives := Client.receives_handleServerRead (σ.down.take n) σ.client
    refine ⟨h.reachable, h.coherent.handleServerRead _, fun hconnected ↦ ?_⟩
    obtain ⟨c, hc, hintact⟩ := h.link hconnected
    rw [← hreceives.sendBuf, ← hreceives.packets] at hintact
    exact ⟨c, hc, hintact⟩
  | act a => exact h.act hm

/-- **The frame that the server takes is the next packet of the client**, and its context is a
function of the packets up to it. -/
theorem Linked.next (h : Linked host fd σ) {cmd : UInt16} {payload : List UInt8}
    (ha : σ.Enabled fd (.act (.frame fd cmd payload))) :
    σ.client.packed[(σ.served fd).length]? =
      some ((cmd, payload), useOf (contextOf (σ.served fd)) (cmd, payload)) := by
  obtain ⟨hconnected, ⟨c', rest, hc', hscan⟩, -⟩ := ha
  obtain ⟨c, hc, hintact⟩ := h.link hconnected
  obtain rfl := Option.some.inj (hc.symm.trans hc')
  have hserved : σ.served fd ++ [(cmd, payload)] <+: σ.client.packets :=
    (hintact.step (.handle hscan)).prefix_queued
  have hget : (σ.client.packed.map Prod.fst)[(σ.served fd).length]? = some (cmd, payload) :=
    hintact.next_queued hscan
  rw [List.getElem?_map] at hget
  obtain ⟨⟨f, ctx⟩, hpacked, hf⟩ := Option.map_eq_some_iff.1 hget
  obtain rfl : f = (cmd, payload) := hf
  have htake := List.prefix_iff_eq_take.1 hserved
  rw [List.length_append, List.length_singleton] at htake
  rw [hpacked, h.coherent.packed _ _ _ hpacked, ← htake, contextOf_concat]

/-! ### Agreement -/

/-- A move keeps the two ends together unless it is a frame of this client that does not. -/
def Orderly (fd : Fd) (σ : System) : Move → Prop
  | .act (.frame d cmd payload) => d = fd → ∀ e ∈ σ.client.packed[(σ.served fd).length]?,
    KeepsContext fd σ.server.data (cmd, payload) e.2
  | _ => True

/-- The server interprets the client's frames in the context that the client has. -/
def Agrees (fd : Fd) (σ : System) : Prop :=
  σ.connected = true → AgreesOn fd (contextOf (σ.served fd)) σ.server.data

variable (host io) in
/-- **One frame of this client** keeps the two ends in agreement exactly when it is one that
does. -/
theorem Linked.agreesOn_frame_iff (h : Linked host fd σ) (hagree : σ.Agrees fd) {cmd : UInt16}
    {payload : List UInt8} (ha : σ.Enabled fd (.act (.frame fd cmd payload))) :
    AgreesOn fd (useOf (contextOf (σ.served fd)) (cmd, payload))
        (σ.move host io fd (.act (.frame fd cmd payload))).server.data ↔
      KeepsContext fd σ.server.data (cmd, payload)
        (useOf (contextOf (σ.served fd)) (cmd, payload)) := by
  obtain ⟨a, hserves, hdata, -⟩ :
      Realizes (Serves (host σ.server.served) fd payload σ.server.data _)
        (frameOutcome (host σ.server.served) fd cmd payload σ.server.data) :=
    frameOutcome_realizes h.reachable.sessionsWf
  show AgreesOn fd _ (perform host (.frame fd cmd payload) σ.server).data ↔ _
  rw [perform_frame_data, hdata]
  exact agreesOn_iff_keepsContext hserves (hagree ha.1)

theorem agrees_start {s : Server} (h : Reachable host s) (hfd : s.Enabled (.accept fd)) :
    (start host fd s).Agrees fd := by
  intro _ user hs
  have hnone : s.data.sessions[fd]? = none := (h.registry.of_closed hfd).2.1
  have hsame : s.data.sessions[fd]? = some user := hs
  rw [hnone] at hsame
  cases hsame

/-- **Every orderly move** keeps the two ends in agreement. -/
theorem Agrees.move (hagree : σ.Agrees fd) (h : Linked host fd σ) {m : Move} (hm : σ.Enabled fd m)
    (horderly : σ.Orderly fd m) : (σ.move host io fd m).Agrees fd := by
  cases m with
  | type buf => exact hagree
  | flush => exact hagree
  | read n => exact hagree
  | act a =>
    have hne := h.ne_accept hm
    intro hstill
    rw [served_act hne]
    rcases ne_or_eq a.fd fd with hfd | hfd
    · have hchange : Change a.fd _ σ.server.data _ (perform host a σ.server).data :=
        change_perform h.reachable.sessionsWf a
      intro user hs
      rw [(quiet_of_ne hfd σ.server.data).2, List.map_nil, List.append_nil]
      exact (hchange.contexts_of_ne (Ne.symm hfd)).trans
        (hagree hm.1 user ((hchange.sessions_of_ne (Ne.symm hfd)).symm.trans hs))
    have hquiet (hrequests : a.requestOn fd σ.server.data = [])
        (hdata : (perform host a σ.server).data = σ.server.data) :
        AgreesOn fd (contextOf (σ.served fd ++ (a.requestOn fd σ.server.data).map Prod.fst))
          (perform host a σ.server).data := by
      rw [hrequests, hdata, List.map_nil, List.append_nil]
      exact hagree hm.1
    cases a with
    | accept d => exact absurd (congrArg Action.accept hfd) hne
    | receive d tmp => exact hquiet rfl rfl
    | write d n => exact hquiet rfl rfl
    | disconnect d =>
      obtain rfl : d = fd := hfd
      simp [System.move, Action.closes] at hstill
    | frame d cmd payload =>
      obtain rfl : d = fd := hfd
      have hkeeps := horderly rfl _ (h.next hm)
      rw [Action.requestOn, if_pos rfl, List.map_singleton, contextOf_concat]
      exact (h.agreesOn_frame_iff host io hagree hm).2 hkeeps

/-- **Along every orderly run** the two ends agree. -/
theorem agrees_of_steps {s : Server} (h : Reachable host s) (hfd : s.Enabled (.accept fd))
    (hrun : Steps host io fd (Orderly fd) (start host fd s) σ) :
    Linked host fd σ ∧ σ.Agrees fd := by
  induction hrun with
  | refl => exact ⟨linked_start h hfd, agrees_start h hfd⟩
  | tail _ hstep ih =>
    obtain ⟨m, hm, horderly, rfl⟩ := hstep
    exact ⟨ih.1.move hm, ih.2.move ih.1 hm horderly⟩

/-! ### Concrete runs -/

instance (σ : System) (m : Move) : Decidable (σ.Enabled fd m) :=
  match m with
  | .type _ | .flush | .read _ => inferInstanceAs (Decidable True)
  | .act a => inferInstanceAs
      (Decidable (σ.connected = true ∧ σ.server.Enabled a ∧ a.readsFrom fd <+: σ.up))

/-- The state after a list of moves. -/
def execute (host : ℕ → Host) (io : ℕ → Option ℕ) (fd : Fd) (ms : List Move) (σ : System) :
    System :=
  ms.foldl (fun σ m ↦ σ.move host io fd m) σ

/-- Each move of a list is possible, and let through, when its turn comes. -/
def Executable (host : ℕ → Host) (io : ℕ → Option ℕ) (fd : Fd) (allowed : System → Move → Prop) :
    List Move → System → Prop
  | [], _ => True
  | m :: ms, σ =>
    σ.Enabled fd m ∧ allowed σ m ∧ Executable host io fd allowed ms (σ.move host io fd m)

instance (σ : System) (m : Move) : Decidable (σ.Orderly fd m) :=
  match m with
  | .act (.frame d cmd payload) => inferInstanceAs (Decidable (d = fd →
      ∀ e ∈ σ.client.packed[(σ.served fd).length]?,
        KeepsContext fd σ.server.data (cmd, payload) e.2))
  | .act (.accept _) | .act (.receive _ _) | .act (.disconnect _) | .act (.write _ _) | .type _
  | .flush | .read _ => instDecidableTrue

instance (host : ℕ → Host) (io : ℕ → Option ℕ) (fd : Fd) (allowed : System → Move → Prop)
    [∀ σ m, Decidable (allowed σ m)] :
    ∀ (ms : List Move) (σ : System), Decidable (Executable host io fd allowed ms σ)
  | [], _ => instDecidableTrue
  | m :: ms, σ =>
    have := instDecidableExecutable host io fd allowed ms (σ.move host io fd m)
    inferInstanceAs (Decidable (σ.Enabled fd m ∧ allowed σ m ∧
      Executable host io fd allowed ms (σ.move host io fd m)))

theorem steps_execute {allowed : System → Move → Prop} {ms : List Move}
    (h : Executable host io fd allowed ms σ) :
    Steps host io fd allowed σ (execute host io fd ms σ) := by
  induction ms generalizing σ with
  | nil => exact .refl
  | cons m ms ih => exact .head ⟨m, h.1, h.2.1, rfl⟩ (ih h.2.2)

/-- A line is typed, and the server receives and dispatches its packet. -/
def command (line : Str) (cmd : Command) (payload : List UInt8) : List Move :=
  .type line :: (request 4 cmd payload).map .act

/-- The payload of `/create b c`. -/
def pairPayload : List UInt8 := packFixed (packFixed [] (text "b") 32) (text "c") 255

/-! ### Where creations go -/

/-- A `CMD_CREATE` that the server is about to answer with success is the client's next packet, the
stored context is the one it was packed in, and it creates the kind of resource that this context
calls for, where this context points. -/
def CreatesWherePacked (host : ℕ → Host) (fd : Fd) (σ : System) : Prop :=
  ∀ payload, σ.Enabled fd (.act (.frame fd Command.create.code payload)) →
    ∀ r ∈ [Response.teamCreated, .channelCreated, .threadCreated, .replyCreated],
      (frameOutcome (host σ.server.served) fd Command.create.code payload
        σ.server.data).result.response.code = r.code →
      ∃ user ctx,
        σ.client.packed[(σ.served fd).length]? = some ((Command.create.code, payload), ctx) ∧
        σ.server.data.sessions[fd]? = some user ∧
        σ.server.data.clientContexts[fd]? = some ctx ∧
        CreatedIn (host σ.server.served) user payload σ.server.data ctx r
          (perform host (.frame fd Command.create.code payload) σ.server).data

theorem Agrees.creates (hagree : σ.Agrees fd) (h : Linked host fd σ) :
    σ.CreatesWherePacked host fd := by
  intro payload hm r _ hcode
  obtain ⟨a, hserves, hdata, hresult⟩ :
      Realizes (Serves (host σ.server.served) fd payload σ.server.data _)
        (frameOutcome (host σ.server.served) fd Command.create.code payload σ.server.data) :=
    frameOutcome_realizes h.reachable.sessionsWf
  rw [Command.ofCode?_code] at hserves
  rw [hresult] at hcode
  have hr : a.msg.code = .res r := ServerCode.code_injective hcode
  obtain ⟨user, ctx, hs, hctx, hcreated⟩ := hserves.createdIn hr
  obtain rfl : contextOf (σ.served fd) = ctx :=
    Option.some.inj ((hagree hm.1 user hs).symm.trans hctx)
  have hnext := h.next hm
  rw [useOf_of_ne (by decide)] at hnext
  refine ⟨user, _, hnext, hs, hctx, ?_⟩
  rw [perform_frame_data, hdata]
  exact hcreated

/-- **The contexts of client and server agree as long as every frame keeps them together.** In every
run from the client's connection on in which each `/use` frame is granted, or asks for what is
stored, and each login frame was packed under `USE_NONE`, every creation happens in the context in
which the client packed it. And in a state of such a run a frame leaves the two contexts equal only
if it is one of these. -/
theorem context_agreement (host : ℕ → Host) (io : ℕ → Option ℕ) (fd : Fd) {s : Server} {σ : System}
    (hs : Reachable host s) (hfd : s.Enabled (.accept fd))
    (hrun : Steps host io fd (Orderly fd) (start host fd s) σ) :
    σ.CreatesWherePacked host fd ∧
      ∀ cmd payload, σ.Enabled fd (.act (.frame fd cmd payload)) →
        ∃ ctx, σ.client.packed[(σ.served fd).length]? = some ((cmd, payload), ctx) ∧
          (AgreesOn fd ctx (σ.move host io fd (.act (.frame fd cmd payload))).server.data ↔
            KeepsContext fd σ.server.data (cmd, payload) ctx) := by
  obtain ⟨hlinked, hagree⟩ := agrees_of_steps hs hfd hrun
  refine ⟨hagree.creates hlinked, ?_⟩
  intro cmd payload hm
  exact ⟨_, hlinked.next hm, hlinked.agreesOn_frame_iff host io hagree hm⟩

/-- A login, a `/create` of a team, a `/use` of it, and a `/create` that has arrived but is not
dispatched yet. -/
def grantedUse : List Move :=
  command (text "/login a\n") .login (packFixed [] (text "a") 32) ++
    command (text "/create b c\n") .create pairPayload ++
    command (text "/use " ++ (plainUuid 1).str ++ [Client.newline]) .use
      (packFixed [useTeam] (plainUuid 1).str 36) ++
    (command (text "/create b c\n") .create pairPayload).take 2

theorem context_agreement_grantedUse :
    (execute plainHost (fun _ ↦ some 65535) 4 grantedUse
      (start plainHost 4 Server.init)).CreatesWherePacked plainHost 4 ∧
    (execute plainHost (fun _ ↦ some 65535) 4 grantedUse
      (start plainHost 4 Server.init)).Enabled 4
        (.act (.frame 4 Command.create.code pairPayload)) := by
  have hrun : Executable plainHost (fun _ ↦ some 65535) 4 (Orderly 4) grantedUse
      (start plainHost 4 Server.init) := by decide +kernel
  have haccept : Server.init.Enabled (.accept 4) := by decide
  have hagreement := context_agreement plainHost (fun _ ↦ some 65535) 4 .init haccept
    (steps_execute hrun)
  exact ⟨hagreement.1, by decide +kernel⟩

/-- A login, a `/use` of a team that does not exist, and a `/create` that has arrived but is not
dispatched yet. -/
def refusedUse : List Move :=
  command (text "/login a\n") .login (packFixed [] (text "a") 32) ++
    command (text "/use x\n") .use (packFixed [useTeam] (text "x") 36) ++
    (command (text "/create b c\n") .create pairPayload).take 2

/-- The state in which that `/create` is dispatched. -/
def afterRefusedUse : System :=
  execute plainHost (fun _ ↦ some 65535) 4 refusedUse (start plainHost 4 Server.init)

/-- **The contexts can differ**: after the refused `/use` the client lays its `/create` out for a
channel, and the server, still at `USE_NONE`, answers that it created a team. -/
theorem not_createsWherePacked :
    ¬ ∀ σ, Steps plainHost (fun _ ↦ some 65535) 4 (fun _ _ ↦ True)
        (start plainHost 4 Server.init) σ → σ.CreatesWherePacked plainHost 4 := by
  intro h
  have hrun : Executable plainHost (fun _ ↦ some 65535) 4 (fun _ _ ↦ True) refusedUse
      (start plainHost 4 Server.init) := by decide +kernel
  have henabled : afterRefusedUse.Enabled 4 (.act (.frame 4 Command.create.code pairPayload)) := by
    decide +kernel
  have hcode : (frameOutcome (plainHost afterRefusedUse.server.served) 4 Command.create.code
      pairPayload afterRefusedUse.server.data).result.response.code =
        Response.teamCreated.code := by decide +kernel
  have hlevels : afterRefusedUse.client.packed[(afterRefusedUse.served 4).length]?.map
      (fun e ↦ e.2.level) = some useTeam ∧
      afterRefusedUse.server.data.clientContexts[(4 : Fd)]?.map ClientContext.level =
        some useNone := by decide +kernel
  obtain ⟨user, ctx, hpacked, -, hctx, -⟩ :=
    h afterRefusedUse (steps_execute hrun) pairPayload henabled _ (by simp) hcode
  rw [hpacked, hctx] at hlevels
  exact absurd (hlevels.1.symm.trans hlevels.2) (by decide)

end System

end MyTeams
