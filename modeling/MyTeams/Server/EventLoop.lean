import MyTeams.Server.Auth
import MyTeams.Server.Context
import MyTeams.Server.Create
import MyTeams.Server.Messages
import MyTeams.Server.Subscriptions

/-!
# The event loop

`src/server/Server.cpp`: framing, dispatch, delivery and teardown of connections, and one round of
the poll loop.

The environment enters in two ways. What the system calls return is an argument of the step that
makes them: the bytes `read` delivered (none when it returned zero or less), the count `write`
accepted (`none` when it failed), the descriptor `accept` returned. What `uuid_generate` and
`std::time` return is a parameter `host`, consulted at the number of frames dispatched so far.

`Server` carries, beside the two fields of the class that matter here, a **history** that no
function reads: what the loop did, oldest first. `trace` is how statements about whole runs — what
was queued to a connection, which frames were dispatched and in which state — are phrased.
-/

namespace MyTeams

/-- `ClientState`. -/
structure ClientState where
  fd : Fd
  recvBuffer : List UInt8
  sendBuffer : List UInt8
  deriving DecidableEq

/-- A value-initialized `ClientState`, as `operator[]` creates for a missing key. -/
instance : Inhabited ClientState := ⟨⟨0, [], []⟩⟩

/-- An entry of the history. -/
inductive Observation
  /-- A connection was accepted. -/
  | accepted (fd : Fd)
  /-- `_dispatch` was entered, with the shared data as given. -/
  | dispatched (fd : Fd) (cmd : UInt16) (payload : List UInt8) (data : ServerData)
  /-- A message was appended to a send buffer. -/
  | queued (fd : Fd) (bytes : List UInt8)
  /-- Bytes left a send buffer. -/
  | sent (fd : Fd) (bytes : List UInt8)
  /-- A descriptor was closed. -/
  | closed (fd : Fd)

/-- The server. -/
structure Server where
  data : ServerData
  clients : IntMap ClientState
  /-- How many frames have been dispatched: the index at which `host` is consulted. -/
  served : ℕ
  /-- The history. -/
  trace : List Observation

/-- The server before its first round. -/
def Server.init : Server := ⟨ServerData.init, ∅, 0, []⟩

namespace Server

variable (host : ℕ → Host)

/-- Add an entry to the history. -/
def record (o : Observation) (s : Server) : Server := { s with trace := s.trace ++ [o] }

/-- `f` applied to `clients[fd]`, which `operator[]` creates when missing. -/
def modifyClient (fd : Fd) (f : ClientState → ClientState) (s : Server) : Server :=
  { s with clients := s.clients.alter fd fun c ↦ some (f (c.getD default)) }

/-- `_handle_new_connection`, when `accept` returned `fd`. -/
def handleNewConnection (fd : Fd) (s : Server) : Server :=
  record (.accepted fd) { s with clients := s.clients.insert fd ⟨fd, [], []⟩ }

/-- `_queue_bytes`. -/
def queueBytes (fd : Fd) (bytes : List UInt8) (s : Server) : Server :=
  if s.clients.contains fd then
    record (.queued fd bytes)
      (s.modifyClient fd fun c ↦ { c with sendBuffer := c.sendBuffer ++ bytes })
  else s

/-- The delivery loop: every push to every descriptor of its list but `fd`. -/
def deliver (fd : Fd) (pushes : List Push) (s : Server) : Server :=
  pushes.foldl
    (fun s push ↦
      push.fds.foldl
        (fun s target ↦ if target = fd then s else queueBytes target push.packet.bytes s) s)
    s

/-- `_send_result`. -/
def sendResult (fd : Fd) (result : Result) (s : Server) : Server :=
  let s := if result.response.bytes.isEmpty then s else queueBytes fd result.response.bytes s
  deliver fd result.pushes s

/-- `_handle_client_disconnect`. -/
def handleClientDisconnect (fd : Fd) (s : Server) : Server :=
  let s :=
    if s.data.sessions.contains fd then
      let o := handleLogout fd s.data
      deliver fd o.result.pushes { s with data := o.data }
    else s
  record (.closed fd) { s with clients := s.clients.erase fd }

/-- `extract_sv`: empty when the range does not fit. -/
def extractSv (p : List UInt8) (offset size : ℕ) : Str :=
  if offset + size > p.length then [] else (p.drop offset).take size

/-- The `switch` of `_dispatch`. -/
def handle (h : Host) (fd : Fd) (cmd : Command) (payload : List UInt8) (data : ServerData) :
    Outcome :=
  match cmd with
  | .login => handleLogin h fd (extractSv payload 0 payload.length) data
  | .logout => handleLogout fd data
  | .users => handleUsers fd data
  | .user => handleUser fd (extractSv payload 0 36) data
  | .send => handleSend h fd (extractSv payload 0 36) (extractSv payload 36 512) data
  | .messages => handleMessages fd (extractSv payload 0 36) data
  | .subscribe => handleSubscribe fd (extractSv payload 0 36) data
  | .subscribed =>
    if payload.head? = some 0x01 then handleSubscribedUsers fd (extractSv payload 1 36) data
    else handleSubscribedTeams fd data
  | .unsubscribe => handleUnsubscribe fd (extractSv payload 0 36) data
  | .use => handleUse fd (extractSv payload 0 payload.length) data
  | .create => handleCreate h fd (extractSv payload 0 payload.length) data
  | .list => handleList fd data
  | .info => handleInfo fd data

/-- `_dispatch`. The two frames it builds by hand have a code and a zero size. -/
def dispatch (fd : Fd) (cmd : UInt16) (payload : List UInt8) (s : Server) : Server :=
  let h := host s.served
  let s := record (.dispatched fd cmd payload s.data) { s with served := s.served + 1 }
  let logged := s.data.sessions.contains fd
  if !logged && cmd != Command.login.code then
    queueBytes fd (be16 Error.unauthorized.code ++ be32 0) s
  else
    match Command.ofCode? cmd with
    | some cmd =>
      let o := handle h fd cmd payload s.data
      sendResult fd o.result { s with data := o.data }
    | none => queueBytes fd (be16 Error.invalidCommand.code ++ be32 0) s

/-- The loop of `_process_recv_buffer`, with at most `n` rounds. -/
def processRecvLoop (fd : Fd) : ℕ → Server → Server
  | 0, s => s
  | n + 1, s =>
    let buf := (s.clients[fd]?.getD default).recvBuffer
    if buf.length < headerSize then s
    else
      let cmd := ofBe16 (buf.take 2)
      let payloadSize := (ofBe32 ((buf.drop 2).take 4)).toNat
      if payloadSize > 65535 then handleClientDisconnect fd s
      else if buf.length < headerSize + payloadSize then s
      else
        let payload := (buf.drop headerSize).take payloadSize
        let s := s.modifyClient fd fun c ↦
          { c with recvBuffer := c.recvBuffer.drop (headerSize + payloadSize) }
        let s := dispatch host fd cmd payload s
        if s.clients.contains fd then processRecvLoop fd n s else s

/-- `_process_recv_buffer`. Each round of the loop erases a header, so a buffer never pays for more
rounds than it has bytes. -/
def processRecvBuffer (fd : Fd) (s : Server) : Server :=
  let s := s.modifyClient fd id
  processRecvLoop host fd ((s.clients[fd]?.getD default).recvBuffer.length + 1) s

/-- `_handle_client_read`, when `read` delivered `tmp`. -/
def handleClientRead (fd : Fd) (tmp : List UInt8) (s : Server) : Server :=
  if tmp.isEmpty then handleClientDisconnect fd s
  else
    processRecvBuffer host fd
      (s.modifyClient fd fun c ↦ { c with recvBuffer := c.recvBuffer ++ tmp })

/-- `_handle_client_write`, when `write` accepted `written` bytes or failed. -/
def handleClientWrite (fd : Fd) (written : Option ℕ) (s : Server) : Server :=
  let s := s.modifyClient fd id
  let buf := (s.clients[fd]?.getD default).sendBuffer
  if buf.isEmpty then s
  else
    match written with
    | none => handleClientDisconnect fd s
    | some n =>
      record (.sent fd (buf.take n))
        (s.modifyClient fd fun c ↦ { c with sendBuffer := c.sendBuffer.drop n })

end Server

/-! ### The poll round -/

/-- What `poll` reports for one descriptor, with what the system calls it leads to return. -/
structure Revents where
  /-- `POLLERR`, `POLLHUP` or `POLLNVAL`. -/
  error : Bool
  /-- `POLLIN`, and the bytes `read` delivers. -/
  input : Option (List UInt8)
  /-- `POLLOUT`, and what `write` returns. -/
  output : Option (Option ℕ)

/-- Only `POLLIN`. -/
def Revents.read (tmp : List UInt8) : Revents := ⟨false, some tmp, none⟩

namespace Server

variable (host : ℕ → Host)

/-- The `POLLIN` branch. -/
def serveInput (fd : Fd) (input : Option (List UInt8)) (s : Server) : Server :=
  match input with
  | some tmp => handleClientRead host fd tmp s
  | none => s

/-- The `POLLOUT` branch. -/
def serveOutput (fd : Fd) (output : Option (Option ℕ)) (s : Server) : Server :=
  match output with
  | some written => handleClientWrite fd written s
  | none => s

/-- The body of the loop over `pollfds`. -/
def serveClient (fd : Fd) (ev : Revents) (s : Server) : Server :=
  if !s.clients.contains fd then s
  else if ev.error then handleClientDisconnect fd s
  else
    let s := serveInput host fd ev.input s
    if !s.clients.contains fd then s else serveOutput fd ev.output s

/-- One round of `Server::run`: at most one `accept`, then the ready descriptors in some order. -/
def pollRound (accepted : Option Fd) (ready : List (Fd × Revents)) (s : Server) : Server :=
  let s :=
    match accepted with
    | some fd => handleNewConnection fd s
    | none => s
  ready.foldl (fun s e ↦ serveClient host e.1 e.2 s) s

end Server

end MyTeams
