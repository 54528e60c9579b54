import MyTeams.Client.Response
import MyTeams.Wire

/-!
# The client's side of the connection

`src/client/Packet.cpp` and `src/client/Network.cpp`.
-/

namespace MyTeams

open ByteField

namespace Client

variable (io : ℕ → Option ℕ)

/-- `_handle_server_write`. When `write` fails or accepts nothing the buffer is kept for later. -/
def handleServerWrite (c : Client) : Client :=
  if c.sendBuf.isEmpty then c
  else
    let written := io c.writes
    let c := { c with writes := c.writes + 1 }
    match written with
    | none => c
    | some n => record (.wrote (c.sendBuf.take n)) { c with sendBuf := c.sendBuf.drop n }

/-- `_send_packet`, up to the write: header and payload go to the send buffer. -/
def enqueuePacket (cmd : Command) (payload : List UInt8) (c : Client) : Client :=
  let c := c.record (.packed cmd.code payload c.context)
  let header := be16 cmd.code ++ be32 (UInt32.ofNat payload.length)
  { c with sendBuf := c.sendBuf ++ header ++ payload }

/-- `_send_packet`. -/
def sendPacket (cmd : Command) (payload : List UInt8) (c : Client) : Client :=
  handleServerWrite io (c.enqueuePacket cmd payload)

/-- The loop of `_process_recv_buffer`, with at most `n` rounds. -/
def processRecvLoop : ℕ → Client → Client
  | 0, c => c
  | n + 1, c =>
    if c.recvBuf.length < headerSize then c
    else
      let code := ofBe16 (c.recvBuf.take 2)
      let psize := (ofBe32 ((c.recvBuf.drop 2).take 4)).toNat
      if c.recvBuf.length < headerSize + psize then c
      else
        let payload := (c.recvBuf.drop headerSize).take psize
        let c := { c with recvBuf := c.recvBuf.drop (headerSize + psize) }
        processRecvLoop n (c.handleResponse code payload)

/-- `_process_recv_buffer`. -/
def processRecvBuffer (c : Client) : Client := processRecvLoop (c.recvBuf.length + 1) c

/-- `_handle_server_read`, when `read` delivered `tmp`, or failed or met the end of the stream. -/
def handleServerRead (tmp : List UInt8) (c : Client) : Client :=
  if tmp.isEmpty then { c.print (text "Server disconnected.\n") with running := false }
  else processRecvBuffer { c with recvBuf := c.recvBuf ++ tmp }

end Client

end MyTeams
