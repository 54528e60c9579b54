import MyTeams.Data
import MyTeams.Protocol

/-!
# The client

The fields of `class Client` (`src/client/Client.hpp`), its calls of the logging library, and a
**history** of what it did, oldest first, which no function of the client reads.

What `write` returns is not decided by the client: `io k` is what the `k`-th call accepts, or `none`
when it fails.
-/

namespace MyTeams

open ByteField

/-- A call of the client's logging library (`libs/myteams/logging_client.h`), or a line it prints
itself. -/
inductive Callback
  | eventLoggedIn (uuid name : Str)
  | eventLoggedOut (uuid name : Str)
  | eventPrivateMessageReceived (sender body : Str)
  | eventThreadReplyReceived (team thread user body : Str)
  | eventTeamCreated (uuid name description : Str)
  | eventChannelCreated (uuid name description : Str)
  | eventThreadCreated (thread user : Str) (timestamp : Int64) (title body : Str)
  | printUsers (uuid name : Str) (status : Int)
  | printTeams (uuid name description : Str)
  | teamPrintChannels (uuid name description : Str)
  | channelPrintThreads (thread user : Str) (timestamp : Int64) (title body : Str)
  | threadPrintReplies (thread user : Str) (timestamp : Int64) (body : Str)
  | privateMessagePrintMessages (sender : Str) (timestamp : Int64) (body : Str)
  | errorUnknownTeam (uuid : Str)
  | errorUnknownChannel (uuid : Str)
  | errorUnknownThread (uuid : Str)
  | errorUnknownUser (uuid : Str)
  | errorUnauthorized
  | errorAlreadyExist
  | printUser (uuid name : Str) (status : Int)
  | printTeam (uuid name description : Str)
  | printChannel (uuid name description : Str)
  | printThread (thread user : Str) (timestamp : Int64) (title body : Str)
  | printTeamCreated (uuid name description : Str)
  | printChannelCreated (uuid name description : Str)
  | printThreadCreated (thread user : Str) (timestamp : Int64) (title body : Str)
  | printReplyCreated (thread user : Str) (timestamp : Int64) (body : Str)
  | printSubscribed (user team : Str)
  | printUnsubscribed (user team : Str)
  /-- Text on the standard output. -/
  | output (text : Str)
  deriving DecidableEq

/-- The bytes of a string literal. -/
def text (s : String) : Str := s.toUTF8.toList

/-- An entry of the client's history. -/
inductive ClientEvent
  /-- `_send_packet` was entered, with the use context at that moment. -/
  | packed (cmd : UInt16) (payload : List UInt8) (ctx : ClientContext)
  /-- Bytes left the send buffer. -/
  | wrote (bytes : List UInt8)
  /-- `_handle_response` was entered. -/
  | handled (code : UInt16) (payload : List UInt8)
  /-- A call of the logging library, or a line of output. -/
  | called (c : Callback)

/-- `class Client`. -/
structure Client where
  running : Bool
  userUuid : Str
  recvBuf : List UInt8
  sendBuf : List UInt8
  useLevel : UInt8
  useTeamUuid : Str
  useChannelUuid : Str
  useThreadUuid : Str
  stdinBuf : Str
  /-- How often `write` has been called: the index at which `io` is consulted. -/
  writes : ℕ
  /-- The history. -/
  history : List ClientEvent

namespace Client

/-- The client as `run` starts it, connected. -/
def init : Client := ⟨true, [], [], [], useNone, [], [], [], [], 0, []⟩

/-- Add an entry to the history. -/
def record (e : ClientEvent) (c : Client) : Client := { c with history := c.history ++ [e] }

/-- Call the logging library. -/
def call (k : Callback) (c : Client) : Client := c.record (.called k)

/-- Print a line. -/
def print (s : Str) (c : Client) : Client := c.call (.output s)

/-- The use context, in the form in which the server stores one. -/
def context (c : Client) : ClientContext :=
  ⟨c.useLevel, fill 36 c.useTeamUuid, fill 36 c.useChannelUuid, fill 36 c.useThreadUuid⟩

end Client

end MyTeams
