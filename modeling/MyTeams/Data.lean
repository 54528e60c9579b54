import MyTeams.Lib.ByteField
import MyTeams.Lib.IntMap

/-!
# Server data

The records of `include/data.hpp` and the packets of `include/mtp.hpp`.

A `char` array is a field of exactly its size. The 37-byte uuid arrays are represented by their
first 36 bytes: cell 36 is written once, with the terminator, and never changes. Those filled by
`uuid_unparse` hold no zero byte among the 36 (`Uuid`), which is what makes the `std::string` built
from the array the whole uuid; those filled by `memcpy` hold whatever 36 bytes were copied.
-/

namespace MyTeams

open ByteField

/-- A C++ `std::string` or `std::string_view`. -/
abbrev Str := List UInt8

/-- A socket file descriptor. -/
abbrev Fd := ℤ

/-- A uuid array filled by `uuid_unparse`: 36 nonzero characters before the terminator. -/
structure Uuid where
  /-- The 36 characters. -/
  bytes : Bytes 36
  /-- None of them is the terminator. -/
  nonzero : (0 : UInt8) ∉ bytes.toList
  deriving DecidableEq

/-- The `std::string` built from a uuid array. -/
def Uuid.str (u : Uuid) : Str := u.bytes.toList

@[simp] theorem Uuid.length_str (u : Uuid) : u.str.length = 36 := u.bytes.toList_length

@[simp] theorem Uuid.cut_str (u : Uuid) : cut u.str = u.str := cut_of_not_mem u.nonzero

theorem Uuid.str_injective {u v : Uuid} (h : u.str = v.str) : u = v := by
  have hbytes : u.bytes = v.bytes := List.Vector.eq _ _ h
  cases u
  cases v
  cases hbytes
  rfl

/-- `reply_t`. -/
structure Reply where
  uuid : Uuid
  creatorUuid : Bytes 36
  body : Bytes 512
  timestamp : Int64
  deriving DecidableEq

/-- `thread_t`. -/
structure Thread where
  uuid : Uuid
  creatorUuid : Bytes 36
  title : Bytes 32
  body : Bytes 512
  timestamp : Int64
  replies : List Reply
  deriving DecidableEq

/-- `channel_t`. -/
structure Channel where
  uuid : Uuid
  name : Bytes 32
  description : Bytes 255
  threads : List Thread
  deriving DecidableEq

/-- `team_t`. -/
structure Team where
  uuid : Uuid
  name : Bytes 32
  description : Bytes 255
  channels : List Channel
  memberUuids : List Str
  deriving DecidableEq

/-- `message_t`. -/
structure Message where
  senderUuid : Bytes 36
  receiverUuid : Bytes 36
  body : Bytes 512
  timestamp : Int64
  deriving DecidableEq

/-- `user_t`. -/
structure User where
  uuid : Uuid
  name : Bytes 32
  isLogged : Bool
  fd : Fd
  deriving DecidableEq

/-- `client_context_t`. -/
structure ClientContext where
  level : UInt8
  teamUuid : Bytes 36
  channelUuid : Bytes 36
  threadUuid : Bytes 36
  deriving DecidableEq

/-- `client_context_t{}`: level `USE_NONE` and zeroed uuids. -/
def ClientContext.init : ClientContext := ⟨0, zeros 36, zeros 36, zeros 36⟩

/-- `server_data_t`. -/
structure ServerData where
  users : List User
  sessions : IntMap Str
  clientContexts : IntMap ClientContext
  teams : List Team
  messages : List Message

/-- `server_data_t{}`. -/
def ServerData.init : ServerData := ⟨[], ∅, ∅, [], []⟩

/-! ### Packets -/

/-- `mtp::Packet`. -/
structure Packet where
  code : UInt16
  bytes : List UInt8
  deriving DecidableEq

/-- `mtp::Push`: one event and the descriptors it goes to. -/
structure Push where
  packet : Packet
  fds : List Fd
  deriving DecidableEq

/-- `mtp::Result`: the response to the issuer, and the pushes. -/
structure Result where
  response : Packet
  pushes : List Push
  deriving DecidableEq

/-- What the environment supplies while one request is handled: the uuid that `uuid_generate`
returns and the time that `std::time` returns. -/
structure Host where
  newUuid : Uuid
  time : Int64

/-- A call of the server's logging library, with the arrays handed to it as C strings. -/
inductive ServerLog
  | userCreated (uuid : Uuid) (name : Bytes 32)
  | userLoggedIn (uuid : Uuid)
  | userLoggedOut (uuid : Str)
  | teamCreated (uuid : Uuid) (name : Bytes 32) (user : Str)
  | channelCreated (team channel : Uuid) (name : Bytes 32)
  | threadCreated (channel thread : Uuid) (user : Str) (title : Bytes 32) (body : Bytes 512)
  | replyCreated (thread : Uuid) (user : Str) (body : Bytes 512)
  | userSubscribed (team : Uuid) (user : Str)
  | userUnsubscribed (team : Uuid) (user : Str)
  | privateMessageSended (sender : Str) (receiver : Uuid) (body : Bytes 512)
  deriving DecidableEq

/-- The effect of one handler: the shared data it leaves, the result it returns and the logging
calls it makes. -/
structure Outcome where
  data : ServerData
  result : Result
  logged : List ServerLog

end MyTeams
