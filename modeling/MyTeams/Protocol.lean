import MyTeams.Lib.ByteOrder

/-!
# Protocol codes

The enumerations of `include/protocole.hpp`: request commands, success responses, errors, push
events and `/use` levels, each with the number it has on the wire, and the reverse lookups that the
`switch` of the server and the comparisons of the client perform.

Integers travel in network byte order: `be16` and `be32` are the bytes that `htons` and `htonl`
leave in memory.
-/

namespace MyTeams

open ByteOrder

/-! ### Integers on the wire -/

/-- The memory image of `htons(v)`. -/
def be16 (v : UInt16) : List UInt8 := beBytes 2 v.toNat

/-- The memory image of `htonl(v)`. -/
def be32 (v : UInt32) : List UInt8 := beBytes 4 v.toNat

/-- `ntohs` of two bytes in memory. -/
def ofBe16 (l : List UInt8) : UInt16 := UInt16.ofNat (beNat l)

/-- `ntohl` of four bytes in memory. -/
def ofBe32 (l : List UInt8) : UInt32 := UInt32.ofNat (beNat l)

@[simp] theorem length_be16 (v : UInt16) : (be16 v).length = 2 := length_beBytes _ _

@[simp] theorem length_be32 (v : UInt32) : (be32 v).length = 4 := length_beBytes _ _

@[simp] theorem ofBe16_be16 (v : UInt16) : ofBe16 (be16 v) = v := by
  rw [ofBe16, be16, beNat_beBytes v.toNat_lt, UInt16.ofNat_toNat]

@[simp] theorem ofBe32_be32 (v : UInt32) : ofBe32 (be32 v) = v := by
  rw [ofBe32, be32, beNat_beBytes v.toNat_lt, UInt32.ofNat_toNat]

theorem be16_ofBe16 {l : List UInt8} (h : l.length = 2) : be16 (ofBe16 l) = l := by
  have hlt : beNat l < UInt16.size := by simpa [h] using beNat_lt l
  rw [be16, ofBe16, UInt16.toNat_ofNat_of_lt' hlt, ← h, beBytes_beNat]

theorem be32_ofBe32 {l : List UInt8} (h : l.length = 4) : be32 (ofBe32 l) = l := by
  have hlt : beNat l < UInt32.size := by simpa [h] using beNat_lt l
  rw [be32, ofBe32, UInt32.toNat_ofNat_of_lt' hlt, ← h, beBytes_beNat]

/-! ### Codes -/

/-- `HEADER_SIZE`: two bytes of code and four bytes of payload size. -/
def headerSize : ℕ := 6

/-- `enum Command`. -/
inductive Command
  | login | logout | users | user | send | messages | subscribe | subscribed | unsubscribe
  | use | create | list | info
  deriving DecidableEq

/-- `enum Response`. -/
inductive Response
  | loginOk | logoutOk | usersList | userInfo | sendOk | messagesList | subscribeOk
  | subscribedTeams | subscribedUsers | unsubscribeOk | teamCreated | channelCreated
  | threadCreated | replyCreated | listTeams | listChannels | listThreads | listReplies
  | teamInfo | channelInfo | threadInfo | userDetails
  deriving DecidableEq

/-- `enum Error`. -/
inductive Error
  | unauthorized | unknownTeam | unknownChannel | unknownThread | unknownUser | alreadyExists
  | notSubscribed | invalidCommand
  deriving DecidableEq

/-- `enum Event`. -/
inductive Event
  | messageReceived | teamCreated | channelCreated | threadCreated | replyCreated | userLoggedIn
  | userLoggedOut
  deriving DecidableEq

/-- The value of a `CMD_` constant. -/
def Command.code : Command → UInt16
  | .login => 0x01 | .logout => 0x02 | .users => 0x03 | .user => 0x04 | .send => 0x05
  | .messages => 0x06 | .subscribe => 0x07 | .subscribed => 0x08 | .unsubscribe => 0x09
  | .use => 0x0A | .create => 0x0B | .list => 0x0C | .info => 0x0D

/-- The value of a `RES_` constant. -/
def Response.code : Response → UInt16
  | .loginOk => 0x10 | .logoutOk => 0x11 | .usersList => 0x12 | .userInfo => 0x13
  | .sendOk => 0x14 | .messagesList => 0x15 | .subscribeOk => 0x16 | .subscribedTeams => 0x17
  | .subscribedUsers => 0x18 | .unsubscribeOk => 0x19 | .teamCreated => 0x1A
  | .channelCreated => 0x1B | .threadCreated => 0x1C | .replyCreated => 0x1D | .listTeams => 0x1E
  | .listChannels => 0x1F | .listThreads => 0x20 | .listReplies => 0x21 | .teamInfo => 0x22
  | .channelInfo => 0x23 | .threadInfo => 0x24 | .userDetails => 0x25

/-- The value of an `ERR_` constant. -/
def Error.code : Error → UInt16
  | .unauthorized => 0xE0 | .unknownTeam => 0xE1 | .unknownChannel => 0xE2
  | .unknownThread => 0xE3 | .unknownUser => 0xE4 | .alreadyExists => 0xE5
  | .notSubscribed => 0xE6 | .invalidCommand => 0xE7

/-- The value of an `EVT_` constant. -/
def Event.code : Event → UInt16
  | .messageReceived => 0xF0 | .teamCreated => 0xF1 | .channelCreated => 0xF2
  | .threadCreated => 0xF3 | .replyCreated => 0xF4 | .userLoggedIn => 0xF5
  | .userLoggedOut => 0xF6

/-- Everything the server sends carries a code of one of three kinds. -/
inductive ServerCode
  | res (r : Response)
  | err (e : Error)
  | evt (e : Event)
  deriving DecidableEq

/-- The number of a server code on the wire. -/
def ServerCode.code : ServerCode → UInt16
  | .res r => r.code
  | .err e => e.code
  | .evt e => e.code

/-- All commands, in the order of the enumeration. -/
def Command.all : List Command :=
  [.login, .logout, .users, .user, .send, .messages, .subscribe, .subscribed, .unsubscribe, .use,
    .create, .list, .info]

/-- All server codes, in the order of the enumerations. -/
def ServerCode.all : List ServerCode :=
  ([.loginOk, .logoutOk, .usersList, .userInfo, .sendOk, .messagesList, .subscribeOk,
      .subscribedTeams, .subscribedUsers, .unsubscribeOk, .teamCreated, .channelCreated,
      .threadCreated, .replyCreated, .listTeams, .listChannels, .listThreads, .listReplies,
      .teamInfo, .channelInfo, .threadInfo, .userDetails] : List Response).map .res ++
    ([.unauthorized, .unknownTeam, .unknownChannel, .unknownThread, .unknownUser, .alreadyExists,
      .notSubscribed, .invalidCommand] : List Error).map .err ++
    ([.messageReceived, .teamCreated, .channelCreated, .threadCreated, .replyCreated,
      .userLoggedIn, .userLoggedOut] : List Event).map .evt

/-- The command a number stands for, if any: the `switch` of the server. -/
def Command.ofCode? (c : UInt16) : Option Command := Command.all.find? fun cmd ↦ cmd.code == c

/-- The server code a number stands for, if any: the comparisons of the client. -/
def ServerCode.ofCode? (c : UInt16) : Option ServerCode :=
  ServerCode.all.find? fun k ↦ k.code == c

theorem Command.ofCode?_code (cmd : Command) : Command.ofCode? cmd.code = some cmd := by
  cases cmd <;> rfl

theorem ServerCode.ofCode?_code (k : ServerCode) : ServerCode.ofCode? k.code = some k := by
  rcases k with k | k | k <;> cases k <;> rfl

/-- A code that stands for a command is that command's. -/
theorem Command.code_of_ofCode? {c : UInt16} {cmd : Command} (h : Command.ofCode? c = some cmd) :
    cmd.code = c := by
  simpa using List.find?_some h

theorem ServerCode.code_of_ofCode? {c : UInt16} {k : ServerCode}
    (h : ServerCode.ofCode? c = some k) :
    k.code = c := by
  have hmatch := List.find?_some h
  exact eq_of_beq hmatch

theorem ServerCode.code_injective {k k' : ServerCode} (h : k.code = k'.code) : k = k' := by
  have hk := ServerCode.ofCode?_code k
  rw [h, ServerCode.ofCode?_code] at hk
  exact (Option.some.inj hk).symm

/-! ### Context levels -/

/-- `USE_NONE`. -/
def useNone : UInt8 := 0x00

/-- `USE_TEAM`. -/
def useTeam : UInt8 := 0x01

/-- `USE_CHANNEL`. -/
def useChannel : UInt8 := 0x02

/-- `USE_THREAD`. -/
def useThread : UInt8 := 0x03

end MyTeams
