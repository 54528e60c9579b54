import MyTeams.Server.Detail

/-!
# Server messages

The abstract protocol: what the server says, before it is bytes. A `Msg` is a code and a typed body;
`Body.bytes` is the layout of `doc/RFC.md`, sections 4 to 6, and `Msg.packet` the complete frame.

`Fits` says which shape of body a code carries, and `layout` repeats the RFC's tables as field
widths: a fixed part, or a count followed by records. The stored records of the server map to
message records by `User.record`, `Team.record` and so on; the `append*_eq` lemmas say that what the
handlers append for a stored record is the layout of its message record.
-/

namespace MyTeams

open ByteOrder ByteField

/-- The network image of a 64-bit timestamp. -/
def be64 (v : Int64) : List UInt8 := beBytes 8 v.toUInt64.toNat

@[simp] theorem length_be64 (v : Int64) : (be64 v).length = 8 := length_beBytes _ _

/-! ### Records -/

/-- A user with its status. -/
structure UserRecord where
  uuid : Bytes 36
  name : Bytes 32
  status : UInt8

/-- A team or a channel. -/
structure DescribedRecord where
  uuid : Bytes 36
  name : Bytes 32
  description : Bytes 255

/-- A thread. -/
structure ThreadRecord where
  uuid : Bytes 36
  creatorUuid : Bytes 36
  timestamp : Int64
  title : Bytes 32
  body : Bytes 512

/-- A reply, with the uuid of its thread. -/
structure ReplyRecord where
  threadUuid : Bytes 36
  creatorUuid : Bytes 36
  timestamp : Int64
  body : Bytes 512

/-- A private message. -/
structure MessageRecord where
  senderUuid : Bytes 36
  receiverUuid : Bytes 36
  timestamp : Int64
  body : Bytes 512

def UserRecord.bytes (r : UserRecord) : List UInt8 := r.uuid.toList ++ r.name.toList ++ [r.status]

def DescribedRecord.bytes (r : DescribedRecord) : List UInt8 :=
  r.uuid.toList ++ r.name.toList ++ r.description.toList

def ThreadRecord.bytes (r : ThreadRecord) : List UInt8 :=
  r.uuid.toList ++ r.creatorUuid.toList ++ be64 r.timestamp ++ r.title.toList ++ r.body.toList

def ReplyRecord.bytes (r : ReplyRecord) : List UInt8 :=
  r.threadUuid.toList ++ r.creatorUuid.toList ++ be64 r.timestamp ++ r.body.toList

def MessageRecord.bytes (r : MessageRecord) : List UInt8 :=
  r.senderUuid.toList ++ r.receiverUuid.toList ++ be64 r.timestamp ++ r.body.toList

/-! ### Bodies and messages -/

/-- A list body: the count, then the records. -/
def listBytes {α : Type} (bytes : α → List UInt8) (l : List α) : List UInt8 :=
  be32 (UInt32.ofNat l.length) ++ (l.map bytes).flatten

/-- The typed body of a message. -/
inductive Body
  | empty
  | uuid (uuid : Bytes 36)
  | account (uuid : Bytes 36) (name : Bytes 32)
  | user (r : UserRecord)
  | described (r : DescribedRecord)
  | thread (r : ThreadRecord)
  | reply (r : ReplyRecord)
  | received (senderUuid : Bytes 36) (body : Bytes 512)
  | users (l : List UserRecord)
  | describeds (l : List DescribedRecord)
  | threads (l : List ThreadRecord)
  | replies (l : List ReplyRecord)
  | messages (l : List MessageRecord)

/-- The bytes of a body. -/
def Body.bytes : Body → List UInt8
  | .empty => []
  | .uuid u => u.toList
  | .account u n => u.toList ++ n.toList
  | .user r => r.bytes
  | .described r => r.bytes
  | .thread r => r.bytes
  | .reply r => r.bytes
  | .received s b => s.toList ++ b.toList
  | .users l => listBytes UserRecord.bytes l
  | .describeds l => listBytes DescribedRecord.bytes l
  | .threads l => listBytes ThreadRecord.bytes l
  | .replies l => listBytes ReplyRecord.bytes l
  | .messages l => listBytes MessageRecord.bytes l

/-- A message of the server: a code and its body. -/
structure Msg where
  code : ServerCode
  body : Body

/-- The packet of a message. -/
def Msg.packet (m : Msg) : Packet := ⟨m.code.code, makeMessage m.code.code m.body.bytes⟩

/-! ### The layout tables -/

/-- A payload layout: the widths of the fields of a fixed part, or of a repeated record. -/
inductive Layout
  | fixed (widths : List ℕ)
  | list (widths : List ℕ)
  deriving DecidableEq

/-- The layouts of RFC sections 4.1, 4.2 and 5. -/
def layout : ServerCode → Layout
  | .res .loginOk | .res .logoutOk | .res .userDetails => .fixed [36, 32]
  | .res .usersList | .res .subscribedUsers => .list [36, 32, 1]
  | .res .userInfo => .fixed [36, 32, 1]
  | .res .sendOk => .fixed []
  | .res .messagesList => .list [36, 36, 8, 512]
  | .res .subscribeOk | .res .unsubscribeOk => .fixed [36]
  | .res .subscribedTeams | .res .listTeams | .res .listChannels => .list [36, 32, 255]
  | .res .teamCreated | .res .channelCreated | .res .teamInfo | .res .channelInfo =>
    .fixed [36, 32, 255]
  | .res .threadCreated | .res .threadInfo => .fixed [36, 36, 8, 32, 512]
  | .res .replyCreated => .fixed [36, 36, 8, 512]
  | .res .listThreads => .list [36, 36, 8, 32, 512]
  | .res .listReplies => .list [36, 36, 8, 512]
  | .err .unknownTeam | .err .unknownChannel | .err .unknownThread | .err .unknownUser =>
    .fixed [36]
  | .err .unauthorized | .err .alreadyExists | .err .notSubscribed | .err .invalidCommand =>
    .fixed []
  | .evt .messageReceived => .fixed [36, 512]
  | .evt .teamCreated | .evt .channelCreated => .fixed [36, 32, 255]
  | .evt .threadCreated => .fixed [36, 36, 8, 32, 512]
  | .evt .replyCreated => .fixed [36, 36, 8, 512]
  | .evt .userLoggedIn | .evt .userLoggedOut => .fixed [36, 32]

/-- The layout of a typed body. -/
def Body.layout : Body → Layout
  | .empty => .fixed []
  | .uuid _ => .fixed [36]
  | .account _ _ => .fixed [36, 32]
  | .user _ => .fixed [36, 32, 1]
  | .described _ => .fixed [36, 32, 255]
  | .thread _ => .fixed [36, 36, 8, 32, 512]
  | .reply _ => .fixed [36, 36, 8, 512]
  | .received _ _ => .fixed [36, 512]
  | .users _ => .list [36, 32, 1]
  | .describeds _ => .list [36, 32, 255]
  | .threads _ => .list [36, 36, 8, 32, 512]
  | .replies _ => .list [36, 36, 8, 512]
  | .messages _ => .list [36, 36, 8, 512]

/-- How many records a list body holds. -/
def Body.count : Body → ℕ
  | .users l => l.length
  | .describeds l => l.length
  | .threads l => l.length
  | .replies l => l.length
  | .messages l => l.length
  | _ => 0

/-- The body has the shape its code calls for. Replies and private messages share their widths, so
the shape is told apart for them. -/
def Msg.Fits (m : Msg) : Prop :=
  m.body.layout = MyTeams.layout m.code ∧
    match m.body with
    | .replies _ => m.code = .res .listReplies
    | .messages _ => m.code = .res .messagesList
    | _ => True

/-- The length a layout calls for with `n` records. -/
def Layout.length (n : ℕ) : Layout → ℕ
  | .fixed widths => widths.sum
  | .list widths => 4 + n * widths.sum

private theorem length_listBytes {α : Type} {bytes : α → List UInt8} {w : ℕ}
    (h : ∀ a, (bytes a).length = w) (l : List α) :
    (listBytes bytes l).length = 4 + l.length * w := by
  have hflat : ((l.map bytes).flatten).length = l.length * w := by
    induction l with
    | nil => simp
    | cons a l ih =>
      rw [List.map_cons, List.flatten_cons, List.length_append, h, ih, List.length_cons]
      ring
  rw [listBytes, List.length_append, length_be32, hflat]

/-- **Layout of a body**: its bytes are as many as the RFC's table says. -/
theorem Body.length_bytes (b : Body) : b.bytes.length = b.layout.length b.count := by
  cases b with
  | users l => exact length_listBytes (fun _ ↦ by simp [UserRecord.bytes]) l
  | describeds l => exact length_listBytes (fun _ ↦ by simp [DescribedRecord.bytes]) l
  | threads l => exact length_listBytes (fun _ ↦ by simp [ThreadRecord.bytes]) l
  | replies l => exact length_listBytes (fun _ ↦ by simp [ReplyRecord.bytes]) l
  | messages l => exact length_listBytes (fun _ ↦ by simp [MessageRecord.bytes]) l
  | _ =>
    simp [Body.bytes, Body.layout, Layout.length, UserRecord.bytes, DescribedRecord.bytes,
      ThreadRecord.bytes, ReplyRecord.bytes]

/-! ### Stored records -/

/-- The record of a stored user. -/
def User.record (data : ServerData) (u : User) : UserRecord :=
  ⟨u.uuid.bytes, u.name, if isUserOnline data u then 0x01 else 0x00⟩

/-- The record of a stored team. -/
def Team.record (t : Team) : DescribedRecord := ⟨t.uuid.bytes, t.name, t.description⟩

/-- The record of a stored channel. -/
def Channel.record (c : Channel) : DescribedRecord := ⟨c.uuid.bytes, c.name, c.description⟩

/-- The record of a stored thread. -/
def Thread.record (t : Thread) : ThreadRecord :=
  ⟨t.uuid.bytes, t.creatorUuid, t.timestamp, t.title, t.body⟩

/-- The record of a stored reply of the thread `threadUuid`. -/
def Reply.record (threadUuid : Bytes 36) (r : Reply) : ReplyRecord :=
  ⟨threadUuid, r.creatorUuid, r.timestamp, r.body⟩

/-- The record of a stored private message. -/
def Message.record (m : Message) : MessageRecord :=
  ⟨m.senderUuid, m.receiverUuid, m.timestamp, m.body⟩

theorem appendUser_eq (data : ServerData) (p : List UInt8) (u : User) :
    appendUser data p u = p ++ (u.record data).bytes := by
  simp [appendUser, User.record, UserRecord.bytes]

theorem appendTeam_eq (p : List UInt8) (t : Team) : appendTeam p t = p ++ t.record.bytes := by
  simp [appendTeam, Team.record, DescribedRecord.bytes]

theorem appendChannel_eq (p : List UInt8) (c : Channel) :
    appendChannel p c = p ++ c.record.bytes := by
  simp [appendChannel, Channel.record, DescribedRecord.bytes]

theorem appendThread_eq (p : List UInt8) (t : Thread) : appendThread p t = p ++ t.record.bytes := by
  simp [appendThread, Thread.record, ThreadRecord.bytes, be64]

theorem appendReply_eq (u : Bytes 36) (p : List UInt8) (r : Reply) :
    appendReply u p r = p ++ (r.record u).bytes := by
  simp [appendReply, Reply.record, ReplyRecord.bytes, be64]

theorem appendMessage_eq (p : List UInt8) (m : Message) :
    appendMessage p m = p ++ m.record.bytes := by
  simp [appendMessage, Message.record, MessageRecord.bytes, be64]

/-- Appending record after record to a count is the layout of the list body. -/
theorem foldl_append_eq_listBytes {α ρ : Type} {append : List UInt8 → α → List UInt8}
    {record : α → ρ} {bytes : ρ → List UInt8} (h : ∀ p a, append p a = p ++ bytes (record a))
    (l : List α) :
    l.foldl append (appendU32 [] (UInt32.ofNat l.length)) = listBytes bytes (l.map record) := by
  have hfold : ∀ p, l.foldl append p = p ++ ((l.map record).map bytes).flatten := by
    induction l with
    | nil => simp
    | cons a l ih =>
      intro p
      rw [List.foldl_cons, ih, h, List.map_cons, List.map_cons, List.flatten_cons,
        List.append_assoc]
  rw [hfold, appendU32_eq, List.nil_append, listBytes, List.length_map]

end MyTeams
