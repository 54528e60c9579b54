import MyTeams.Client.Helpers
import MyTeams.Client.State

/-!
# Responses

`src/client/Server_response.cpp`. The chain of comparisons of `_handle_response` is a case analysis
on the server code, since no two codes have the same number; a number that is no server code is
ignored.
-/

namespace MyTeams

open ByteField ByteReader

/-! ### The fields that several codes share -/

/-- A uuid and a name. -/
def readAccount (f : Str → Str → Callback) : Reader Callback := do
  let uuid ← readFixed 36
  let name ← readFixed 32
  return f uuid name

/-- A uuid, a name and a status byte. -/
def readStatus (f : Str → Str → Int → Callback) : Reader Callback := do
  let uuid ← readFixed 36
  let name ← readFixed 32
  let status ← readU8
  return f uuid name status.toNat

/-- A uuid, a name and a description. -/
def readDescribed (f : Str → Str → Str → Callback) : Reader Callback := do
  let uuid ← readFixed 36
  let name ← readFixed 32
  let desc ← readFixed 255
  return f uuid name desc

/-- Two uuids, a timestamp, a title and a body. -/
def readThread (f : Str → Str → Int64 → Str → Str → Callback) : Reader Callback := do
  let tuuid ← readFixed 36
  let cuuid ← readFixed 36
  let ts ← readI64
  let title ← readFixed 32
  let body ← readFixed 512
  return f tuuid cuuid ts title body

/-- Two uuids, a timestamp and a body. -/
def readReply (f : Str → Str → Int64 → Str → Callback) : Reader Callback := do
  let tuuid ← readFixed 36
  let cuuid ← readFixed 36
  let ts ← readI64
  let body ← readFixed 512
  return f tuuid cuuid ts body

/-- A single uuid. -/
def readUuid (f : Str → Callback) : Reader Callback := do
  let uuid ← readFixed 36
  return f uuid

/-- A count, and that many records. -/
def readList (record : Reader Callback) : Reader (List Callback) := do
  let n ← readU32
  readTimes record n.toNat

/-- The calls that `_handle_response` makes for a code, reading them off the payload. -/
def responseCalls (c : Client) : ServerCode → Reader (List Callback)
  | .res .loginOk => List.singleton <$> readAccount .eventLoggedIn
  | .res .logoutOk => List.singleton <$> readAccount .eventLoggedOut
  | .res .sendOk => pure []
  | .res .subscribeOk => List.singleton <$> readUuid (.printSubscribed c.userUuid)
  | .res .unsubscribeOk => List.singleton <$> readUuid (.printUnsubscribed c.userUuid)
  | .res .userInfo => List.singleton <$> readStatus .printUser
  | .res .userDetails => List.singleton <$> readAccount fun uuid name ↦ .printUser uuid name (-1)
  | .res .teamInfo => List.singleton <$> readDescribed .printTeam
  | .res .teamCreated => List.singleton <$> readDescribed .printTeamCreated
  | .res .channelInfo => List.singleton <$> readDescribed .printChannel
  | .res .channelCreated => List.singleton <$> readDescribed .printChannelCreated
  | .res .threadInfo => List.singleton <$> readThread .printThread
  | .res .threadCreated => List.singleton <$> readThread .printThreadCreated
  | .res .replyCreated => List.singleton <$> readReply .printReplyCreated
  | .res .usersList | .res .subscribedUsers => readList (readStatus .printUsers)
  | .res .listTeams | .res .subscribedTeams => readList (readDescribed .printTeams)
  | .res .listChannels => readList (readDescribed .teamPrintChannels)
  | .res .listThreads => readList (readThread .channelPrintThreads)
  | .res .listReplies => readList (readReply .threadPrintReplies)
  | .res .messagesList =>
    -- the receiver is read and dropped
    readList (readReply fun sender _ ts body ↦ .privateMessagePrintMessages sender ts body)
  | .err .unauthorized | .err .notSubscribed => pure [.errorUnauthorized]
  | .err .alreadyExists => pure [.errorAlreadyExist]
  | .err .unknownTeam => List.singleton <$> readUuid .errorUnknownTeam
  | .err .unknownChannel => List.singleton <$> readUuid .errorUnknownChannel
  | .err .unknownThread => List.singleton <$> readUuid .errorUnknownThread
  | .err .unknownUser => List.singleton <$> readUuid .errorUnknownUser
  | .err .invalidCommand => pure [.output (text "invalid command\n")]
  | .evt .userLoggedIn => List.singleton <$> readAccount .eventLoggedIn
  | .evt .userLoggedOut => List.singleton <$> readAccount .eventLoggedOut
  | .evt .messageReceived => do
    let sender ← readFixed 36
    let body ← readFixed 512
    return [.eventPrivateMessageReceived sender body]
  | .evt .teamCreated => List.singleton <$> readDescribed .eventTeamCreated
  | .evt .channelCreated => List.singleton <$> readDescribed .eventChannelCreated
  | .evt .threadCreated => List.singleton <$> readThread .eventThreadCreated
  | .evt .replyCreated =>
    -- the timestamp is read and dropped, the team is the one of the receiver's use context
    List.singleton <$> readReply fun tuuid cuuid _ body ↦
      .eventThreadReplyReceived (cut c.useTeamUuid) tuuid cuuid body

/-- What a response does to the fields of the client: a login stores the uuid that it reported, and
a logout ends the program. -/
def Client.applyResponse (k : ServerCode) (calls : List Callback) (c : Client) : Client :=
  match k, calls with
  | .res .loginOk, .eventLoggedIn uuid _ :: _ => { c with userUuid := uuid }
  | .res .logoutOk, _ => { c with running := false }
  | _, _ => c

theorem Client.applyResponse_eq (k : ServerCode) (calls : List Callback) (c : Client) :
    ∃ running uuid, c.applyResponse k calls = { c with running := running, userUuid := uuid } := by
  unfold applyResponse
  split <;> exact ⟨_, _, rfl⟩

/-- `_handle_response`. -/
def Client.handleResponse (code : UInt16) (p : List UInt8) (c : Client) : Client :=
  let c := c.record (.handled code p)
  match ServerCode.ofCode? code with
  | none => c
  | some k =>
    let calls := ((responseCalls c k).read p).1
    calls.foldl (fun c call ↦ c.call call) (c.applyResponse k calls)

/-- Calls are made one after the other. -/
theorem foldl_call (calls : List Callback) (c : Client) :
    calls.foldl (fun c call ↦ c.call call) c =
      { c with history := c.history ++ calls.map .called } := by
  induction calls generalizing c with
  | nil => simp
  | cons call calls ih =>
    rw [List.foldl_cons, ih]
    simp [Client.call, Client.record]

end MyTeams
