import MyTeams.Server.Detail

/-!
# Private messages

`src/server/handlers/mtp_messages.cpp`.
-/

namespace MyTeams

open ByteField

/-- The `message_t` that `handle_send` fills in. -/
def newMessage (host : Host) (senderUuid receiverUuid body : Str) : Message :=
  { senderUuid := fill 36 senderUuid
    receiverUuid := fill 36 receiverUuid
    body := fill 512 (trimPaddedName body)
    timestamp := host.time }

/-- The descriptors whose session is the given user. -/
def userFds (data : ServerData) (uuid : Str) : List Fd :=
  (data.sessions.toList.filter fun kv ↦ kv.2 == uuid).map Prod.fst

/-- `Business::handle_send`. -/
def handleSend (host : Host) (fd : Fd) (receiverUuid body : Str) (data : ServerData) : Outcome :=
  withSession data fd fun senderUuid ↦
  withUuid36 data receiverUuid <|
  withUser data receiverUuid (appendFixed [] receiverUuid 36) fun receiver ↦
  let msg := newMessage host senderUuid receiverUuid body
  let evtPayload := appendFixed [] senderUuid 36
  let evtPayload := appendFixed evtPayload msg.body.toList 512
  let fds := userFds data receiver.uuid.str
  ⟨{ data with messages := data.messages ++ [msg] },
    { Result.reply Response.sendOk.code [] with
      pushes := if fds.isEmpty then [] else [Push.event .messageReceived evtPayload fds] },
    [ServerLog.privateMessageSended senderUuid receiver.uuid msg.body]⟩

/-- The filter of `handle_messages`: a message between the two users, either way. -/
def messageMatch (selfUuid userUuid : Str) (m : Message) : Bool :=
  (m.senderUuid.toList == selfUuid && m.receiverUuid.toList == userUuid) ||
    (m.senderUuid.toList == userUuid && m.receiverUuid.toList == selfUuid)

/-- `Business::handle_messages`. -/
def handleMessages (fd : Fd) (userUuid : Str) (data : ServerData) : Outcome :=
  withSession data fd fun selfUuid ↦
  withUuid36 data userUuid <|
  withUser data userUuid (appendFixed [] userUuid 36) fun _ ↦
  let msgs := data.messages.filter (messageMatch selfUuid userUuid)
  let payload := appendU32 [] (UInt32.ofNat msgs.length)
  let payload := msgs.foldl appendMessage payload
  Outcome.answer data .messagesList payload

end MyTeams
