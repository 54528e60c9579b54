import MyTeams.Server.Audience
import MyTeams.Server.Disclosure
import MyTeams.Server.History

/-!
# Private conversations

One vector holds all private messages, and `CMD_MESSAGES` filters it by the two uuids. Along a run
that vector is the log of the `CMD_SEND` frames that were answered `RES_SEND_OK`
(`Reachable.messages_eq`), so what the filter leaves is the conversation of the two users, the same
for both.
-/

namespace MyTeams

open ByteField

namespace Dispatch

/-- The sender of a private message: the user of the session. -/
def sender (d : Dispatch) : Str := d.data.sessions[d.fd]?.getD []

/-- The receiver it names. -/
def receiver (d : Dispatch) : Str := Server.extractSv d.payload 0 36

/-- The frame was a `CMD_SEND` that was answered `RES_SEND_OK`. -/
def Sends (d : Dispatch) : Prop :=
  Command.ofCode? d.cmd = some .send ∧ d.response.code = Response.sendOk.code

instance (d : Dispatch) : Decidable d.Sends := inferInstanceAs (Decidable (_ ∧ _))

/-- The message as it is stored: who sent it to whom, when, and the text up to its first zero
byte. -/
def message (d : Dispatch) : Message :=
  newMessage d.host d.sender d.receiver (Server.extractSv d.payload 36 512)

end Dispatch

/-- The messages that went from one of two users to the other, oldest first. -/
def conversation (a b : Str) (ds : List Dispatch) : List Message :=
  (ds.filter fun d ↦ d.Sends ∧
    (d.sender = a ∧ d.receiver = b ∨ d.sender = b ∧ d.receiver = a)).map Dispatch.message

theorem length_of_findUserByUuid {data : ServerData} {uuid : Str} {user : User}
    (h : findUserByUuid data uuid = some user) : uuid.length = 36 := by
  rw [← str_of_findUserByUuid h]
  exact user.uuid.length_str

/-- **What a frame does to the messages**: it sends one, or leaves them alone and is not answered
`RES_SEND_OK`. -/
theorem Serves.messages_cases {host : Host} {fd : Fd} {payload : List UInt8} {data : ServerData}
    {cmd : Option Command} {a : Answer} (h : Serves host fd payload data cmd a) :
    (cmd = some .send ∧ a.msg.code = .res .sendOk ∧ ∃ user receiver,
        data.sessions[fd]? = some user ∧
        findUserByUuid data (Server.extractSv payload 0 36) = some receiver ∧
        a.data.messages = data.messages ++ [newMessage host user (Server.extractSv payload 0 36)
          (Server.extractSv payload 36 512)]) ∨
      a.data.messages = data.messages ∧ a.msg.code ≠ .res .sendOk := by
  cases h with
  | send hs huuid hreceiver hmsg =>
    subst huuid hmsg
    exact .inl ⟨rfl, rfl, _, _, hs, hreceiver, rfl⟩
  | loginKnown _ hafter | loginNew _ _ hafter | logout _ hafter =>
    exact .inr ⟨by rw [hafter]; rfl, by simp⟩
  | use hs hreq hgrant hinfo =>
    refine .inr ⟨rfl, ?_⟩
    rw [Answer.only, contextInfo_code hinfo, infoResponse]
    split_ifs <;> simp
  | list hs hctx hlist =>
    refine .inr ⟨rfl, ?_⟩
    rw [Answer.only, contextList_code hlist, listResponse]
    split_ifs <;> simp
  | info hs hctx hinfo =>
    refine .inr ⟨rfl, ?_⟩
    rw [Answer.only, contextInfo_code hinfo, infoResponse]
    split_ifs <;> simp
  | _ => exact .inr ⟨rfl, by simp [Answer.only]⟩

/-- A dispatch adds its message if it sends one. -/
theorem Dispatch.messages_outcome {d : Dispatch} (hwf : SessionsWf d.data) :
    (d.outcome.data.messages = d.data.messages ++ if d.Sends then [d.message] else []) ∧
      (d.Sends → d.sender.length = 36 ∧ d.receiver.length = 36) := by
  obtain ⟨a, hserves, hdata, hresult⟩ := d.realizes hwf
  have hcode : d.response.code = a.msg.code.code :=
    congrArg (fun r : Result ↦ r.response.code) hresult
  rw [hdata]
  rcases hserves.messages_cases with
    ⟨hcmd, hok, user, receiver, hs, hreceiver, hmessages⟩ | ⟨hsame, hnot⟩
  · have hsends : d.Sends := ⟨hcmd, by rw [hcode, hok]; rfl⟩
    have hsender : d.sender = user := by rw [Dispatch.sender, hs, Option.getD_some]
    rw [if_pos hsends, hmessages, Dispatch.message, hsender]
    exact ⟨rfl, fun _ ↦ ⟨hwf _ _ hs, length_of_findUserByUuid hreceiver⟩⟩
  · have hsends : ¬ d.Sends := fun hsends ↦ by
      have hres : a.msg.code.code = (ServerCode.res .sendOk).code := hcode.symm.trans hsends.2
      exact hnot (ServerCode.code_injective hres)
    rw [if_neg hsends, List.append_nil]
    exact ⟨hsame, fun h ↦ absurd h hsends⟩

/-- The filter of `CMD_MESSAGES` on the message of a dispatch. -/
theorem messageMatch_message {d : Dispatch} (hsender : d.sender.length = 36)
    (hreceiver : d.receiver.length = 36) (a b : Str) :
    messageMatch a b d.message = true ↔
      d.sender = a ∧ d.receiver = b ∨ d.sender = b ∧ d.receiver = a := by
  have hs : d.message.senderUuid.toList = d.sender := toList_fill_of_length hsender
  have hr : d.message.receiverUuid.toList = d.receiver := toList_fill_of_length hreceiver
  simp [messageMatch, hs, hr]

namespace Server

variable {host : ℕ → Host} {s : Server}

/-- **The messages are the log of the sends.** -/
theorem Reachable.messages_eq (h : Reachable host s) :
    s.data.messages =
      ((dispatches host s.trace).filter fun d ↦ d.Sends).map Dispatch.message :=
  h.log rfl (fun _ _ _ ↦ rfl) fun _ _ _ hs ↦ (Dispatch.messages_outcome hs.sessionsWf).1

/-- What `CMD_MESSAGES` filters out is a conversation. -/
theorem Reachable.filter_messages (h : Reachable host s) (a b : Str) :
    s.data.messages.filter (messageMatch a b) = conversation a b (dispatches host s.trace) := by
  rw [h.messages_eq, List.filter_map, List.filter_filter, conversation]
  congr 1
  refine List.filter_congr fun d hd ↦ ?_
  obtain ⟨s', fd, cmd, payload, hs', rfl⟩ := h.exists_of_dispatch hd
  by_cases hsends : Dispatch.Sends ⟨host s'.served, fd, cmd, payload, s'.data⟩
  · obtain ⟨hsender, hreceiver⟩ := (Dispatch.messages_outcome hs'.sessionsWf).2 hsends
    rw [Bool.eq_iff_iff, Function.comp_apply, Bool.and_eq_true, decide_eq_true_iff,
      decide_eq_true_iff, messageMatch_message hsender hreceiver, and_comm]
  · simp [hsends]

/-- `CMD_MESSAGES` for the uuid of a user shows the messages that the filter leaves. -/
theorem handleMessages_of_user {fd : Fd} {data : ServerData} {a b : Str} {user : User}
    (hs : data.sessions[fd]? = some a) (hfind : findUserByUuid data b = some user) :
    handleMessages fd b data =
      Outcome.answer data .messagesList (listBytes MessageRecord.bytes
        ((data.messages.filter (messageMatch a b)).map Message.record)) := by
  rw [handleMessages, withSession_of_some hs, withUuid36_of_length (length_of_findUserByUuid hfind),
    withUser_of_some hfind]
  exact congrArg (Outcome.answer data .messagesList)
    (foldl_append_eq_listBytes appendMessage_eq _)

theorem exists_findUserByUuid {data : ServerData} {uuid : Str}
    (h : ∃ u ∈ data.users, u.uuid.str = uuid) : ∃ u, findUserByUuid data uuid = some u := by
  obtain ⟨u, hu, rfl⟩ := h
  rw [findUserByUuid_eq u.uuid.length_str]
  exact Option.isSome_iff_exists.1 (List.find?_isSome.2 ⟨u, hu, beq_self_eq_true _⟩)

/-- The answer to `CMD_MESSAGES` for the uuid of a user. -/
theorem Reachable.messages_answer (h : Reachable host s) {fd : Fd} {cmd : UInt16}
    {payload : List UInt8} {a b : Str} (ha : s.Enabled (.frame fd cmd payload))
    (hcmd : Command.ofCode? cmd = some .messages) (hs : s.data.sessions[fd]? = some a)
    (hpayload : extractSv payload 0 36 = b) (hb : ∃ u ∈ s.data.users, u.uuid.str = b) :
    newMessages fd s (perform host (.frame fd cmd payload) s) =
      [makeMessage Response.messagesList.code (listBytes MessageRecord.bytes
        ((conversation a b (dispatches host s.trace)).map Message.record))] := by
  obtain ⟨user, hfind⟩ := exists_findUserByUuid hb
  rw [newMessages_self h.sessionsWf ha, frameOutcome_of_session hs hcmd, handle, hpayload,
    handleMessages_of_user hs hfind, h.filter_messages]
  rfl

end Server

end MyTeams
