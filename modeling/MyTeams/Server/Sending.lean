import MyTeams.Server.Audience
import MyTeams.Server.Disclosure

/-!
# The body of a private message

`CMD_SEND` is cut into its two arguments by `extract_sv`, which answers a range that does not fit
with an empty view. For the uuid that is safe, since `handle_send` checks its length. For the body
it is not: a body shorter than 512 bytes becomes an empty one, is stored and announced, and the
sender is told that all went well. `keepsBody_iff` is the exact condition under which that does not
happen.
-/

namespace MyTeams

open ByteField

/-! ### The handler -/

/-- The body that a `CMD_SEND` payload carries: what follows the uuid, up to the first zero byte. -/
def sentBody (payload : List UInt8) : Str := cut (payload.drop 36)

/-- The condition: the receiver is known, and a body is given that is shorter than its field. -/
def LosesBody (payload : List UInt8) (data : ServerData) : Prop :=
  (∃ receiver, findUserByUuid data (Server.extractSv payload 0 36) = some receiver) ∧
    payload.length < 36 + 512 ∧ sentBody payload ≠ []

theorem newMessage_body (host : Host) (sender receiver body : Str) :
    (newMessage host sender receiver body).body = fill 512 (cut body) := rfl

/-- **What is stored** is the body of the payload, unless that is cut off by `extract_sv`. -/
theorem newMessage_body_iff (host : Host) (sender receiver : Str) (payload : List UInt8) :
    (newMessage host sender receiver (Server.extractSv payload 36 512)).body =
        fill 512 (sentBody payload) ↔
      ¬ (payload.length < 36 + 512 ∧ sentBody payload ≠ []) := by
  rw [newMessage_body, Server.extractSv]
  split_ifs with hshort
  · have hempty := fill_nil_eq_iff (n := 512) (by decide) (not_mem_cut (payload.drop 36))
    rw [show cut [] = [] from rfl, sentBody, hempty, not_and, not_not, forall_prop_of_true hshort]
  · rw [cut_take, fill_take]
    exact iff_of_true rfl fun h ↦ hshort h.1

/-- A request whose receiver is found is accepted. -/
theorem handleSend_code {host : Host} {fd : Fd} {data : ServerData} {sender receiverUuid body : Str}
    {receiver : User} (hs : data.sessions[fd]? = some sender)
    (h : findUserByUuid data receiverUuid = some receiver) :
    (handleSend host fd receiverUuid body data).result.response.code = Response.sendOk.code := by
  have hlength : receiverUuid.length = 36 := by rw [← str_of_findUserByUuid h, Uuid.length_str]
  rw [handleSend, withSession_of_some hs, withUuid36_of_length hlength, withUser_of_some h]
  rfl

namespace Server

variable {host : ℕ → Host} {s : Server} {fd : Fd} {payload : List UInt8}

/-! ### The law -/

/-- The event of a private message with the body that the payload carries. -/
def bodyEvent (sender : Bytes 36) (payload : List UInt8) : Msg :=
  ⟨.evt .messageReceived, .received sender (fill 512 (sentBody payload))⟩

/-- **A message stored and announced with the body of its payload.** -/
structure StoresBody (host : ℕ → Host) (s : Server) (fd : Fd) (payload : List UInt8) : Prop where
  /-- One message is stored, with that body. -/
  stored : ∃ m : Message,
    (perform host (.frame fd Command.send.code payload) s).data.messages = s.data.messages ++ [m] ∧
      m.body = fill 512 (sentBody payload)
  /-- The events of the handler carry that body. -/
  pushed : ∃ sender : Bytes 36, ∀ push ∈
      (frameOutcome (host s.served) fd Command.send.code payload s.data).result.pushes,
    push.packet = (bodyEvent sender payload).packet
  /-- One of them is queued to every other session of the receiver. -/
  queued : ∃ sender : Bytes 36, ∀ d, d ≠ fd → s.data.sessions[d]? = some (payload.take 36) →
    newMessages d s (perform host (.frame fd Command.send.code payload) s) =
      [(bodyEvent sender payload).bytes]

/-- **No accepted private message loses its body**: the request is refused and stores nothing, or
its body is stored and announced. -/
def KeepsBody (host : ℕ → Host) (s : Server) (fd : Fd) (payload : List UInt8) : Prop :=
  (∃ e : Error, (frameOutcome (host s.served) fd Command.send.code payload
      s.data).result.response.code = e.code ∧
    (perform host (.frame fd Command.send.code payload) s).data.messages = s.data.messages) ∨
  StoresBody host s fd payload

/-- **When a private message keeps its body.** In every reachable state, a `CMD_SEND` of a logged-in
connection is refused, or stored and announced with the body of its payload, exactly when it does
not give a known receiver a non-empty body in less than 512 bytes. -/
theorem keepsBody_iff (h : Reachable host s) {user : Str} (hs : s.data.sessions[fd]? = some user)
    (ha : s.Enabled (.frame fd Command.send.code payload)) :
    KeepsBody host s fd payload ↔ ¬ LosesBody payload s.data := by
  obtain ⟨c, rest, hc, -⟩ := ha
  have hmem : s.clients.contains fd = true := (IntMap.contains_iff _).2 ⟨c, hc⟩
  obtain ⟨answer, hserves, hdata, hresult⟩ :=
    exists_serves_frame host h.sessionsWf fd Command.send.code payload
  have hqueue := @queuedOn_frame host s _ fd _ payload hmem hresult
  rw [Command.ofCode?_code] at hserves
  have haccepted {receiver : User}
      (hreceiver : findUserByUuid s.data (extractSv payload 0 36) = some receiver) :
      (frameOutcome (host s.served) fd Command.send.code payload s.data).result.response.code =
        Response.sendOk.code := by
    rw [frameOutcome_of_session hs (Command.ofCode?_code _), handle]
    exact handleSend_code hs hreceiver
  cases hserves with
  | unauthorized hnone =>
    rw [hs] at hnone
    cases hnone
  | @refused _ _ e b =>
    have hcode : (frameOutcome (host s.served) fd Command.send.code payload
        s.data).result.response.code = e.code := by
      rw [hresult]
      rfl
    refine iff_of_true (.inl ⟨e, hcode, ?_⟩) ?_
    · rw [hdata]
      rfl
    · rintro ⟨⟨receiver, hreceiver⟩, -⟩
      exact res_code_ne_err_code .sendOk e ((haccepted hreceiver).symm.trans hcode)
  | dangling _ hcmd => simp at hcmd
  | @send sender receiverUuid receiver msg _ huuid hreceiver hmsg =>
    subst huuid
    have hcode := haccepted hreceiver
    have hafter : (perform host (.frame fd Command.send.code payload) s).data.messages =
        s.data.messages ++ [msg] := by
      rw [hdata]
    -- the message that is stored decides both sides
    have hbody := newMessage_body_iff (host s.served) sender (extractSv payload 0 36) payload
    rw [← hmsg] at hbody
    rw [LosesBody, and_iff_right ⟨receiver, hreceiver⟩, ← hbody]
    constructor
    · rintro (⟨e, herror, -⟩ | hstores)
      · exact absurd (hcode.symm.trans herror) (res_code_ne_err_code .sendOk e)
      · obtain ⟨m, hm, hbody⟩ := hstores.stored
        rw [hafter] at hm
        rw [← List.singleton_inj.1 (List.append_cancel_left hm)] at hbody
        exact hbody
    · intro hstored
      have hevent : (⟨.evt .messageReceived, .received msg.senderUuid msg.body⟩ : Msg) =
          bodyEvent msg.senderUuid payload := by
        rw [bodyEvent, hstored]
      refine .inr ⟨⟨msg, hafter, hstored⟩, ⟨msg.senderUuid, fun push hpush ↦ ?_⟩,
        ⟨msg.senderUuid, fun d hd hsession ↦ ?_⟩⟩
      · rw [hresult, Answer.result] at hpush
        obtain ⟨event, hmem', rfl⟩ := List.mem_map.1 hpush
        dsimp only at hmem' ⊢
        split_ifs at hmem'
        · cases hmem'
        · rw [List.mem_singleton.1 hmem', ← hevent]
      · have hfds : d ∈ userFds s.data receiver.uuid.str := by
          rw [mem_userFds, extractSv_of_findUser hreceiver, hsession]
        have hclient : s.clients.contains d = true :=
          h.registry.client d ((IntMap.contains_iff _).2 ⟨_, hsession⟩)
        have hpushed : ¬ (userFds s.data receiver.uuid.str).isEmpty = true := by
          rw [List.isEmpty_iff]
          exact List.ne_nil_of_mem hfds
        rw [newMessages_of_append (hqueue d), if_pos hclient, ← hevent,
          messagesTo_of_event hd (if_neg hpushed) (nodup_userFds _ _), if_pos hfds]
        rfl

/-- Two users, and a private message from the first to the second that has arrived in full. -/
def aboutToSend (body : List UInt8) : List Action :=
  .accept 4 :: request 4 .login [97] ++ .accept 5 :: request 5 .login [98] ++
    [.receive 4 (makeMessage Command.send.code ((plainUuid 1).str ++ body))]

/-- A body of 512 bytes is kept. -/
theorem keepsBody_full :
    KeepsBody plainHost (execute plainHost (aboutToSend (List.replicate 512 104)) Server.init) 4
      ((plainUuid 1).str ++ List.replicate 512 104) := by
  have hs : (execute plainHost (aboutToSend (List.replicate 512 104))
      Server.init).data.sessions[(4 : Fd)]? = some (plainUuid 0).str := by decide +kernel
  refine (keepsBody_iff (reachable_execute (by decide +kernel)) hs (by decide +kernel)).2 ?_
  rintro ⟨-, hshort, -⟩
  rw [List.length_append, Uuid.length_str, List.length_replicate] at hshort
  omega

/-- The body `hi` is stored as 512 zero bytes. -/
theorem not_keepsBody_short :
    ¬ ∀ (s : Server) (fd : Fd) (payload user : List UInt8), Reachable plainHost s →
      s.data.sessions[fd]? = some user → s.Enabled (.frame fd Command.send.code payload) →
      KeepsBody plainHost s fd payload := by
  intro hlaw
  let payload := (plainUuid 1).str ++ [104, 105]
  let s := execute plainHost (aboutToSend [104, 105]) Server.init
  have hs : s.data.sessions[(4 : Fd)]? = some (plainUuid 0).str := by decide +kernel
  have hcode : (frameOutcome (plainHost s.served) 4 Command.send.code payload
      s.data).result.response.code = Response.sendOk.code := by decide +kernel
  have hbodies : (perform plainHost (.frame 4 Command.send.code payload)
      s).data.messages.map Message.body = [zeros 512] := by decide +kernel
  rcases hlaw s 4 payload _ (reachable_execute (by decide +kernel)) hs (by decide +kernel) with
    ⟨e, herror, -⟩ | hstores
  · exact res_code_ne_err_code .sendOk e (hcode.symm.trans herror)
  · obtain ⟨m, hm, hbody⟩ := hstores.stored
    rw [hm, List.map_append] at hbodies
    have hlast := congrArg List.getLast? hbodies
    rw [List.map_singleton, List.getLast?_concat, hbody] at hlast
    revert hlast
    decide +kernel

end Server

end MyTeams
