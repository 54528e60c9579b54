import MyTeams.Connections
import MyTeams.SameOrder

/-!
# Who has written

A client that calls `client_event_private_message_received` shows a sender and a text that it has
from the server alone. Both are authentic: every connection that the server has is that of a client
(`Net.Attributed`), what the server dispatches on it is what that client has packed, and the sender
is not taken from the packet but is the user of the session that the connection has. And the event
is shown to nobody but the receiver whom the packet names (`private_messages_authentic`). This is
about the event only: the list that `/messages` shows holds the messages of both users, so also
those that the client itself has written.
-/

namespace MyTeams

open ByteField FirstMatch FrameStream Server

/-! ### A private message on the server -/

theorem length_extractSv_le (p : List UInt8) (offset size : ℕ) :
    (Server.extractSv p offset size).length ≤ size := by
  rw [Server.extractSv]
  split_ifs
  · exact Nat.zero_le size
  · exact List.length_take_le _ _

/-- A text that was taken out of a field fits into it. -/
theorem cut_fill_extractSv (p : List UInt8) (offset size : ℕ) :
    cut (fill size (cut (Server.extractSv p offset size))).toList =
      cut (Server.extractSv p offset size) := by
  rw [cut_fill_of_not_mem (not_mem_cut _), List.take_of_length_le]
  exact (List.takeWhile_prefix _).length_le.trans (length_extractSv_le p offset size)

/-- **A private message is announced** for a `CMD_SEND`, with the user of the session as its sender,
to sessions of the receiver. -/
theorem Serves.messageReceived {host : Host} {fd d : Fd} {payload : List UInt8} {data : ServerData}
    {cmd : Option Command} {a : Answer} (h : Serves host fd payload data cmd a) {e : Msg × List Fd}
    (he : e ∈ a.events) (hd : d ∈ e.2) {s : Bytes 36} {b : Bytes 512}
    (hmsg : e.1 = ⟨.evt .messageReceived, .received s b⟩) :
    cmd = some .send ∧ (∃ user, data.sessions[fd]? = some user ∧ s = fill 36 user) ∧
      b = fill 512 (cut (Server.extractSv payload 36 512)) ∧
      data.sessions[d]? = some (payload.take 36) := by
  cases h with
  | loginKnown | loginNew | logout =>
    simp only [presenceEvents] at he
    split_ifs at he
    · cases he
    · rw [List.mem_singleton.1 he] at hmsg
      cases hmsg
  | send hs huuid hreceiver hnew =>
    dsimp only at he
    split_ifs at he
    · cases he
    · rw [List.mem_singleton.1 he] at hmsg hd
      obtain ⟨-, hbody⟩ := Msg.mk.inj hmsg
      obtain ⟨rfl, rfl⟩ := Body.received.inj hbody
      rw [mem_userFds, extractSv_of_findUser (huuid ▸ hreceiver)] at hd
      rw [hnew]
      exact ⟨rfl, ⟨_, hs, rfl⟩, rfl, hd⟩
  | createTeam | createChannel | createThread | createReply =>
    rw [List.mem_singleton.1 he] at hmsg
    cases hmsg
  | _ => cases he

/-- An event is for other connections than the one that caused it, and for each of its audience. -/
theorem Serves.exists_event {host : Host} {fd d : Fd} {payload : List UInt8} {data : ServerData}
    {cmd : Option Command} {a : Answer} (h : Serves host fd payload data cmd a) {m : Msg}
    (hm : m ∈ a.messagesTo fd d) {evt : Event} (hcode : m.code = .evt evt) :
    d ≠ fd ∧ ∃ e ∈ a.events, e.1 = m ∧ d ∈ e.2 := by
  rw [Answer.messagesTo] at hm
  split_ifs at hm with hd
  -- no response is an event
  · have hpush := h.not_push
    rw [← List.mem_singleton.1 hm, (isPush_code m.code).2 ⟨_, hcode⟩] at hpush
    cases hpush
  · obtain ⟨e, he, hme⟩ := List.mem_flatMap.1 hm
    obtain ⟨hcount, rfl⟩ := List.mem_replicate.1 hme
    exact ⟨hd, e, he, rfl, List.count_pos_iff.1 (Nat.pos_of_ne_zero hcount)⟩

/-- A private message is shown for `EVT_MESSAGE_RECEIVED`. -/
theorem Msg.eq_of_messageReceived {m : Msg} {c : Client} {sender body : Str}
    (hk : Callback.eventPrivateMessageReceived sender body ∈ m.calls c) :
    ∃ s b, m = ⟨.evt .messageReceived, .received s b⟩ ∧ sender = cut s.toList ∧
      body = cut b.toList := by
  obtain ⟨code, b⟩ := m
  unfold Msg.calls at hk
  dsimp only at hk
  split at hk
  case h_32 s b =>
    obtain ⟨rfl, rfl⟩ := Callback.eventPrivateMessageReceived.inj (List.mem_singleton.1 hk)
    exact ⟨s, b, rfl, rfl, rfl⟩
  all_goals
    first
    | cases List.mem_singleton.1 hk
    | obtain ⟨r, -, h⟩ := List.mem_map.1 hk
      cases h
    | cases hk

/-! ### Who the connections belong to -/

/-- A connection that the server has after an action was accepted by it, or was there and was not
closed. -/
theorem Server.contains_of_perform {host : ℕ → Host} {s : Server} {a : Action} (ha : s.Enabled a)
    {fd : Fd} (h : (perform host a s).clients.contains fd = true) :
    a = .accept fd ∨ s.clients.contains fd = true ∧ a.closes fd = false := by
  cases a with
  | accept fd' =>
    have hinsert : (s.clients.insert fd' ⟨fd', [], []⟩).contains fd = true := h
    rw [IntMap.contains_insert, Bool.or_eq_true, beq_iff_eq] at hinsert
    exact hinsert.imp (congrArg _) fun h ↦ ⟨h, rfl⟩
  | receive fd' tmp => exact .inr ⟨(contains_modifyClient ha.1 _ fd).symm.trans h, rfl⟩
  | write fd' n => exact .inr ⟨(contains_write ha n fd).symm.trans h, rfl⟩
  | frame fd' cmd payload =>
    obtain ⟨c, rest, hc, -⟩ := ha
    have hclient : s.clients.contains fd' = true := (IntMap.contains_iff _).2 ⟨c, hc⟩
    exact .inr ⟨(contains_frame hclient cmd payload fd).symm.trans h, rfl⟩
  | disconnect fd' =>
    rw [contains_disconnect, Bool.and_eq_true, bne_iff_ne] at h
    exact .inr ⟨h.2, beq_false_of_ne h.1⟩

namespace Net

variable {host : ℕ → Host} {io : ℕ → Option ℕ} {N : Net}

/-- **Who is behind it**: every connection that the server has is that of a client, and the frame
for which a message was queued to a client is a packet of some client, which is the client itself if
the frame came on its own connection. -/
structure Attributed (N : Net) : Prop where
  manned : ∀ fd, N.server.clients.contains fd = true → ∃ q ∈ N.peers, q.fd = fd ∧ q.connected = true
  packed : ∀ p ∈ N.peers, ∀ x ∈ p.mail, ∀ fd code payload, x.cause = .frame fd code payload →
    ∃ q ∈ N.peers, q.fd = fd ∧ (code, payload) ∈ q.client.packets
  own : ∀ p ∈ N.peers, ∀ x ∈ p.mail, ∀ code payload, x.cause = .frame p.fd code payload →
    (code, payload) ∈ p.client.packets

theorem attributed_start : start.Attributed :=
  ⟨fun _ h ↦ (by cases h), fun _ hp ↦ absurd hp List.not_mem_nil,
    fun _ hp ↦ absurd hp List.not_mem_nil⟩

theorem exists_mem_modify {α : Type} {l : List α} {i : ℕ} {f : α → α} {a : α} (ha : a ∈ l) :
    ∃ b ∈ l.modify i f, b = a ∨ b = f a := by
  obtain ⟨j, hj⟩ := List.mem_iff_getElem?.1 ha
  have hget : (l.modify i f)[j]? = some (if i = j then f a else a) := by
    rw [List.getElem?_modify, hj]
    rfl
  refine ⟨_, List.mem_of_getElem? hget, ?_⟩
  split_ifs
  · exact .inr rfl
  · exact .inl rfl

/-- **A move of one client.** -/
theorem Attributed.modify (h : N.Attributed) {i : ℕ} {f : Peer → Peer} (hfd : ∀ p, (f p).fd = p.fd)
    (hmail : ∀ p, (f p).mail = p.mail) (hconnected : ∀ p, (f p).connected = p.connected)
    (hpackets : ∀ p, p.client.packets <+: (f p).client.packets) :
    Attributed ⟨N.server, N.peers.modify i f⟩ := by
  have hmailed {p : Peer} (hp : p ∈ N.peers) : ∀ x ∈ p.mail, ∀ fd code payload,
    x.cause = .frame fd code payload →
      ∃ q ∈ N.peers.modify i f, q.fd = fd ∧ (code, payload) ∈ q.client.packets := by
    intro x hx fd code payload hcause
    obtain ⟨q, hq, rfl, hpacked⟩ := h.packed p hp x hx fd code payload hcause
    obtain ⟨q', hq', rfl | rfl⟩ := exists_mem_modify (i := i) (f := f) hq
    · exact ⟨q', hq', rfl, hpacked⟩
    · exact ⟨f q, hq', hfd q, (hpackets q).subset hpacked⟩
  refine ⟨fun fd hfd' ↦ ?_, forall_mem_modify (fun p hp ↦ hmailed hp) fun p hp ↦ ?_,
    forall_mem_modify h.own fun p hp ↦ ?_⟩
  · obtain ⟨q, hq, rfl, hon⟩ := h.manned fd hfd'
    obtain ⟨q', hq', rfl | rfl⟩ := exists_mem_modify (i := i) (f := f) hq
    · exact ⟨q', hq', rfl, hon⟩
    · exact ⟨f q, hq', hfd q, (hconnected q).trans hon⟩
  · rw [hmail]
    exact hmailed (List.mem_of_getElem? hp)
  · rw [hmail, hfd]
    exact fun x hx code payload hcause ↦
      (hpackets p).subset (h.own p (List.mem_of_getElem? hp) x hx code payload hcause)

/-- The frame that is dispatched is the next packet of a client that is connected. -/
theorem packed_of_frame (hlinked : ∀ p ∈ N.peers, System.Linked host p.fd (p.view N.server))
    {q : Peer} (hq : q ∈ N.peers) (hon : q.connected = true) {code : UInt16} {payload : List UInt8}
    (ha : N.Enabled (.act (.frame q.fd code payload))) : (code, payload) ∈ q.client.packets := by
  have hget := (hlinked q hq).next ⟨hon, ha.1, ha.2 q hq hon⟩
  exact List.mem_map.2 ⟨_, List.mem_of_getElem? hget, rfl⟩

theorem Attributed.exists_packed (h : N.Attributed)
    (hlinked : ∀ p ∈ N.peers, System.Linked host p.fd (p.view N.server)) {fd : Fd} {code : UInt16}
    {payload : List UInt8} (ha : N.Enabled (.act (.frame fd code payload))) :
    ∃ q ∈ N.peers, q.fd = fd ∧ (code, payload) ∈ q.client.packets := by
  obtain ⟨c, rest, hc, -⟩ := ha.1
  obtain ⟨q, hq, rfl, hon⟩ := h.manned fd ((IntMap.contains_iff _).2 ⟨c, hc⟩)
  exact ⟨q, hq, rfl, packed_of_frame hlinked hq hon ha⟩

/-- **An action of the server.** -/
theorem Attributed.act (h : N.Attributed)
    (hlinked : ∀ p ∈ N.peers, System.Linked host p.fd (p.view N.server)) {a : Action}
    (ha : N.Enabled (.act a)) : (N.move host io (.act a)).Attributed := by
  have hserved {q : Peer} (hq : q ∈ N.peers) :
      q.serve host N.server a ∈ (N.move host io (.act a)).peers :=
    List.mem_append_left _ (List.mem_map_of_mem hq)
  refine ⟨fun fd hfd ↦ ?_, fun p hp x hx fd code payload hcause ↦ ?_,
    fun p hp x hx code payload hcause ↦ ?_⟩
  · rcases contains_of_perform ha.1 hfd with rfl | ⟨hbefore, hcloses⟩
    · exact ⟨.start fd, List.mem_append_right _ (List.mem_singleton_self _), rfl, rfl⟩
    · obtain ⟨q, hq, rfl, hon⟩ := h.manned fd hbefore
      refine ⟨_, hserved hq, Peer.fd_serve host _ a q, ?_⟩
      rw [Peer.serve, if_pos hon, hcloses]
      rfl
  · rcases List.mem_append.1 hp with hp | hp
    · obtain ⟨q₀, hq₀, rfl⟩ := List.mem_map.1 hp
      have hsender : ∃ q ∈ N.peers, q.fd = fd ∧ (code, payload) ∈ q.client.packets := by
        rw [Peer.serve] at hx
        split_ifs at hx
        · rcases List.mem_append.1 hx with hx | hx
          · exact h.packed q₀ hq₀ x hx fd code payload hcause
          · obtain ⟨b, -, rfl⟩ := List.mem_map.1 hx
            obtain rfl : a = .frame fd code payload := hcause
            exact h.exists_packed hlinked ha
        · exact h.packed q₀ hq₀ x hx fd code payload hcause
      obtain ⟨q, hq, rfl, hpacked⟩ := hsender
      refine ⟨_, hserved hq, Peer.fd_serve host _ a q, ?_⟩
      rwa [Peer.client_serve]
    · obtain ⟨fd, -, rfl⟩ := mem_accepted.1 hp
      cases hx
  · rcases List.mem_append.1 hp with hp | hp
    · obtain ⟨q, hq, rfl⟩ := List.mem_map.1 hp
      rw [Peer.fd_serve] at hcause
      rw [Peer.client_serve]
      rw [Peer.serve] at hx
      split_ifs at hx with hon
      · rcases List.mem_append.1 hx with hx | hx
        · exact h.own q hq x hx code payload hcause
        · obtain ⟨b, -, rfl⟩ := List.mem_map.1 hx
          obtain rfl : a = .frame q.fd code payload := hcause
          exact packed_of_frame hlinked hq hon ha
      · exact h.own q hq x hx code payload hcause
    · obtain ⟨fd, -, rfl⟩ := mem_accepted.1 hp
      cases hx

theorem attributed_of_steps {allowed : Net → NetMove → Prop} (h : Steps host io allowed start N) :
    N.Attributed := by
  induction h with
  | refl => exact attributed_start
  | tail hsteps hstep ih =>
    obtain ⟨m, hm, -, rfl⟩ := hstep
    cases m with
    | type j buf =>
      exact ih.modify (fun _ ↦ rfl) (fun _ ↦ rfl) (fun _ ↦ rfl)
        fun p ↦ (Client.packed_grows_handleStdin buf p.client).map _
    | flush j =>
      refine ih.modify (fun _ ↦ rfl) (fun _ ↦ rfl) (fun _ ↦ rfl) fun p ↦ ?_
      show p.client.packed.map _ <+: (p.client.handleServerWrite io).packed.map _
      rw [Client.handleServerWrite_packed]
    | read j n =>
      exact ih.modify (fun _ ↦ rfl) (fun _ ↦ rfl) (fun _ ↦ rfl) fun p ↦
        (Client.receives_handleServerRead (p.down.take n) p.client).packets.symm ▸
          List.prefix_refl _
    | act a => exact ih.act (linked_of_steps hsteps).2 hm

/-! ### What is shown -/

/-- **A private message is shown as it was written, and only to the one it was written to.** In
every run of the loops in which at most `capacity` frames are dispatched, a client that calls
`client_event_private_message_received` shows a packet that another client has packed, a `CMD_SEND`
with the text that is shown, cut as the field cuts it. When the server dispatched it, that other
client had a session of the user who is shown as the sender, and the receiver whom the packet names
was the user of the session of the client that shows it; and that is who this client takes itself
for when it shows it. -/
theorem private_messages_authentic (hrun : Turns host io start N)
    (hserved : N.server.served ≤ capacity) {p : Peer} (hp : p ∈ N.peers) {n : ℕ} {sender body : Str}
    (hk : (n, .eventPrivateMessageReceived sender body) ∈ p.client.made) :
    ∃ q ∈ N.peers, ∃ x ∈ p.mail, ∃ payload, q.fd ≠ p.fd ∧
      (Command.send.code, payload) ∈ q.client.packets ∧
      x.cause = .frame q.fd Command.send.code payload ∧
      x.before.data.sessions[q.fd]? = some sender ∧ body = cut (Server.extractSv payload 36 512) ∧
      x.before.data.sessions[p.fd]? = some (payload.take 36) ∧
      account (p.client.handled.take n) = payload.take 36 := by
  have hsteps := fitting_of_turns hrun hserved
  have hsound := sound_of_fitting hsteps
  obtain ⟨hid, -⟩ := (identified_of_steps hsteps).2 p hp
  obtain ⟨j, x, calls, rfl, hx, hframe, ⟨m, c, hmail₀, rfl⟩, hcall⟩ :=
    (hsound.tells p hp).exists_mail hk (fun _ h ↦ by cases h)
  obtain ⟨s, b, rfl, rfl, rfl⟩ := Msg.eq_of_messageReceived hcall
  obtain ⟨a, hserves, hm⟩ := hmail₀.answer
  obtain ⟨hne, e, he, hmsg, hd⟩ := hserves.exists_event hm rfl
  obtain ⟨hcmd, ⟨user, hs, rfl⟩, rfl, hreceiver⟩ := hserves.messageReceived he hd hmsg
  have hcause := x.cause.eq_frame_of_request hcmd (by decide)
  have hxmail := List.mem_of_getElem? hx
  obtain ⟨q, hq, hfd, hpacked⟩ := (attributed_of_steps hsteps).packed p hp x hxmail _ _ _ hcause
  rw [← hfd] at hs hcause hne
  refine ⟨q, hq, x, hxmail, _, hne.symm, hpacked, hcause, ?_, ?_, hreceiver, ?_⟩
  · obtain ⟨uuid, -, rfl⟩ := hmail₀.reachable.registry.session _ _ hs
    rw [hs, toList_fill_of_length uuid.length_str, uuid.cut_str]
  · exact cut_fill_extractSv _ 36 512
  -- the account of the client is that of the session
  · obtain ⟨-, -, -, hbefore⟩ := hid.mail j x hx
    have hcode : x.frame.1 ≠ Response.loginOk.code := by
      rw [hmail₀.frame]
      have hdiff : ServerCode.evt .messageReceived ≠ .res .loginOk := fun h ↦ by cases h
      exact fun h ↦ hdiff (ServerCode.code_injective h)
    rw [(hsound.linked p hp).handled_take hx hframe, account_concat, accountAfter_of_ne hcode]
    exact hbefore _ hreceiver

/-- Two users log in, and the second writes to the first. -/
def messageWritten : List (Net → Turn) :=
  [accepting 4, accepting 5, typing 0 (text "/login a\n"), readAll, typing 1 (text "/login b\n"),
    readAll, typing 1 (text "/send " ++ (plainUuid 0).str ++ text " hi\n"), readAll, readAll,
    reading 0 5000]

/-- The first is shown who has written to him. -/
theorem private_messages_authentic_messageWritten :
    let N := played messageWritten start
    ∃ q ∈ N.peers, ∃ x ∈ N.firstPeer.mail, ∃ payload, q.fd ≠ 4 ∧
      (Command.send.code, payload) ∈ q.client.packets ∧
      x.before.data.sessions[q.fd]? = some (plainUuid 1).str ∧
      text "hi" = cut (Server.extractSv payload 36 512) ∧
      x.before.data.sessions[(4 : Fd)]? = some (payload.take 36) := by
  intro N
  have hturns : Turns plainHost (fun _ ↦ some 65535) start N := turns_played (by decide +kernel)
  have hfd : N.firstPeer.fd = 4 := by decide +kernel
  have hk : (3, .eventPrivateMessageReceived (plainUuid 1).str (text "hi")) ∈
      N.firstPeer.client.made := by
    decide +kernel
  obtain ⟨q, hq, x, hx, payload, hne, hpacked, -, hsender, hbody, hreceiver, -⟩ :=
    private_messages_authentic hturns (by decide +kernel) (firstPeer_mem (by decide +kernel)) hk
  rw [hfd] at hne hreceiver
  exact ⟨q, hq, x, hx, payload, hne, hpacked, hsender, hbody, hreceiver⟩

end Net

end MyTeams
