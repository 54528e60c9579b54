import MyTeams.Server.Answers

/-!
# Who receives an event

The handlers compute descriptor lists and the delivery layer filters and queues them. Here both ends
meet: for the other connections, the lists are the audiences that the protocol calls for, and each
member of an audience gets one copy.
-/

namespace MyTeams

open ByteField

/-! ### Descriptor lists -/

section Fds

variable {data : ServerData} {d : Fd}

theorem nodup_loggedFds (data : ServerData) : (loggedFds data).Nodup := IntMap.nodup_keys _

theorem mem_loggedFds : d ∈ loggedFds data ↔ ∃ u, data.sessions[d]? = some u := IntMap.mem_keys _

theorem nodup_loggedFds_concat {fd : Fd} (h : data.sessions[fd]? = none) :
    (loggedFds data ++ [fd]).Nodup := by
  refine List.nodup_append.2 ⟨nodup_loggedFds data, List.nodup_singleton fd, ?_⟩
  rintro d hd _ hfd rfl
  obtain ⟨u, hu⟩ := mem_loggedFds.1 hd
  rw [List.mem_singleton.1 hfd, h] at hu
  cases hu

theorem nodup_userFds (data : ServerData) (uuid : Str) : (userFds data uuid).Nodup :=
  IntMap.nodup_filter_keys _ _

theorem mem_userFds {uuid : Str} : d ∈ userFds data uuid ↔ data.sessions[d]? = some uuid := by
  rw [userFds, IntMap.mem_filter_keys]
  constructor
  · rintro ⟨v, hv, heq⟩
    rw [hv, show v = uuid from eq_of_beq heq]
  · exact fun h ↦ ⟨uuid, h, beq_self_eq_true _⟩

theorem nodup_teamMemberFds (data : ServerData) (team : Team) : (teamMemberFds data team).Nodup :=
  IntMap.nodup_filter_keys _ _

theorem mem_teamMemberFds {team : Team} :
    d ∈ teamMemberFds data team ↔ ∃ u, data.sessions[d]? = some u ∧ u ∈ team.memberUuids := by
  rw [teamMemberFds, IntMap.mem_filter_keys]
  simp only [isSubscribedTo_iff]

end Fds

/-- Whoever is found by an uuid has it. -/
theorem str_of_findUserByUuid {data : ServerData} {uuid : Str} {user : User}
    (h : findUserByUuid data uuid = some user) : user.uuid.str = uuid := by
  rw [findUserByUuid] at h
  split_ifs at h
  have hfound := List.find?_some h
  exact eq_of_beq hfound

/-- A receiver that is found is named by the first 36 bytes of the payload. -/
theorem extractSv_of_findUser {data : ServerData} {payload : List UInt8} {receiver : User}
    (h : findUserByUuid data (Server.extractSv payload 0 36) = some receiver) :
    receiver.uuid.str = payload.take 36 := by
  have hfound := str_of_findUserByUuid h
  rw [hfound, Server.extractSv]
  split_ifs with hshort
  · have hlength := congrArg List.length hfound
    rw [Uuid.length_str, Server.extractSv, if_pos hshort] at hlength
    cases hlength
  · rfl

/-! ### Copies -/

section Copies

variable {fd d : Fd} {a : Answer}

theorem messagesTo_self (fd : Fd) (a : Answer) : a.messagesTo fd fd = [a.msg] := if_pos rfl

theorem messagesTo_of_no_event (hd : d ≠ fd) (h : a.events = []) : a.messagesTo fd d = [] := by
  rw [Answer.messagesTo, if_neg hd, h]
  rfl

/-- One event for a list of distinct descriptors: one copy for each of them. -/
theorem messagesTo_of_event {m : Msg} {fds : List Fd} (hd : d ≠ fd) (h : a.events = [(m, fds)])
    (hfds : fds.Nodup) : a.messagesTo fd d = if d ∈ fds then [m] else [] := by
  rw [Answer.messagesTo, if_neg hd, h, List.flatMap_singleton, hfds.count]
  split_ifs <;> rfl

end Copies

/-! ### Audiences -/

/-- The event that a success response announces to the other connections. -/
def announced : ServerCode → Option Event
  | .res .loginOk => some .userLoggedIn
  | .res .logoutOk => some .userLoggedOut
  | .res .sendOk => some .messageReceived
  | .res .teamCreated => some .teamCreated
  | .res .channelCreated => some .channelCreated
  | .res .threadCreated => some .threadCreated
  | .res .replyCreated => some .replyCreated
  | _ => none

/-- A connection is logged in. -/
def LoggedIn (data : ServerData) (d : Fd) : Prop := ∃ u, data.sessions[d]? = some u

/-- **The audience of an event** among the connections other than `c`, on which the frame arrived:
the sessions of the receiver; all sessions; or the sessions of the members of the team that the
context of `c` is in, to which channels, threads and replies are added. The presence events are
emitted when the user of `c` had no session before, or has none afterwards. -/
def Audience (before after : ServerData) (c : Fd) (payload : List UInt8) (d : Fd) : Event → Prop
  | .messageReceived => before.sessions[d]? = some (payload.take 36)
  | .teamCreated => LoggedIn before d
  | .channelCreated | .threadCreated | .replyCreated =>
    ∃ u ctx team, before.sessions[d]? = some u ∧ before.clientContexts[c]? = some ctx ∧
      ctx.team? before = some team ∧ u ∈ team.memberUuids
  | .userLoggedIn => LoggedIn after d ∧ ∃ u, after.sessions[c]? = some u ∧ ¬ Online before u
  | .userLoggedOut => LoggedIn after d ∧ ∃ u, before.sessions[c]? = some u ∧ ¬ Online after u

/-- The payload of the event: the one of the response, except that a private message is sent as its
sender and the body that was stored. -/
def EventPayload (after : ServerData) (response : Msg) : Event → List UInt8 → Prop
  | .messageReceived, p => ∃ m, after.messages.getLast? = some m ∧
      p = m.senderUuid.toList ++ m.body.toList
  | _, p => p = response.body.bytes

/-- What an answer has for the other connections: one event for its audience, or nothing. -/
structure Announces (fd : Fd) (payload : List UInt8) (data : ServerData) (a : Answer)
    (event : Msg) : Prop where
  content : ∀ evt, announced a.msg.code = some evt →
    event.code = .evt evt ∧ EventPayload a.data a.msg evt event.body.bytes
  copy : ∀ d, d ≠ fd → ∀ evt, announced a.msg.code = some evt →
    Audience data a.data fd payload d evt → a.messagesTo fd d = [event]
  silence : ∀ d, d ≠ fd →
    (∀ evt, announced a.msg.code = some evt → ¬ Audience data a.data fd payload d evt) →
      a.messagesTo fd d = []

section Announces

variable {fd : Fd} {payload : List UInt8} {data : ServerData} {a : Answer} {evt : Event} {b : Body}

/-- An answer that announces nothing. -/
theorem announces_of_none (hcode : announced a.msg.code = none) (hevents : a.events = [])
    (m : Msg) : Announces fd payload data a m where
  content evt h := by rw [hcode] at h; cases h
  copy d hd evt h := by rw [hcode] at h; cases h
  silence d hd _ := messagesTo_of_no_event hd hevents

/-- An answer that announces an event to a list of distinct descriptors, which is the audience. -/
theorem announces_of_event (hcode : announced a.msg.code = some evt)
    (hcontent : EventPayload a.data a.msg evt b.bytes) {fds : List Fd}
    (hevents : a.events = [(⟨.evt evt, b⟩, fds)]) (hnodup : fds.Nodup)
    (hfds : ∀ d, d ≠ fd → (d ∈ fds ↔ Audience data a.data fd payload d evt)) :
    Announces fd payload data a ⟨.evt evt, b⟩ where
  content evt' h := by
    obtain rfl := Option.some.inj (hcode.symm.trans h)
    exact ⟨rfl, hcontent⟩
  copy d hd evt' h haudience := by
    obtain rfl := Option.some.inj (hcode.symm.trans h)
    rw [messagesTo_of_event hd hevents hnodup, if_pos ((hfds d hd).2 haudience)]
  silence d hd h := by
    rw [messagesTo_of_event hd hevents hnodup, if_neg fun hmem ↦ h evt hcode ((hfds d hd).1 hmem)]

/-- An answer whose event has no audience, and is not sent at all. -/
theorem announces_of_silence (hcode : announced a.msg.code = some evt)
    (hcontent : EventPayload a.data a.msg evt b.bytes) (hevents : a.events = [])
    (hfds : ∀ d, d ≠ fd → ¬ Audience data a.data fd payload d evt) :
    Announces fd payload data a ⟨.evt evt, b⟩ where
  content evt' h := by
    obtain rfl := Option.some.inj (hcode.symm.trans h)
    exact ⟨rfl, hcontent⟩
  copy d hd evt' h haudience := by
    obtain rfl := Option.some.inj (hcode.symm.trans h)
    exact absurd haudience (hfds d hd)
  silence d hd _ := messagesTo_of_no_event hd hevents

theorem announced_info (level : UInt8) : announced (.res (infoResponse level)) = none := by
  rw [infoResponse]
  split_ifs <;> rfl

theorem announced_list (level : UInt8) : announced (.res (listResponse level)) = none := by
  rw [listResponse]
  split_ifs <;> rfl

/-- The audience of a team's event, once the context and the team are known. -/
theorem audience_team {ctx : ClientContext} {team : Team} {d : Fd}
    (hctx : data.clientContexts[fd]? = some ctx) (hteam : ctx.team? data = some team) :
    d ∈ teamMemberFds data team ↔
      ∃ u ctx team, data.sessions[d]? = some u ∧ data.clientContexts[fd]? = some ctx ∧
        ctx.team? data = some team ∧ u ∈ team.memberUuids := by
  rw [mem_teamMemberFds]
  constructor
  · rintro ⟨u, hu, hmem⟩
    exact ⟨u, ctx, team, hu, hctx, hteam, hmem⟩
  · rintro ⟨u, ctx', team', hu, hctx', hteam', hmem⟩
    obtain rfl := Option.some.inj (hctx.symm.trans hctx')
    obtain rfl := Option.some.inj (hteam.symm.trans hteam')
    exact ⟨u, hu, hmem⟩

/-- The event of a login goes out unless the user had a session before. -/
theorem announces_login {user : User} {users : List User} {after : ServerData}
    (hafter : after = loginData data fd users user) :
    Announces fd payload data
      ⟨after, ⟨.res .loginOk, .account user.uuid.bytes user.name⟩,
        presenceEvents .userLoggedIn (isUserOnline data user) (.account user.uuid.bytes user.name)
          (loggedFds after)⟩
      ⟨.evt .userLoggedIn, .account user.uuid.bytes user.name⟩ := by
  have hself : after.sessions[fd]? = some user.uuid.str := by
    rw [hafter, loginData, IntMap.get_insert_self]
  have honline : (∃ u, after.sessions[fd]? = some u ∧ ¬ Online data u) ↔
      ¬ isUserOnline data user = true := by
    rw [isUserOnline_iff]
    constructor
    · rintro ⟨u, hu, hoff⟩
      rwa [Option.some.inj (hself.symm.trans hu)]
    · exact fun hoff ↦ ⟨_, hself, hoff⟩
  by_cases hon : isUserOnline data user = true
  · refine announces_of_silence rfl rfl (if_pos hon) fun d _ haudience ↦ ?_
    exact honline.1 haudience.2 hon
  · refine announces_of_event rfl rfl (if_neg hon) (nodup_loggedFds after) fun d _ ↦ ?_
    rw [mem_loggedFds]
    exact (and_iff_left (honline.2 hon)).symm

/-- The event of a logout goes out unless the user has another session. -/
theorem announces_logout {user : Str} {after : ServerData} (hs : data.sessions[fd]? = some user)
    (hafter : after = logoutData data fd user) :
    Announces fd payload data
      ⟨after, ⟨.res .logoutOk, logoutBody data user⟩,
        presenceEvents .userLoggedOut (after.sessions.toList.any fun kv ↦ kv.2 == user)
          (logoutBody data user) (loggedFds after ++ [fd])⟩
      ⟨.evt .userLoggedOut, logoutBody data user⟩ := by
  have honline : (∃ u, data.sessions[fd]? = some u ∧ ¬ Online after u) ↔
      ¬ (after.sessions.toList.any fun kv ↦ kv.2 == user) = true := by
    rw [any_sessions_iff]
    constructor
    · rintro ⟨u, hu, hoff⟩
      rwa [Option.some.inj (hs.symm.trans hu)]
    · exact fun hoff ↦ ⟨_, hs, hoff⟩
  by_cases hon : (after.sessions.toList.any fun kv ↦ kv.2 == user) = true
  · refine announces_of_silence rfl rfl (if_pos hon) fun d _ haudience ↦ ?_
    exact honline.1 haudience.2 hon
  · have hgone : after.sessions[fd]? = none := by
      rw [hafter, logoutData, IntMap.get_erase_self]
    refine announces_of_event rfl rfl (if_neg hon) (nodup_loggedFds_concat hgone) fun d hd ↦ ?_
    rw [List.mem_append, List.mem_singleton, or_iff_left hd, mem_loggedFds]
    exact (and_iff_left (honline.2 hon)).symm

theorem announced_of_query {level : UInt8} {m : Msg}
    (h : m.code = .res (infoResponse level) ∨ m.code = .res (listResponse level)) :
    announced m.code = none := by
  rcases h with h | h <;> rw [h]
  · exact announced_info level
  · exact announced_list level

/-- **What the others hear of a frame**: every answer is announced to the audience of its event, and
to nobody else. -/
theorem Serves.announces {host : Host} {cmd : Option Command}
    (h : Serves host fd payload data cmd a) : ∃ event, Announces fd payload data a event := by
  cases h with
  | loginKnown hfind hafter => exact ⟨_, announces_login hafter⟩
  | loginNew hfind huser hafter => exact ⟨_, announces_login hafter⟩
  | logout hs hafter => exact ⟨_, announces_logout hs hafter⟩
  | @send user receiverUuid receiver msg hs huuid hreceiver hmsg =>
    have hstored : EventPayload { data with messages := data.messages ++ [msg] }
        ⟨.res .sendOk, .empty⟩ .messageReceived (Body.received msg.senderUuid msg.body).bytes :=
      ⟨msg, List.getLast?_concat, rfl⟩
    have hfds (d : Fd) : d ∈ userFds data receiver.uuid.str ↔
        data.sessions[d]? = some (payload.take 36) := by
      rw [mem_userFds, extractSv_of_findUser (huuid ▸ hreceiver)]
    cases hempty : (userFds data receiver.uuid.str).isEmpty with
    | true =>
      refine ⟨_, announces_of_silence rfl hstored rfl fun d _ haudience ↦ ?_⟩
      rw [List.isEmpty_iff] at hempty
      have hmem := (hfds d).2 haudience
      rw [hempty] at hmem
      cases hmem
    | false =>
      exact ⟨_, announces_of_event rfl hstored rfl
        (nodup_userFds _ _) fun d _ ↦ hfds d⟩
  | use hs hreq hgrant hinfo =>
    exact ⟨_, announces_of_none (announced_of_query (.inl (contextInfo_code hinfo))) rfl
      ⟨.err .unauthorized, .empty⟩⟩
  | list hs hctx hlist =>
    exact ⟨_, announces_of_none (announced_of_query (.inr (contextList_code hlist))) rfl
      ⟨.err .unauthorized, .empty⟩⟩
  | info hs hctx hinfo =>
    exact ⟨_, announces_of_none (announced_of_query (.inl (contextInfo_code hinfo))) rfl
      ⟨.err .unauthorized, .empty⟩⟩
  | createTeam =>
    exact ⟨_, announces_of_event rfl rfl rfl (nodup_loggedFds data) fun d _ ↦ mem_loggedFds⟩
  | createChannel hs hctx hlevel hlen hteam =>
    exact ⟨_, announces_of_event rfl rfl rfl (nodup_teamMemberFds data _) fun d _ ↦
      audience_team hctx hteam⟩
  | createThread hs hctx hlevel hlen hteam =>
    exact ⟨_, announces_of_event rfl rfl rfl (nodup_teamMemberFds data _) fun d _ ↦
      audience_team hctx hteam⟩
  | createReply hs hctx hlevel hlen hteam =>
    exact ⟨_, announces_of_event rfl rfl rfl (nodup_teamMemberFds data _) fun d _ ↦
      audience_team hctx hteam⟩
  | _ => exact ⟨_, announces_of_none rfl rfl ⟨.err .unauthorized, .empty⟩⟩

end Announces

namespace Server

variable {host : ℕ → Host} {s : Server}

/-! ### What a frame queues to the others -/

/-- A connection in the audience of an event has a session, before or after. -/
theorem loggedIn_of_audience {before after : ServerData} {c : Fd} {payload : List UInt8} {d : Fd}
    {evt : Event} (h : Audience before after c payload d evt) :
    LoggedIn before d ∨ LoggedIn after d := by
  cases evt with
  | messageReceived => exact .inl ⟨_, h⟩
  | teamCreated => exact .inl h
  | userLoggedIn => exact .inr h.1
  | userLoggedOut => exact .inr h.1
  | _ =>
    obtain ⟨u, -, -, hu, -⟩ := h
    exact .inl ⟨u, hu⟩

/-- The sessions of the other connections are not touched. -/
theorem loggedIn_perform (hwf : SessionsWf s.data) {a : Action} {d : Fd} (hd : d ≠ a.fd) :
    LoggedIn (perform host a s).data d ↔ LoggedIn s.data d := by
  rw [LoggedIn, LoggedIn, (change_perform hwf a).sessions_of_ne hd]

/-- What a frame adds to the send buffer of another connection are the messages queued to it. -/
theorem clients_frame_of_ne {fd d : Fd} {cmd : UInt16} {payload : List UInt8} {c : ClientState}
    (hc : s.clients[fd]? = some c) (hd : d ≠ fd) {c' : ClientState}
    (hc' : s.clients[d]? = some c') :
    (perform host (.frame fd cmd payload) s).clients[d]? =
      some { c' with
        sendBuffer := c'.sendBuffer ++
          (newMessages d s (perform host (.frame fd cmd payload) s)).flatten } := by
  have hpop := contains_modifyClient ((IntMap.contains_iff _).2 ⟨c, hc⟩)
    (fun c ↦ { c with recvBuffer := c.recvBuffer.drop (headerSize + payload.length) }) d
  have hmem : s.clients.contains d = true := (IntMap.contains_iff _).2 ⟨c', hc'⟩
  have hnew : newMessages d s (perform host (.frame fd cmd payload) s) =
      addressedTo d ((frameOutcome (host s.served) fd cmd payload s.data).result.sends fd) := by
    refine newMessages_of_append ?_
    rw [perform_frame_eq, queuedOn_queueAll]
    dsimp only
    rw [hpop, hmem, if_pos rfl, queuedOn_append]
    congr 1
    exact List.append_nil _
  rw [clients_frame hc, hc', hnew, Option.map_some]
  congr 2
  exact if_neg (Ne.symm hd)

/-- **What the other connections get of a frame**: a copy of its event for each member of the
audience, and nothing for anybody else. -/
structure Broadcast (s s' : Server) (c : Fd) (payload : List UInt8) (response event : Msg) :
    Prop where
  /-- The connection itself gets the response. -/
  own : newMessages c s s' = [response.bytes]
  /-- The event is the one that the response announces. -/
  content : ∀ evt, announced response.code = some evt →
    event.code = .evt evt ∧ EventPayload s'.data response evt event.body.bytes
  /-- A member of the audience is connected, and gets exactly one copy. -/
  copy : ∀ d, d ≠ c → ∀ evt, announced response.code = some evt →
    Audience s.data s'.data c payload d evt → ∃ c', s.clients[d]? = some c' ∧
      newMessages d s s' = [event.bytes] ∧
      s'.clients[d]? = some { c' with sendBuffer := c'.sendBuffer ++ event.bytes }
  /-- Nobody else gets a byte. -/
  silence : ∀ d, d ≠ c →
    (∀ evt, announced response.code = some evt → ¬ Audience s.data s'.data c payload d evt) →
      newMessages d s s' = [] ∧ s'.clients[d]? = s.clients[d]?

/-- A connection that has no session before an action gets no event from it. -/
theorem Reachable.no_event (h : Reachable host s) {a : Action} (ha : s.Enabled a) {d : Fd}
    (hd : ¬ LoggedIn s.data d) :
    ∀ m ∈ newMessages d s (perform host a s), isPush (headerCode m) = false := by
  -- whoever is in the audience is logged in before the action or after it
  have haudience {fd : Fd} {payload : List UInt8} {after : ServerData} (evt : Event)
      (hafter : LoggedIn after d → LoggedIn s.data d) :
      ¬ Audience s.data after fd payload d evt := fun haud ↦
    hd ((loggedIn_of_audience haud).elim id hafter)
  obtain ⟨answer, hserves, hdata, hnew⟩ | ⟨-, -, hnew⟩ := answer_perform host h.sessionsWf ha
  · rw [hnew]
    rcases eq_or_ne d a.fd with rfl | hne
    · rw [messagesTo_self]
      intro m hm
      split_ifs at hm
      · rw [List.mem_singleton.1 hm, headerCode_bytes]
        exact hserves.not_push
      · cases hm
    · obtain ⟨event, hannounces⟩ := hserves.announces
      rw [hannounces.silence d hne fun evt _ ↦ haudience evt fun hafter ↦
        (loggedIn_perform h.sessionsWf hne).1 (hdata ▸ hafter)]
      simp
  · rw [hnew]
    simp

/-- **Event audience.** In every reachable state, a frame on `c` has one event at most for the other
connections: each of them gets exactly one copy if it is in the audience, and not a byte otherwise;
and whatever happens, a connection without a session receives no event. -/
theorem event_audience (h : Reachable host s) :
    (∀ c cmd payload, s.Enabled (.frame c cmd payload) →
      ∃ response event : Msg,
        Broadcast s (perform host (.frame c cmd payload) s) c payload response event) ∧
      ∀ a, s.Enabled a → ∀ d, ¬ LoggedIn s.data d →
        ∀ m ∈ newMessages d s (perform host a s), isPush (headerCode m) = false := by
  refine ⟨fun c cmd payload ha ↦ ?_, fun a ha d hd ↦ h.no_event ha hd⟩
  obtain ⟨client, rest, hc, -⟩ := ha
  have hcontains : s.clients.contains c = true := (IntMap.contains_iff _).2 ⟨client, hc⟩
  obtain ⟨answer, hserves, hdata, hqueue⟩ := exists_answer_frame h.sessionsWf hcontains cmd payload
  obtain ⟨event, hannounces⟩ := hserves.announces
  refine ⟨answer.msg, event, ?_, ?_, fun d hd evt hevt haudience ↦ ?_, fun d hd hnone ↦ ?_⟩
  · rw [newMessages_of_append (hqueue c), if_pos hcontains, messagesTo_self]
    rfl
  · rw [hdata]
    exact hannounces.content
  · have hlogged : LoggedIn s.data d := (loggedIn_of_audience haudience).elim id
      (loggedIn_perform h.sessionsWf (a := .frame c cmd payload) hd).1
    have hmem : s.clients.contains d = true :=
      h.registry.client d ((IntMap.contains_iff _).2 hlogged)
    obtain ⟨c', hc'⟩ := (IntMap.contains_iff _).1 hmem
    have hnew : newMessages d s (perform host (.frame c cmd payload) s) = [event.bytes] := by
      rw [newMessages_of_append (hqueue d), if_pos hmem,
        hannounces.copy d hd evt hevt (hdata ▸ haudience)]
      rfl
    refine ⟨c', hc', hnew, ?_⟩
    rw [clients_frame_of_ne hc hd hc', hnew, List.flatten_singleton]
  · have hnew : newMessages d s (perform host (.frame c cmd payload) s) = [] := by
      rw [newMessages_of_append (hqueue d),
        hannounces.silence d hd fun evt hevt haudience ↦ hnone evt hevt (hdata ▸ haudience)]
      simp
    refine ⟨hnew, ?_⟩
    rcases hc' : s.clients[d]? with - | c'
    · rw [clients_frame hc, hc', Option.map_none]
    · rw [clients_frame_of_ne hc hd hc', hnew, List.flatten_nil, List.append_nil]

/-- Two users, the second of whom creates a team. -/
def createAmongTwo : List Action :=
  .accept 4 :: request 4 .login [97] ++ .accept 5 :: request 5 .login [98] ++
    [.receive 5 (makeMessage Command.create.code (List.replicate 287 0))]

theorem event_audience_createAmongTwo :
    (∃ response event : Msg,
      Broadcast (execute plainHost createAmongTwo Server.init)
        (perform plainHost (.frame 5 Command.create.code (List.replicate 287 0))
          (execute plainHost createAmongTwo Server.init)) 5 (List.replicate 287 0) response event) ∧
      ∀ m ∈ newMessages 7 (execute plainHost createAmongTwo Server.init)
        (perform plainHost (.disconnect 4) (execute plainHost createAmongTwo Server.init)),
        isPush (headerCode m) = false := by
  obtain ⟨hframe, hquiet⟩ := @event_audience plainHost
    (execute plainHost createAmongTwo Server.init) (reachable_execute (by decide +kernel))
  refine ⟨hframe _ _ _ (by decide +kernel), hquiet (.disconnect 4) (by decide +kernel) 7 ?_⟩
  rintro ⟨u, hu⟩
  have hnone : (execute plainHost createAmongTwo Server.init).data.sessions[(7 : Fd)]? = none := by
    decide +kernel
  rw [hnone] at hu
  cases hu

end Server

end MyTeams
