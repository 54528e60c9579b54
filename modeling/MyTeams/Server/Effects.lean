import MyTeams.Server.Steps

/-!
# Effects of the actions

`Change fd payload data cmd after` lists what a request, or the end of a connection, can do to the
shared data, each with the guard it ran under. Most requests change nothing, so there are far fewer
cases than in `Serves`, and `Reachable.data_induction` turns "kept by every change" into "holds in
every reachable state".

The rest of the module says what each action does to the clients, to the history and to what the
history shows of one connection.
-/

namespace MyTeams

open FirstMatch

/-- **What one connection can do to the shared data** by one request. -/
inductive Change (fd : Fd) (payload : List UInt8) (data : ServerData) :
    Option Command → ServerData → Prop
  /-- Nothing. -/
  | none {cmd : Option Command} : Change fd payload data cmd data
  /-- A session of a user who is, or becomes, one of the users. -/
  | login {user : User} {users : List User}
    (huuids : ∃ l, users.map User.uuid = data.users.map User.uuid ++ l)
    (huser : user.uuid ∈ users.map User.uuid) :
    Change fd payload data (some .login) (loginData data fd users user)
  /-- The end of a session. -/
  | logout {user : Str} (hs : data.sessions[fd]? = some user) :
    Change fd payload data (some .logout) (logoutData data fd user)
  /-- A private message. -/
  | message (msg : Message) :
    Change fd payload data (some .send) { data with messages := data.messages ++ [msg] }
  /-- A new member, of a team that is there. -/
  | addMember {user teamUuid : Str} {team : Team} (hs : data.sessions[fd]? = some user)
    (huuid : teamUuid = Server.extractSv payload 0 36)
    (hteam : findTeamByUuid data teamUuid = some team) (hsub : user ∉ team.memberUuids) :
    Change fd payload data (some .subscribe) (addMember data teamUuid user)
  /-- A member leaves. -/
  | removeMember {user teamUuid : Str} {team : Team} (hs : data.sessions[fd]? = some user)
    (huuid : teamUuid = Server.extractSv payload 0 36)
    (hteam : findTeamByUuid data teamUuid = some team) (hsub : user ∈ team.memberUuids) :
    Change fd payload data (some .unsubscribe) (removeMember data teamUuid user)
  /-- A context, granted to the session's user. -/
  | use {user : Str} {ctx : ClientContext} (hs : data.sessions[fd]? = some user)
    (hreq : requestedContext payload = some ctx) (hgrant : Grants data user ctx) :
    Change fd payload data (some .use)
      { data with clientContexts := data.clientContexts.insert fd ctx }
  /-- A new team. -/
  | addTeam {user : Str} {team : Team} (hs : data.sessions[fd]? = some user)
    (hmembers : team.memberUuids = [user]) :
    Change fd payload data (some .create) (addTeam data team)
  /-- A new channel, thread or reply where the stored context points. -/
  | addChannel {ctx : ClientContext} (hctx : data.clientContexts[fd]? = some ctx)
    (channel : Channel) : Change fd payload data (some .create) (addChannel data ctx channel)
  | addThread {ctx : ClientContext} (hctx : data.clientContexts[fd]? = some ctx)
    (thread : Thread) : Change fd payload data (some .create) (addThread data ctx thread)
  | addReply {ctx : ClientContext} (hctx : data.clientContexts[fd]? = some ctx)
    (reply : Reply) : Change fd payload data (some .create) (addReply data ctx reply)

theorem uuids_loggedIn (p : User → Bool) (fd : Fd) (users : List User) :
    (updateFirst p (User.loggedIn fd) users).map User.uuid = users.map User.uuid :=
  map_updateFirst (f := User.loggedIn fd) (fun _ ↦ rfl) users

/-- Whatever answers a frame changes the data in one of these ways. -/
theorem Serves.change {host : Host} {fd : Fd} {payload : List UInt8} {data : ServerData}
    {cmd : Option Command} {a : Answer} (h : Serves host fd payload data cmd a) :
    Change fd payload data cmd a.data := by
  cases h with
  | loginKnown hfind hafter =>
    rw [hafter]
    refine .login ⟨[], by rw [uuids_loggedIn, List.append_nil]⟩ ?_
    rw [uuids_loggedIn]
    exact List.mem_map_of_mem (List.mem_of_find?_eq_some hfind)
  | loginNew hfind huser hafter =>
    rw [hafter]
    exact .login ⟨[_], by rw [List.map_append, List.map_singleton]⟩ (by simp)
  | logout hs hafter =>
    rw [hafter]
    exact .logout hs
  | send => exact .message _
  | subscribe hs huuid hteam hsub => exact .addMember hs huuid hteam hsub
  | unsubscribe hs huuid hteam hsub => exact .removeMember hs huuid hteam hsub
  | use hs hreq hgrant => exact .use hs hreq hgrant
  | createTeam hs _ _ _ hnew => exact .addTeam hs (by rw [hnew]; rfl)
  | createChannel _ hctx => exact .addChannel hctx _
  | createThread _ hctx => exact .addThread hctx _
  | createReply _ hctx => exact .addReply hctx _
  | _ => exact .none

/-- A request that is neither a login nor a logout leaves all sessions alone. -/
theorem sessions_of_request {fd : Fd} {payload : List UInt8} {data after : ServerData}
    {cmd : Option Command} (h : Change fd payload data cmd after) (hlogin : cmd ≠ some .login)
    (hlogout : cmd ≠ some .logout) : after.sessions = data.sessions := by
  cases h with
  | login => exact absurd rfl hlogin
  | logout => exact absurd rfl hlogout
  | _ => rfl

/-! ### The actions of the server -/

namespace Server

variable {host : ℕ → Host} {s : Server}

theorem perform_frame_data (fd : Fd) (cmd : UInt16) (payload : List UInt8) :
    (perform host (.frame fd cmd payload) s).data =
      (frameOutcome (host s.served) fd cmd payload s.data).data := by
  rw [perform, dispatch_eq_queueAll, queueAll_data]
  rfl

/-- The first part of a disconnection: the end of the session, as by `CMD_LOGOUT`, announced to the
others. -/
def loseSession (fd : Fd) (s : Server) : Server :=
  queueAll (deliveries fd (handleLogout fd s.data).result.pushes)
    { s with data := (handleLogout fd s.data).data }

/-- Losing a connection runs the handler of `CMD_LOGOUT`: without a session that handler changes
nothing. -/
theorem handleClientDisconnect_eq (fd : Fd) (s : Server) :
    handleClientDisconnect fd s =
      record (.closed fd)
        { loseSession fd s with clients := (loseSession fd s).clients.erase fd } := by
  rw [handleClientDisconnect, loseSession, ← deliver_eq]
  rcases hs : s.data.sessions[fd]? with - | user
  · have hnone : s.data.sessions.contains fd = false := (IntMap.contains_eq_false_iff _).2 hs
    rw [hnone, handleLogout, withSession, hs]
    rfl
  · have hsome : s.data.sessions.contains fd = true := (IntMap.contains_iff _).2 ⟨user, hs⟩
    rw [hsome]
    rfl

theorem perform_disconnect_data (fd : Fd) :
    (perform host (.disconnect fd) s).data = (handleLogout fd s.data).data := by
  rw [perform, handleClientDisconnect_eq]
  exact queueAll_data _ _

variable (host) in
/-- A frame is answered. -/
theorem exists_serves_frame (hwf : SessionsWf s.data) (fd : Fd) (cmd : UInt16)
    (payload : List UInt8) :
    ∃ a, Serves (host s.served) fd payload s.data (Command.ofCode? cmd) a ∧
      (perform host (.frame fd cmd payload) s).data = a.data ∧
      (frameOutcome (host s.served) fd cmd payload s.data).result = a.result := by
  obtain ⟨a, hserves, hdata, hresult⟩ : Realizes (Serves (host s.served) fd payload s.data _)
      (frameOutcome (host s.served) fd cmd payload s.data) := frameOutcome_realizes hwf
  exact ⟨a, hserves, by rw [perform_frame_data, hdata], hresult⟩

variable (host) in
/-- A disconnection is a logout that nobody reads the answer of. -/
theorem exists_serves_disconnect (hwf : SessionsWf s.data) (fd : Fd) :
    ∃ a, Serves (host s.served) fd [] s.data (some .logout) a ∧
      (perform host (.disconnect fd) s).data = a.data ∧
      (handleLogout fd s.data).result = a.result := by
  obtain ⟨a, hserves, hdata, hresult⟩ : Realizes (Serves (host s.served) fd [] s.data _)
      (handleLogout fd s.data) := handleLogout_realizes hwf
  exact ⟨a, hserves, by rw [perform_disconnect_data, hdata], hresult⟩

/-- The request that an action makes of the handlers: losing a connection is a logout. -/
def Action.request : Action → Option Command × List UInt8
  | .frame _ cmd payload => (Command.ofCode? cmd, payload)
  | .disconnect _ => (some .logout, [])
  | _ => (none, [])

variable (host) in
/-- **What an action does to the data**: it serves its request, or makes none and leaves the data
alone. -/
theorem serves_perform (hwf : SessionsWf s.data) (a : Action) :
    (∃ answer, Serves (host s.served) a.fd a.request.2 s.data a.request.1 answer ∧
      (perform host a s).data = answer.data) ∨
    (a.request.1 = none ∧ (perform host a s).data = s.data) := by
  cases a with
  | frame fd cmd payload =>
    obtain ⟨answer, hserves, hdata, -⟩ := exists_serves_frame host hwf fd cmd payload
    exact .inl ⟨answer, hserves, hdata⟩
  | disconnect fd =>
    obtain ⟨answer, hserves, hdata, -⟩ := exists_serves_disconnect host hwf fd
    exact .inl ⟨answer, hserves, hdata⟩
  | _ => exact .inr ⟨rfl, rfl⟩

/-- A request other than a logout is made by a frame. -/
theorem Action.eq_frame_of_request {a : Action} {c : Command} (h : a.request.1 = some c)
    (hc : c ≠ .logout) : a = .frame a.fd c.code a.request.2 := by
  cases a with
  | frame fd cmd payload => rw [Command.code_of_ofCode? h]; rfl
  | disconnect fd => exact absurd (Option.some.inj h).symm hc
  | _ => cases h

/-- An action changes the data, if at all, in one of the ways of `Change`. -/
theorem change_perform (hwf : SessionsWf s.data) (a : Action) :
    Change a.fd a.request.2 s.data a.request.1 (perform host a s).data := by
  obtain ⟨answer, hserves, hdata⟩ | ⟨-, hdata⟩ := serves_perform host hwf a
  · rw [hdata]
    exact hserves.change
  · rw [hdata]
    exact .none

/-- **Invariant rule for the shared data**: a property that holds of the empty data, keeps sessions
well formed and is kept by every change holds of the data of every reachable state. -/
theorem Reachable.data_induction {P : ServerData → Prop} (wf : ∀ {data}, P data → SessionsWf data)
    (init : P ServerData.init)
    (change : ∀ {fd payload data cmd after}, P data → Change fd payload data cmd after → P after)
    (h : Reachable host s) : P s.data :=
  Reachable.induction (P := fun s ↦ P s.data) init
    (fun _ hs _ ↦ change hs (change_perform (wf hs) _)) h

/-! ### What the actions do to clients and history -/

theorem perform_frame_eq (fd : Fd) (cmd : UInt16) (payload : List UInt8) :
    perform host (.frame fd cmd payload) s =
      queueAll ((frameOutcome (host s.served) fd cmd payload s.data).result.sends fd)
        { s with
          data := (frameOutcome (host s.served) fd cmd payload s.data).data
          clients := (s.modifyClient fd fun c ↦
            { c with recvBuffer := c.recvBuffer.drop (headerSize + payload.length) }).clients
          served := s.served + 1
          trace := s.trace ++ [.dispatched fd cmd payload s.data] } :=
  dispatch_eq_queueAll fd cmd payload _

theorem neutral_of_queued {l : List (Fd × List UInt8)} :
    ∀ o ∈ l.map fun x ↦ Observation.queued x.1 x.2, o.Neutral := by
  intro o ho
  obtain ⟨x, -, rfl⟩ := List.mem_map.1 ho
  trivial

/-- Queueing neither opens nor closes a descriptor. -/
theorem isOpen_queueAll (l : List (Fd × List UInt8)) (s : Server) (fd : Fd) :
    MyTeams.isOpen fd (queueAll l s).trace = MyTeams.isOpen fd s.trace := by
  rw [queueAll_trace, isOpen_append_neutral neutral_of_queued]

theorem isOpen_frame (fd : Fd) (cmd : UInt16) (payload : List UInt8) (d : Fd) :
    MyTeams.isOpen d (perform host (.frame fd cmd payload) s).trace = MyTeams.isOpen d s.trace := by
  rw [perform_frame_eq, isOpen_queueAll, isOpen_append_neutral (by simp [Observation.Neutral])]

theorem contains_write {fd : Fd} (h : s.clients.contains fd = true) (n : ℕ) (d : Fd) :
    (perform host (.write fd n) s).clients.contains d = s.clients.contains d :=
  contains_modifyClient h (fun c ↦ { c with sendBuffer := c.sendBuffer.drop n }) d

theorem contains_loseSession (fd : Fd) (d : Fd) :
    (loseSession fd s).clients.contains d = s.clients.contains d := by
  rw [loseSession, contains_queueAll]

theorem contains_disconnect (fd d : Fd) :
    (perform host (.disconnect fd) s).clients.contains d = (fd != d && s.clients.contains d) := by
  rw [perform, handleClientDisconnect_eq, record, IntMap.contains_erase, contains_loseSession]

variable (host s) in
theorem trace_disconnect (fd : Fd) :
    ∃ queued : List (Fd × List UInt8), (perform host (.disconnect fd) s).trace =
      s.trace ++ queued.map (fun x ↦ Observation.queued x.1 x.2) ++ [.closed fd] := by
  rw [perform, handleClientDisconnect_eq, record, loseSession, queueAll_trace]
  exact ⟨_, rfl⟩

theorem isOpen_disconnect (fd d : Fd) :
    MyTeams.isOpen d (perform host (.disconnect fd) s).trace =
      (MyTeams.isOpen d s.trace && fd != d) := by
  obtain ⟨queued, htrace⟩ := trace_disconnect host s fd
  rw [htrace, isOpen_append_closed, isOpen_append_neutral neutral_of_queued]

theorem handleLogout_data_of_none {fd : Fd} {data : ServerData} (h : data.sessions[fd]? = none) :
    (handleLogout fd data).data = data := by
  rw [handleLogout, withSession, h]
  rfl

theorem handleLogout_data_of_some {fd : Fd} {data : ServerData} {u : Str}
    (h : data.sessions[fd]? = some u) : (handleLogout fd data).data = logoutData data fd u := by
  rw [handleLogout, withSession_of_some h]
  dsimp only
  split_ifs <;> rfl

/-- A lost connection has no session. -/
theorem session_disconnect (fd : Fd) :
    (perform host (.disconnect fd) s).data.sessions[fd]? = none := by
  rw [perform_disconnect_data]
  rcases hs : s.data.sessions[fd]? with - | u
  · rw [handleLogout_data_of_none hs, hs]
  · rw [handleLogout_data_of_some hs, logoutData, IntMap.get_erase_self]

/-! ### What the history shows of one connection -/

@[simp] theorem framesOn_queued (d : Fd) (l : List (Fd × List UInt8)) :
    framesOn d (l.map fun x ↦ Observation.queued x.1 x.2) = [] := by
  rw [framesOn, List.filterMap_map]
  exact List.filterMap_eq_nil_iff.2 fun _ _ ↦ rfl

theorem framesOn_frame (fd : Fd) (cmd : UInt16) (payload : List UInt8) (d : Fd) :
    framesOn d (perform host (.frame fd cmd payload) s).trace =
      framesOn d s.trace ++ if fd = d then [(cmd, payload)] else [] := by
  rw [perform_frame_eq, queueAll_trace, framesOn_append, framesOn_queued, List.append_nil,
    framesOn_append]
  rcases eq_or_ne fd d with hd | hd <;> simp [framesOn, hd]

theorem framesOn_disconnect (fd d : Fd) :
    framesOn d (perform host (.disconnect fd) s).trace = framesOn d s.trace := by
  obtain ⟨queued, htrace⟩ := trace_disconnect host s fd
  rw [htrace, framesOn_append, framesOn_append, framesOn_queued, List.append_nil]
  exact List.append_nil _

/-- Only frames taken off a connection's own buffer are dispatched for it. -/
theorem framesOn_of_ne {a : Action} {d : Fd} (hd : a.fd ≠ d) :
    framesOn d (perform host a s).trace = framesOn d s.trace := by
  cases a with
  | frame fd cmd payload =>
    change fd ≠ d at hd
    rw [framesOn_frame, if_neg hd, List.append_nil]
  | disconnect fd => exact framesOn_disconnect fd d
  | receive fd tmp => rfl
  | accept fd => exact (framesOn_append d s.trace _).trans (List.append_nil _)
  | write fd n => exact (framesOn_append d s.trace _).trans (List.append_nil _)

/-! ### What the actions do to one client -/

theorem clients_frame {fd : Fd} {c : ClientState} (hc : s.clients[fd]? = some c) (cmd : UInt16)
    (payload : List UInt8) (d : Fd) :
    (perform host (.frame fd cmd payload) s).clients[d]? =
      s.clients[d]?.map fun c ↦
        { c with
          recvBuffer :=
            if fd = d then c.recvBuffer.drop (headerSize + payload.length) else c.recvBuffer
          sendBuffer := c.sendBuffer ++ (addressedTo d
            ((frameOutcome (host s.served) fd cmd payload s.data).result.sends fd)).flatten } := by
  rw [perform_frame_eq, queueAll_clients]
  rcases eq_or_ne fd d with rfl | hd
  · rw [get_modifyClient_self hc, hc]
    simp
  · rw [get_modifyClient_of_ne hd.symm]
    simp [hd]

theorem clients_disconnect_self (fd : Fd) :
    (perform host (.disconnect fd) s).clients[fd]? = none := by
  rw [perform, handleClientDisconnect_eq, record, IntMap.get_erase_self]

/-- What other connections do reaches a client's send buffer only. -/
theorem recvBuffer_of_ne {a : Action} (ha : s.Enabled a) {d : Fd} (hd : a.fd ≠ d) :
    ((perform host a s).clients[d]?).map ClientState.recvBuffer =
      s.clients[d]?.map ClientState.recvBuffer := by
  cases a with
  | accept fd => exact congrArg _ (IntMap.get_insert_of_ne _ (Ne.symm hd) _)
  | receive fd tmp =>
    change fd ≠ d at hd
    rw [perform, get_modifyClient_of_ne (Ne.symm hd)]
  | write fd n =>
    change fd ≠ d at hd
    rw [perform, record, get_modifyClient_of_ne (Ne.symm hd)]
  | frame fd cmd payload =>
    obtain ⟨c, rest, hc, -⟩ := ha
    rw [clients_frame hc, Option.map_map]
    congr 1
    funext c
    exact if_neg hd
  | disconnect fd =>
    change fd ≠ d at hd
    rw [perform, handleClientDisconnect_eq, record, IntMap.get_erase_of_ne _ (Ne.symm hd),
      loseSession, queueAll_clients, Option.map_map]
    rfl

/-! ### What the actions queue -/

/-- The messages queued to a connection between two states of a run. -/
def newMessages (d : Fd) (s s' : Server) : List (List UInt8) :=
  (queuedOn d s'.trace).drop (queuedOn d s.trace).length

theorem newMessages_of_append {d : Fd} {s s' : Server} {l : List (List UInt8)}
    (h : queuedOn d s'.trace = queuedOn d s.trace ++ l) : newMessages d s s' = l := by
  rw [newMessages, h, List.drop_left]

/-- **What a frame queues**: to every client the messages of the answer for it. -/
theorem queuedOn_frame {a : Answer} {fd : Fd} {cmd : UInt16} {payload : List UInt8}
    (hfd : s.clients.contains fd = true)
    (ha : (frameOutcome (host s.served) fd cmd payload s.data).result = a.result) (d : Fd) :
    queuedOn d (perform host (.frame fd cmd payload) s).trace =
      queuedOn d s.trace ++
        if s.clients.contains d then (a.messagesTo fd d).map Msg.bytes else [] := by
  have hpop := contains_modifyClient hfd
    (fun c ↦ { c with recvBuffer := c.recvBuffer.drop (headerSize + payload.length) }) d
  have hdispatch (t : List Observation) (data : ServerData) :
      queuedOn d (t ++ [.dispatched fd cmd payload data]) = queuedOn d t := by
    rw [queuedOn_append]
    exact List.append_nil _
  rw [perform_frame_eq, ha, queuedOn_queueAll, hdispatch, addressedTo_sends]
  dsimp only
  rw [hpop]

/-- **What a disconnection queues**: to every other client the messages of the logout for it. -/
theorem queuedOn_disconnect {a : Answer} {fd : Fd}
    (ha : (handleLogout fd s.data).result = a.result) (d : Fd) :
    queuedOn d (perform host (.disconnect fd) s).trace =
      queuedOn d s.trace ++
        if s.clients.contains d ∧ d ≠ fd then (a.messagesTo fd d).map Msg.bytes else [] := by
  have hclosed (t : List Observation) : queuedOn d (t ++ [.closed fd]) = queuedOn d t := by
    rw [queuedOn_append]
    exact List.append_nil _
  rw [perform, handleClientDisconnect_eq, record, hclosed]
  show queuedOn d (queueAll (deliveries fd _) _).trace = _
  rw [queuedOn_queueAll]
  congr 1
  rcases eq_or_ne d fd with rfl | hne
  · rw [addressedTo_deliveries, if_pos rfl, ite_self, if_neg fun h ↦ h.2 rfl]
  · rw [← addressedTo_sends_of_ne hne, ha, addressedTo_sends]
    exact if_congr (and_iff_left hne).symm rfl rfl

/-- Every frame is answered, and what it queues is the messages of the answer. -/
theorem exists_answer_frame (hwf : SessionsWf s.data) {fd : Fd} (hfd : s.clients.contains fd = true)
    (cmd : UInt16) (payload : List UInt8) :
    ∃ a, Serves (host s.served) fd payload s.data (Command.ofCode? cmd) a ∧
      (perform host (.frame fd cmd payload) s).data = a.data ∧
      ∀ d, queuedOn d (perform host (.frame fd cmd payload) s).trace =
        queuedOn d s.trace ++
          if s.clients.contains d then (a.messagesTo fd d).map Msg.bytes else [] := by
  obtain ⟨a, hserves, hdata, hresult⟩ := exists_serves_frame host hwf fd cmd payload
  exact ⟨a, hserves, hdata, queuedOn_frame hfd hresult⟩

variable (host) in
/-- A disconnection is answered as a logout, and what it queues is the messages of the answer for
others. -/
theorem exists_answer_disconnect (hwf : SessionsWf s.data) (fd : Fd) :
    ∃ a, Serves (host s.served) fd [] s.data (some .logout) a ∧
      (perform host (.disconnect fd) s).data = a.data ∧
      ∀ d, queuedOn d (perform host (.disconnect fd) s).trace =
        queuedOn d s.trace ++
          if s.clients.contains d ∧ d ≠ fd then (a.messagesTo fd d).map Msg.bytes else [] := by
  obtain ⟨a, hserves, hdata, hresult⟩ := exists_serves_disconnect host hwf fd
  exact ⟨a, hserves, hdata, queuedOn_disconnect hresult⟩

/-- The other actions queue nothing. -/
theorem queuedOn_quiet {a : Action} (hframe : ∀ fd cmd payload, a ≠ .frame fd cmd payload)
    (hdisconnect : ∀ fd, a ≠ .disconnect fd) (d : Fd) :
    queuedOn d (perform host a s).trace = queuedOn d s.trace := by
  cases a with
  | frame fd cmd payload => exact absurd rfl (hframe fd cmd payload)
  | disconnect fd => exact absurd rfl (hdisconnect fd)
  | receive fd tmp => rfl
  | accept fd => exact (queuedOn_append d s.trace _).trans (List.append_nil _)
  | write fd n => exact (queuedOn_append d s.trace _).trans (List.append_nil _)

theorem newMessages_quiet {a : Action} (hframe : ∀ fd cmd payload, a ≠ .frame fd cmd payload)
    (hdisconnect : ∀ fd, a ≠ .disconnect fd) (d : Fd) : newMessages d s (perform host a s) = [] :=
  newMessages_of_append ((queuedOn_quiet hframe hdisconnect d).trans (List.append_nil _).symm)

variable (host) in
/-- **What an action does**: it serves its request, and queues the messages of the answer to the
connections that are left; or it makes no request, changes no data and queues nothing. -/
theorem answer_perform (hwf : SessionsWf s.data) {a : Action} (ha : s.Enabled a) :
    (∃ answer, Serves (host s.served) a.fd a.request.2 s.data a.request.1 answer ∧
      (perform host a s).data = answer.data ∧
      ∀ d, newMessages d s (perform host a s) =
        if (perform host a s).clients.contains d then (answer.messagesTo a.fd d).map Msg.bytes
        else []) ∨
    (a.request.1 = none ∧ (perform host a s).data = s.data ∧
      ∀ d, newMessages d s (perform host a s) = []) := by
  cases a with
  | frame fd cmd payload =>
    obtain ⟨c, rest, hc, -⟩ := ha
    have hfd : s.clients.contains fd = true := (IntMap.contains_iff _).2 ⟨c, hc⟩
    obtain ⟨answer, hserves, hdata, hqueue⟩ := exists_answer_frame hwf hfd cmd payload
    refine .inl ⟨answer, hserves, hdata, fun d ↦ (newMessages_of_append (hqueue d)).trans ?_⟩
    rw [contains_frame hfd]
    rfl
  | disconnect fd =>
    obtain ⟨answer, hserves, hdata, hqueue⟩ := exists_answer_disconnect host hwf fd
    refine .inl ⟨answer, hserves, hdata, fun d ↦ (newMessages_of_append (hqueue d)).trans ?_⟩
    refine if_congr ?_ rfl rfl
    rw [contains_disconnect, Bool.and_eq_true, bne_iff_ne, and_comm, ne_comm]
  | _ => exact .inr ⟨rfl, rfl, newMessages_quiet (by simp) (by simp)⟩

/-- A message that an action queues is one of the answer to its request. -/
theorem exists_answer_of_newMessages (hwf : SessionsWf s.data) {a : Action} (ha : s.Enabled a)
    {d : Fd} {b : List UInt8} (hb : b ∈ newMessages d s (perform host a s)) :
    ∃ answer, Serves (host s.served) a.fd a.request.2 s.data a.request.1 answer ∧
      ∃ m ∈ answer.messagesTo a.fd d, b = m.bytes := by
  obtain ⟨answer, hserves, -, hnew⟩ | ⟨-, -, hnew⟩ := answer_perform host hwf ha
  · rw [hnew] at hb
    split_ifs at hb
    · obtain ⟨m, hm, rfl⟩ := List.mem_map.1 hb
      exact ⟨answer, hserves, m, hm, rfl⟩
    · cases hb
  · rw [hnew] at hb
    cases hb

end Server

end MyTeams
