import MyTeams.Server.Effects

/-!
# The session registry

Three maps are keyed by descriptor — the clients of the event loop, the sessions and the contexts of
the shared data — and descriptors are recycled. `Registry` is the invariant that ties them together
and to the descriptors that are open; `session_registry` shows it for every reachable state, with
what it means for a fresh connection.
-/

namespace MyTeams

open FirstMatch

/-! ### The invariant of the shared data -/

/-- The part of the invariant that the handlers keep by themselves. -/
structure DataRegistry (data : ServerData) : Prop where
  /-- Sessions and contexts have the same keys. -/
  keys : ∀ fd : Fd, data.sessions.contains fd = data.clientContexts.contains fd
  /-- A session is the uuid of a user. -/
  session : ∀ (fd : Fd) (u : Str), data.sessions[fd]? = some u →
    ∃ uuid ∈ data.users.map User.uuid, u = uuid.str
  /-- A stored level is one of the four. -/
  level : ∀ (fd : Fd) (ctx : ClientContext), data.clientContexts[fd]? = some ctx →
    ctx.level.toNat ≤ 3

theorem DataRegistry.sessionsWf {data : ServerData} (h : DataRegistry data) : SessionsWf data := by
  intro fd u hs
  obtain ⟨uuid, -, rfl⟩ := h.session fd u hs
  exact uuid.length_str

theorem level_le_of_requested {payload : Str} {ctx : ClientContext}
    (h : requestedContext payload = some ctx) : ctx.level.toNat ≤ 3 := by
  rw [requestedContext] at h
  split at h
  · cases h
  split_ifs at h with h0 h1 _ h2 _ h3
  · obtain rfl := Option.some.inj h
    exact h0 ▸ (by decide : useNone.toNat ≤ 3)
  · obtain rfl := Option.some.inj h
    exact h1 ▸ (by decide : useTeam.toNat ≤ 3)
  · obtain rfl := Option.some.inj h
    exact h2 ▸ (by decide : useChannel.toNat ≤ 3)
  · obtain rfl := Option.some.inj h
    exact h3 ▸ (by decide : useThread.toNat ≤ 3)

theorem dataRegistry_init : DataRegistry ServerData.init where
  keys _ := by simp [ServerData.init]
  session fd u h := by simp [ServerData.init] at h
  level fd ctx h := by simp [ServerData.init] at h

/-- The invariant does not look at teams or messages. -/
theorem DataRegistry.congr {data after : ServerData} (h : DataRegistry data)
    (husers : after.users = data.users) (hsessions : after.sessions = data.sessions)
    (hcontexts : after.clientContexts = data.clientContexts) : DataRegistry after where
  keys := by rw [hsessions, hcontexts]; exact h.keys
  session := by rw [hsessions, husers]; exact h.session
  level := by rw [hcontexts]; exact h.level

theorem DataRegistry.login {data : ServerData} (h : DataRegistry data) {fd : Fd} {user : User}
    {users : List User} (huuids : ∃ l, users.map User.uuid = data.users.map User.uuid ++ l)
    (huser : user.uuid ∈ users.map User.uuid) : DataRegistry (loginData data fd users user) where
  keys d := by
    simp only [loginData, Std.ExtTreeMap.contains_insert, h.keys]
  session d u hs := by
    obtain ⟨-, rfl⟩ | ⟨-, hs⟩ := (IntMap.get_insert_eq_some_iff _).1 hs
    · exact ⟨user.uuid, huser, rfl⟩
    · obtain ⟨uuid, hmem, rfl⟩ := h.session d u hs
      obtain ⟨l, hl⟩ := huuids
      exact ⟨uuid, by rw [loginData, hl]; exact List.mem_append_left _ hmem, rfl⟩
  level d ctx hctx := by
    obtain ⟨-, rfl⟩ | ⟨-, hctx⟩ := (IntMap.get_insert_eq_some_iff _).1 hctx
    · decide
    · exact h.level d ctx hctx

theorem uuids_logout {data : ServerData} (fd : Fd) (uuid : Str) :
    (logoutData data fd uuid).users.map User.uuid = data.users.map User.uuid := by
  refine map_updateFirst ?_ _
  exact fun _ ↦ rfl

theorem DataRegistry.logout {data : ServerData} (h : DataRegistry data) (fd : Fd) (uuid : Str) :
    DataRegistry (logoutData data fd uuid) where
  keys d := by
    simp only [logoutData, Std.ExtTreeMap.contains_erase, h.keys]
  session d u hs := by
    rw [uuids_logout]
    exact h.session d u ((IntMap.get_erase_eq_some_iff _).1 hs).2
  level d ctx hctx := h.level d ctx ((IntMap.get_erase_eq_some_iff _).1 hctx).2

theorem DataRegistry.use {data : ServerData} (h : DataRegistry data) {fd : Fd} {user : Str}
    {ctx : ClientContext} (hs : data.sessions[fd]? = some user) (hlevel : ctx.level.toNat ≤ 3) :
    DataRegistry { data with clientContexts := data.clientContexts.insert fd ctx } where
  keys d := by
    rw [Std.ExtTreeMap.contains_insert, ← h.keys]
    rcases eq_or_ne fd d with hd | hd
    · have hcontains : data.sessions.contains fd = true := (IntMap.contains_iff _).2 ⟨user, hs⟩
      rw [← hd, hcontains, Bool.or_true]
    · simp [hd]
  session := h.session
  level d ctx' hctx := by
    obtain ⟨-, rfl⟩ | ⟨-, hctx⟩ := (IntMap.get_insert_eq_some_iff _).1 hctx
    · exact hlevel
    · exact h.level d ctx' hctx

/-- Every change keeps the invariant. -/
theorem DataRegistry.change {fd : Fd} {payload : List UInt8} {data after : ServerData}
    {cmd : Option Command} (h : DataRegistry data) (hchange : Change fd payload data cmd after) :
    DataRegistry after := by
  cases hchange with
  | login huuids huser => exact h.login huuids huser
  | logout hs => exact h.logout fd _
  | use hs hreq => exact h.use hs (level_le_of_requested hreq)
  | _ => exact h.congr rfl rfl rfl

/-! ### What a change does to the other connections -/

/-- Sessions of other connections are not touched. -/
theorem Change.sessions_of_ne {fd : Fd} {payload : List UInt8} {data after : ServerData}
    {cmd : Option Command} (h : Change fd payload data cmd after) {d : Fd} (hd : d ≠ fd) :
    after.sessions[d]? = data.sessions[d]? := by
  cases h with
  | login => rw [loginData, IntMap.get_insert_of_ne _ hd]
  | logout => rw [logoutData, IntMap.get_erase_of_ne _ hd]
  | _ => rfl

/-- Contexts of other connections are not touched. -/
theorem Change.contexts_of_ne {fd : Fd} {payload : List UInt8} {data after : ServerData}
    {cmd : Option Command} (h : Change fd payload data cmd after) {d : Fd} (hd : d ≠ fd) :
    after.clientContexts[d]? = data.clientContexts[d]? := by
  cases h with
  | login => rw [loginData, IntMap.get_insert_of_ne _ hd]
  | logout => rw [logoutData, IntMap.get_erase_of_ne _ hd]
  | use => rw [IntMap.get_insert_of_ne _ hd]
  | _ => rfl

/-- Only a login opens a session. -/
theorem Serves.login_of_session {host : Host} {fd : Fd} {payload : List UInt8} {data : ServerData}
    {cmd : Option Command} {a : Answer} (h : Serves host fd payload data cmd a) {u : Str}
    (hbefore : data.sessions[fd]? = none) (hafter : a.data.sessions[fd]? = some u) :
    cmd = some .login := by
  cases h with
  | loginKnown => rfl
  | loginNew => rfl
  | unauthorized => cases hbefore.symm.trans hafter
  -- everything else is answered to a session that was there before
  | unknown hs | refused hs | dangling hs | logout hs | users hs | user hs | send hs | messages hs
  | subscribe hs | resubscribe hs | unsubscribe hs | subscribedTeams hs | subscribedUsers hs
  | use hs | list hs | info hs | createTeam hs | createChannel hs | createThread hs
  | createReply hs => cases hbefore.symm.trans hs

/-! ### The invariant of the server -/

namespace Server

/-- **The session registry invariant.** -/
structure Registry (s : Server) : Prop extends DataRegistry s.data where
  /-- Only clients have sessions. -/
  client : ∀ fd : Fd, s.data.sessions.contains fd = true → s.clients.contains fd = true
  /-- Only open descriptors are clients. -/
  isOpen : ∀ fd : Fd, s.clients.contains fd = true → isOpen fd s.trace = true

variable {host : ℕ → Host} {s : Server}

/-- A descriptor that is not open has left nothing behind. -/
theorem Registry.of_closed (h : Registry s) {fd : Fd}
    (hclosed : MyTeams.isOpen fd s.trace = false) :
    s.clients[fd]? = none ∧ s.data.sessions[fd]? = none ∧ s.data.clientContexts[fd]? = none := by
  have hclient : s.clients.contains fd = false := by
    by_contra hne
    rw [h.isOpen fd (Bool.eq_true_of_not_eq_false hne)] at hclosed
    cases hclosed
  have hsession : s.data.sessions.contains fd = false := by
    by_contra hne
    rw [h.client fd (Bool.eq_true_of_not_eq_false hne)] at hclient
    cases hclient
  have hcontext : s.data.clientContexts.contains fd = false := (h.keys fd).symm.trans hsession
  exact ⟨(IntMap.contains_eq_false_iff _).1 hclient, (IntMap.contains_eq_false_iff _).1 hsession,
    (IntMap.contains_eq_false_iff _).1 hcontext⟩

/-! ### The invariant is kept -/

theorem registry_init : Registry Server.init where
  toDataRegistry := dataRegistry_init
  client fd h := by simp [Server.init, ServerData.init] at h
  isOpen fd h := by simp [Server.init] at h

/-- A session after an action was there before, unless it is of the connection acted on. -/
theorem session_of_perform (h : Registry s) {a : Action} {d : Fd} (hd : d ≠ a.fd) :
    (perform host a s).data.sessions.contains d = s.data.sessions.contains d := by
  rw [Std.ExtTreeMap.contains_eq_isSome_getElem?, Std.ExtTreeMap.contains_eq_isSome_getElem?,
    (change_perform h.sessionsWf a).sessions_of_ne hd]

theorem Registry.perform (h : Registry s) {a : Action} (ha : s.Enabled a) :
    Registry (perform host a s) where
  toDataRegistry := h.toDataRegistry.change (change_perform h.sessionsWf a)
  client d hd := by
    cases a with
    | accept fd =>
      show (s.clients.insert fd _).contains d = true
      rw [IntMap.contains_insert, h.client d hd, Bool.or_true]
    | receive fd tmp => exact (contains_modifyClient ha.1 _ d).trans (h.client d hd)
    | write fd n => exact (contains_write ha n d).trans (h.client d hd)
    | frame fd cmd payload =>
      obtain ⟨c, rest, hc, -⟩ := ha
      have hfd : s.clients.contains fd = true := (IntMap.contains_iff _).2 ⟨c, hc⟩
      rw [contains_frame hfd]
      rcases eq_or_ne d fd with heq | hne
      · rw [heq, hfd]
      · exact h.client d ((session_of_perform h hne).symm.trans hd)
    | disconnect fd =>
      rcases eq_or_ne d fd with heq | hne
      · rw [heq, (IntMap.contains_eq_false_iff _).2 (session_disconnect fd)] at hd
        cases hd
      · rw [contains_disconnect, h.client d ((session_of_perform h hne).symm.trans hd),
          Bool.and_true, bne_iff_ne]
        exact Ne.symm hne
  isOpen d hd := by
    cases a with
    | accept fd =>
      change (s.clients.insert fd _).contains d = true at hd
      show MyTeams.isOpen d (s.trace ++ [.accepted fd]) = true
      rw [isOpen_append_accepted, Bool.or_eq_true]
      rw [IntMap.contains_insert, Bool.or_eq_true] at hd
      exact hd.symm.imp_left (h.isOpen d)
    | receive fd tmp => exact h.isOpen d ((contains_modifyClient ha.1 _ d).symm.trans hd)
    | write fd n =>
      have hsame := h.isOpen d ((contains_write ha n d).symm.trans hd)
      exact (isOpen_append_neutral (by simp [Observation.Neutral])).trans hsame
    | frame fd cmd payload =>
      obtain ⟨c, rest, hc, -⟩ := ha
      have hfd : s.clients.contains fd = true := (IntMap.contains_iff _).2 ⟨c, hc⟩
      rw [isOpen_frame]
      exact h.isOpen d ((contains_frame hfd _ _ d).symm.trans hd)
    | disconnect fd =>
      rw [contains_disconnect, Bool.and_eq_true] at hd
      rw [isOpen_disconnect, h.isOpen d hd.2, hd.1]
      rfl

theorem Reachable.registry (h : Reachable host s) : Registry s :=
  h.induction registry_init fun _ hs ha ↦ hs.perform ha

theorem Reachable.sessionsWf (h : Reachable host s) : SessionsWf s.data :=
  h.registry.sessionsWf

/-! ### Sessions come from logins -/

/-- The descriptor has not sent `CMD_LOGIN` since it was accepted. -/
def NoLogin (fd : Fd) (trace : List Observation) : Prop :=
  ∀ payload data, .dispatched fd Command.login.code payload data ∉ sinceAccept fd trace

theorem ne_accepted_of_queued {l : List (Fd × List UInt8)} (fd : Fd) :
    ∀ o ∈ l.map (fun x ↦ Observation.queued x.1 x.2), o ≠ .accepted fd := by
  intro o ho
  obtain ⟨x, -, rfl⟩ := List.mem_map.1 ho
  exact Observation.noConfusion

variable (host s) in
/-- What an action other than `accept` adds to the history comes after the last acceptance. -/
theorem sinceAccept_perform {a : Action} {d : Fd} (ha : a ≠ .accept d) :
    ∃ t, sinceAccept d (perform host a s).trace = sinceAccept d s.trace ++ t ∧
      ∀ cmd payload, a = .frame d cmd payload → .dispatched d cmd payload s.data ∈ t := by
  cases a with
  | accept fd =>
    have hd : fd ≠ d := fun hd ↦ ha (hd ▸ rfl)
    refine ⟨[.accepted fd], ?_, by simp⟩
    exact (sinceAccept_append_accepted d fd s.trace).trans (if_neg hd)
  | receive fd tmp => exact ⟨[], (List.append_nil _).symm, by simp⟩
  | write fd n => exact ⟨_, sinceAccept_append (by simp), by simp⟩
  | frame fd cmd payload =>
    rw [perform_frame_eq, queueAll_trace, List.append_assoc, sinceAccept_append]
    · exact ⟨_, rfl, fun cmd' payload' hframe ↦ by
        obtain ⟨rfl, rfl, rfl⟩ := Action.frame.inj hframe
        exact List.mem_append_left _ (List.mem_singleton_self _)⟩
    · intro o ho
      rcases List.mem_append.1 ho with ho | ho
      · rw [List.mem_singleton.1 ho]
        exact Observation.noConfusion
      · exact ne_accepted_of_queued d o ho
  | disconnect fd =>
    obtain ⟨queued, htrace⟩ := trace_disconnect host s fd
    rw [htrace, List.append_assoc, sinceAccept_append]
    · exact ⟨_, rfl, by simp⟩
    · intro o ho
      rcases List.mem_append.1 ho with ho | ho
      · exact ne_accepted_of_queued d o ho
      · rw [List.mem_singleton.1 ho]
        exact Observation.noConfusion

/-- **No session without a login**: until it sends `CMD_LOGIN`, a connection has no session. -/
theorem Reachable.session_of_noLogin (h : Reachable host s) {fd : Fd} (hno : NoLogin fd s.trace) :
    s.data.sessions[fd]? = none := by
  revert hno
  refine h.induction (P := fun s ↦ NoLogin fd s.trace → s.data.sessions[fd]? = none)
    (fun _ ↦ by simp [Server.init, ServerData.init]) fun {s a} hs ih ha hno ↦ ?_
  rcases eq_or_ne a (.accept fd) with haccept | haccept
  · rw [haccept] at ha ⊢
    exact (hs.registry.of_closed ha).2.1
  obtain ⟨t, ht, hframe⟩ := sinceAccept_perform host s haccept
  have hbefore : s.data.sessions[fd]? = none :=
    ih fun payload data hmem ↦ hno payload data (ht ▸ List.mem_append_left _ hmem)
  rcases eq_or_ne fd a.fd with hfd | hfd
  · rcases hafter : (Server.perform host a s).data.sessions[fd]? with - | u
    · rfl
    cases a with
    | accept d => exact absurd (by rw [hfd]; rfl) haccept
    | receive d tmp => exact hafter.symm.trans hbefore
    | write d n => exact hafter.symm.trans hbefore
    | disconnect d =>
      rw [hfd] at hafter
      exact hafter.symm.trans (session_disconnect d)
    | frame d cmd payload =>
      obtain rfl : fd = d := hfd
      obtain ⟨answer, hserves, hdata, -⟩ := exists_serves_frame host hs.sessionsWf fd cmd payload
      rw [hdata] at hafter
      have hlogin := Command.code_of_ofCode? (hserves.login_of_session hbefore hafter)
      have hmem : .dispatched fd Command.login.code payload s.data ∈ t :=
        hframe _ payload (by rw [hlogin])
      exact absurd (ht ▸ List.mem_append_right _ hmem) (hno payload s.data)
  · rw [(change_perform hs.sessionsWf a).sessions_of_ne hfd, hbefore]

/-! ### Before the login -/

theorem sends_error (fd : Fd) (data : ServerData) (e : Error) :
    (Outcome.error data e []).result.sends fd = [(fd, makeMessage e.code [])] := by
  simp [Outcome.error, Result.reply, Result.sends, deliveries, makeMessage, be16,
    ByteOrder.beBytes]

/-- Without a session, a frame other than `CMD_LOGIN` only queues an empty `ERR_UNAUTHORIZED`. -/
theorem frame_unauthorized {fd : Fd} {c : ClientState} (hs : s.data.sessions[fd]? = none)
    (hc : s.clients[fd]? = some c) {cmd : UInt16} (hcmd : cmd ≠ Command.login.code)
    (payload : List UInt8) :
    (perform host (.frame fd cmd payload) s).data = s.data ∧
      (perform host (.frame fd cmd payload) s).clients =
        s.clients.insert fd
          { c with
            recvBuffer := c.recvBuffer.drop (headerSize + payload.length)
            sendBuffer := c.sendBuffer ++ makeMessage Error.unauthorized.code [] } := by
  have hout : frameOutcome (host s.served) fd cmd payload s.data =
      Outcome.error s.data .unauthorized [] := by
    rw [frameOutcome, if_pos ⟨hs, hcmd⟩]
  rw [perform_frame_eq, hout, sends_error, modifyClient_clients hc]
  refine ⟨queueAll_data _ _, IntMap.ext_get fun d ↦ ?_⟩
  rw [queueAll_clients]
  dsimp only
  rw [IntMap.get_insert, IntMap.get_insert, addressedTo_cons]
  rcases eq_or_ne fd d with hd | hd
  · simp [hd]
  · rcases hcd : s.clients[d]? with - | cd <;> simp [hd]

/-- **Session registry.** Every state between two rounds is a state of a run of actions; and in
every state of such a run the registry invariant holds, a descriptor that `accept` may return starts
with empty buffers and with nothing of its previous owner, and until a connection sends `CMD_LOGIN`
every frame it sends is answered by an empty `ERR_UNAUTHORIZED` and changes nothing else. -/
theorem session_registry (host : ℕ → Host) :
    (∀ s, RoundReachable host s → Reachable host s) ∧
      ∀ s, Reachable host s →
        Registry s ∧ SessionsWf s.data ∧
        (∀ fd, s.Enabled (.accept fd) →
          (perform host (.accept fd) s).clients[fd]? = some ⟨fd, [], []⟩ ∧
            (perform host (.accept fd) s).data.sessions[fd]? = none ∧
            (perform host (.accept fd) s).data.clientContexts[fd]? = none) ∧
        ∀ fd cmd payload, NoLogin fd s.trace → s.Enabled (.frame fd cmd payload) →
          cmd ≠ Command.login.code →
          ∃ c, s.clients[fd]? = some c ∧
            (perform host (.frame fd cmd payload) s).data = s.data ∧
            (perform host (.frame fd cmd payload) s).clients =
              s.clients.insert fd
                { c with
                  recvBuffer := c.recvBuffer.drop (headerSize + payload.length)
                  sendBuffer := c.sendBuffer ++ makeMessage Error.unauthorized.code [] } := by
  refine ⟨fun s h ↦ h.reachable, fun s h ↦ ⟨h.registry, h.sessionsWf, fun fd hfd ↦ ?_, ?_⟩⟩
  · obtain ⟨-, hsession, hcontext⟩ := h.registry.of_closed hfd
    refine ⟨?_, hsession, hcontext⟩
    rw [perform, handleNewConnection, record, IntMap.get_insert_self]
  · rintro fd cmd payload hno ⟨c, rest, hc, -⟩ hcmd
    exact ⟨c, hc, frame_unauthorized (h.session_of_noLogin hno) hc hcmd payload⟩

/-- Two connections log in, one after the other, and the first breaks. -/
def lostConnection : Server :=
  pollRound plainHost none [(4, ⟨true, none, none⟩)] <|
  pollRound plainHost none [(5, .read (makeMessage Command.login.code [0x62]))] <|
  pollRound plainHost (some 5) [(4, .read (makeMessage Command.login.code [0x61]))] <|
  pollRound plainHost (some 4) [] Server.init

/-- Its descriptor is accepted again, with nothing left behind, while the other session goes on; and
the newcomer asks for the users before he has logged in. -/
theorem session_registry_lostConnection :
    let s := execute plainHost [.accept 4, .receive 4 (makeMessage Command.users.code [])]
      lostConnection
    (Reachable plainHost lostConnection ∧ Registry lostConnection ∧
      lostConnection.data.sessions[(5 : Fd)]? = some (plainUuid 1).str) ∧
    ((perform plainHost (.accept 4) lostConnection).clients[(4 : Fd)]? = some ⟨4, [], []⟩ ∧
      (perform plainHost (.accept 4) lostConnection).data.sessions[(4 : Fd)]? = none ∧
      (perform plainHost (.accept 4) lostConnection).data.clientContexts[(4 : Fd)]? = none) ∧
    ∃ c, s.clients[(4 : Fd)]? = some c ∧
      (perform plainHost (.frame 4 Command.users.code []) s).data = s.data ∧
      (perform plainHost (.frame 4 Command.users.code []) s).clients =
        s.clients.insert 4
          { c with
            recvBuffer := c.recvBuffer.drop (headerSize + ([] : List UInt8).length)
            sendBuffer := c.sendBuffer ++ makeMessage Error.unauthorized.code [] } := by
  intro s
  obtain ⟨hround, hreachable⟩ := session_registry plainHost
  have hopen {t : Server} {fd : Fd} (h : isOpen fd t.trace = false) :
      ∀ d, some fd = some d → isOpen d t.trace = false := fun d hd ↦ Option.some.inj hd ▸ h
  have hnone {t : Server} : ∀ d, none = some d → isOpen d t.trace = false := fun d hd ↦ by cases hd
  have hlost : Reachable plainHost lostConnection :=
    hround _ (.round (.round (.round (.round .init (hopen rfl)) (hopen (by decide +kernel))) hnone)
      hnone)
  have hs : Executable plainHost [.accept 4, .receive 4 (makeMessage Command.users.code [])]
      lostConnection := by decide +kernel
  obtain ⟨hregistry, -, haccept, -⟩ := hreachable lostConnection hlost
  obtain ⟨-, -, -, hframe⟩ := hreachable s (hlost.steps (steps_execute hs))
  have hfresh : sinceAccept 4 s.trace = [] := List.isEmpty_iff.1 (by decide +kernel)
  have hno : NoLogin 4 s.trace := fun payload data hmem ↦ by
    rw [hfresh] at hmem
    cases hmem
  exact ⟨⟨hlost, hregistry, by decide +kernel⟩, haccept 4 hs.1,
    hframe 4 Command.users.code [] hno (by decide +kernel) (by decide)⟩

end Server

end MyTeams
