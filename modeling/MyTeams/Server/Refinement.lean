import MyTeams.Server.Semantics

/-!
# The handlers refine the frame semantics

`frameOutcome` is what `_dispatch` computes for one frame, with its two hand-built answers in the
same form as the handlers' results; `dispatch_eq` says that `_dispatch` is this outcome, recorded
and delivered. `frameOutcome_realizes` shows that on well-formed sessions the outcome is the packet
form of an answer that `Serves` allows.

The guards of the handlers (`withSession`, `withTeam` and so on) are taken apart by one elimination
rule each.
-/

namespace MyTeams

open ByteField FirstMatch

/-- Every session is a 36-byte string. -/
def SessionsWf (data : ServerData) : Prop :=
  ∀ (fd : Fd) (u : Str), data.sessions[fd]? = some u → u.length = 36

/-- An outcome is the packet form of an answer in `S`. -/
def Realizes (S : Answer → Prop) (o : Outcome) : Prop :=
  ∃ a, S a ∧ o.data = a.data ∧ o.result = a.result

/-! ### Elimination rules for the guards -/

section Guards

variable {P : Outcome → Prop} {data : ServerData}

theorem withSession_elim {fd : Fd} {k : Str → Outcome}
    (none : data.sessions[fd]? = none → P (Outcome.error data .unauthorized []))
    (some : ∀ u, data.sessions[fd]? = some u → P (k u)) : P (withSession data fd k) := by
  rcases h : data.sessions[fd]? with - | u <;> simp only [withSession, h]
  · exact none h
  · exact some u h

theorem withUuid36_elim {uuid : Str} {k : Outcome}
    (short : uuid.length ≠ 36 → P (Outcome.error data .invalidCommand []))
    (exact : uuid.length = 36 → P k) : P (withUuid36 data uuid k) := by
  rcases eq_or_ne uuid.length 36 with h | h
  · simpa [withUuid36, isUuid36, h] using exact h
  · simpa [withUuid36, isUuid36, h] using short h

theorem withUser_elim {uuid : Str} {p : List UInt8} {k : User → Outcome}
    (none : P (Outcome.error data .unknownUser p))
    (some : ∀ u, findUserByUuid data uuid = some u → P (k u)) : P (withUser data uuid p k) := by
  rcases h : findUserByUuid data uuid with - | u <;> simp only [withUser, h]
  · exact none
  · exact some u h

theorem withTeam_elim {uuid : Str} {p : List UInt8} {k : Team → Outcome}
    (none : findTeamByUuid data uuid = none → P (Outcome.error data .unknownTeam p))
    (some : ∀ t, findTeamByUuid data uuid = some t → P (k t)) : P (withTeam data uuid p k) := by
  rcases h : findTeamByUuid data uuid with - | t <;> simp only [withTeam, h]
  · exact none h
  · exact some t h

theorem withSubscription_elim {team : Team} {u : Str} {k : Outcome}
    (no : u ∉ team.memberUuids → P (Outcome.error data .notSubscribed []))
    (yes : u ∈ team.memberUuids → P k) : P (withSubscription data team u k) := by
  by_cases h : u ∈ team.memberUuids
  · simpa [withSubscription, isSubscribedTo, h] using yes h
  · simpa [withSubscription, isSubscribedTo, h] using no h

theorem withChannel_elim {team : Team} {uuid : Str} {p : List UInt8} {k : Channel → Outcome}
    (none : findChannelByUuid team uuid = none → P (Outcome.error data .unknownChannel p))
    (some : ∀ c, findChannelByUuid team uuid = some c → P (k c)) :
    P (withChannel data team uuid p k) := by
  rcases h : findChannelByUuid team uuid with - | c <;> simp only [withChannel, h]
  · exact none h
  · exact some c h

theorem withThread_elim {channel : Channel} {uuid : Str} {p : List UInt8} {k : Thread → Outcome}
    (none : findThreadByUuid channel uuid = none → P (Outcome.error data .unknownThread p))
    (some : ∀ t, findThreadByUuid channel uuid = some t → P (k t)) :
    P (withThread data channel uuid p k) := by
  rcases h : findThreadByUuid channel uuid with - | t <;> simp only [withThread, h]
  · exact none h
  · exact some t h

theorem withContext_elim {fd : Fd} {k : ClientContext → Outcome}
    (none : data.clientContexts[fd]? = none → P (Outcome.error data .invalidCommand []))
    (some : ∀ ctx, data.clientContexts[fd]? = some ctx → P (k ctx)) :
    P (withContext data fd k) := by
  rcases h : data.clientContexts[fd]? with - | ctx <;> simp only [withContext, h]
  · exact none h
  · exact some ctx h

theorem ite_elim {c : Prop} [Decidable c] {o o' : Outcome} (pos : c → P o) (neg : ¬ c → P o') :
    P (if c then o else o') := by
  split_ifs with h
  · exact pos h
  · exact neg h

/-- The switch over the level of a context. -/
theorem level_elim {level : UInt8} {o₀ o₁ o₂ o₃ o : Outcome} (none : level = useNone → P o₀)
    (team : level = useTeam → P o₁) (channel : level = useChannel → P o₂)
    (thread : level = useThread → P o₃)
    (other : level ≠ useNone → level ≠ useTeam → level ≠ useChannel → level ≠ useThread → P o) :
    P (if level = useNone then o₀ else if level = useTeam then o₁
      else if level = useChannel then o₂ else if level = useThread then o₃ else o) :=
  ite_elim none fun h0 ↦ ite_elim team fun h1 ↦ ite_elim channel fun h2 ↦ ite_elim thread fun h3 ↦
    other h0 h1 h2 h3

end Guards

/-! ### Guards that are decided -/

section Decided

variable {data : ServerData}

theorem withSession_of_some {fd : Fd} {user : Str} (h : data.sessions[fd]? = some user)
    (k : Str → Outcome) : withSession data fd k = k user := by
  rw [withSession, h]

theorem withUuid36_of_length {uuid : Str} (h : uuid.length = 36) (k : Outcome) :
    withUuid36 data uuid k = k := by
  rw [withUuid36, isUuid36, h]
  rfl

theorem withUser_of_some {uuid : Str} {e : List UInt8} {u : User}
    (h : findUserByUuid data uuid = some u) (k : User → Outcome) :
    withUser data uuid e k = k u := by
  rw [withUser, h]

theorem withTeam_of_some {uuid : Str} {e : List UInt8} {t : Team}
    (h : findTeamByUuid data uuid = some t) (k : Team → Outcome) :
    withTeam data uuid e k = k t := by
  rw [withTeam, h]

theorem withSubscription_of_mem {t : Team} {user : Str} (h : user ∈ t.memberUuids) (k : Outcome) :
    withSubscription data t user k = k := by
  rw [withSubscription, isSubscribedTo_iff.2 h]
  rfl

theorem withSubscription_of_not_mem {t : Team} {user : Str} (h : user ∉ t.memberUuids)
    (k : Outcome) : withSubscription data t user k = Outcome.error data .notSubscribed [] := by
  rw [withSubscription, Bool.eq_false_iff.2 fun hsub ↦ h (isSubscribedTo_iff.1 hsub)]
  rfl

theorem withChannel_of_some {t : Team} {uuid : Str} {e : List UInt8} {c : Channel}
    (h : findChannelByUuid t uuid = some c) (k : Channel → Outcome) :
    withChannel data t uuid e k = k c := by
  rw [withChannel, h]

theorem withThread_of_some {c : Channel} {uuid : Str} {e : List UInt8} {th : Thread}
    (h : findThreadByUuid c uuid = some th) (k : Thread → Outcome) :
    withThread data c uuid e k = k th := by
  rw [withThread, h]

theorem withContext_of_some {fd : Fd} {ctx : ClientContext}
    (h : data.clientContexts[fd]? = some ctx) (k : ClientContext → Outcome) :
    withContext data fd k = k ctx := by
  rw [withContext, h]

end Decided

/-! ### Packets of answers -/

theorem realizes_error {S : Answer → Prop} {data : ServerData} {e : Error} {b : Body}
    {p : List UInt8} (h : S (.only data ⟨.err e, b⟩)) (hp : p = b.bytes) :
    Realizes S (Outcome.error data e p) :=
  ⟨_, h, rfl, by rw [hp]; rfl⟩

theorem realizes_answer {S : Answer → Prop} {data : ServerData} {r : Response} {b : Body}
    {p : List UInt8} (h : S (.only data ⟨.res r, b⟩)) (hp : p = b.bytes) :
    Realizes S (Outcome.answer data r p) :=
  ⟨_, h, rfl, by rw [hp]; rfl⟩

@[simp] theorem extractSv_whole (p : List UInt8) : Server.extractSv p 0 p.length = p := by
  simp [Server.extractSv]

/-- A uuid argument that passed the length check is sent back in an error as it came. -/
theorem appendFixed_uuid {u : Str} (h : u.length = 36) :
    appendFixed [] u 36 = (Body.uuid (fill 36 u)).bytes := by
  rw [appendFixed_of_length h, List.nil_append, Body.bytes, toList_fill_of_length h]

theorem userDetails_eq {data : ServerData} {u : Str} (h : u.length = 36) :
    userDetails data u = (accountBody data u).bytes := by
  rcases hfind : findUserByUuid data u with - | user
  · simp [userDetails, accountBody, hfind, Body.bytes, toList_fill_of_length h,
      appendFixed_of_length h]
  · simp [userDetails, accountBody, hfind, Body.bytes]

/-! ### The handlers -/

section Handlers

variable {host : Host} {fd : Fd} {payload : List UInt8} {data : ServerData}

theorem realizes_unauthorized {cmd : Command} (hs : data.sessions[fd]? = none)
    (hcmd : cmd ≠ .login) :
    Realizes (Serves host fd payload data (some cmd)) (Outcome.error data .unauthorized []) :=
  realizes_error (b := .empty) (.unauthorized hs fun h ↦ hcmd (Option.some.inj h)) rfl

/-- A refusal of a malformed or unknown argument, or of a team of others, by a command whose
argument is all that it depends on. -/
theorem realizes_refused {cmd : Command} {user : Str} {e : Error} {b : Body} {p : List UInt8}
    (hs : data.sessions[fd]? = some user)
    (hcmd : cmd ∉ [Command.login, .logout, .use, .create, .list, .info]) (hb : ErrorBody e b)
    (hp : p = b.bytes) :
    Realizes (Serves host fd payload data (some cmd)) (Outcome.error data e p) := by
  simp only [List.mem_cons, List.not_mem_nil, or_false, not_or] at hcmd
  obtain ⟨hlogin, hlogout, huse, hcreate, hlist, hinfo⟩ := hcmd
  exact realizes_error (.refused hs hb ⟨hlogin, hlogout, hlist, hinfo⟩
    (fun h ↦ absurd h hcreate) fun h ↦ absurd h huse) hp

theorem handleLogin_realizes :
    Realizes (Serves host fd payload data (some .login)) (handleLogin host fd payload data) := by
  rcases hfind : findUserByName data (cut payload) with - | user <;>
    simp only [handleLogin, trimPaddedName, hfind]
  · refine ⟨_, .loginNew hfind rfl rfl, rfl, ?_⟩
    by_cases hon : isUserOnline data (newUser host fd (cut payload)) <;>
      simp [loginResult, Answer.result, presenceEvents, hon, Msg.packet, Push.event, Result.reply,
        Body.bytes, ServerCode.code]
  · refine ⟨_, .loginKnown hfind rfl, rfl, ?_⟩
    by_cases hon : isUserOnline data user <;>
      simp [loginResult, Answer.result, presenceEvents, hon, Msg.packet, Push.event, Result.reply,
        Body.bytes, ServerCode.code, trimPaddedName]

theorem logoutPayload_eq {user : Str} (h : user.length = 36) :
    logoutPayload data user = (logoutBody data user).bytes := by
  rcases hfind : data.users.find? fun u ↦ u.uuid.str == user with - | u <;>
    simp [logoutPayload, logoutBody, hfind, Body.bytes, toList_fill_of_length h,
      appendFixed_of_length h]

theorem handleLogout_realizes (hwf : SessionsWf data) :
    Realizes (Serves host fd payload data (some .logout)) (handleLogout fd data) := by
  refine withSession_elim (fun hs ↦ ?_) fun user hs ↦ ?_
  · exact realizes_unauthorized hs (by decide)
  · refine ⟨_, .logout hs rfl, ?_, ?_⟩ <;>
      by_cases h : (logoutData data fd user).sessions.toList.any fun kv ↦ kv.2 == user <;>
      simp [h, logoutPayload_eq (hwf fd user hs), Answer.result, presenceEvents, Msg.packet,
        Push.event, Result.reply, ServerCode.code]

theorem handleUsers_realizes :
    Realizes (Serves host fd payload data (some .users)) (handleUsers fd data) := by
  rcases hs : data.sessions[fd]? with - | user
  · have hlog : isLoggedIn data fd = false := (IntMap.contains_eq_false_iff _).2 hs
    simp only [handleUsers, hlog]
    exact realizes_unauthorized hs (by decide)
  · have hlog : isLoggedIn data fd = true := (IntMap.contains_iff _).2 ⟨user, hs⟩
    simp only [handleUsers, hlog]
    exact realizes_answer (.users hs) (foldl_append_eq_listBytes (appendUser_eq data) _)

theorem handleUser_realizes :
    Realizes (Serves host fd payload data (some .user))
      (handleUser fd (Server.extractSv payload 0 36) data) := by
  rcases hs : data.sessions[fd]? with - | user
  · have hlog : isLoggedIn data fd = false := (IntMap.contains_eq_false_iff _).2 hs
    simp only [handleUser, hlog]
    exact realizes_unauthorized hs (by decide)
  · have hlog : isLoggedIn data fd = true := (IntMap.contains_iff _).2 ⟨user, hs⟩
    simp only [handleUser, hlog]
    refine withUuid36_elim (fun _ ↦ ?_) fun hlen ↦ withUser_elim ?_ fun u hu ↦ ?_
    · exact realizes_refused hs (by decide) .invalid rfl
    · exact realizes_refused hs (by decide) (.user _) (appendFixed_uuid hlen)
    · rw [findUserByUuid_eq hlen] at hu
      exact realizes_answer (.user hs (List.mem_of_find?_eq_some hu)) (appendUser_eq data [] u)

theorem handleSend_realizes (hwf : SessionsWf data) :
    Realizes (Serves host fd payload data (some .send))
      (handleSend host fd (Server.extractSv payload 0 36) (Server.extractSv payload 36 512)
        data) := by
  refine withSession_elim (fun hs ↦ ?_) fun user hs ↦
    withUuid36_elim (fun _ ↦ ?_) fun hlen ↦ withUser_elim ?_ fun receiver hreceiver ↦ ?_
  · exact realizes_unauthorized hs (by decide)
  · exact realizes_refused hs (by decide) .invalid rfl
  · exact realizes_refused hs (by decide) (.user _) (appendFixed_uuid hlen)
  · refine ⟨_, .send hs rfl hreceiver rfl, rfl, ?_⟩
    by_cases hfds : (userFds data receiver.uuid.str).isEmpty <;>
      simp [hfds, Answer.result, Msg.packet, Push.event, Result.reply, Body.bytes, ServerCode.code,
        newMessage, toList_fill_of_length (hwf fd user hs), appendFixed_of_length (hwf fd user hs)]

theorem handleMessages_realizes :
    Realizes (Serves host fd payload data (some .messages))
      (handleMessages fd (Server.extractSv payload 0 36) data) := by
  refine withSession_elim (fun hs ↦ ?_) fun user hs ↦
    withUuid36_elim (fun _ ↦ ?_) fun hlen ↦ withUser_elim ?_ fun _ _ ↦ ?_
  · exact realizes_unauthorized hs (by decide)
  · exact realizes_refused hs (by decide) .invalid rfl
  · exact realizes_refused hs (by decide) (.user _) (appendFixed_uuid hlen)
  · exact realizes_answer (.messages hs) (foldl_append_eq_listBytes appendMessage_eq _)

/-- The guards in front of a team: a session, an argument of 36 bytes, and a team with this uuid. -/
theorem withArgument_realizes {cmd : Command} {uuid : Str} {k : Str → Team → Outcome}
    (hcmd : cmd ∉ [Command.login, .logout, .use, .create, .list, .info])
    (hk : ∀ user team, data.sessions[fd]? = some user → findTeamByUuid data uuid = some team →
      Realizes (Serves host fd payload data (some cmd)) (k user team)) :
    Realizes (Serves host fd payload data (some cmd))
      (withSession data fd fun user ↦ withUuid36 data uuid <|
        withTeam data uuid (appendFixed [] uuid 36) fun team ↦ k user team) := by
  refine withSession_elim (fun hs ↦ ?_) fun user hs ↦
    withUuid36_elim (fun _ ↦ ?_) fun hlen ↦ withTeam_elim (fun _ ↦ ?_) fun team hteam ↦ ?_
  · exact realizes_unauthorized hs fun h ↦ hcmd (h ▸ List.mem_cons_self)
  · exact realizes_refused hs hcmd .invalid rfl
  · exact realizes_refused hs hcmd (.team _) (appendFixed_uuid hlen)
  · exact hk user team hs hteam

/-- The same guards in front of a team of the user's own. -/
theorem withMembership_realizes {cmd : Command} {uuid : Str} {k : Str → Team → Outcome}
    (hcmd : cmd ∉ [Command.login, .logout, .use, .create, .list, .info])
    (hk : ∀ user team, data.sessions[fd]? = some user → findTeamByUuid data uuid = some team →
      user ∈ team.memberUuids → Realizes (Serves host fd payload data (some cmd)) (k user team)) :
    Realizes (Serves host fd payload data (some cmd))
      (withSession data fd fun user ↦ withUuid36 data uuid <|
        withTeam data uuid (appendFixed [] uuid 36) fun team ↦
        withSubscription data team user (k user team)) :=
  withArgument_realizes hcmd fun user team hs hteam ↦
    withSubscription_elim (fun _ ↦ realizes_refused hs hcmd .notSubscribed rfl)
      (hk user team hs hteam)

theorem handleSubscribe_realizes :
    Realizes (Serves host fd payload data (some .subscribe))
      (handleSubscribe fd (Server.extractSv payload 0 36) data) := by
  refine withArgument_realizes (by decide) fun user team hs hteam ↦ ?_
  by_cases hsub : user ∈ team.memberUuids
  · rw [if_neg (by simp [isSubscribedTo_iff, hsub])]
    exact realizes_answer (Serves.resubscribe hs rfl hteam hsub) (by simp [Body.bytes])
  · rw [if_pos (by simp [isSubscribedTo, hsub])]
    refine ⟨_, .subscribe hs rfl hteam hsub, rfl, ?_⟩
    simp [Answer.only, Answer.result, Msg.packet, Result.reply, Body.bytes, ServerCode.code]

theorem handleUnsubscribe_realizes :
    Realizes (Serves host fd payload data (some .unsubscribe))
      (handleUnsubscribe fd (Server.extractSv payload 0 36) data) := by
  refine withMembership_realizes (by decide) fun user team hs hteam hsub ↦
    ⟨_, .unsubscribe hs rfl hteam hsub, rfl, ?_⟩
  simp [Answer.only, Answer.result, Msg.packet, Result.reply, Body.bytes, ServerCode.code]

theorem handleSubscribedTeams_realizes :
    Realizes (Serves host fd payload data (some .subscribed)) (handleSubscribedTeams fd data) := by
  refine withSession_elim (fun hs ↦ ?_) fun user hs ↦ ?_
  · exact realizes_unauthorized hs (by decide)
  · exact realizes_answer (.subscribedTeams hs) (foldl_append_eq_listBytes appendTeam_eq _)

theorem handleSubscribedUsers_realizes :
    Realizes (Serves host fd payload data (some .subscribed))
      (handleSubscribedUsers fd (Server.extractSv payload 1 36) data) :=
  withMembership_realizes (by decide) fun _ _ hs hteam hsub ↦
    realizes_answer (.subscribedUsers hs hteam hsub)
      (foldl_append_eq_listBytes (appendUser_eq data) _)

/-! ### Contexts -/

section Resolution

variable {ctx : ClientContext} {team : Team} {channel : Channel}

theorem channel?_of_team (ht : ctx.team? data = some team) :
    ctx.channel? data = findChannelByUuid team ctx.channelUuid.toList := by
  rw [ClientContext.channel?, ht, Option.bind_some]

theorem thread?_of_channel (hc : ctx.channel? data = some channel) :
    ctx.thread? data = findThreadByUuid channel ctx.threadUuid.toList := by
  rw [ClientContext.thread?, hc, Option.bind_some]

/-- A context without its team, channel or thread cannot be shown. -/
theorem contextInfo_of_no_team {user : Str} (hlevel : ctx.level ≠ useNone)
    (h : ctx.team? data = none) : contextInfo data user ctx = none := by
  simp [contextInfo, hlevel, ClientContext.thread?, ClientContext.channel?, h]

theorem contextInfo_of_no_channel {user : Str}
    (hlevel : ctx.level = useChannel ∨ ctx.level = useThread) (h : ctx.channel? data = none) :
    contextInfo data user ctx = none := by
  rcases hlevel with h2 | h3
  · rw [contextInfo_of_channel h2, h, Option.map_none]
  · rw [contextInfo_of_thread h3, ClientContext.thread?, h, Option.bind_none, Option.map_none]

theorem contextInfo_of_no_thread {user : Str} (hlevel : ctx.level = useThread)
    (h : ctx.thread? data = none) : contextInfo data user ctx = none := by
  rw [contextInfo_of_thread hlevel, h, Option.map_none]

end Resolution

theorem length_useUuid {i : ℕ} (h : 1 + (i + 1) * 36 ≤ payload.length) :
    (useUuid payload i).length = 36 := by
  rw [useUuid, List.length_take, List.length_drop]
  omega

/-- A refusal of `CMD_USE`, given that what was asked for is not granted. -/
theorem realizes_use_refused {user : Str} {e : Error} {b : Body} {p : List UInt8}
    (hs : data.sessions[fd]? = some user) (hb : ErrorBody e b) (hp : p = b.bytes)
    (hgrant : ∀ ctx, requestedContext payload = some ctx → ¬ Grants data user ctx) :
    Realizes (Serves host fd payload data (some .use)) (Outcome.error data e p) :=
  realizes_error (.refused hs hb (by simp) (by simp) fun _ ⟨ctx, hreq, hg⟩ ↦ hgrant ctx hreq hg) hp

/-- A request for a context below `USE_NONE`, once it is known which one it is. -/
theorem not_grants_of_requested {user : Str} {ctx : ClientContext}
    (hreq : requestedContext payload = some ctx) (h : ¬ Grants data user ctx) :
    ∀ ctx', requestedContext payload = some ctx' → ¬ Grants data user ctx' := by
  intro ctx' hreq'
  obtain rfl := Option.some.inj (hreq.symm.trans hreq')
  exact h

theorem not_grants_of_no_team {user : Str} {ctx : ClientContext} (hlevel : ctx.level ≠ useNone)
    (h : ctx.team? data = none) : ¬ Grants data user ctx := by
  rintro ⟨-, hnone | ⟨t, ht, -⟩⟩
  · exact hlevel hnone
  · rw [h] at ht
    cases ht

theorem not_grants_of_not_mem {user : Str} {ctx : ClientContext} {team : Team}
    (hlevel : ctx.level ≠ useNone) (ht : ctx.team? data = some team)
    (h : user ∉ team.memberUuids) : ¬ Grants data user ctx := by
  rintro ⟨-, hnone | ⟨t, ht', hmem⟩⟩
  · exact hlevel hnone
  · obtain rfl := Option.some.inj (ht.symm.trans ht')
    exact h hmem

theorem not_grants_of_info {user : Str} {ctx : ClientContext}
    (h : contextInfo data user ctx = none) : ¬ Grants data user ctx := by
  rintro ⟨hsome, -⟩
  rw [h] at hsome
  cases hsome

/-- A granted context, shown as the handler shows it. -/
theorem realizes_use_granted {user : Str} {ctx : ClientContext} {r : Response} {b : Body}
    {p : List UInt8} (hs : data.sessions[fd]? = some user)
    (hreq : requestedContext payload = some ctx)
    (hinfo : contextInfo data user ctx = some ⟨.res r, b⟩)
    (hmem : ctx.level = useNone ∨ ∃ t, ctx.team? data = some t ∧ user ∈ t.memberUuids)
    (hp : p = b.bytes) :
    Realizes (Serves host fd payload data (some .use))
      (Outcome.answer { data with clientContexts := data.clientContexts.insert fd ctx } r p) :=
  ⟨_, .use hs hreq ⟨by rw [hinfo]; rfl, hmem⟩ hinfo, rfl, by rw [hp]; rfl⟩

/-! The three lookups of a requested context: each finds what the context names, or the request is
refused. -/

section Requested

variable {user : Str} {ctx : ClientContext} {team : Team} {channel : Channel} {uuid : Str}
  (hs : data.sessions[fd]? = some user) (hreq : requestedContext payload = some ctx)

include hs hreq

theorem withTeam_use_realizes (hlevel : ctx.level ≠ useNone) (huuid : ctx.teamUuid.toList = uuid)
    {k : Team → Outcome}
    (hk : ∀ t, ctx.team? data = some t → user ∈ t.memberUuids →
      Realizes (Serves host fd payload data (some .use)) (k t)) :
    Realizes (Serves host fd payload data (some .use))
      (withTeam data uuid (appendFixed [] uuid 36) fun t ↦ withSubscription data t user (k t)) := by
  subst huuid
  refine withTeam_elim (fun hteam ↦ ?_) fun t hteam ↦
    withSubscription_elim (fun hsub ↦ ?_) fun hsub ↦ hk t hteam hsub
  · exact realizes_use_refused hs (.team _) (appendFixed_uuid ctx.teamUuid.toList_length)
      (not_grants_of_requested hreq (not_grants_of_no_team hlevel hteam))
  · exact realizes_use_refused hs .notSubscribed rfl
      (not_grants_of_requested hreq (not_grants_of_not_mem hlevel hteam hsub))

theorem withChannel_use_realizes (hlevel : ctx.level = useChannel ∨ ctx.level = useThread)
    (huuid : ctx.channelUuid.toList = uuid) (ht : ctx.team? data = some team)
    {k : Channel → Outcome}
    (hk : ∀ c, ctx.channel? data = some c →
      Realizes (Serves host fd payload data (some .use)) (k c)) :
    Realizes (Serves host fd payload data (some .use))
      (withChannel data team uuid (appendFixed [] uuid 36) k) := by
  subst huuid
  refine withChannel_elim (fun hc ↦ ?_) fun c hc ↦ hk c ((channel?_of_team ht).trans hc)
  exact realizes_use_refused hs (.channel _) (appendFixed_uuid ctx.channelUuid.toList_length)
    (not_grants_of_requested hreq (not_grants_of_info
      (contextInfo_of_no_channel hlevel ((channel?_of_team ht).trans hc))))

theorem withThread_use_realizes (hlevel : ctx.level = useThread)
    (huuid : ctx.threadUuid.toList = uuid) (hc : ctx.channel? data = some channel)
    {k : Thread → Outcome}
    (hk : ∀ th, ctx.thread? data = some th →
      Realizes (Serves host fd payload data (some .use)) (k th)) :
    Realizes (Serves host fd payload data (some .use))
      (withThread data channel uuid (appendFixed [] uuid 36) k) := by
  subst huuid
  refine withThread_elim (fun hth ↦ ?_) fun th hth ↦ hk th ((thread?_of_channel hc).trans hth)
  exact realizes_use_refused hs (.thread _) (appendFixed_uuid ctx.threadUuid.toList_length)
    (not_grants_of_requested hreq (not_grants_of_info
      (contextInfo_of_no_thread hlevel ((thread?_of_channel hc).trans hth))))

end Requested

/-- `handle_use` at level `USE_TEAM`. -/
theorem handleUse_team_realizes {user : Str} (hs : data.sessions[fd]? = some user)
    (hhead : payload.head? = some useTeam) (hlen : ¬ payload.length < 1 + 36) :
    Realizes (Serves host fd payload data (some .use))
      (withTeam data (useUuid payload 0) (appendFixed [] (useUuid payload 0) 36) fun team ↦
        withSubscription data team user <|
        Outcome.answer
          { data with
            clientContexts := data.clientContexts.insert fd
              { ClientContext.init with
                level := useTeam, teamUuid := fill 36 (useUuid payload 0) } }
          .teamInfo (appendTeam [] team)) := by
  obtain ⟨ctx, hctx⟩ : ∃ ctx : ClientContext, ctx = { ClientContext.init with
    level := useTeam, teamUuid := fill 36 (useUuid payload 0) } := ⟨_, rfl⟩
  have hlevel : ctx.level = useTeam := by rw [hctx]
  have hreq : requestedContext payload = some ctx := by
    simp [requestedContext, hhead, hlen, hctx, useTeam, useNone]
  have huuid0 : ctx.teamUuid.toList = useUuid payload 0 := by
    rw [hctx, toList_fill_of_length (length_useUuid (by omega))]
  rw [← hctx]
  refine withTeam_use_realizes hs hreq (hlevel ▸ by decide) huuid0 fun team ht hsub ↦ ?_
  have hinfo : contextInfo data user ctx = _ := contextInfo_of_team hlevel
  rw [ht, Option.map_some] at hinfo
  exact realizes_use_granted hs hreq hinfo (.inr ⟨team, ht, hsub⟩) (appendTeam_eq [] team)

/-- `handle_use` at level `USE_CHANNEL`. -/
theorem handleUse_channel_realizes {user : Str} (hs : data.sessions[fd]? = some user)
    (hhead : payload.head? = some useChannel) (hlen : ¬ payload.length < 1 + 36 + 36) :
    Realizes (Serves host fd payload data (some .use))
      (withTeam data (useUuid payload 0) (appendFixed [] (useUuid payload 0) 36) fun team ↦
        withSubscription data team user <|
        withChannel data team (useUuid payload 1) (appendFixed [] (useUuid payload 1) 36)
          fun channel ↦
        Outcome.answer
          { data with
            clientContexts := data.clientContexts.insert fd
              { ClientContext.init with
                level := useChannel
                teamUuid := fill 36 (useUuid payload 0)
                channelUuid := fill 36 (useUuid payload 1) } }
          .channelInfo (appendChannel [] channel)) := by
  obtain ⟨ctx, hctx⟩ : ∃ ctx : ClientContext, ctx = { ClientContext.init with
    level := useChannel, teamUuid := fill 36 (useUuid payload 0),
    channelUuid := fill 36 (useUuid payload 1) } := ⟨_, rfl⟩
  have hlevel : ctx.level = useChannel := by rw [hctx]
  have hreq : requestedContext payload = some ctx := by
    simp [requestedContext, hhead, hlen, hctx, useTeam, useNone, useChannel]
  have huuid0 : ctx.teamUuid.toList = useUuid payload 0 := by
    rw [hctx, toList_fill_of_length (length_useUuid (by omega))]
  have huuid1 : ctx.channelUuid.toList = useUuid payload 1 := by
    rw [hctx, toList_fill_of_length (length_useUuid (by omega))]
  rw [← hctx]
  refine withTeam_use_realizes hs hreq (hlevel ▸ by decide) huuid0 fun team ht hsub ↦
    withChannel_use_realizes hs hreq (.inl hlevel) huuid1 ht fun channel hc ↦ ?_
  have hinfo : contextInfo data user ctx = _ := contextInfo_of_channel hlevel
  rw [hc, Option.map_some] at hinfo
  exact realizes_use_granted hs hreq hinfo (.inr ⟨team, ht, hsub⟩) (appendChannel_eq [] channel)

/-- `handle_use` at level `USE_THREAD`. -/
theorem handleUse_thread_realizes {user : Str} (hs : data.sessions[fd]? = some user)
    (hhead : payload.head? = some useThread) (hlen : ¬ payload.length < 1 + 36 + 36 + 36) :
    Realizes (Serves host fd payload data (some .use))
      (withTeam data (useUuid payload 0) (appendFixed [] (useUuid payload 0) 36) fun team ↦
        withSubscription data team user <|
        withChannel data team (useUuid payload 1) (appendFixed [] (useUuid payload 1) 36)
          fun channel ↦
        withThread data channel (useUuid payload 2) (appendFixed [] (useUuid payload 2) 36)
          fun thread ↦
        Outcome.answer
          { data with
            clientContexts := data.clientContexts.insert fd
              { ClientContext.init with
                level := useThread
                teamUuid := fill 36 (useUuid payload 0)
                channelUuid := fill 36 (useUuid payload 1)
                threadUuid := fill 36 (useUuid payload 2) } }
          .threadInfo (appendThread [] thread)) := by
  obtain ⟨ctx, hctx⟩ : ∃ ctx : ClientContext, ctx = { ClientContext.init with
    level := useThread, teamUuid := fill 36 (useUuid payload 0),
    channelUuid := fill 36 (useUuid payload 1),
    threadUuid := fill 36 (useUuid payload 2) } := ⟨_, rfl⟩
  have hlevel : ctx.level = useThread := by rw [hctx]
  have hreq : requestedContext payload = some ctx := by
    simp [requestedContext, hhead, hlen, hctx, useTeam, useNone, useChannel, useThread]
  have huuid0 : ctx.teamUuid.toList = useUuid payload 0 := by
    rw [hctx, toList_fill_of_length (length_useUuid (by omega))]
  have huuid1 : ctx.channelUuid.toList = useUuid payload 1 := by
    rw [hctx, toList_fill_of_length (length_useUuid (by omega))]
  have huuid2 : ctx.threadUuid.toList = useUuid payload 2 := by
    rw [hctx, toList_fill_of_length (length_useUuid (by omega))]
  rw [← hctx]
  refine withTeam_use_realizes hs hreq (hlevel ▸ by decide) huuid0 fun team ht hsub ↦
    withChannel_use_realizes hs hreq (.inr hlevel) huuid1 ht fun channel hc ↦
    withThread_use_realizes hs hreq hlevel huuid2 hc fun thread hth ↦ ?_
  have hinfo : contextInfo data user ctx = _ := contextInfo_of_thread hlevel
  rw [hth, Option.map_some] at hinfo
  exact realizes_use_granted hs hreq hinfo (.inr ⟨team, ht, hsub⟩) (appendThread_eq [] thread)

theorem handleUse_realizes (hwf : SessionsWf data) :
    Realizes (Serves host fd payload data (some .use)) (handleUse fd payload data) := by
  refine withSession_elim (fun hs ↦ ?_) fun user hs ↦ ?_
  · exact realizes_unauthorized hs (by decide)
  rcases hhead : payload.head? with - | level
  · exact realizes_use_refused hs .invalid rfl (by simp [requestedContext, hhead])
  refine level_elim (fun h0 ↦ ?_) (fun h1 ↦ ?_) (fun h2 ↦ ?_) (fun h3 ↦ ?_) fun h0 h1 h2 h3 ↦ ?_
  · subst h0
    exact realizes_use_granted hs (by simp [requestedContext, hhead]) (contextInfo_of_none rfl)
      (Or.inl rfl) (show userDetails data user = _ from userDetails_eq (hwf fd user hs))
  · subst h1
    refine ite_elim (fun hlen ↦ ?_) (handleUse_team_realizes hs hhead)
    exact realizes_use_refused hs .invalid rfl
      (by simp [requestedContext, hhead, hlen, useNone, useTeam])
  · subst h2
    refine ite_elim (fun hlen ↦ ?_) (handleUse_channel_realizes hs hhead)
    exact realizes_use_refused hs .invalid rfl
      (by simp [requestedContext, hhead, hlen, useNone, useTeam, useChannel])
  · subst h3
    refine ite_elim (fun hlen ↦ ?_) (handleUse_thread_realizes hs hhead)
    exact realizes_use_refused hs .invalid rfl
      (by simp [requestedContext, hhead, hlen, useNone, useTeam, useChannel, useThread])
  · exact realizes_use_refused hs .invalid rfl (by simp [requestedContext, hhead, h0, h1, h2, h3])

/-- The error for a stored context that is missing or does not resolve. -/
theorem realizes_dangling {cmd : Command} {user : Str} {e : Error}
    (hs : data.sessions[fd]? = some user) (hcmd : cmd = .create ∨ cmd = .list ∨ cmd = .info)
    (hctx : ∀ ctx, data.clientContexts[fd]? = some ctx → contextInfo data user ctx = none) :
    Realizes (Serves host fd payload data (some cmd)) (Outcome.error data e []) :=
  realizes_error (.dangling hs hcmd hctx) rfl

/-- The same, once the stored context is known. -/
theorem realizes_unresolved {cmd : Command} {user : Str} {e : Error} {ctx : ClientContext}
    (hs : data.sessions[fd]? = some user) (hcmd : cmd = .create ∨ cmd = .list ∨ cmd = .info)
    (hctx : data.clientContexts[fd]? = some ctx) (h : contextInfo data user ctx = none) :
    Realizes (Serves host fd payload data (some cmd)) (Outcome.error data e []) :=
  realizes_dangling hs hcmd fun _ hctx' ↦ Option.some.inj (hctx.symm.trans hctx') ▸ h

/-! The three lookups of a stored context: each finds what the context names, or is dangling. -/

section Stored

variable {ctx : ClientContext} {team : Team} {channel : Channel} {cmd : Command} {user : Str}
  (hs : data.sessions[fd]? = some user)
  (hcmd : cmd = .create ∨ cmd = .list ∨ cmd = .info) (hctx : data.clientContexts[fd]? = some ctx)

include hs hcmd hctx

theorem withTeam_realizes (hlevel : ctx.level ≠ useNone) {k : Team → Outcome}
    (hk : ∀ t, ctx.team? data = some t → Realizes (Serves host fd payload data (some cmd)) (k t)) :
    Realizes (Serves host fd payload data (some cmd)) (withTeam data ctx.teamUuid.toList [] k) := by
  refine withTeam_elim (fun ht ↦ ?_) hk
  exact realizes_unresolved hs hcmd hctx (contextInfo_of_no_team hlevel ht)

theorem withChannel_realizes (hlevel : ctx.level = useChannel ∨ ctx.level = useThread)
    (ht : ctx.team? data = some team) {k : Channel → Outcome}
    (hk : ∀ c, ctx.channel? data = some c →
      Realizes (Serves host fd payload data (some cmd)) (k c)) :
    Realizes (Serves host fd payload data (some cmd))
      (withChannel data team ctx.channelUuid.toList [] k) := by
  refine withChannel_elim (fun hc ↦ ?_) fun c hc ↦ hk c ((channel?_of_team ht).trans hc)
  exact realizes_unresolved hs hcmd hctx
    (contextInfo_of_no_channel hlevel ((channel?_of_team ht).trans hc))

theorem withThread_realizes (hlevel : ctx.level = useThread) (hc : ctx.channel? data = some channel)
    {k : Thread → Outcome}
    (hk : ∀ t, ctx.thread? data = some t →
      Realizes (Serves host fd payload data (some cmd)) (k t)) :
    Realizes (Serves host fd payload data (some cmd))
      (withThread data channel ctx.threadUuid.toList [] k) := by
  refine withThread_elim (fun ht ↦ ?_) fun t ht ↦ hk t ((thread?_of_channel hc).trans ht)
  exact realizes_unresolved hs hcmd hctx
    (contextInfo_of_no_thread hlevel ((thread?_of_channel hc).trans ht))

end Stored

theorem useTeam_ne_useNone : useTeam ≠ useNone := by decide

theorem useChannel_ne_useNone : useChannel ≠ useNone := by decide

theorem useThread_ne_useNone : useThread ≠ useNone := by decide

theorem handleList_realizes :
    Realizes (Serves host fd payload data (some .list)) (handleList fd data) := by
  have hcmd : Command.list = .create ∨ Command.list = .list ∨ Command.list = .info := by simp
  refine withSession_elim (fun hs ↦ ?_) fun user hs ↦ withContext_elim (fun hctx ↦ ?_)
    fun ctx hctx ↦ level_elim (fun h0 ↦ ?_) (fun h1 ↦ ?_) (fun h2 ↦ ?_) (fun h3 ↦ ?_)
    fun h0 h1 h2 h3 ↦ ?_
  · exact realizes_unauthorized hs (by decide)
  · exact realizes_dangling hs hcmd fun ctx h ↦ by rw [hctx] at h; cases h
  · exact realizes_answer (.list hs hctx (contextList_of_none h0))
      (foldl_append_eq_listBytes appendTeam_eq _)
  · refine withTeam_realizes hs hcmd hctx (h1 ▸ useTeam_ne_useNone) fun team ht ↦ ?_
    have hlist : contextList data ctx = _ := contextList_of_team h1
    rw [ht, Option.map_some] at hlist
    exact realizes_answer (.list hs hctx hlist) (foldl_append_eq_listBytes appendChannel_eq _)
  · refine withTeam_realizes hs hcmd hctx (h2 ▸ useChannel_ne_useNone) fun team ht ↦
      withChannel_realizes hs hcmd hctx (.inl h2) ht fun channel hc ↦ ?_
    have hlist : contextList data ctx = _ := contextList_of_channel h2
    rw [hc, Option.map_some] at hlist
    exact realizes_answer (.list hs hctx hlist) (foldl_append_eq_listBytes appendThread_eq _)
  · refine withTeam_realizes hs hcmd hctx (h3 ▸ useThread_ne_useNone) fun team ht ↦
      withChannel_realizes hs hcmd hctx (.inr h3) ht fun channel hc ↦
      withThread_realizes hs hcmd hctx h3 hc fun thread hth ↦ ?_
    have hlist : contextList data ctx = _ := contextList_of_thread h3
    rw [hth, Option.map_some] at hlist
    exact realizes_answer (.list hs hctx hlist) (foldl_append_eq_listBytes (appendReply_eq _) _)
  · exact realizes_unresolved hs hcmd hctx (by simp [contextInfo, h0, h1, h2, h3])

theorem handleInfo_realizes (hwf : SessionsWf data) :
    Realizes (Serves host fd payload data (some .info)) (handleInfo fd data) := by
  have hcmd : Command.info = .create ∨ Command.info = .list ∨ Command.info = .info := by simp
  refine withSession_elim (fun hs ↦ ?_) fun user hs ↦ withContext_elim (fun hctx ↦ ?_)
    fun ctx hctx ↦ level_elim (fun h0 ↦ ?_) (fun h1 ↦ ?_) (fun h2 ↦ ?_) (fun h3 ↦ ?_)
    fun h0 h1 h2 h3 ↦ ?_
  · exact realizes_unauthorized hs (by decide)
  · exact realizes_dangling hs hcmd fun ctx h ↦ by rw [hctx] at h; cases h
  · exact realizes_answer (.info hs hctx (contextInfo_of_none h0)) (userDetails_eq (hwf fd user hs))
  · refine withTeam_realizes hs hcmd hctx (h1 ▸ useTeam_ne_useNone) fun team ht ↦ ?_
    have hinfo : contextInfo data user ctx = _ := contextInfo_of_team h1
    rw [ht, Option.map_some] at hinfo
    exact realizes_answer (.info hs hctx hinfo) (appendTeam_eq [] team)
  · refine withTeam_realizes hs hcmd hctx (h2 ▸ useChannel_ne_useNone) fun team ht ↦
      withChannel_realizes hs hcmd hctx (.inl h2) ht fun channel hc ↦ ?_
    have hinfo : contextInfo data user ctx = _ := contextInfo_of_channel h2
    rw [hc, Option.map_some] at hinfo
    exact realizes_answer (.info hs hctx hinfo) (appendChannel_eq [] channel)
  · refine withTeam_realizes hs hcmd hctx (h3 ▸ useThread_ne_useNone) fun team ht ↦
      withChannel_realizes hs hcmd hctx (.inr h3) ht fun channel hc ↦
      withThread_realizes hs hcmd hctx h3 hc fun thread hth ↦ ?_
    have hinfo : contextInfo data user ctx = _ := contextInfo_of_thread h3
    rw [hth, Option.map_some] at hinfo
    exact realizes_answer (.info hs hctx hinfo) (appendThread_eq [] thread)
  · exact realizes_unresolved hs hcmd hctx (by simp [contextInfo, h0, h1, h2, h3])

/-! ### Creation -/

/-- A refusal of `CMD_CREATE` carries no payload. -/
theorem realizes_create_refused {user : Str} {e : Error} (hs : data.sessions[fd]? = some user)
    (hb : ErrorBody e .empty) :
    Realizes (Serves host fd payload data (some .create)) (Outcome.error data e []) :=
  realizes_error (.refused hs hb (by simp) (fun _ ↦ rfl) (by simp)) rfl

/-- A new resource, announced by the payload it is answered with. -/
theorem realizes_created {cmd : Option Command} {after : ServerData} {r : Response} {evt : Event}
    {b : Body} {fds : List Fd} {p : List UInt8} {logged : List ServerLog}
    (h : Serves host fd payload data cmd ⟨after, ⟨.res r, b⟩, [(⟨.evt evt, b⟩, fds)]⟩)
    (hp : p = b.bytes) :
    Realizes (Serves host fd payload data cmd) ⟨after, Result.created r evt p fds, logged⟩ :=
  ⟨_, h, rfl, by rw [hp]; rfl⟩

theorem handleCreate_realizes :
    Realizes (Serves host fd payload data (some .create)) (handleCreate host fd payload data) := by
  have hcmd : Command.create = .create ∨ Command.create = .list ∨ Command.create = .info := by simp
  refine withSession_elim (fun hs ↦ ?_) fun user hs ↦ withContext_elim (fun hctx ↦ ?_)
    fun ctx hctx ↦ level_elim (fun h0 ↦ ?_) (fun h1 ↦ ?_) (fun h2 ↦ ?_) (fun h3 ↦ ?_)
    fun h0 h1 h2 h3 ↦ ?_
  · exact realizes_unauthorized hs (by decide)
  · exact realizes_dangling hs hcmd fun ctx h ↦ by rw [hctx] at h; cases h
  · refine ite_elim (fun _ ↦ realizes_create_refused hs .invalid) fun hlen ↦ ?_
    exact realizes_created (.createTeam hs hctx h0 (by omega) rfl) (appendTeam_eq [] _)
  · refine ite_elim (fun _ ↦ realizes_create_refused hs .invalid) fun hlen ↦
      withTeam_realizes hs hcmd hctx (h1 ▸ useTeam_ne_useNone) fun team ht ↦
      withSubscription_elim (fun _ ↦ realizes_create_refused hs .notSubscribed) fun hsub ↦ ?_
    exact realizes_created (.createChannel hs hctx h1 (by omega) ht hsub rfl)
      (appendChannel_eq [] _)
  · refine ite_elim (fun _ ↦ realizes_create_refused hs .invalid) fun hlen ↦
      withTeam_realizes hs hcmd hctx (h2 ▸ useChannel_ne_useNone) fun team ht ↦
      withSubscription_elim (fun _ ↦ realizes_create_refused hs .notSubscribed) fun hsub ↦
      withChannel_realizes hs hcmd hctx (.inl h2) ht fun channel hc ↦ ?_
    exact realizes_created (.createThread hs hctx h2 (by omega) ht hsub hc rfl)
      (appendThread_eq [] _)
  · refine ite_elim (fun _ ↦ realizes_create_refused hs .invalid) fun hlen ↦
      withTeam_realizes hs hcmd hctx (h3 ▸ useThread_ne_useNone) fun team ht ↦
      withSubscription_elim (fun _ ↦ realizes_create_refused hs .notSubscribed) fun hsub ↦
      withChannel_realizes hs hcmd hctx (.inr h3) ht fun channel hc ↦
      withThread_realizes hs hcmd hctx h3 hc fun thread hth ↦ ?_
    exact realizes_created (.createReply hs hctx h3 (by omega) ht hsub hth rfl)
      (appendReply_eq _ [] _)
  · exact realizes_unresolved hs hcmd hctx (by simp [contextInfo, h0, h1, h2, h3])

/-! ### The switch -/

/-- **Every handler refines the frame semantics.** -/
theorem handle_realizes (hwf : SessionsWf data) (cmd : Command) :
    Realizes (Serves host fd payload data (some cmd)) (Server.handle host fd cmd payload data) := by
  cases cmd with
  | login => simpa [Server.handle] using handleLogin_realizes
  | logout => exact handleLogout_realizes hwf
  | users => exact handleUsers_realizes
  | user => exact handleUser_realizes
  | send => exact handleSend_realizes hwf
  | messages => exact handleMessages_realizes
  | subscribe => exact handleSubscribe_realizes
  | subscribed =>
    rw [Server.handle]
    split_ifs
    · exact handleSubscribedUsers_realizes
    · exact handleSubscribedTeams_realizes
  | unsubscribe => exact handleUnsubscribe_realizes
  | use => simpa [Server.handle] using handleUse_realizes hwf
  | create => simpa [Server.handle] using handleCreate_realizes
  | list => exact handleList_realizes
  | info => exact handleInfo_realizes hwf

end Handlers

/-! ### The dispatcher -/

/-- What `_dispatch` computes for one frame, before anything is queued. -/
def frameOutcome (host : Host) (fd : Fd) (cmd : UInt16) (payload : List UInt8)
    (data : ServerData) : Outcome :=
  if data.sessions[fd]? = none ∧ cmd ≠ Command.login.code then
    Outcome.error data .unauthorized []
  else
    match Command.ofCode? cmd with
    | some cmd => Server.handle host fd cmd payload data
    | none => Outcome.error data .invalidCommand []

/-- **A frame does what the semantics allows.** -/
theorem frameOutcome_realizes {host : Host} {fd : Fd} {cmd : UInt16} {payload : List UInt8}
    {data : ServerData} (hwf : SessionsWf data) :
    Realizes (Serves host fd payload data (Command.ofCode? cmd))
      (frameOutcome host fd cmd payload data) := by
  rw [frameOutcome]
  by_cases hrefuse : data.sessions[fd]? = none ∧ cmd ≠ Command.login.code
  · rw [if_pos hrefuse]
    refine realizes_error (.unauthorized hrefuse.1 fun h ↦ hrefuse.2 ?_) rfl
    exact (Command.code_of_ofCode? h).symm
  rw [if_neg hrefuse]
  rcases hcmd : Command.ofCode? cmd with - | c
  · rcases hs : data.sessions[fd]? with - | user
    · refine absurd ⟨hs, fun h ↦ ?_⟩ hrefuse
      rw [h, Command.ofCode?_code] at hcmd
      cases hcmd
    · exact realizes_error (.unknown hs) rfl
  · exact handle_realizes hwf c

namespace Server

variable (host : ℕ → Host)

theorem sendResult_error (fd : Fd) (data : ServerData) (e : Error) (s : Server) :
    sendResult fd (Outcome.error data e []).result s =
      queueBytes fd (be16 e.code ++ be32 0) s := by
  simp [sendResult, Outcome.error, Result.reply, makeMessage, deliver, be16, ByteOrder.beBytes]

/-- **`_dispatch` is one frame**: the history entry, the outcome, its delivery. -/
theorem dispatch_eq (fd : Fd) (cmd : UInt16) (payload : List UInt8) (s : Server) :
    dispatch host fd cmd payload s =
      sendResult fd (frameOutcome (host s.served) fd cmd payload s.data).result
        { s with
          data := (frameOutcome (host s.served) fd cmd payload s.data).data
          served := s.served + 1
          trace := s.trace ++ [.dispatched fd cmd payload s.data] } := by
  have hlogged : (!s.data.sessions.contains fd && cmd != Command.login.code) = true ↔
      s.data.sessions[fd]? = none ∧ cmd ≠ Command.login.code := by
    rw [Bool.and_eq_true, Bool.not_eq_true', IntMap.contains_eq_false_iff, bne_iff_ne]
  by_cases hrefuse : s.data.sessions[fd]? = none ∧ cmd ≠ Command.login.code
  · rw [frameOutcome, if_pos hrefuse, sendResult_error]
    simp only [dispatch, record, hlogged.2 hrefuse, if_true]
    rfl
  · have hpass := Bool.eq_false_iff.2 (mt hlogged.1 hrefuse)
    rw [frameOutcome, if_neg hrefuse]
    rcases hcmd : Command.ofCode? cmd with - | c
    · rw [sendResult_error]
      simp only [dispatch, record, hpass, hcmd]
      rfl
    · simp only [dispatch, record, hpass, hcmd]
      rfl

end Server

end MyTeams
