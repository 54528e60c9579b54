import MyTeams.Server.Disclosure
import MyTeams.Server.Identity

/-!
# Refusals

An error tells which check a request has failed. `refusal` lists the checks of every command, in
their order: the first that is not passed gives the error and what it carries, and a request that
passes all of them is answered with a response (`refused_iff`). No other error is ever sent. Whoever
is logged in can always log out, list, and ask for the users and for his context; and what he
creates is refused only when it is too short or when he is no member of the team.
-/

namespace MyTeams

open ByteField

/-! ### Checks -/

/-- An error, and what it carries. -/
abbrev Refusal := Error × List UInt8

/-- A check: the error when it is not passed. -/
def must (passed : Bool) (e : Error) (p : List UInt8) : Option Refusal :=
  if passed then none else some (e, p)

/-- A user is named by 36 bytes, and known. -/
def userRefusal (data : ServerData) (uuid : Str) : Option Refusal :=
  (must (isUuid36 uuid) .invalidCommand []).or
    (must (findUserByUuid data uuid).isSome .unknownUser uuid)

/-- A team is named by 36 bytes, and known. -/
def teamRefusal (data : ServerData) (uuid : Str) : Option Refusal :=
  (must (isUuid36 uuid) .invalidCommand []).or
    (must (findTeamByUuid data uuid).isSome .unknownTeam uuid)

/-- The user is a member of the team. -/
def memberRefusal (data : ServerData) (user uuid : Str) : Option Refusal :=
  must ((findTeamByUuid data uuid).any fun t ↦ isSubscribedTo t user) .notSubscribed []

/-- Down to its level, what a context names inside its team is known. -/
def innerRefusal (data : ServerData) (ctx : ClientContext) : Option Refusal :=
  if ctx.level = useTeam then none
  else
    (must (ctx.channel? data).isSome .unknownChannel ctx.channelUuid.toList).or <|
    if ctx.level = useChannel then none
    else must (ctx.thread? data).isSome .unknownThread ctx.threadUuid.toList

/-- What a context names is known, and the user is a member of its team. -/
def contextRefusal (data : ServerData) (user : Str) (ctx : ClientContext) : Option Refusal :=
  if ctx.level = useNone then none
  else
    (must (ctx.team? data).isSome .unknownTeam ctx.teamUuid.toList).or <|
    (memberRefusal data user ctx.teamUuid.toList).or (innerRefusal data ctx)

/-- The checks of a connection that is logged in. -/
def requestRefusal (fd : Fd) (payload : List UInt8) (data : ServerData) (user : Str) :
    Command → Option Refusal
  | .user | .send | .messages => userRefusal data (Server.extractSv payload 0 36)
  | .subscribe => teamRefusal data (Server.extractSv payload 0 36)
  | .unsubscribe =>
    (teamRefusal data (Server.extractSv payload 0 36)).or
      (memberRefusal data user (Server.extractSv payload 0 36))
  | .subscribed =>
    if payload.head? = some 0x01 then
      (teamRefusal data (Server.extractSv payload 1 36)).or
        (memberRefusal data user (Server.extractSv payload 1 36))
    else none
  | .use => (requestedContext payload).elim (some (.invalidCommand, [])) (contextRefusal data user)
  | .create =>
    data.clientContexts[fd]?.bind fun ctx ↦
      (must (createLength ctx.level ≤ payload.length) .invalidCommand []).or <|
      if ctx.level = useNone then none else memberRefusal data user ctx.teamUuid.toList
  | .login | .logout | .users | .list | .info => none

/-- **Why a request is refused**, if it is: everything but a login needs a session. -/
def refusal (fd : Fd) (payload : List UInt8) (data : ServerData) (cmd : Option Command) :
    Option Refusal :=
  if cmd = some .login then none
  else
    match data.sessions[fd]? with
    | none => some (.unauthorized, [])
    | some user => cmd.elim (some (.invalidCommand, [])) (requestRefusal fd payload data user)

/-! ### Outcomes -/

/-- The outcome is the given error, or a response. -/
def Outcome.Refuses (o : Outcome) : Option Refusal → Prop
  | some (e, p) => o.result.response.bytes = makeMessage e.code p
  | none => ∃ (r : Response) (p : List UInt8), o.result.response.bytes = makeMessage r.code p

theorem makeMessage_injective {code code' : UInt16} {p p' : List UInt8}
    (h : makeMessage code p = makeMessage code' p') : code = code' ∧ p = p' :=
  Prod.mk.inj (Frame.bytes_injective (f := (code, p)) (g := (code', p')) h)

theorem Outcome.Refuses.iff {o : Outcome} {r : Option Refusal} (h : o.Refuses r) {e : Error}
    {p : List UInt8} : o.result.response.bytes = makeMessage e.code p ↔ r = some (e, p) := by
  constructor
  · intro hbytes
    rcases r with - | ⟨e', p'⟩
    · obtain ⟨r, q, hr⟩ := h
      exact absurd (makeMessage_injective (hr.symm.trans hbytes)).1
        (Server.res_code_ne_err_code r e)
    · obtain ⟨hcode, rfl⟩ := makeMessage_injective (Eq.trans (Eq.symm h) hbytes)
      rw [Server.err_code_injective hcode]
  · rintro rfl
    exact h

section Guards

variable {data : ServerData} {r : Option Refusal} {uuid : Str}

theorem refuses_withUuid36 {k : Outcome} (h : uuid.length = 36 → k.Refuses r) :
    (withUuid36 data uuid k).Refuses ((must (isUuid36 uuid) .invalidCommand []).or r) := by
  rw [withUuid36]
  cases hb : isUuid36 uuid with
  | false => rfl
  | true => exact h (eq_of_beq hb)

theorem refuses_withUser {p : List UInt8} {k : User → Outcome}
    (h : ∀ u, findUserByUuid data uuid = some u → (k u).Refuses r) :
    (withUser data uuid p k).Refuses
    ((must (findUserByUuid data uuid).isSome .unknownUser p).or r) := by
  rw [withUser]
  cases hu : findUserByUuid data uuid with
  | none => rfl
  | some u => exact h u hu

theorem refuses_withTeam {p : List UInt8} {k : Team → Outcome}
    (h : ∀ t, findTeamByUuid data uuid = some t → (k t).Refuses r) :
    (withTeam data uuid p k).Refuses
    ((must (findTeamByUuid data uuid).isSome .unknownTeam p).or r) := by
  rw [withTeam]
  cases ht : findTeamByUuid data uuid with
  | none => rfl
  | some t => exact h t ht

theorem refuses_withSubscription {t : Team} (ht : findTeamByUuid data uuid = some t) {user : Str}
    {k : Outcome} (h : user ∈ t.memberUuids → k.Refuses r) :
    (withSubscription data t user k).Refuses ((memberRefusal data user uuid).or r) := by
  rw [withSubscription, memberRefusal, ht]
  show Outcome.Refuses _ ((must (isSubscribedTo t user) .notSubscribed []).or r)
  cases hb : isSubscribedTo t user with
  | false => rfl
  | true => exact h (isSubscribedTo_iff.1 hb)

theorem refuses_withChannel {t : Team} {p : List UInt8} {k : Channel → Outcome}
    (h : ∀ c, findChannelByUuid t uuid = some c → (k c).Refuses r) :
    (withChannel data t uuid p k).Refuses
      ((must (findChannelByUuid t uuid).isSome .unknownChannel p).or r) := by
  rw [withChannel]
  cases hc : findChannelByUuid t uuid with
  | none => rfl
  | some c => exact h c hc

theorem refuses_withThread {c : Channel} {p : List UInt8} {k : Thread → Outcome}
    (h : ∀ th, findThreadByUuid c uuid = some th → (k th).Refuses r) :
    (withThread data c uuid p k).Refuses
    ((must (findThreadByUuid c uuid).isSome .unknownThread p).or r) := by
  rw [withThread]
  cases hth : findThreadByUuid c uuid with
  | none => rfl
  | some th => exact h th hth

/-- A check that the handler makes as a test of its own. -/
theorem refuses_ite {c : Prop} [Decidable c] {passed : Bool} (hc : c ↔ passed = false) {e : Error}
    {p : List UInt8} {k : Outcome} (h : passed = true → k.Refuses r) :
    (if c then Outcome.error data e p else k).Refuses ((must passed e p).or r) := by
  cases hb : passed with
  | false =>
    rw [if_pos (hc.2 hb)]
    rfl
  | true =>
    rw [if_neg fun h ↦ Bool.noConfusion (hb.symm.trans (hc.1 h))]
    exact h hb

end Guards

/-! ### Handlers -/

section Handlers

variable {host : Host} {fd : Fd} {payload : List UInt8} {data : ServerData} {user : Str}

theorem refuses_named {uuid : Str} {k : User → Outcome} (h : ∀ u, (k u).Refuses none) :
    (withUuid36 data uuid <| withUser data uuid (appendFixed [] uuid 36) k).Refuses
      (userRefusal data uuid) := by
  refine refuses_withUuid36 fun hlen ↦ ?_
  rw [appendFixed_of_length hlen, List.nil_append, ← Option.or_none (o := must _ _ _)]
  exact refuses_withUser fun u _ ↦ h u

theorem refuses_argument {uuid : Str} {k : Team → Outcome} {r : Option Refusal}
    (h : ∀ t, findTeamByUuid data uuid = some t → (k t).Refuses r) :
    (withUuid36 data uuid <| withTeam data uuid (appendFixed [] uuid 36) k).Refuses
      ((teamRefusal data uuid).or r) := by
  rw [teamRefusal, Option.or_assoc]
  refine refuses_withUuid36 fun hlen ↦ ?_
  rw [appendFixed_of_length hlen, List.nil_append]
  exact refuses_withTeam h

/-- The team of a context that is asked for, and what is inside it. -/
theorem refuses_context {ctx : ClientContext} {uuid : Str} (hlevel : ctx.level ≠ useNone)
    (huuid : ctx.teamUuid.toList = uuid) {k : Team → Outcome}
    (h : ∀ t, ctx.team? data = some t → (k t).Refuses (innerRefusal data ctx)) :
    (withTeam data uuid (appendFixed [] uuid 36) fun t ↦ withSubscription data t user (k t)).Refuses
      (contextRefusal data user ctx) := by
  subst huuid
  rw [contextRefusal, if_neg hlevel, appendFixed_of_length ctx.teamUuid.toList_length,
    List.nil_append]
  exact refuses_withTeam fun t ht ↦ refuses_withSubscription ht fun _ ↦ h t ht

theorem refuses_channel {ctx : ClientContext} {uuid : Str} (hlevel : ctx.level ≠ useTeam)
    (huuid : ctx.channelUuid.toList = uuid) {t : Team} (ht : ctx.team? data = some t)
    {k : Channel → Outcome}
    (h : ∀ c, ctx.channel? data = some c → (k c).Refuses
      (if ctx.level = useChannel then none
        else must (ctx.thread? data).isSome .unknownThread ctx.threadUuid.toList)) :
    (withChannel data t uuid (appendFixed [] uuid 36) k).Refuses (innerRefusal data ctx) := by
  subst huuid
  rw [innerRefusal, if_neg hlevel, appendFixed_of_length ctx.channelUuid.toList_length,
    List.nil_append, channel?_of_team ht]
  exact refuses_withChannel fun c hc ↦ h c ((channel?_of_team ht).trans hc)

theorem refuses_thread {ctx : ClientContext} {uuid : Str} (huuid : ctx.threadUuid.toList = uuid)
    {c : Channel} (hc : ctx.channel? data = some c) {k : Thread → Outcome}
    (h : ∀ th, (k th).Refuses none) :
    (withThread data c uuid (appendFixed [] uuid 36) k).Refuses
      (must (ctx.thread? data).isSome .unknownThread ctx.threadUuid.toList) := by
  subst huuid
  rw [appendFixed_of_length ctx.threadUuid.toList_length, List.nil_append, thread?_of_channel hc,
    ← Option.or_none (o := must _ _ _)]
  exact refuses_withThread fun th _ ↦ h th

theorem handleUse_refuses (hs : data.sessions[fd]? = some user) :
    (handleUse fd payload data).Refuses (requestRefusal fd payload data user .use) := by
  rw [handleUse, withSession_of_some hs, requestRefusal, requestedContext]
  have huuid {i : ℕ} (h : 1 + (i + 1) * 36 ≤ payload.length) :
      (fill 36 (useUuid payload i)).toList = useUuid payload i :=
    toList_fill_of_length (length_useUuid h)
  rcases payload.head? with - | level
  · rfl
  dsimp only
  split_ifs with h0 h1 hlen h2 hlen h3 hlen
  -- no context
  · rw [Option.elim_some, contextRefusal, if_pos h0]
    exact ⟨_, _, rfl⟩
  -- a team
  · rfl
  · refine refuses_context h0 (huuid (by omega)) fun t ht ↦ ?_
    rw [innerRefusal, if_pos h1]
    exact ⟨_, _, rfl⟩
  -- a channel
  · rfl
  · refine refuses_context h0 (huuid (by omega)) fun t ht ↦
      refuses_channel h1 (huuid (by omega)) ht fun c hc ↦ ?_
    rw [if_pos h2]
    exact ⟨_, _, rfl⟩
  -- a thread
  · rfl
  · refine refuses_context h0 (huuid (by omega)) fun t ht ↦
      refuses_channel h1 (huuid (by omega)) ht fun c hc ↦ ?_
    rw [if_neg h2]
    exact refuses_thread (huuid (by omega)) hc fun th ↦ ⟨_, _, rfl⟩
  · rfl

/-- In a context that resolves, a creation that is long enough is refused to those who are no
members of the team, and to nobody else. -/
theorem handleCreate_refuses {ctx : ClientContext} (hs : data.sessions[fd]? = some user)
    (hctx : data.clientContexts[fd]? = some ctx) (hresolved : ctx.Resolved data)
    (hlevel : ctx.level.toNat ≤ 3) :
    (handleCreate host fd payload data).Refuses (requestRefusal fd payload data user .create) := by
  have hlen {n : ℕ} (hn : createLength ctx.level = n) :
      payload.length < n ↔ decide (createLength ctx.level ≤ payload.length) = false := by
    rw [hn, decide_eq_false_iff_not, Nat.not_le]
  have hinside {t : Team} (ht : ctx.team? data = some t) {k : Team → Outcome}
    (hk : (k t).Refuses none) :
      (withTeam data ctx.teamUuid.toList [] fun t ↦ withSubscription data t user (k t)).Refuses
        (memberRefusal data user ctx.teamUuid.toList) := by
    rw [withTeam_of_some ht, ← Option.or_none (o := memberRefusal _ _ _)]
    exact refuses_withSubscription ht fun _ ↦ hk
  rw [handleCreate, withSession_of_some hs, withContext_of_some hctx, requestRefusal, hctx,
    Option.bind_some]
  rcases level_cases hlevel with h0 | h1 | h2 | h3
  · rw [if_pos h0, if_pos h0]
    exact refuses_ite (hlen (by rw [h0]; rfl)) fun _ ↦ ⟨.teamCreated, _, rfl⟩
  · obtain ⟨t, ht⟩ := Option.isSome_iff_exists.1 (hresolved.team (by rw [h1]; decide))
    have hnone : ctx.level ≠ useNone := by rw [h1]; decide
    rw [if_neg hnone, if_pos h1, if_neg hnone]
    exact refuses_ite (hlen (by rw [h1]; rfl)) fun _ ↦ hinside ht ⟨.channelCreated, _, rfl⟩
  · obtain ⟨c, hc⟩ := Option.isSome_iff_exists.1 (hresolved.channel (by rw [h2]; decide))
    obtain ⟨t, ht⟩ := Option.isSome_iff_exists.1 (hresolved.team (by rw [h2]; decide))
    have hnone : ctx.level ≠ useNone := by rw [h2]; decide
    have hteam : ctx.level ≠ useTeam := by rw [h2]; decide
    rw [if_neg hnone, if_neg hteam, if_pos h2, if_neg hnone]
    refine refuses_ite (hlen (by rw [h2]; rfl)) fun _ ↦ hinside ht ?_
    rw [withChannel_of_some ((channel?_of_team ht).symm.trans hc)]
    exact ⟨.threadCreated, _, rfl⟩
  · obtain ⟨th, hth⟩ := Option.isSome_iff_exists.1 (hresolved.thread (by rw [h3]; decide))
    obtain ⟨c, hc⟩ := Option.isSome_iff_exists.1 (hresolved.channel (by rw [h3]; decide))
    obtain ⟨t, ht⟩ := Option.isSome_iff_exists.1 (hresolved.team (by rw [h3]; decide))
    have hnone : ctx.level ≠ useNone := by rw [h3]; decide
    have hteam : ctx.level ≠ useTeam := by rw [h3]; decide
    have hchannel : ctx.level ≠ useChannel := by rw [h3]; decide
    rw [if_neg hnone, if_neg hteam, if_neg hchannel, if_pos h3, if_neg hnone]
    refine refuses_ite (hlen (by rw [h3]; rfl)) fun _ ↦ hinside ht ?_
    rw [withChannel_of_some ((channel?_of_team ht).symm.trans hc),
      withThread_of_some ((thread?_of_channel hc).symm.trans hth)]
    exact ⟨.replyCreated, _, rfl⟩

theorem handleLogin_refuses : (handleLogin host fd payload data).Refuses none := by
  rw [handleLogin]
  split
  · exact ⟨.loginOk, _, rfl⟩
  · exact ⟨.loginOk, _, rfl⟩

theorem handleLogout_refuses (hs : data.sessions[fd]? = some user) :
    (handleLogout fd data).Refuses none := by
  rw [handleLogout, withSession_of_some hs]
  dsimp only
  split_ifs
  · exact ⟨.logoutOk, _, rfl⟩
  · exact ⟨.logoutOk, _, rfl⟩

end Handlers

/-! ### Frames -/

namespace Server

variable {host : ℕ → Host} {s : Server} {fd : Fd} {payload : List UInt8} {user : Str}

/-- Lists and information are never refused. -/
theorem Reachable.query_refuses (h : Reachable host s) (hs : s.data.sessions[fd]? = some user)
    (payload : List UInt8) {cmd : Command} (hcmd : cmd = .list ∨ cmd = .info) {o : Outcome}
    (ho : Realizes (Serves (host s.served) fd payload s.data (some cmd)) o) : o.Refuses none := by
  obtain ⟨a, ha, -, hresult⟩ := ho
  obtain ⟨r, hr⟩ := h.query_code hs hcmd ha
  refine ⟨r, a.msg.body.bytes, ?_⟩
  rw [hresult]
  show makeMessage a.msg.code.code a.msg.body.bytes = makeMessage r.code a.msg.body.bytes
  rw [hr]
  rfl

/-- **Each command is refused by its checks.** -/
theorem Reachable.handle_refuses (h : Reachable host s) (hs : s.data.sessions[fd]? = some user)
    (cmd : Command) :
    (handle (host s.served) fd cmd payload s.data).Refuses
    (requestRefusal fd payload s.data user cmd) := by
  have hlogged : isLoggedIn s.data fd = true := (IntMap.contains_iff _).2 ⟨user, hs⟩
  cases cmd with
  | login => exact handleLogin_refuses
  | logout => exact handleLogout_refuses hs
  | users =>
    rw [handle, handleUsers, hlogged]
    exact ⟨.usersList, _, rfl⟩
  | user =>
    rw [handle, handleUser, hlogged]
    exact refuses_named fun u ↦ ⟨.userInfo, _, rfl⟩
  | send =>
    rw [handle, handleSend, withSession_of_some hs]
    exact refuses_named fun u ↦ ⟨.sendOk, _, rfl⟩
  | messages =>
    rw [handle, handleMessages, withSession_of_some hs]
    exact refuses_named fun u ↦ ⟨.messagesList, _, rfl⟩
  | subscribe =>
    rw [handle, handleSubscribe, withSession_of_some hs, requestRefusal,
      ← Option.or_none (o := teamRefusal _ _)]
    refine refuses_argument fun t ht ↦ ?_
    dsimp only
    split_ifs
    · exact ⟨.subscribeOk, _, rfl⟩
    · exact ⟨.subscribeOk, _, rfl⟩
  | unsubscribe =>
    rw [handle, handleUnsubscribe, withSession_of_some hs, requestRefusal,
      ← Option.or_none (o := memberRefusal _ _ _)]
    exact refuses_argument fun t ht ↦ refuses_withSubscription ht fun _ ↦ ⟨.unsubscribeOk, _, rfl⟩
  | subscribed =>
    rw [handle, requestRefusal]
    split_ifs
    · rw [handleSubscribedUsers, withSession_of_some hs,
        ← Option.or_none (o := memberRefusal _ _ _)]
      exact refuses_argument fun t ht ↦ refuses_withSubscription ht fun _ ↦
        ⟨.subscribedUsers, _, rfl⟩
    · rw [handleSubscribedTeams, withSession_of_some hs]
      exact ⟨.subscribedTeams, _, rfl⟩
  | use =>
    rw [handle, extractSv_whole]
    exact handleUse_refuses hs
  | create =>
    rw [handle, extractSv_whole]
    obtain ⟨ctx, hctx, -⟩ := h.exists_context hs
    exact handleCreate_refuses hs hctx (h.dataContexts.resolved fd ctx hctx)
      (h.dataContexts.level fd ctx hctx)
  | list => exact h.query_refuses hs payload (.inl rfl) handleList_realizes
  | info => exact h.query_refuses hs payload (.inr rfl) (handleInfo_realizes h.sessionsWf)

theorem Reachable.frameOutcome_refuses (h : Reachable host s) (code : UInt16) :
    (frameOutcome (host s.served) fd code payload s.data).Refuses
      (refusal fd payload s.data (Command.ofCode? code)) := by
  by_cases hlogin : Command.ofCode? code = some .login
  · rw [frameOutcome_login hlogin, refusal, if_pos hlogin]
    exact handleLogin_refuses
  have hcode : code ≠ Command.login.code := by
    rintro rfl
    exact hlogin (Command.ofCode?_code .login)
  rw [refusal, if_neg hlogin]
  rcases hs : s.data.sessions[fd]? with - | user
  · rw [frameOutcome, if_pos ⟨hs, hcode⟩]
    rfl
  · rcases hcmd : Command.ofCode? code with - | cmd
    · rw [frameOutcome, if_neg (by rw [hs]; simp), hcmd]
      rfl
    · rw [frameOutcome_of_session hs hcmd]
      exact h.handle_refuses hs cmd

/-- **A request is refused exactly for the first check that it fails.** In every reachable state, a
frame is answered with an error if and only if it fails a check of its command, and the error and
what it carries are those of the first check that it fails. -/
theorem refused_iff (h : Reachable host s) {code : UInt16} (ha : s.Enabled (.frame fd code payload))
    (e : Error) (p : List UInt8) :
    newMessages fd s (perform host (.frame fd code payload) s) = [makeMessage e.code p] ↔
      refusal fd payload s.data (Command.ofCode? code) = some (e, p) := by
  rw [newMessages_self h.sessionsWf ha, List.singleton_inj]
  exact (h.frameOutcome_refuses code).iff

/-- Somebody who is in a team asks to be subscribed to another, which there is not. -/
def subscribeAsked : Server :=
  execute plainHost (enterTeam ++
    [.receive 4 (makeMessage Command.subscribe.code (plainUuid 7).str)]) Server.init

theorem refused_iff_subscribeAsked :
    newMessages 4 subscribeAsked
        (perform plainHost (.frame 4 Command.subscribe.code (plainUuid 7).str) subscribeAsked) =
      [makeMessage Error.unknownTeam.code (plainUuid 7).str] :=
  (refused_iff (reachable_execute (by decide +kernel)) (by decide +kernel) .unknownTeam _).2
    (by decide +kernel)

end Server

end MyTeams
