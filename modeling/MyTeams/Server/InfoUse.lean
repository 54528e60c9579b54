import MyTeams.Server.Disclosure
import MyTeams.Server.Growth

/-!
# `CMD_INFO` agrees with `CMD_USE`

The two requests are answered by the same four branches, once over the context that a payload asks
for and once over the context that is stored. A stored context is the one its own wire form asks
for, and it always resolves, so a repeated `CMD_USE` is granted to a member, changes nothing and is
answered as `CMD_INFO` is. And because nothing that a context shows of itself is ever changed, that
answer stays the same until the connection logs in or uses another context.
-/

namespace MyTeams

open ByteField FirstMatch

/-! ### The wire form of a context -/

/-- **The `CMD_USE` payload of a context**: the level byte, then the uuids that the level needs. -/
def ClientContext.encode (ctx : ClientContext) : List UInt8 :=
  ctx.level ::
    if ctx.level = useNone then []
    else if ctx.level = useTeam then ctx.teamUuid.toList
    else if ctx.level = useChannel then ctx.teamUuid.toList ++ ctx.channelUuid.toList
    else ctx.teamUuid.toList ++ ctx.channelUuid.toList ++ ctx.threadUuid.toList

section Encode

variable {data : ServerData} {ctx : ClientContext}

theorem useUuid_zero (level : UInt8) (u : Bytes 36) (more : List UInt8) :
    fill 36 (useUuid (level :: (u.toList ++ more)) 0) = u := by
  have hargument : useUuid (level :: (u.toList ++ more)) 0 = u.toList :=
    List.take_left' u.toList_length
  rw [hargument, fill_toList]

theorem useUuid_succ (level : UInt8) (u : Bytes 36) (more : List UInt8) (i : ℕ) :
    useUuid (level :: (u.toList ++ more)) (i + 1) = useUuid (level :: more) i := by
  have hdrop : (u.toList ++ more).drop (36 + i * 36) = more.drop (i * 36) := by
    rw [← List.drop_drop, List.drop_left' u.toList_length]
  rw [useUuid, useUuid, show 1 + (i + 1) * 36 = 36 + i * 36 + 1 by ring,
    show 1 + i * 36 = i * 36 + 1 by ring, List.drop_succ_cons, List.drop_succ_cons, hdrop]

/-- **A stored context is what its wire form asks for.** -/
theorem requestedContext_encode (h : ctx.Resolved data) (hlevel : ctx.level.toNat ≤ 3) :
    requestedContext ctx.encode = some ctx := by
  obtain ⟨level, teamUuid, channelUuid, threadUuid⟩ := ctx
  have hteam := useUuid_zero level teamUuid []
  have hchannel := useUuid_zero level channelUuid []
  have hthread := useUuid_zero level threadUuid []
  rw [List.append_nil] at hteam hchannel hthread
  rcases level_cases hlevel with h0 | h1 | h2 | h3
  · subst h0
    obtain rfl : teamUuid = zeros 36 := h.noTeam (show useNone < useTeam by decide)
    obtain rfl : channelUuid = zeros 36 := h.noChannel (show useNone < useChannel by decide)
    obtain rfl : threadUuid = zeros 36 := h.noThread (show useNone < useThread by decide)
    rfl
  · subst h1
    obtain rfl : channelUuid = zeros 36 := h.noChannel (show useTeam < useChannel by decide)
    obtain rfl : threadUuid = zeros 36 := h.noThread (show useTeam < useThread by decide)
    simp [requestedContext, ClientContext.encode, useTeam_ne_useNone, hteam, ClientContext.init]
  · subst h2
    obtain rfl : threadUuid = zeros 36 := h.noThread (show useChannel < useThread by decide)
    simp [requestedContext, ClientContext.encode, useChannel_ne_useNone, useUuid_zero, useUuid_succ,
      hchannel, ClientContext.init, show useChannel ≠ useTeam by decide]
  · subst h3
    simp [requestedContext, ClientContext.encode, useThread_ne_useNone, useUuid_zero, useUuid_succ,
      hthread, show useThread ≠ useTeam by decide, show useThread ≠ useChannel by decide]

end Encode

/-! ### What a context shows is never changed -/

/-- The first user with an uuid keeps his name. -/
theorem accountBody_of_prefix {data after : ServerData} (h : identities data <+: identities after)
    {user : Str} (hlength : user.length = 36)
    (hknown : ∃ uuid ∈ data.users.map User.uuid, user = uuid.str) :
    accountBody after user = accountBody data user := by
  have hfind (data : ServerData) : (findUserByUuid data user).map (fun u ↦ (u.uuid, u.name)) =
      (identities data).find? fun x ↦ x.1.str == user := by
    rw [findUserByUuid_eq hlength, identities, List.find?_map]
    rfl
  obtain ⟨uuid, huuid, rfl⟩ := hknown
  obtain ⟨u, hu, rfl⟩ := List.mem_map.1 huuid
  obtain ⟨x, hx⟩ : ∃ x, (identities data).find? (fun x ↦ x.1.str == u.uuid.str) = some x := by
    refine Option.isSome_iff_exists.1 (List.find?_isSome.2 ⟨(u.uuid, u.name), ?_, ?_⟩)
    · exact List.mem_map_of_mem hu
    · exact beq_self_eq_true _
  have hbefore := hfind data
  have hafter := hfind after
  obtain ⟨more, hmore⟩ := h
  rw [← hmore, find?_append_of_some hx] at hafter
  rw [hx] at hbefore
  obtain ⟨v, hv, hvx⟩ := Option.map_eq_some_iff.1 hbefore
  obtain ⟨w, hw, hwx⟩ := Option.map_eq_some_iff.1 hafter
  rw [accountBody, accountBody, hv, hw]
  obtain ⟨hid, hname⟩ := Prod.mk.inj (hwx.trans hvx.symm)
  show Body.account w.uuid.bytes w.name = Body.account v.uuid.bytes v.name
  rw [hid, hname]

/-- **A context that can be shown is shown alike for good.** -/
theorem contextInfo_of_extends {data after : ServerData} (hext : data.Extends after) {user : Str}
    (haccount : accountBody after user = accountBody data user) {ctx : ClientContext} {m : Msg}
    (h : contextInfo data user ctx = some m) : contextInfo after user ctx = some m := by
  rw [contextInfo] at h ⊢
  split_ifs at h ⊢
  · rw [haccount]
    exact h
  · obtain ⟨t, ht, rfl⟩ := Option.map_eq_some_iff.1 h
    obtain ⟨t', ht', hsame⟩ := team?_extends hext ht
    rw [ht', Option.map_some, hsame.1]
  · obtain ⟨c, hc, rfl⟩ := Option.map_eq_some_iff.1 h
    obtain ⟨c', hc', hsame⟩ := channel?_extends hext hc
    rw [hc', Option.map_some, hsame.1]
  · obtain ⟨th, hth, rfl⟩ := Option.map_eq_some_iff.1 h
    obtain ⟨th', hth', hsame⟩ := thread?_extends hext hth
    rw [hth', Option.map_some, hsame.1]

section Requests

variable {data : ServerData} {fd : Fd} {user : Str} {ctx : ClientContext} {m : Msg}

/-! ### One state -/

/-- `CMD_INFO` is answered by what the stored context shows. -/
theorem handleInfo_result (env : Host) (hwf : SessionsWf data) (hs : data.sessions[fd]? = some user)
    (hctx : data.clientContexts[fd]? = some ctx) (hinfo : contextInfo data user ctx = some m) :
    (handleInfo fd data).result = ⟨m.packet, []⟩ := by
  obtain ⟨answer, hserves, -, hresult⟩ : Realizes (Serves env fd [] data (some .info))
      (handleInfo fd data) := handleInfo_realizes hwf
  rw [hresult]
  cases hserves with
  | unauthorized hnone =>
    rw [hs] at hnone
    cases hnone
  | refused _ _ hquery => exact absurd rfl hquery.2.2.2
  | dangling hs' _ hdangling =>
    obtain rfl := Option.some.inj (hs.symm.trans hs')
    rw [hdangling ctx hctx] at hinfo
    cases hinfo
  | info hs' hctx' hinfo' =>
    obtain rfl := Option.some.inj (hs.symm.trans hs')
    obtain rfl := Option.some.inj (hctx.symm.trans hctx')
    rw [← Option.some.inj (hinfo.symm.trans hinfo')]
    rfl

/-- `CMD_USE` of a context that is granted stores it, and is answered by what it shows. -/
theorem handleUse_of_granted (env : Host) (hwf : SessionsWf data)
    (hs : data.sessions[fd]? = some user) {payload : Str}
    (hreq : requestedContext payload = some ctx) (hgrant : Grants data user ctx)
    (hinfo : contextInfo data user ctx = some m) :
    (handleUse fd payload data).data =
        { data with clientContexts := data.clientContexts.insert fd ctx } ∧
      (handleUse fd payload data).result = ⟨m.packet, []⟩ := by
  obtain ⟨answer, hserves, hdata, hresult⟩ : Realizes (Serves env fd payload data (some .use))
      (handleUse fd payload data) := handleUse_realizes hwf
  rw [hdata, hresult]
  cases hserves with
  | unauthorized hnone =>
    rw [hs] at hnone
    cases hnone
  | refused hs' _ _ _ huse =>
    obtain rfl := Option.some.inj (hs.symm.trans hs')
    exact absurd ⟨ctx, hreq, hgrant⟩ (huse rfl)
  | dangling _ hcmd => simp at hcmd
  | use hs' hreq' hgrant' hinfo' =>
    obtain rfl := Option.some.inj (hs.symm.trans hs')
    obtain rfl := Option.some.inj (hreq.symm.trans hreq')
    rw [← Option.some.inj (hinfo.symm.trans hinfo')]
    exact ⟨rfl, rfl⟩

namespace Server

variable {host : ℕ → Host} {s s' : Server}

/-- **A repeated `CMD_USE`** of a member changes nothing, and is answered as `CMD_INFO` is. -/
theorem Reachable.handleUse_encode (h : Reachable host s) (hs : s.data.sessions[fd]? = some user)
    (hctx : s.data.clientContexts[fd]? = some ctx)
    (hmember : ctx.level ≠ useNone → IsMember s.data ctx.teamUuid.toList user) :
    (handleUse fd ctx.encode s.data).data = s.data ∧
      (handleUse fd ctx.encode s.data).result = (handleInfo fd s.data).result ∧
      ∀ e : Error, (handleUse fd ctx.encode s.data).result.response.code ≠ e.code := by
  have hresolved := h.dataContexts.resolved fd ctx hctx
  have hlevel := h.registry.level fd ctx hctx
  have hreq := requestedContext_encode hresolved hlevel
  have hsome := hresolved.isSome_contextInfo hlevel user
  have hgrant : Grants s.data user ctx := ⟨hsome, or_iff_not_imp_left.2 hmember⟩
  obtain ⟨m, hm⟩ := Option.isSome_iff_exists.1 hsome
  obtain ⟨hdata, hresult⟩ := handleUse_of_granted (host s.served) h.sessionsWf hs hreq hgrant hm
  rw [hdata, hresult, IntMap.insert_eq_self _ hctx]
  refine ⟨rfl, (handleInfo_result (host s.served) h.sessionsWf hs hctx hm).symm, fun e ↦ ?_⟩
  show m.code.code ≠ e.code
  rw [contextInfo_code hm]
  exact res_code_ne_err_code _ e

/-! ### Runs -/

/-- A step that is neither a login nor a `CMD_USE` on `fd`. -/
def ApartStep (host : ℕ → Host) (fd : Fd) (s s' : Server) : Prop :=
  ∃ a, s.Enabled a ∧ (a.fd = fd → a.request.1 ≠ some .login ∧ a.request.1 ≠ some .use) ∧
    s' = perform host a s

/-- As long as the connection `fd` is that of `user`, its context is `ctx`, which shows `m`. -/
def StaysIn (fd : Fd) (user : Str) (ctx : ClientContext) (m : Msg) (data : ServerData) : Prop :=
  data.sessions[fd]? = none ∨ data.sessions[fd]? = some user ∧
    data.clientContexts[fd]? = some ctx ∧ contextInfo data user ctx = some m

/-- The sessions and contexts that such a step leaves. -/
theorem keys_of_apart {payload : List UInt8} {after : ServerData} {cmd : Option Command}
    (h : Change fd payload data cmd after) (hlogin : cmd ≠ some .login) (huse : cmd ≠ some .use) :
    after.sessions[fd]? = none ∨
      after.sessions[fd]? = data.sessions[fd]? ∧
        after.clientContexts[fd]? = data.clientContexts[fd]? := by
  cases h with
  | login => exact absurd rfl hlogin
  | use => exact absurd rfl huse
  | logout =>
    refine .inl ?_
    rw [logoutData, IntMap.get_erase_self]
  | _ => exact .inr ⟨rfl, rfl⟩

/-- **One step** on another connection, or of another kind, keeps what the context shows. -/
theorem StaysIn.perform (h : Reachable host s) (hstays : StaysIn fd user ctx m s.data) {a : Action}
    (ha : a.fd = fd → a.request.1 ≠ some .login ∧ a.request.1 ≠ some .use) :
    StaysIn fd user ctx m (perform host a s).data := by
  have hchange := @change_perform host s h.sessionsWf a
  have hkeys : (Server.perform host a s).data.sessions[fd]? = none ∨
      (Server.perform host a s).data.sessions[fd]? = s.data.sessions[fd]? ∧
        (Server.perform host a s).data.clientContexts[fd]? = s.data.clientContexts[fd]? := by
    rcases eq_or_ne a.fd fd with rfl | hd
    · exact keys_of_apart hchange (ha rfl).1 (ha rfl).2
    · exact .inr ⟨hchange.sessions_of_ne (Ne.symm hd), hchange.contexts_of_ne (Ne.symm hd)⟩
  rcases hkeys with hgone | ⟨hsession, hcontext⟩
  · exact .inl hgone
  · rcases hstays with hnone | ⟨hs, hctx, hinfo⟩
    · exact .inl (hsession.trans hnone)
    · have hlength : user.length = 36 := h.sessionsWf fd user hs
      refine .inr ⟨hsession.trans hs, hcontext.trans hctx, ?_⟩
      refine contextInfo_of_extends hchange.extends ?_ hinfo
      exact accountBody_of_prefix (effect_perform host h.sessionsWf a).users hlength
        (h.registry.session fd user hs)

theorem StaysIn.apart (h : Reachable host s) (hstays : StaysIn fd user ctx m s.data)
    (hrun : Relation.ReflTransGen (ApartStep host fd) s s') :
    Reachable host s' ∧ StaysIn fd user ctx m s'.data := by
  induction hrun with
  | refl => exact ⟨h, hstays⟩
  | tail _ hstep ih =>
    obtain ⟨a, ha, hapart, rfl⟩ := hstep
    exact ⟨ih.1.step ha, ih.2.perform ih.1 hapart⟩

/-- A `CMD_USE` that is not refused leaves the connection in the context that its answer shows. -/
theorem Reachable.staysIn_use (h : Reachable host s) (hs : s.data.sessions[fd]? = some user)
    {payload : List UInt8}
    (hok : ∀ e : Error, (frameOutcome (host s.served) fd Command.use.code payload
      s.data).result.response.code ≠ e.code) :
    ∃ ctx m, StaysIn fd user ctx m (perform host (.frame fd Command.use.code payload) s).data ∧
      (frameOutcome (host s.served) fd Command.use.code payload s.data).result.response =
        m.packet := by
  obtain ⟨answer, hserves, hdata, hresult⟩ :=
    exists_serves_frame host h.sessionsWf fd Command.use.code payload
  rw [hresult] at hok
  rw [Command.ofCode?_code] at hserves
  cases hserves with
  | unauthorized => exact absurd rfl (hok .unauthorized)
  | @refused _ _ e => exact absurd rfl (hok e)
  | @dangling _ _ e => exact absurd rfl (hok e)
  | @use _ ctx m hs' _ _ hinfo =>
    obtain rfl := Option.some.inj (hs.symm.trans hs')
    refine ⟨ctx, m, .inr ?_, by rw [hresult]; rfl⟩
    rw [hdata]
    refine ⟨hs, ?_, hinfo⟩
    show (s.data.clientContexts.insert fd ctx)[fd]? = some ctx
    rw [IntMap.get_insert_self]

/-- **INFO agrees with USE.** In every reachable state, a logged-in connection whose user is still a
member of the team of its context, if that is in a team, may send `CMD_USE` of its own context
again: that succeeds, changes nothing, and is answered byte for byte as `CMD_INFO` is. And after a
`CMD_USE` that succeeds, `CMD_INFO` is answered the same for as long as the connection is logged in
and neither logs in again nor uses another context, whatever happens on the other connections. -/
theorem info_agrees_with_use (host : ℕ → Host) :
    (∀ s fd user ctx, Reachable host s → s.data.sessions[fd]? = some user →
      s.data.clientContexts[fd]? = some ctx →
      (ctx.level ≠ useNone → IsMember s.data ctx.teamUuid.toList user) →
        (handleUse fd ctx.encode s.data).data = s.data ∧
          (handleUse fd ctx.encode s.data).result = (handleInfo fd s.data).result ∧
          ∀ e : Error, (handleUse fd ctx.encode s.data).result.response.code ≠ e.code) ∧
    ∀ s s' fd user payload, Reachable host s → s.data.sessions[fd]? = some user →
      (∀ e : Error, (frameOutcome (host s.served) fd Command.use.code payload
        s.data).result.response.code ≠ e.code) →
      s.Enabled (.frame fd Command.use.code payload) →
      Relation.ReflTransGen (ApartStep host fd)
        (perform host (.frame fd Command.use.code payload) s) s' →
      s'.data.sessions[fd]? ≠ none →
        (handleInfo fd s'.data).result.response =
          (frameOutcome (host s.served) fd Command.use.code payload s.data).result.response := by
  refine ⟨fun s fd user ctx h hs hctx hmember ↦ h.handleUse_encode hs hctx hmember,
    fun s s' fd user payload h hs hok ha hrun hsession ↦ ?_⟩
  obtain ⟨ctx, m, hstays, hresponse⟩ := h.staysIn_use hs hok
  obtain ⟨hreachable, hnone | ⟨hs', hctx, hinfo⟩⟩ := hstays.apart (h.step ha) hrun
  · exact absurd hnone hsession
  · rw [handleInfo_result (host s'.served) hreachable.sessionsWf hs' hctx hinfo, hresponse]

/-- The payload by which the user of `enterTeam` enters his team. -/
def enterPayload : List UInt8 := useTeam :: (plainUuid 1).str

/-- The user of `enterTeam` uses his team again; and `CMD_INFO` is answered like the first `CMD_USE`
after somebody else has logged in. -/
theorem info_agrees_with_use_enterTeam :
    (handleUse 4 enterPayload (execute plainHost enterTeam Server.init).data).result =
      (handleInfo 4 (execute plainHost enterTeam Server.init).data).result ∧
    (handleInfo 4 (execute plainHost (.accept 5 :: request 5 .login [98])
        (perform plainHost (.frame 4 Command.use.code enterPayload)
          (execute plainHost enterTeam.dropLast Server.init))).data).result.response =
      (frameOutcome (plainHost (execute plainHost enterTeam.dropLast Server.init).served) 4
        Command.use.code enterPayload
        (execute plainHost enterTeam.dropLast Server.init).data).result.response := by
  obtain ⟨hsame, hstays⟩ := info_agrees_with_use plainHost
  constructor
  · have hs : (execute plainHost enterTeam Server.init).data.sessions[(4 : Fd)]? =
        some (plainUuid 0).str := by decide +kernel
    have hctx : (execute plainHost enterTeam Server.init).data.clientContexts[(4 : Fd)]? =
        some { ClientContext.init with level := useTeam, teamUuid := (plainUuid 1).bytes } := by
      decide +kernel
    have hteam : (findTeamByUuid (execute plainHost enterTeam Server.init).data
        (plainUuid 1).str).map Team.memberUuids = some [(plainUuid 0).str] := by decide +kernel
    obtain ⟨t, ht, hmembers⟩ := Option.map_eq_some_iff.1 hteam
    exact (hsame _ 4 _ _ (reachable_execute (by decide +kernel)) hs hctx
      fun _ ↦ ⟨t, ht, by rw [hmembers]; exact List.mem_singleton_self _⟩).2.1
  · generalize hstate : execute plainHost enterTeam.dropLast Server.init = s
    have hreachable : Reachable plainHost s := hstate ▸ reachable_execute (by decide +kernel)
    have hs : s.data.sessions[(4 : Fd)]? = some (plainUuid 0).str := by
      rw [← hstate]
      decide +kernel
    have hcode : (frameOutcome (plainHost s.served) 4 Command.use.code enterPayload
        s.data).result.response.code = Response.teamInfo.code := by
      rw [← hstate]
      decide +kernel
    have henabled : s.Enabled (.frame 4 Command.use.code enterPayload) := by
      rw [← hstate]
      decide +kernel
    have hothers : ∀ a ∈ Action.accept 5 :: request 5 .login [98], a.fd ≠ 4 := by
      simp [request, Action.fd]
    have hexec : Executable plainHost (.accept 5 :: request 5 .login [98])
        (perform plainHost (.frame 4 Command.use.code enterPayload) s) := by
      rw [← hstate]
      decide +kernel
    have hrun := reflTransGen_execute (R := ApartStep plainHost 4) hexec
      fun a ha henabled ↦ ⟨a, henabled, fun hfd ↦ absurd hfd (hothers a ha), rfl⟩
    refine hstays s _ 4 _ enterPayload hreachable hs
      (fun e ↦ hcode ▸ res_code_ne_err_code .teamInfo e) henabled hrun ?_
    rw [← hstate]
    decide +kernel

end Server

end Requests

end MyTeams
