import MyTeams.Net

/-!
# Reported status

The status that a client reports of a user is the presence which the server found when it processed
the request: the records of users that the server sends carry it as 1 or 0. There is one reply with
a user in it but no status, `RES_USER_DETAILS`, and the client reports -1 for it. It is the reply to
an `/info` under `USE_NONE` and to a `/use` without arguments, and `statusesTrue_iff` says that the
statuses of a run are right exactly as long as no client has decoded it.
-/

namespace MyTeams

open ByteField Server

/-! ### What is reported -/

/-- The uuid and the status that a call reports. -/
def Callback.status : Callback → Option (Str × Int)
  | printUser uuid _ status | printUsers uuid _ status => some (uuid, status)
  | _ => none

/-- The user records of a body. -/
def Body.records : Body → List UserRecord
  | .user r => [r]
  | .users l => l
  | _ => []

/-- A status is reported for a record of the message, or it is that of `RES_USER_DETAILS`. -/
theorem Msg.status_of_mem_calls {m : Msg} {c : Client} {k : Callback} (hk : k ∈ m.calls c)
    {uuid : Str} {status : Int} (hs : k.status = some (uuid, status)) :
    (∃ r ∈ m.body.records, uuid = cut r.uuid.toList ∧ status = r.status.toNat) ∨
      m.code = .res .userDetails ∧ status = -1 := by
  have hrecord {f : Str → Str → Int → Callback} {r : UserRecord}
      (hf : ∀ uuid name status, (f uuid name status).status = some (uuid, status))
      (hr : (r.call f).status = some (uuid, status)) :
      uuid = cut r.uuid.toList ∧ status = r.status.toNat := by
    obtain ⟨huuid, hstatus⟩ := Prod.mk.inj (Option.some.inj ((hf _ _ _).symm.trans hr))
    exact ⟨huuid.symm, hstatus.symm⟩
  obtain ⟨code, body⟩ := m
  unfold Msg.calls at hk
  dsimp only at hk
  split at hk
  case h_3 u n =>
    rw [List.mem_singleton.1 hk] at hs
    exact .inr ⟨rfl, (Prod.mk.inj (Option.some.inj hs)).2.symm⟩
  case h_4 l | h_5 l =>
    obtain ⟨r, hr, rfl⟩ := List.mem_map.1 hk
    exact .inl ⟨r, hr, hrecord (fun _ _ _ ↦ rfl) hs⟩
  case h_6 r =>
    rw [List.mem_singleton.1 hk] at hs
    exact .inl ⟨r, List.mem_singleton_self r, hrecord (fun _ _ _ ↦ rfl) hs⟩
  -- the other calls report no status
  all_goals
    first
    | rw [List.mem_singleton.1 hk] at hs
      cases hs
    | obtain ⟨r, -, rfl⟩ := List.mem_map.1 hk
      cases hs
    | cases hk

/-! ### What the server sends -/

/-- The request of a logged in user that is answered with the user's own account: an `/info` under
`USE_NONE`, or a `/use` of it. -/
def AsksOwnDetails (fd : Fd) (payload : List UInt8) (data : ServerData) : Option Command → Prop
  | some .info => data.sessions[fd]?.isSome ∧ ∃ ctx ∈ data.clientContexts[fd]?, ctx.level = useNone
  | some .use => data.sessions[fd]?.isSome ∧ payload.head? = some useNone
  | _ => False

instance (fd : Fd) (payload : List UInt8) (data : ServerData) (cmd : Option Command) :
    Decidable (AsksOwnDetails fd payload data cmd) :=
  match cmd with
  | some .info => inferInstanceAs (Decidable (data.sessions[fd]?.isSome ∧
      ∃ ctx ∈ data.clientContexts[fd]?, ctx.level = useNone))
  | some .use => inferInstanceAs (Decidable (data.sessions[fd]?.isSome ∧
      payload.head? = some useNone))
  | some .login | some .logout | some .users | some .user | some .send | some .messages
  | some .subscribe | some .subscribed | some .unsubscribe | some .create | some .list | none =>
    instDecidableFalse

theorem contextInfo_records {data : ServerData} {user : Str} {ctx : ClientContext} {m : Msg}
    (h : contextInfo data user ctx = some m) : m.body.records = [] := by
  rw [contextInfo] at h
  split_ifs at h
  · rw [← Option.some.inj h, accountBody]
    split <;> rfl
  all_goals
    obtain ⟨x, -, rfl⟩ := Option.map_eq_some_iff.1 h
    rfl

theorem contextList_records {data : ServerData} {ctx : ClientContext} {m : Msg}
    (h : contextList data ctx = some m) : m.body.records = [] := by
  rw [contextList] at h
  split_ifs at h
  · rw [← Option.some.inj h]
    rfl
  all_goals
    obtain ⟨x, -, rfl⟩ := Option.map_eq_some_iff.1 h
    rfl

theorem infoResponse_eq_userDetails_iff (level : UInt8) :
    infoResponse level = .userDetails ↔ level = useNone := by
  rw [infoResponse]
  split_ifs with h <;> simp [h]

theorem listResponse_ne_userDetails (level : UInt8) : listResponse level ≠ .userDetails := by
  rw [listResponse]
  split_ifs <;> decide

/-- A granted request has the level of its payload. -/
theorem head?_of_requestedContext {payload : List UInt8} {ctx : ClientContext}
    (h : requestedContext payload = some ctx) : payload.head? = some ctx.level := by
  rw [requestedContext] at h
  split at h
  · cases h
  · rename_i level hhead
    rw [hhead]
    split_ifs at h <;> rw [← Option.some.inj h]

section Answers

variable {host : Host} {fd : Fd} {payload : List UInt8} {data : ServerData} {cmd : Option Command}
  {a : Answer}

/-- **Every record of a user in a response carries its presence.** -/
theorem Serves.record (h : Serves host fd payload data cmd a) {r : UserRecord}
    (hr : r ∈ a.msg.body.records) :
    (∃ c, cmd = some c ∧ c ≠ .logout) ∧ ∃ u : User, r = u.record data := by
  have hinfo {user : Str} {ctx : ClientContext} {m : Msg}
      (hinfo : contextInfo data user ctx = some m) : r ∉ m.body.records := by
    rw [contextInfo_records hinfo]
    exact List.not_mem_nil
  cases h with
  | users =>
    obtain ⟨u, -, rfl⟩ := List.mem_map.1 hr
    exact ⟨⟨_, rfl, by decide⟩, u, rfl⟩
  | @user _ _ u =>
    exact ⟨⟨_, rfl, by decide⟩, u, List.mem_singleton.1 hr⟩
  | subscribedUsers =>
    obtain ⟨u, -, rfl⟩ := List.mem_map.1 hr
    exact ⟨⟨_, rfl, by decide⟩, u, rfl⟩
  | use _ _ _ h => exact absurd hr (hinfo h)
  | info _ _ h => exact absurd hr (hinfo h)
  | list _ _ h =>
    have hnone := contextList_records h
    exact absurd (hnone ▸ hr) List.not_mem_nil
  | refused _ hb => cases hb <;> cases hr
  | logout =>
    rw [logoutBody] at hr
    split at hr <;> cases hr
  | _ => cases hr

/-- **The response without a status** answers exactly the requests for the user's own account. -/
theorem Serves.userDetails_iff (h : Serves host fd payload data cmd a) :
    a.msg.code = .res .userDetails ↔ AsksOwnDetails fd payload data cmd := by
  have hsome {user : Str} (hs : data.sessions[fd]? = some user) : data.sessions[fd]?.isSome := by
    rw [hs]
    rfl
  cases h with
  | @use user ctx m hs hreq hgrant hinfo =>
    show m.code = _ ↔ data.sessions[fd]?.isSome ∧ payload.head? = some useNone
    rw [contextInfo_code hinfo, head?_of_requestedContext hreq, and_iff_right (hsome hs),
      Option.some_inj, ← infoResponse_eq_userDetails_iff]
    exact ServerCode.res.injEq _ _ ▸ Iff.rfl
  | @info user ctx m hs hctx hinfo =>
    show m.code = _ ↔ data.sessions[fd]?.isSome ∧ ∃ c ∈ data.clientContexts[fd]?, c.level = useNone
    rw [contextInfo_code hinfo, hctx, and_iff_right (hsome hs)]
    simp [infoResponse_eq_userDetails_iff]
  | @list user ctx m hs hctx hlist =>
    refine iff_of_false (fun hcode ↦ ?_) id
    have hlisted := (contextList_code hlist).symm.trans hcode
    exact listResponse_ne_userDetails _ (ServerCode.res.inj hlisted)
  | @unauthorized cmd hs hcmd =>
    refine iff_of_false (fun hcode ↦ by cases hcode) fun hasks ↦ ?_
    unfold AsksOwnDetails at hasks
    rw [hs] at hasks
    split at hasks
    · cases hasks.1
    · cases hasks.1
    · exact hasks
  | @refused c user e b hs hb hquery hcreate huse =>
    refine iff_of_false (fun hcode ↦ by cases hcode) fun hasks ↦ ?_
    cases c with
    | info => exact hquery.2.2.2 rfl
    | use =>
      -- asking for `USE_NONE` is always granted
      have hreq : requestedContext payload = some { ClientContext.init with level := useNone } := by
        rw [requestedContext, hasks.2]
        rfl
      exact huse rfl ⟨_, hreq, rfl, .inl rfl⟩
    | _ => exact hasks
  | @dangling c user e hs hcmd hctx =>
    refine iff_of_false (fun hcode ↦ by cases hcode) fun hasks ↦ ?_
    rcases hcmd with rfl | rfl | rfl
    · exact hasks
    · exact hasks
    · obtain ⟨-, ctx, hstored, hlevel⟩ := hasks
      have hnone := hctx ctx hstored
      rw [contextInfo_of_none hlevel] at hnone
      cases hnone
  | _ => exact iff_of_false (fun hcode ↦ by cases hcode) id

end Answers

/-! ### Mail with a status -/

/-- Events hold no user records. -/
theorem Msg.Fits.not_evt_of_mem_records {m : Msg} (h : m.Fits) {r : UserRecord}
    (hr : r ∈ m.body.records) (evt : Event) : m.code ≠ .evt evt := by
  obtain ⟨code, body⟩ := m
  rintro rfl
  have hlayout : body.layout = layout (.evt evt) := h.1
  cases body with
  | user | users => cases evt <;> simp [Body.layout, layout] at hlayout
  | _ => cases hr

namespace Mail

variable {host : ℕ → Host} {fd : Fd} {x : Mail} {m : Msg}

/-- The message answers a request for the user's own account. -/
def AsksOwnDetails (fd : Fd) (x : Mail) : Prop :=
  x.cause.fd = fd ∧ MyTeams.AsksOwnDetails fd x.cause.request.2 x.before.data x.cause.request.1

instance (fd : Fd) (x : Mail) : Decidable (x.AsksOwnDetails fd) :=
  inferInstanceAs (Decidable (x.cause.fd = fd ∧
    MyTeams.AsksOwnDetails fd x.cause.request.2 x.before.data x.cause.request.1))

/-- What is no event is the response to a request of this connection. -/
theorem Says.response (h : x.Says host fd m) (hevt : ∀ evt, m.code ≠ .evt evt) :
    x.cause.fd = fd ∧ ∃ a, Serves (host x.before.served) fd x.cause.request.2 x.before.data
      x.cause.request.1 a ∧ m = a.msg := by
  obtain ⟨a, hserves, hm⟩ := h.answer
  rcases eq_or_ne fd x.cause.fd with hfd | hfd
  · rw [Answer.messagesTo, if_pos hfd] at hm
    exact ⟨hfd.symm, a, hfd ▸ hserves, List.mem_singleton.1 hm⟩
  · obtain ⟨evt, hcode⟩ := (isPush_code m.code).1 (hserves.push hfd m hm)
    exact absurd hcode (hevt evt)

theorem Says.userDetails_iff (h : x.Says host fd m) :
    m.code = .res .userDetails ↔ x.AsksOwnDetails fd := by
  constructor
  · intro hcode
    obtain ⟨hfd, a, hserves, rfl⟩ := h.response fun evt hevt ↦ by cases hcode.symm.trans hevt
    exact ⟨hfd, hserves.userDetails_iff.1 hcode⟩
  · rintro ⟨hfd, hasks⟩
    obtain ⟨a, hserves, hm⟩ := h.answer
    rw [Answer.messagesTo, if_pos hfd.symm, List.mem_singleton] at hm
    rw [hm]
    exact hserves.userDetails_iff.2 (hfd.symm ▸ hasks)

/-- **Any other status is the presence** that the server found. -/
theorem Says.status (h : x.Says host fd m) (hasks : ¬ x.AsksOwnDetails fd) {c : Client}
    {k : Callback} (hk : k ∈ m.calls c) {uuid : Str} {status : Int}
    (hs : k.status = some (uuid, status)) :
    (∃ cmd payload, x.cause = .frame fd cmd payload) ∧
      (status = 1 ∧ Online x.before.data uuid ∨ status = 0 ∧ ¬ Online x.before.data uuid) := by
  rcases Msg.status_of_mem_calls hk hs with ⟨r, hr, rfl, rfl⟩ | ⟨hcode, -⟩
  · obtain ⟨rfl, a, hserves, rfl⟩ := h.response (h.fits.not_evt_of_mem_records hr)
    obtain ⟨⟨cmd, hcmd, hlogout⟩, u, rfl⟩ := hserves.record hr
    refine ⟨⟨cmd.code, x.cause.request.2, x.cause.eq_frame_of_request hcmd hlogout⟩, ?_⟩
    have huuid : cut (u.record x.before.data).uuid.toList = u.uuid.str := u.uuid.cut_str
    rw [huuid, ← isUserOnline_iff, User.record]
    cases isUserOnline x.before.data u with
    | true => exact .inl ⟨rfl, rfl⟩
    | false => exact .inr ⟨rfl, Bool.false_ne_true⟩
  · exact absurd (h.userDetails_iff.1 hcode) hasks

end Mail

/-! ### The law -/

namespace Net

variable {host : ℕ → Host} {io : ℕ → Option ℕ} {N : Net}

/-- Every status that a client has reported is 1 or 0, and says whether the user had a session when
the server processed the request that the client was decoding the reply to. -/
def StatusesTrue (N : Net) : Prop :=
  ∀ p ∈ N.peers, ∀ n k, (n, k) ∈ p.client.made → ∀ uuid status, k.status = some (uuid, status) →
    ∃ j x cmd payload, n = j + 1 ∧ p.mail[j]? = some x ∧ p.client.handled[j]? = some x.frame ∧
      x.cause = .frame p.fd cmd payload ∧
      (status = 1 ∧ Online x.before.data uuid ∨ status = 0 ∧ ¬ Online x.before.data uuid)

/-- **Reported status is real presence, except for one's own details.** In every run in which no
request is for a list of 2^32 bytes or more, all statuses that the clients have reported are right
if and only if no client has decoded the reply to an `/info` under `USE_NONE` or to a `/use` without
arguments. -/
theorem statusesTrue_iff (hrun : Steps host io (Allowed Action.ListsFit fun _ _ ↦ True) start N) :
    N.StatusesTrue ↔ ∀ p ∈ N.peers, ∀ j < p.client.handled.length, ∀ x ∈ p.mail[j]?,
      ¬ x.AsksOwnDetails p.fd := by
  have hsound := sound_of_fitting hrun
  have hprint {k : Callback} {uuid : Str} {status : Int} (hs : k.status = some (uuid, status)) :
      ∀ s, k ≠ .output s := by
    rintro s rfl
    cases hs
  constructor
  · intro htrue p hp j hj x hx hasks
    obtain ⟨y, calls, hy, -, ⟨m, c, hm, rfl⟩, hcalls⟩ := (hsound.tells p hp).calls j hj
    obtain rfl := Option.some.inj (hx.symm.trans hy)
    -- the message is `RES_USER_DETAILS`, for which -1 is reported
    have hcode := hm.userDetails_iff.2 hasks
    obtain ⟨u, n, hbody⟩ : ∃ u n, m.body = .account u n := by
      have hshape := hm.fits.shape
      rw [hcode] at hshape
      exact hshape
    have hmem : Callback.printUser (cut u.toList) (cut n.toList) (-1) ∈ m.calls c := by
      rw [Msg.calls, hcode, hbody]
      exact List.mem_singleton_self _
    obtain ⟨-, -, -, -, -, -, -, -, ⟨hone, -⟩ | ⟨hzero, -⟩⟩ :=
      htrue p hp _ _ ((hcalls _ (hprint rfl)).2 hmem) _ _ rfl
    · cases hone
    · cases hzero
  · intro hown p hp n k hk uuid status hs
    obtain ⟨j, x, calls, rfl, hx, hframe, ⟨m, c, hm, rfl⟩, hcall⟩ :=
      (hsound.tells p hp).exists_mail hk (hprint hs)
    have hj : j < p.client.handled.length := (List.getElem?_eq_some_iff.1 hframe).1
    obtain ⟨⟨cmd, payload, hcause⟩, hstatus⟩ := hm.status (hown p hp j hj x hx) hcall hs
    exact ⟨j, x, cmd, payload, rfl, hx, hframe, hcause, hstatus⟩

/-- A login and a `/users`, and the client reads what the server has to say. -/
def usersListed : List NetMove :=
  .act (.accept 4) :: command 0 4 (text "/login a\n") .login (packFixed [] (text "a") 32) ++
    command 0 4 (text "/users\n") .users [] ++ deliver 0 4 200

theorem statusesTrue_usersListed :
    (execute plainHost (fun _ ↦ some 65535) usersListed start).StatusesTrue ∧
      ∃ p ∈ (execute plainHost (fun _ ↦ some 65535) usersListed start).peers,
        (2, Callback.printUsers (plainUuid 0).str (text "a") 1) ∈ p.client.made := by
  have hrun : Executable plainHost (fun _ ↦ some 65535) (Allowed Action.ListsFit fun _ _ ↦ True)
      usersListed start := by decide +kernel
  exact ⟨(statusesTrue_iff (steps_execute hrun)).2 (by decide +kernel), by decide +kernel⟩

/-- A login and an `/info`. -/
def ownDetails : List NetMove :=
  .act (.accept 4) :: command 0 4 (text "/login a\n") .login (packFixed [] (text "a") 32) ++
    command 0 4 (text "/info\n") .info [] ++ deliver 0 4 200

/-- **A status of -1**: the client of a user who is logged in reports neither 1 nor 0. -/
theorem not_statusesTrue :
    ¬ ∀ N, Steps plainHost (fun _ ↦ some 65535) (fun _ _ ↦ True) start N → N.StatusesTrue := by
  intro h
  have hrun : Executable plainHost (fun _ ↦ some 65535) (fun _ _ ↦ True) ownDetails start := by
    decide +kernel
  have hcall : ∃ p ∈ (execute plainHost (fun _ ↦ some 65535) ownDetails start).peers,
      (2, Callback.printUser (plainUuid 0).str (text "a") (-1)) ∈ p.client.made := by
    decide +kernel
  obtain ⟨p, hp, hk⟩ := hcall
  obtain ⟨-, -, -, -, -, -, -, -, ⟨hone, -⟩ | ⟨hzero, -⟩⟩ :=
    h _ (steps_execute hrun) p hp _ _ hk _ _ rfl
  · cases hone
  · cases hzero

end Net

end MyTeams
