import MyTeams.Lib.NamedForest
import MyTeams.Server.Addresses
import MyTeams.Server.Audience
import MyTeams.Server.Capacity
import MyTeams.Server.Conversations

/-!
# Following what happens

A client may ask for a list again and again, or ask once and listen. Whoever creates something is
told so by the response, and the members of the team by an event with the same record. So for a
connection that stays logged in, and whose user stays a member, the list that it would be sent is
the one that it was sent before and after it the records that it has been told of since
(`followed_list`). The same holds of a conversation, for what the other one has written
(`followed_conversation`).

What is told of a channel or a thread does not say where it was created. The list of the teams, and
of the replies in a thread, can be kept up to date without asking; of the other two it is only
certain that nothing is missing.
-/

namespace MyTeams

open FirstMatch Forest ByteField

/-! ### What a frame tells a connection -/

/-- The event for what is created in a context of the given level. -/
def createdEvent (level : UInt8) : Event :=
  if level = useNone then .teamCreated
  else if level = useTeam then .channelCreated
  else if level = useChannel then .threadCreated
  else .replyCreated

theorem announced_created (level : UInt8) :
    announced (.res (createdResponse level)) = some (createdEvent level) := by
  rw [createdResponse, createdEvent]
  split_ifs <;> rfl

/-- An event is announced by one response. -/
theorem announced_injective {c c' : ServerCode} {evt : Event} (h : announced c = some evt)
    (h' : announced c' = some evt) : c = c' := by
  unfold announced at h h'
  split at h <;> cases h <;> split at h' <;> cases h' <;> rfl

theorem createdResponse_injective : ∀ l ∈ [useNone, useTeam, useChannel, useThread],
    ∀ l' ∈ [useNone, useTeam, useChannel, useThread],
      createdResponse l = createdResponse l' → l = l' := by
  decide +kernel

section Heard

variable {host : Host} {fd d : Fd} {payload : List UInt8} {data : ServerData} {cmd : Option Command}
  {a : Answer}

/-- Another connection hears the event that the response announces, if it is in the audience. -/
theorem Serves.heard_cases (h : Serves host fd payload data cmd a) (hd : d ≠ fd) :
    (∃ evt m, announced a.msg.code = some evt ∧ Audience data a.data fd payload d evt ∧
        a.messagesTo fd d = [m] ∧ m.code = .evt evt ∧ EventPayload a.data a.msg evt m.body.bytes) ∨
      a.messagesTo fd d = [] ∧
        ∀ evt, announced a.msg.code = some evt → ¬ Audience data a.data fd payload d evt := by
  obtain ⟨event, hevent⟩ := h.announces
  by_cases haudience : ∃ evt, announced a.msg.code = some evt ∧
    Audience data a.data fd payload d evt
  · obtain ⟨evt, hannounced, haudience⟩ := haudience
    obtain ⟨hcode, hpayload⟩ := hevent.content evt hannounced
    exact .inl ⟨evt, event, hannounced, haudience, hevent.copy d hd evt hannounced haudience,
      hcode, hpayload⟩
  · have hnone : ∀ evt, announced a.msg.code = some evt → ¬ Audience data a.data fd payload d evt :=
      fun evt hannounced hmem ↦ haudience ⟨evt, hannounced, hmem⟩
    exact .inr ⟨hevent.silence d hd hnone, hnone⟩

end Heard

/-! ### Records -/

namespace ClientContext

/-- The records that are listed in a context. -/
def records (ctx : ClientContext) (data : ServerData) : List (List UInt8) :=
  (listing Resource.key ctx.path data.forest).map fun r ↦ (r.body ctx.threadUuid).bytes

/-- The record in a message that says that something was created at the level of a context. Of the
four kinds only a reply says where it was created: it begins with the uuid of its thread. -/
def told (ctx : ClientContext) (b : List UInt8) : Option (List UInt8) :=
  if (headerCode b = (createdResponse ctx.level).code ∨
    headerCode b = (createdEvent ctx.level).code) ∧
      (ctx.level = useThread → (b.drop headerSize).take 36 = ctx.threadUuid.toList) then
    some (b.drop headerSize)
  else none

/-- A connection follows what is created in a context: it is logged in, and below `USE_NONE` its
user is a member of the team. -/
def FollowedBy (ctx : ClientContext) (d : Fd) (data : ServerData) : Prop :=
  ∃ user, data.sessions[d]? = some user ∧
    (ctx.level ≠ useNone → IsMember data ctx.teamUuid.toList user)

/-- What is told of a context is about it. -/
def SaysWhere (ctx : ClientContext) (data : ServerData) : Prop :=
  ctx.level = useNone ∨ ctx.level = useThread ∧ Distinct Resource.key data.forest

end ClientContext

section Told

variable {host : Host} {fd d : Fd} {payload : List UInt8} {data : ServerData} {cmd : Option Command}
  {a : Answer} {ctx : ClientContext}

theorem drop_headerSize_bytes (m : Msg) : m.bytes.drop headerSize = m.body.bytes :=
  drop_headerSize _ _

theorem told_bytes {m : Msg}
    (hcode : m.code = .res (createdResponse ctx.level) ∨ m.code = .evt (createdEvent ctx.level))
    (hplace : ctx.level = useThread → m.body.bytes.take 36 = ctx.threadUuid.toList) :
    ctx.told m.bytes = some m.body.bytes := by
  rw [ClientContext.told, headerCode_bytes, drop_headerSize_bytes, if_pos]
  refine ⟨?_, hplace⟩
  rcases hcode with hcode | hcode
  · exact .inl (congrArg ServerCode.code hcode)
  · exact .inr (congrArg ServerCode.code hcode)

/-- **Only creations are told of.** -/
theorem Serves.creates_of_told (h : Serves host fd payload data cmd a) (hle : ctx.level.toNat ≤ 3)
    {m : Msg} (hm : m ∈ a.messagesTo fd d) {r : List UInt8} (htold : ctx.told m.bytes = some r) :
    ∃ user ctx', Creates host fd payload data a user ctx' ∧ ctx'.level = ctx.level ∧
      (ctx.level = useThread → a.msg.body.bytes.take 36 = ctx.threadUuid.toList) := by
  rw [ClientContext.told, headerCode_bytes, drop_headerSize_bytes] at htold
  split_ifs at htold with hcond
  obtain ⟨hcode, hplace⟩ := hcond
  have hcode : m.code = .res (createdResponse ctx.level) ∨ m.code = .evt (createdEvent ctx.level) :=
    hcode.imp (fun h ↦ ServerCode.code_injective h) fun h ↦ ServerCode.code_injective h
  -- the response announces the event
  have hresponse : a.msg.code = .res (createdResponse ctx.level) ∧
      a.msg.body.bytes = m.body.bytes := by
    rcases eq_or_ne d fd with rfl | hd
    · rw [messagesTo_self, List.mem_singleton] at hm
      subst hm
      refine ⟨hcode.resolve_right fun hevent ↦ ?_, rfl⟩
      have hpush := h.not_push
      rw [hevent, (isPush_code _).2 ⟨_, rfl⟩] at hpush
      cases hpush
    · rcases h.heard_cases hd with ⟨evt, m', hannounced, -, hmsgs, hevent, hpayload⟩ | ⟨hnone, -⟩
      · rw [hmsgs, List.mem_singleton] at hm
        subst hm
        rw [hevent] at hcode
        obtain rfl : evt = createdEvent ctx.level := by
          rcases hcode with hcode | hcode
          · cases hcode
          · exact ServerCode.evt.inj hcode
        refine ⟨announced_injective hannounced (announced_created _), ?_⟩
        revert hpayload
        rw [createdEvent]
        split_ifs <;> exact Eq.symm
      · rw [hnone] at hm
        cases hm
  rcases h.forest with ⟨-, user, ctx', hnew⟩ | ⟨-, hnot⟩
  · refine ⟨user, ctx', hnew, ?_, hresponse.2 ▸ hplace⟩
    have hsame := (congrArg Msg.code hnew.msg).symm.trans hresponse.1
    refine createdResponse_injective _ hnew.level _ ?_ (ServerCode.res.inj hsame)
    rcases level_cases hle with h | h | h | h <;> simp [h]
  · exact absurd hresponse.1 (hnot _ (createdResponse_mem ctx.level))

/-- The record of a reply begins with the uuid of its thread. -/
theorem take_body_newResource {user : Str} (h : ctx.level = useThread) :
    (((newResource host user payload ctx.level).body ctx.threadUuid).bytes).take 36 =
      ctx.threadUuid.toList := by
  rw [h]
  show (ctx.threadUuid.toList ++ _ ++ _ ++ _ : List UInt8).take 36 = _
  rw [List.append_assoc, List.append_assoc]
  exact List.take_left' ctx.threadUuid.toList_length

/-- **A creation is told to those who follow it.** -/
theorem Serves.told_of_creates (h : Serves host fd payload data cmd a) {user : Str}
    (hnew : Creates host fd payload data a user ctx) (hfollowed : ctx.FollowedBy d data) :
    ∃ m, a.messagesTo fd d = [m] ∧ ctx.told m.bytes = some a.msg.body.bytes := by
  have hplace (hlevel : ctx.level = useThread) : a.msg.body.bytes.take 36 =
      ctx.threadUuid.toList := by
    rw [hnew.msg]
    exact take_body_newResource hlevel
  have hcode : a.msg.code = .res (createdResponse ctx.level) := congrArg Msg.code hnew.msg
  rcases eq_or_ne d fd with rfl | hd
  · exact ⟨a.msg, messagesTo_self d a, told_bytes (.inl hcode) hplace⟩
  · have hannounced : announced a.msg.code = some (createdEvent ctx.level) := by
      rw [hcode, announced_created]
    have haudience : Audience data a.data fd payload d (createdEvent ctx.level) := by
      obtain ⟨u, hu, hmember⟩ := hfollowed
      by_cases hnone : ctx.level = useNone
      · rw [createdEvent, if_pos hnone]
        exact ⟨u, hu⟩
      · obtain ⟨t, ht, hut⟩ := hmember hnone
        rw [createdEvent, if_neg hnone]
        split_ifs <;> exact ⟨u, ctx, t, hu, hnew.context, ht, hut⟩
    rcases h.heard_cases hd with ⟨evt, m, hannounced', -, hmsgs, hevent, hpayload⟩ | ⟨-, hnone⟩
    · obtain rfl := Option.some.inj (hannounced.symm.trans hannounced')
      have hbytes : m.body.bytes = a.msg.body.bytes := by
        revert hpayload
        rw [createdEvent]
        split_ifs <;> exact id
      refine ⟨m, hmsgs, ?_⟩
      rw [← hbytes]
      exact told_bytes (.inr hevent) (hbytes ▸ hplace)
    · exact absurd haudience (hnone _ hannounced)

end Told

namespace Server

variable {host : ℕ → Host} {s s' : Server} {d : Fd} {ctx : ClientContext}

/-- A run in which something holds whenever something is done. -/
def StepsWhile (host : ℕ → Host) (P : Server → Prop) : Server → Server → Prop :=
  Relation.ReflTransGen fun s s' ↦ P s ∧ Step host s s'

theorem StepsWhile.steps {P : Server → Prop} (h : StepsWhile host P s s') : Steps host s s' :=
  Relation.ReflTransGen.mono (fun _ _ h ↦ h.2) _ _ h

theorem stepsWhile_execute {P : Server → Prop} {as : List Action} (h : Executable host as s)
    (hP : ∀ k < as.length, P (execute host (as.take k) s)) :
    StepsWhile host P s (execute host as s) := by
  induction as generalizing s with
  | nil => exact .refl
  | cons a as ih =>
    refine .head ⟨hP 0 (Nat.zero_lt_succ _), a, h.1, rfl⟩ (ih h.2 fun k hk ↦ ?_)
    exact hP (k + 1) (Nat.succ_lt_succ hk)

/-- No other connection is lost when a frame is dispatched. -/
theorem Reachable.contains_of_request (h : Reachable host s) {a : Action} (ha : s.Enabled a)
    {cmd : Command} (hcmd : a.request.1 = some cmd) (hne : cmd ≠ .logout) {user : Str}
    (hs : s.data.sessions[d]? = some user) : (perform host a s).clients.contains d = true := by
  rw [Action.eq_frame_of_request hcmd hne] at ha ⊢
  obtain ⟨c, rest, hc, -⟩ := ha
  rw [contains_frame ((IntMap.contains_iff _).2 ⟨c, hc⟩)]
  exact h.registry.client d ((IntMap.contains_iff _).2 ⟨user, hs⟩)

/-! ### Lists -/

/-- What a connection has been told of a context on the way from `s` to `s'`. -/
def toldOn (d : Fd) (ctx : ClientContext) (s s' : Server) : List (List UInt8) :=
  (newMessages d s s').filterMap ctx.told

/-- **One action.** What it adds to a list is told to those who follow it, and nothing else is told,
if what is told says where it is. -/
theorem Reachable.told_perform (h : Reachable host s) {a : Action} (ha : s.Enabled a)
    (hctx : ctx.Resolved s.data) (hle : ctx.level.toNat ≤ 3) (hfollowed : ctx.FollowedBy d s.data) :
    ∃ new, ctx.records (perform host a s).data = ctx.records s.data ++ new ∧
      new.Sublist (toldOn d ctx s (perform host a s)) ∧
      (ctx.SaysWhere s.data → new = toldOn d ctx s (perform host a s)) := by
  have hnothing (hsame : ctx.records (perform host a s).data = ctx.records s.data)
      (htold : ctx.SaysWhere s.data → toldOn d ctx s (perform host a s) = []) :
      ∃ new, ctx.records (perform host a s).data = ctx.records s.data ++ new ∧
        new.Sublist (toldOn d ctx s (perform host a s)) ∧
        (ctx.SaysWhere s.data → new = toldOn d ctx s (perform host a s)) :=
    ⟨[], by rw [hsame, List.append_nil], List.nil_sublist _, fun hwhere ↦ (htold hwhere).symm⟩
  rcases answer_perform host h.sessionsWf ha with ⟨answer, hserves, hdata, hnew⟩ | ⟨-, hdata, hnew⟩
  swap
  · refine hnothing (by rw [hdata]) fun _ ↦ ?_
    rw [toldOn, hnew]
    rfl
  by_cases hcreates : ∃ user, Creates (host s.served) a.fd a.request.2 s.data answer user ctx
  · obtain ⟨user, hcreates⟩ := hcreates
    obtain ⟨m, hmsgs, htold⟩ := hserves.told_of_creates hcreates hfollowed
    have hclient : (perform host a s).clients.contains d = true := by
      obtain ⟨u, hu, -⟩ := hfollowed
      rcases hserves.forest with ⟨hcmd, -⟩ | ⟨-, hnot⟩
      · exact h.contains_of_request ha hcmd (by decide) hu
      · exact absurd (congrArg Msg.code hcreates.msg) (hnot _ (createdResponse_mem _))
    have hone : toldOn d ctx s (perform host a s) = [answer.msg.body.bytes] := by
      rw [toldOn, hnew, if_pos hclient, hmsgs, List.map_singleton, List.filterMap_cons, htold]
      rfl
    refine ⟨[answer.msg.body.bytes], ?_, hone ▸ List.Sublist.refl _, fun _ ↦ hone.symm⟩
    rw [ClientContext.records, hdata, hcreates.forest, listing_insertAt hcreates.place,
      if_pos (beq_self_eq_true _), List.map_append, List.map_singleton, hcreates.msg]
    rfl
  -- a creation elsewhere
  have hne {user : Str} {ctx' : ClientContext}
      (hnew : Creates (host s.served) a.fd a.request.2 s.data answer user ctx') :
      ctx'.path ≠ ctx.path := by
    intro hpath
    have hctx' := h.dataContexts.resolved a.fd ctx' hnew.context
    have hle' := h.dataContexts.level a.fd ctx' hnew.context
    obtain rfl := eq_of_path_eq hctx' hctx hle' hle hpath
    exact hcreates ⟨user, hnew⟩
  refine hnothing ?_ fun hwhere ↦ List.filterMap_eq_nil_iff.2 fun b hb ↦ ?_
  · rw [hdata, ClientContext.records]
    rcases hserves.forest with ⟨-, user, ctx', hnew⟩ | ⟨hsame, -⟩
    · rw [hnew.forest, listing_insertAt hnew.place, if_neg (by simpa using hne hnew),
        List.append_nil]
      rfl
    · rw [hsame]
      rfl
  · rw [hnew] at hb
    split_ifs at hb
    swap
    · cases hb
    obtain ⟨m, hm, rfl⟩ := List.mem_map.1 hb
    by_contra hsome
    obtain ⟨r, hr⟩ := Option.ne_none_iff_exists'.1 hsome
    obtain ⟨user, ctx', hnew, hlevel, hplace⟩ := hserves.creates_of_told hle hm hr
    refine hne hnew ?_
    rcases hwhere with hnone | ⟨hthread, hdistinct⟩
    · rw [path_of_none hnone, path_of_none (hlevel.trans hnone)]
    -- the uuid of the thread leads to one place only
    · have hlevel' := hlevel.trans hthread
      have huuid : ctx'.threadUuid.toList = ctx.threadUuid.toList := by
        rw [← hplace hthread, hnew.msg]
        exact (take_body_newResource hlevel').symm
      have hpath {c : ClientContext} (hc : c.level = useThread) :
          c.path = [c.teamUuid.toList, c.channelUuid.toList] ++ [c.threadUuid.toList] :=
            path_of_thread hc
      obtain ⟨th, hth⟩ := Option.isSome_iff_exists.1 (hctx.thread (by rw [hthread]; decide))
      have hthere : (childrenAt Resource.key ctx.path s.data.forest).isSome := by
        rw [childrenAt_of_thread hthread hth]
        rfl
      have hthere' := hnew.place
      rw [hpath hthread] at hthere
      rw [hpath hlevel', huuid] at hthere'
      rw [hpath hthread, hpath hlevel', huuid, hdistinct.path_eq hthere' hthere]

/-- **A run.** -/
theorem Reachable.told_steps (h : Reachable host s) (hctx : ctx.Resolved s.data)
    (hle : ctx.level.toNat ≤ 3) (hrun : StepsWhile host (fun s ↦ ctx.FollowedBy d s.data) s s') :
    queuedOn d s.trace <+: queuedOn d s'.trace ∧
      ∃ new, ctx.records s'.data = ctx.records s.data ++ new ∧ new.Sublist (toldOn d ctx s s') ∧
        (ctx.level = useNone ∨ ctx.level = useThread ∧ FreshUuids host s'.served →
          new = toldOn d ctx s s') := by
  induction hrun with
  | refl =>
    have hnone : toldOn d ctx s s = [] := by
      rw [toldOn, newMessages_of_append (List.append_nil _).symm]
      rfl
    exact ⟨List.prefix_refl _, [], (List.append_nil _).symm, List.nil_sublist _, fun _ ↦ hnone.symm⟩
  | @tail s₁ _ hrun hstep ih =>
    obtain ⟨hqueued, new, hnew, hsublist, hexact⟩ := ih
    obtain ⟨hfollowed, a, ha, rfl⟩ := hstep
    have hsteps := StepsWhile.steps hrun
    have hreachable := h.steps hsteps
    obtain ⟨hqueued', hmessages⟩ := newMessages_perform host d s a hqueued
    obtain ⟨more, hmore, hsublist', hexact'⟩ :=
      hreachable.told_perform ha (h.resolved_steps hsteps hctx) hle hfollowed
    have htold : toldOn d ctx s (perform host a s₁) =
        toldOn d ctx s s₁ ++ toldOn d ctx s₁ (perform host a s₁) := by
      rw [toldOn, hmessages, List.filterMap_append]
      rfl
    refine ⟨hqueued', new ++ more, ?_, ?_, fun hwhere ↦ ?_⟩
    · rw [hmore, hnew, List.append_assoc]
    · rw [htold]
      exact hsublist.append hsublist'
    · have hbefore : ctx.level = useNone ∨ ctx.level = useThread ∧ FreshUuids host s₁.served :=
        hwhere.imp_right fun ⟨hthread, hfresh⟩ ↦ ⟨hthread, hfresh.mono (served_le_perform a)⟩
      have hsays : ctx.SaysWhere s₁.data :=
        hbefore.imp_right fun ⟨hthread, hfresh⟩ ↦ ⟨hthread, hreachable.distinct_forest hfresh⟩
      rw [htold, hexact hbefore, hexact' hsays]

theorem listBytes_records (ctx : ClientContext) (data : ServerData) :
    listBytes (fun x : Resource ↦ (x.body ctx.threadUuid).bytes)
        (listing Resource.key ctx.path data.forest) = listBytes id (ctx.records data) := by
  rw [listBytes, listBytes, ClientContext.records, List.length_map, List.map_id]

/-- **Who follows need not ask again.** A connection asks for the list of its stored context, and
stays logged in, as a member of the team if the context is in one. When it asks for the list once
more, it is sent the records that it was sent before, and after them only such as it has been told
of since, in that order. They are all those that it has been told of, if the context is that of the
teams, or a thread, and the uuids supplied are distinct. -/
theorem followed_list (h : Reachable host s) {code : UInt16} {payload : List UInt8} {user : Str}
    (ha : s.Enabled (.frame d code payload)) (hcmd : Command.ofCode? code = some .list)
    (hs : s.data.sessions[d]? = some user) (hctx : s.data.clientContexts[d]? = some ctx)
    (hrun : StepsWhile host (fun s ↦ ctx.FollowedBy d s.data)
      (perform host (.frame d code payload) s) s')
    {code' : UInt16} {payload' : List UInt8} {user' : Str}
    (ha' : s'.Enabled (.frame d code' payload')) (hcmd' : Command.ofCode? code' = some .list)
    (hs' : s'.data.sessions[d]? = some user') (hctx' : s'.data.clientContexts[d]? = some ctx) :
    ∃ shown new : List (List UInt8),
      newMessages d s (perform host (.frame d code payload) s) =
        [makeMessage (listResponse ctx.level).code (listBytes id shown)] ∧
      newMessages d s' (perform host (.frame d code' payload') s') =
        [makeMessage (listResponse ctx.level).code (listBytes id (shown ++ new))] ∧
      new.Sublist (toldOn d ctx (perform host (.frame d code payload) s) s') ∧
      (ctx.level = useNone ∨ ctx.level = useThread ∧ FreshUuids host s'.served →
        new = toldOn d ctx (perform host (.frame d code payload) s) s') := by
  have hreachable : Reachable host (perform host (.frame d code payload) s) := h.step ha
  have hdata : (perform host (.frame d code payload) s).data = s.data := by
    obtain ⟨answer, hserves, hdata, -⟩ := exists_serves_frame host h.sessionsWf d code payload
    rw [hdata]
    exact (hserves.unchanged (.inr ⟨.list, by decide, hcmd⟩)).1
  obtain ⟨-, new, hnew, hsublist, hexact⟩ := hreachable.told_steps
    (hdata ▸ h.dataContexts.resolved d ctx hctx) (h.registry.level d ctx hctx) hrun
  rw [hdata] at hnew
  refine ⟨ctx.records s.data, new, ?_, ?_, hsublist, hexact⟩
  · rw [h.newMessages_list ha hcmd hs hctx, listBytes_records]
  · rw [(hreachable.steps hrun.steps).newMessages_list ha' hcmd' hs' hctx', listBytes_records, hnew]

/-- Two users have logged in, and the first asks for the teams. -/
def twoLoggedIn : Server :=
  execute plainHost
    (.accept 4 :: request 4 .login [0x61] ++ .accept 5 :: request 5 .login [0x62] ++
      [.receive 4 (makeMessage Command.list.code [])]) Server.init

/-- The second creates a team, and the first asks again. -/
def teamCreatedByOther : List Action :=
  request 5 .create (List.replicate 287 0x63) ++ [.receive 4 (makeMessage Command.list.code [])]

/-- The list grows by the team that the first user has been told of. -/
theorem followed_list_twoLoggedIn :
    let s := perform plainHost (.frame 4 Command.list.code []) twoLoggedIn
    let s' := execute plainHost teamCreatedByOther s
    ∃ shown,
      newMessages 4 twoLoggedIn s = [makeMessage Response.listTeams.code (listBytes id shown)] ∧
      newMessages 4 s' (perform plainHost (.frame 4 Command.list.code []) s') =
        [makeMessage Response.listTeams.code
          (listBytes id (shown ++ [(plainUuid 3).str ++ List.replicate 287 0x63]))] := by
  intro s s'
  have hreachable : Reachable plainHost twoLoggedIn := reachable_execute (by decide +kernel)
  have hframe : twoLoggedIn.Enabled (.frame 4 Command.list.code []) := by decide +kernel
  have hs : twoLoggedIn.data.sessions[(4 : Fd)]? = some (plainUuid 0).str := by decide +kernel
  have hctx : twoLoggedIn.data.clientContexts[(4 : Fd)]? = some ClientContext.init := by
    decide +kernel
  have hsessions : ∀ k < teamCreatedByOther.length,
      (execute plainHost (teamCreatedByOther.take k) s).data.sessions[(4 : Fd)]? =
        some (plainUuid 0).str := by decide +kernel
  have hexecutable : Executable plainHost teamCreatedByOther s := by decide +kernel
  have hrun := stepsWhile_execute (P := fun s ↦ ClientContext.init.FollowedBy 4 s.data) hexecutable
    fun k hk ↦ ⟨_, hsessions k hk, fun hne ↦ absurd rfl hne⟩
  have hframe' : s'.Enabled (.frame 4 Command.list.code []) := by decide +kernel
  have hs' : s'.data.sessions[(4 : Fd)]? = some (plainUuid 0).str := by decide +kernel
  have hctx' : s'.data.clientContexts[(4 : Fd)]? = some ClientContext.init := by decide +kernel
  have htold : toldOn 4 ClientContext.init s s' =
      [(plainUuid 3).str ++ List.replicate 287 0x63] := by
    decide +kernel
  obtain ⟨shown, new, hfirst, hsecond, -, hnew⟩ :=
    followed_list hreachable hframe (Command.ofCode?_code .list) hs hctx hrun hframe'
      (Command.ofCode?_code .list) hs' hctx'
  obtain rfl := (hnew (.inl rfl)).trans htold
  exact ⟨shown, hfirst, hsecond⟩

/-! ### Conversations -/

end Server

/-- Who a message is from and its text, in the message that announces it, if it is from this
user. -/
def receivedFrom (sender : Str) (b : List UInt8) : Option (List UInt8) :=
  if headerCode b = Event.messageReceived.code ∧ (b.drop headerSize).take 36 = sender then
    some (b.drop headerSize)
  else none

/-- What an announcement says of a message. -/
def Message.announcement (m : Message) : List UInt8 := m.senderUuid.toList ++ m.body.toList

theorem take_announcement (m : Message) : m.announcement.take 36 = m.senderUuid.toList :=
  List.take_left' m.senderUuid.toList_length

section Received

variable {host : Host} {fd d : Fd} {payload : List UInt8} {data : ServerData} {cmd : Option Command}
  {a : Answer} {user sender : Str}

/-- What is announced as a message from a user has just been stored. -/
theorem Serves.sends_of_received (h : Serves host fd payload data cmd a) {m : Msg}
    (hm : m ∈ a.messagesTo fd d) {r : List UInt8} (hr : receivedFrom sender m.bytes = some r) :
    a.msg.code = .res .sendOk ∧ data.sessions[d]? = some (payload.take 36) ∧
      ∃ x, a.data.messages.getLast? = some x ∧ x.senderUuid.toList = sender := by
  rw [receivedFrom, headerCode_bytes, drop_headerSize_bytes] at hr
  split_ifs at hr with hcond
  obtain ⟨hcode, hsender⟩ := hcond
  have hevent : m.code = .evt .messageReceived := ServerCode.code_injective hcode
  rcases eq_or_ne d fd with rfl | hd
  · rw [messagesTo_self, List.mem_singleton] at hm
    have hpush := h.not_push
    rw [← hm, hevent, (isPush_code _).2 ⟨_, rfl⟩] at hpush
    cases hpush
  · rcases h.heard_cases hd with
      ⟨evt, m', hannounced, haudience, hmsgs, hevt, hpayload⟩ | ⟨hnone, -⟩
    · rw [hmsgs, List.mem_singleton] at hm
      subst hm
      obtain rfl := ServerCode.evt.inj (hevent.symm.trans hevt)
      obtain ⟨x, hlast, hbytes⟩ := hpayload
      refine ⟨announced_injective hannounced rfl, haudience, x, hlast, ?_⟩
      rw [← hsender, hbytes]
      exact (take_announcement x).symm
    · rw [hnone] at hm
      cases hm

/-- A message that one user has written to another is announced to every session of the other. -/
theorem Serves.received_of_sends (h : Serves host fd payload data cmd a) (hd : d ≠ fd)
    (hcode : a.msg.code = .res .sendOk) (hs : data.sessions[d]? = some (payload.take 36))
    {x : Message} (hlast : a.data.messages.getLast? = some x)
    (hsender : x.senderUuid.toList = sender) :
    ((a.messagesTo fd d).map Msg.bytes).filterMap (receivedFrom sender) = [x.announcement] := by
  have hannounced : announced a.msg.code = some .messageReceived := by rw [hcode, announced]
  rcases h.heard_cases hd with ⟨evt, m, hannounced', -, hmsgs, hevent, hpayload⟩ | ⟨-, hnone⟩
  · obtain rfl := Option.some.inj (hannounced.symm.trans hannounced')
    obtain ⟨x', hlast', hbytes⟩ := hpayload
    obtain rfl := Option.some.inj (hlast.symm.trans hlast')
    have hreceived : receivedFrom sender m.bytes = some x.announcement := by
      rw [receivedFrom, headerCode_bytes, drop_headerSize_bytes, hevent, hbytes, ← hsender]
      exact if_pos ⟨rfl, take_announcement x⟩
    rw [hmsgs, List.map_singleton, List.filterMap_cons, hreceived]
    rfl
  · exact absurd hs (hnone _ hannounced)

/-- **What a frame adds to what one user has written to another** is announced to every session of
the other. -/
theorem Serves.received (h : Serves host fd payload data cmd a) (hwf : SessionsWf data)
    (hs : data.sessions[d]? = some user) (hne : user ≠ sender) :
    ∃ new, a.data.messages = data.messages ++ new ∧
      ((new.filter (messageMatch user sender)).filter fun m ↦ m.senderUuid.toList = sender).map
          Message.announcement =
        ((a.messagesTo fd d).map Msg.bytes).filterMap (receivedFrom sender) := by
  rcases h.messages_cases with ⟨-, hcode, u, receiver, hu, hreceiver, hmessages⟩ | ⟨hsame, hcode⟩
  · refine ⟨_, hmessages, ?_⟩
    have hxs : (newMessage host u (Server.extractSv payload 0 36)
        (Server.extractSv payload 36 512)).senderUuid.toList = u :=
      toList_fill_of_length (hwf fd u hu)
    have hxr : (newMessage host u (Server.extractSv payload 0 36)
        (Server.extractSv payload 36 512)).receiverUuid.toList = payload.take 36 := by
      rw [← extractSv_of_findUser hreceiver, str_of_findUserByUuid hreceiver]
      exact toList_fill_of_length (length_of_findUserByUuid hreceiver)
    generalize newMessage host u (Server.extractSv payload 0 36)
      (Server.extractSv payload 36 512) = x at *
    have hlast : a.data.messages.getLast? = some x := by
      rw [hmessages]
      exact List.getLast?_concat
    by_cases hmatch : u = sender ∧ payload.take 36 = user
    · obtain ⟨rfl, rfl⟩ := hmatch
      have hd : d ≠ fd := fun hd ↦ hne (Option.some.inj (hs.symm.trans (hd ▸ hu)))
      have hkeep : ([x].filter (messageMatch (payload.take 36) u)).filter
          (fun m ↦ m.senderUuid.toList = u) = [x] := by
        simp [messageMatch, hxs, hxr]
      rw [h.received_of_sends hd hcode hs hlast hxs, hkeep]
      rfl
    -- a message between others, or from the user himself, is not announced as one from the sender
    · have hdrop : ([x].filter (messageMatch user sender)).filter
          (fun m ↦ m.senderUuid.toList = sender) = [] := by
        refine List.filter_eq_nil_iff.2 fun m hm hfrom ↦ ?_
        obtain ⟨hm, hmatch'⟩ := List.mem_filter.1 hm
        rw [List.mem_singleton.1 hm] at hfrom hmatch'
        have hfrom : u = sender := hxs.symm.trans (of_decide_eq_true hfrom)
        rw [messageMatch, hxs, hxr] at hmatch'
        rcases Bool.or_eq_true_iff.1 hmatch' with hown | hother
        · have huser : u = user := eq_of_beq (Bool.and_eq_true_iff.1 hown).1
          exact hne (huser.symm.trans hfrom)
        · exact hmatch ⟨hfrom, eq_of_beq (Bool.and_eq_true_iff.1 hother).2⟩
      rw [hdrop]
      refine (List.filterMap_eq_nil_iff.2 fun b hb ↦ ?_).symm
      obtain ⟨m, hm, rfl⟩ := List.mem_map.1 hb
      by_contra hsome
      obtain ⟨r, hr⟩ := Option.ne_none_iff_exists'.1 hsome
      obtain ⟨-, hsession, x', hlast', hfrom⟩ := h.sends_of_received hm hr
      obtain rfl := Option.some.inj (hlast.symm.trans hlast')
      exact hmatch ⟨hxs.symm.trans hfrom, Option.some.inj (hsession.symm.trans hs)⟩
  · refine ⟨[], by rw [hsame, List.append_nil], (List.filterMap_eq_nil_iff.2 fun b hb ↦ ?_).symm⟩
    obtain ⟨m, hm, rfl⟩ := List.mem_map.1 hb
    by_contra hsome
    obtain ⟨r, hr⟩ := Option.ne_none_iff_exists'.1 hsome
    exact hcode (h.sends_of_received hm hr).1

end Received

namespace Server

variable {host : ℕ → Host} {s s' : Server} {d : Fd} {user sender : Str}

/-- **A run** during which a connection has a session of one user. -/
theorem Reachable.received_steps (h : Reachable host s) (hne : user ≠ sender)
    (hrun : StepsWhile host (fun s ↦ s.data.sessions[d]? = some user) s s') :
    queuedOn d s.trace <+: queuedOn d s'.trace ∧
      ∃ new, s'.data.messages.filter (messageMatch user sender) =
          s.data.messages.filter (messageMatch user sender) ++ new ∧
        (new.filter fun m ↦ m.senderUuid.toList = sender).map Message.announcement =
          (newMessages d s s').filterMap (receivedFrom sender) := by
  induction hrun with
  | refl =>
    refine ⟨List.prefix_refl _, [], (List.append_nil _).symm, ?_⟩
    rw [newMessages_of_append (List.append_nil _).symm]
    rfl
  | @tail s₁ _ hrun hstep ih =>
    obtain ⟨hqueued, new, hnew, htold⟩ := ih
    obtain ⟨hs, a, ha, rfl⟩ := hstep
    have hreachable := h.steps (StepsWhile.steps hrun)
    obtain ⟨hqueued', hmessages⟩ := newMessages_perform host d s a hqueued
    refine ⟨hqueued', ?_⟩
    rw [hmessages, List.filterMap_append, ← htold]
    rcases answer_perform host hreachable.sessionsWf ha
      with ⟨answer, hserves, hdata, hmsgs⟩ | ⟨-, hdata, hmsgs⟩
    · obtain ⟨more, hmore, hreceived⟩ := hserves.received hreachable.sessionsWf hs hne
      refine ⟨new ++ more.filter (messageMatch user sender), ?_, ?_⟩
      · rw [hdata, hmore, List.filter_append, hnew, List.append_assoc]
      · rw [List.filter_append, List.map_append, hmsgs]
        split_ifs with hclient
        · rw [hreceived]
        -- who is lost hears nothing, and has lost nothing
        · rcases hserves.messages_cases with ⟨hcmd, -⟩ | ⟨hsame, -⟩
          · exact absurd (hreachable.contains_of_request ha hcmd (by decide) hs) hclient
          · obtain rfl : more = [] := List.append_right_eq_self.1 (hmore.symm.trans hsame)
            rfl
    · refine ⟨new, by rw [hdata, hnew], ?_⟩
      rw [hmsgs, List.filterMap_nil, List.append_nil]

/-- What `CMD_MESSAGES` is answered with, for the uuid of a user. -/
theorem Reachable.newMessages_messages (h : Reachable host s) {code : UInt16} {payload : List UInt8}
    (ha : s.Enabled (.frame d code payload)) (hcmd : Command.ofCode? code = some .messages)
    (hs : s.data.sessions[d]? = some user) (hpayload : extractSv payload 0 36 = sender)
    (hsender : ∃ u ∈ s.data.users, u.uuid.str = sender) :
    newMessages d s (perform host (.frame d code payload) s) =
      [makeMessage Response.messagesList.code (listBytes MessageRecord.bytes
        ((s.data.messages.filter (messageMatch user sender)).map Message.record))] := by
  rw [h.messages_answer ha hcmd hs hpayload hsender, h.filter_messages]

/-- **Who listens misses nothing that is written to him.** A connection asks for the conversation of
its user with another, and its session lasts. When it asks for the conversation once more, it is
sent the messages that it was sent before and then new ones; and of these, the ones from the other
user are those that it has been told of since, each once and in that order, with their texts. -/
theorem followed_conversation (h : Reachable host s) (hne : user ≠ sender) {code : UInt16}
    {payload : List UInt8} (ha : s.Enabled (.frame d code payload))
    (hcmd : Command.ofCode? code = some .messages) (hs : s.data.sessions[d]? = some user)
    (hpayload : extractSv payload 0 36 = sender) (hsender : ∃ u ∈ s.data.users, u.uuid.str = sender)
    (hrun : StepsWhile host (fun s ↦ s.data.sessions[d]? = some user)
      (perform host (.frame d code payload) s) s')
    {code' : UInt16} {payload' : List UInt8} (ha' : s'.Enabled (.frame d code' payload'))
    (hcmd' : Command.ofCode? code' = some .messages) (hs' : s'.data.sessions[d]? = some user)
    (hpayload' : extractSv payload' 0 36 = sender) :
    ∃ shown new : List Message,
      newMessages d s (perform host (.frame d code payload) s) =
        [makeMessage Response.messagesList.code
          (listBytes MessageRecord.bytes (shown.map Message.record))] ∧
      newMessages d s' (perform host (.frame d code' payload') s') =
        [makeMessage Response.messagesList.code
          (listBytes MessageRecord.bytes ((shown ++ new).map Message.record))] ∧
      (new.filter fun m ↦ m.senderUuid.toList = sender).map Message.announcement =
        (newMessages d (perform host (.frame d code payload) s) s').filterMap
          (receivedFrom sender) := by
  have hreachable : Reachable host (perform host (.frame d code payload) s) := h.step ha
  have hdata : (perform host (.frame d code payload) s).data = s.data := by
    obtain ⟨answer, hserves, hdata, -⟩ := exists_serves_frame host h.sessionsWf d code payload
    rw [hdata]
    exact (hserves.unchanged (.inr ⟨.messages, by decide, hcmd⟩)).1
  obtain ⟨-, new, hnew, htold⟩ := hreachable.received_steps hne hrun
  rw [hdata] at hnew
  have hsteps : Steps host s s' := .head ⟨_, ha, rfl⟩ hrun.steps
  have hsender' : ∃ u ∈ s'.data.users, u.uuid.str = sender := by
    obtain ⟨u, hu, rfl⟩ := hsender
    obtain ⟨v, hv, heq⟩ := List.mem_map.1 ((h.grows hsteps).1.subset (List.mem_map_of_mem hu))
    exact ⟨v, hv, congrArg (fun x ↦ x.1.str) heq⟩
  refine ⟨_, new, h.newMessages_messages ha hcmd hs hpayload hsender, ?_, htold⟩
  rw [(hreachable.steps hrun.steps).newMessages_messages ha' hcmd' hs' hpayload' hsender', hnew]

/-- Two users have logged in, and the first asks for the messages of the second. -/
def messagesAsked : Server :=
  execute plainHost
    (.accept 4 :: request 4 .login [0x61] ++ .accept 5 :: request 5 .login [0x62] ++
      [.receive 4 (makeMessage Command.messages.code (plainUuid 1).str)]) Server.init

/-- The second writes to the first, who asks again. -/
def messageSentByOther : List Action :=
  request 5 .send ((plainUuid 0).str ++ List.replicate 512 0x63) ++
    [.receive 4 (makeMessage Command.messages.code (plainUuid 1).str)]

/-- The conversation grows by the message that the first user has been told of. -/
theorem followed_conversation_messagesAsked :
    let s := perform plainHost (.frame 4 Command.messages.code (plainUuid 1).str) messagesAsked
    let s' := execute plainHost messageSentByOther s
    ∃ shown new : List Message,
      newMessages 4 s' (perform plainHost (.frame 4 Command.messages.code (plainUuid 1).str) s') =
        [makeMessage Response.messagesList.code
          (listBytes MessageRecord.bytes ((shown ++ new).map Message.record))] ∧
      (new.filter fun m ↦ m.senderUuid.toList = (plainUuid 1).str).map Message.announcement =
        [(plainUuid 1).str ++ List.replicate 512 0x63] := by
  intro s s'
  have hreachable : Reachable plainHost messagesAsked := reachable_execute (by decide +kernel)
  have hne : (plainUuid 0).str ≠ (plainUuid 1).str := by decide +kernel
  have hframe : messagesAsked.Enabled (.frame 4 Command.messages.code (plainUuid 1).str) := by
    decide +kernel
  have hs : messagesAsked.data.sessions[(4 : Fd)]? = some (plainUuid 0).str := by decide +kernel
  have hpayload : extractSv (plainUuid 1).str 0 36 = (plainUuid 1).str := by decide +kernel
  have hsender : ∃ u ∈ messagesAsked.data.users, u.uuid.str = (plainUuid 1).str := by decide +kernel
  have hexecutable : Executable plainHost messageSentByOther s := by decide +kernel
  have hsessions : ∀ k < messageSentByOther.length,
      (execute plainHost (messageSentByOther.take k) s).data.sessions[(4 : Fd)]? =
        some (plainUuid 0).str := by decide +kernel
  have hrun := stepsWhile_execute (P := fun s ↦ s.data.sessions[(4 : Fd)]? = some (plainUuid 0).str)
    hexecutable hsessions
  have hframe' : s'.Enabled (.frame 4 Command.messages.code (plainUuid 1).str) := by decide +kernel
  have hs' : s'.data.sessions[(4 : Fd)]? = some (plainUuid 0).str := by decide +kernel
  have htold : (newMessages 4 s s').filterMap (receivedFrom (plainUuid 1).str) =
      [(plainUuid 1).str ++ List.replicate 512 0x63] := by decide +kernel
  obtain ⟨shown, new, -, hsecond, hnew⟩ :=
    followed_conversation hreachable hne hframe (Command.ofCode?_code .messages) hs hpayload
      hsender hrun hframe' (Command.ofCode?_code .messages) hs' hpayload
  exact ⟨shown, new, hsecond, hnew.trans htold⟩

end Server

end MyTeams
