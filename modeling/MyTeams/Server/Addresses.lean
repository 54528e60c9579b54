import MyTeams.Server.Identity
import MyTeams.Server.InfoUse
import MyTeams.Server.Listing
import MyTeams.Server.Membership

/-!
# What is listed can be used

`CMD_LIST` shows all that a context holds. `CMD_USE` names a resource by the uuids on its path, and
each of them stops at the first match. So what was listed is only reached if no search stops at
something else, now or later. All uuids come from the one supply, whatever they are for; as long as
it does not repeat itself, no two things in the whole server have the same uuid
(`Reachable.nodup_storedUuids`), and what a list has shown can be used from then on, by every member
and on every connection.
-/

namespace MyTeams

open ByteField FirstMatch Forest

/-! ### One supply of uuids -/

/-- The uuids of all that is stored: of the users, and of the teams, channels, threads and
replies. -/
def storedUuids (data : ServerData) : List Str :=
  (identities data).map (fun x ↦ x.1.str) ++ (labels data.forest).map Resource.key

theorem key_newResource (host : Host) (user payload : Str) (level : UInt8) :
    (newResource host user payload level).key = host.newUuid.str := by
  rw [newResource]
  split_ifs <;> rfl

/-- **What a frame does to the uuids**: a login or a creation adds the one that was supplied. -/
theorem Serves.storedUuids_cases {host : Host} {fd : Fd} {payload : List UInt8} {data : ServerData}
    {cmd : Option Command} {a : Answer} (h : Serves host fd payload data cmd a) :
    storedUuids a.data = storedUuids data ∨
      (∃ c, cmd = some c ∧ c ≠ .logout) ∧
        (storedUuids a.data).Perm (host.newUuid.str :: storedUuids data) := by
  rcases h.identities_cases with hsame | ⟨hlogin, -, hnew⟩ <;>
    rcases h.forest with ⟨hcreate, user, ctx, hcreates⟩ | ⟨hforest, -⟩
  · refine .inr ⟨⟨_, hcreate, by decide⟩, ?_⟩
    have hlabels := (labels_insertAt_perm
      (a := newResource host user payload ctx.level) hcreates.place).map Resource.key
    rw [← hcreates.forest, List.map_cons, key_newResource] at hlabels
    rw [storedUuids, storedUuids, hsame]
    exact (hlabels.append_left _).trans List.perm_middle
  · exact .inl (by rw [storedUuids, storedUuids, hsame, hforest])
  · rw [hlogin] at hcreate
    cases hcreate
  · refine .inr ⟨⟨_, hlogin, by decide⟩, ?_⟩
    rw [storedUuids, storedUuids, hnew, hforest, List.map_append, List.append_assoc]
    exact List.perm_middle

/-! ### Addresses -/

/-- The context one level below `ctx`, at the resource with this uuid. -/
def ClientContext.enter (ctx : ClientContext) (uuid : Str) : ClientContext :=
  if ctx.level = useNone then { ctx with level := useTeam, teamUuid := fill 36 uuid }
  else if ctx.level = useTeam then { ctx with level := useChannel, channelUuid := fill 36 uuid }
  else { ctx with level := useThread, threadUuid := fill 36 uuid }

section Enter

variable {ctx : ClientContext} {data : ServerData} {uuid : Str}

theorem enter_of_none (h : ctx.level = useNone) :
    ctx.enter uuid = { ctx with level := useTeam, teamUuid := fill 36 uuid } := by
  rw [ClientContext.enter, if_pos h]

theorem enter_of_team (h : ctx.level = useTeam) :
    ctx.enter uuid = { ctx with level := useChannel, channelUuid := fill 36 uuid } := by
  rw [ClientContext.enter, if_neg (by rw [h]; decide), if_pos h]

theorem enter_of_channel (h : ctx.level = useChannel) :
    ctx.enter uuid = { ctx with level := useThread, threadUuid := fill 36 uuid } := by
  rw [ClientContext.enter, if_neg (by rw [h]; decide), if_neg (by rw [h]; decide)]

/-- A resolved context that shows the body `b`, whoever asks. -/
structure ClientContext.LeadsTo (data : ServerData) (ctx : ClientContext) (b : Body) : Prop where
  resolved : ctx.Resolved data
  level : ctx.level.toNat ≤ 3
  shows : ∀ user, contextInfo data user ctx = some ⟨.res (infoResponse ctx.level), b⟩

theorem enter_thread (hlevel : ctx.level = useChannel) {c : Channel}
    (hc : ctx.channel? data = some c) (hdistinct : Distinct Resource.key c.tree.children)
    {th : Thread} (hth : th ∈ c.threads) :
    (ctx.enter th.uuid.str).LeadsTo data (.thread th.record) := by
  obtain ⟨th', hfind, htree⟩ := hdistinct.exists_find? hth
  have hrecord : th'.record = th.record := Resource.thread.inj (congrArg RoseTree.label htree)
  have hafter : (ctx.enter th.uuid.str).level = useThread := by rw [enter_of_channel hlevel]
  have hchannel : (ctx.enter th.uuid.str).channel? data = some c := by
    rw [enter_of_channel hlevel]
    exact hc
  have hthread : (ctx.enter th.uuid.str).thread? data = some th' := by
    rw [thread?_of_channel hchannel, enter_of_channel hlevel,
      toList_fill_of_length th.uuid.length_str, findThreadByUuid_eq th.uuid.length_str]
    exact hfind
  refine ⟨resolved_thread hafter (Option.isSome_iff_exists.2 ⟨th', hthread⟩), ?_, fun user ↦ ?_⟩
  · rw [hafter]
    decide
  · rw [contextInfo_of_thread hafter, hthread, Option.map_some, hrecord, hafter]
    rfl

variable (h : ctx.Resolved data)

include h

theorem ClientContext.Resolved.enter_team (hlevel : ctx.level = useNone)
    (hdistinct : Distinct Resource.key data.forest) {t : Team} (ht : t ∈ data.teams) :
    (ctx.enter t.uuid.str).LeadsTo data (.described t.record) := by
  obtain ⟨t', hfind, htree⟩ := hdistinct.exists_find? ht
  have hrecord : t'.record = t.record := Resource.team.inj (congrArg RoseTree.label htree)
  have hafter : (ctx.enter t.uuid.str).level = useTeam := by rw [enter_of_none hlevel]
  have hteam : (ctx.enter t.uuid.str).team? data = some t' := by
    rw [enter_of_none hlevel, ClientContext.team?, toList_fill_of_length t.uuid.length_str,
      findTeamByUuid_eq t.uuid.length_str]
    exact hfind
  refine ⟨resolved_team hafter (Option.isSome_iff_exists.2 ⟨t', hteam⟩) ?_ ?_, ?_, fun user ↦ ?_⟩
  · rw [enter_of_none hlevel]
    exact h.noChannel (by rw [hlevel]; decide)
  · rw [enter_of_none hlevel]
    exact h.noThread (by rw [hlevel]; decide)
  · rw [hafter]
    decide
  · rw [contextInfo_of_team hafter, hteam, Option.map_some, hrecord, hafter]
    rfl

theorem ClientContext.Resolved.enter_channel (hlevel : ctx.level = useTeam) {t : Team}
    (ht : ctx.team? data = some t) (hdistinct : Distinct Resource.key t.tree.children) {c : Channel}
    (hc : c ∈ t.channels) : (ctx.enter c.uuid.str).LeadsTo data (.described c.record) := by
  obtain ⟨c', hfind, htree⟩ := hdistinct.exists_find? hc
  have hrecord : c'.record = c.record := Resource.channel.inj (congrArg RoseTree.label htree)
  have hafter : (ctx.enter c.uuid.str).level = useChannel := by rw [enter_of_team hlevel]
  have hteam : (ctx.enter c.uuid.str).team? data = some t := by
    rw [enter_of_team hlevel]
    exact ht
  have hchannel : (ctx.enter c.uuid.str).channel? data = some c' := by
    rw [channel?_of_team hteam, enter_of_team hlevel, toList_fill_of_length c.uuid.length_str,
      findChannelByUuid_eq c.uuid.length_str]
    exact hfind
  refine ⟨resolved_channel hafter (Option.isSome_iff_exists.2 ⟨c', hchannel⟩) ?_, ?_, fun user ↦ ?_⟩
  · rw [enter_of_team hlevel]
    exact h.noThread (by rw [hlevel]; decide)
  · rw [hafter]
    decide
  · rw [contextInfo_of_channel hafter, hchannel, Option.map_some, hrecord, hafter]
    rfl

/-- **What a resolved context lists, it leads to**: when all uuids are distinct, the context one
level below resolves, and shows the listed resource. -/
theorem ClientContext.Resolved.leadsTo (hle : ctx.level.toNat ≤ 3) (hlevel : ctx.level ≠ useThread)
    (hdistinct : Distinct Resource.key data.forest) {x : Resource}
    (hx : x ∈ listing Resource.key ctx.path data.forest) :
    (ctx.enter x.key).LeadsTo data (x.body ctx.threadUuid) := by
  rcases level_cases hle with h0 | h1 | h2 | h3
  · rw [childrenAt_eq_listing (childrenAt_of_none h0), ServerData.forest, List.map_map] at hx
    obtain ⟨t, ht, rfl⟩ := List.mem_map.1 hx
    exact h.enter_team h0 hdistinct ht
  · obtain ⟨t, ht⟩ := Option.isSome_iff_exists.1 (h.team (by rw [h1]; decide))
    have hchildren := childrenAt_of_team h1 ht
    rw [childrenAt_eq_listing hchildren, Team.tree, RoseTree.children_node, List.map_map] at hx
    obtain ⟨c, hc, rfl⟩ := List.mem_map.1 hx
    exact h.enter_channel h1 ht (hdistinct.childrenAt hchildren) hc
  · obtain ⟨c, hc⟩ := Option.isSome_iff_exists.1 (h.channel (by rw [h2]; decide))
    have hchildren := childrenAt_of_channel h2 hc
    rw [childrenAt_eq_listing hchildren, Channel.tree, RoseTree.children_node, List.map_map] at hx
    obtain ⟨th, hth, rfl⟩ := List.mem_map.1 hx
    exact enter_thread h2 hc (hdistinct.childrenAt hchildren) hth
  · exact absurd h3 hlevel

end Enter

namespace Server

variable {host : ℕ → Host} {s s' : Server}

theorem FreshUuids.mono {m n : ℕ} (h : FreshUuids host n) (hle : m ≤ n) : FreshUuids host m :=
  fun i j hi hj ↦ h i j (hi.trans_le hle) (hj.trans_le hle)

/-- Everything stored has an uuid that was supplied for a frame dispatched before. -/
theorem Reachable.exists_supplied (h : Reachable host s) :
    ∀ uuid ∈ storedUuids s.data, ∃ i < s.served, uuid = (host i).newUuid.str := by
  refine h.induction (P := fun s ↦ ∀ uuid ∈ storedUuids s.data, ∃ i < s.served,
    uuid = (host i).newUuid.str) (fun uuid huuid ↦ by cases huuid) fun {s a} hs ih _ uuid huuid ↦ ?_
  have hold (hmem : uuid ∈ storedUuids s.data) :
      ∃ i < (perform host a s).served, uuid = (host i).newUuid.str := by
    obtain ⟨i, hi, heq⟩ := ih uuid hmem
    refine ⟨i, hi.trans_le ?_, heq⟩
    rw [served_perform]
    exact Nat.le_add_right _ _
  obtain ⟨answer, hserves, hdata⟩ | ⟨-, hdata⟩ := serves_perform host hs.sessionsWf a
  · rw [hdata] at huuid
    rcases hserves.storedUuids_cases with hsame | ⟨⟨c, hcmd, hlogout⟩, hperm⟩
    · exact hold (hsame ▸ huuid)
    · rcases List.mem_cons.1 (hperm.mem_iff.1 huuid) with heq | hmem
      · refine ⟨s.served, ?_, heq⟩
        rw [Action.eq_frame_of_request hcmd hlogout, served_perform]
        exact Nat.lt_succ_self _
      · exact hold hmem
  · exact hold (hdata ▸ huuid)

/-- **No two things stored have the same uuid**, as long as none was supplied twice. -/
theorem Reachable.nodup_storedUuids (h : Reachable host s) (hfresh : FreshUuids host s.served) :
    (storedUuids s.data).Nodup := by
  refine h.induction (P := fun s ↦ FreshUuids host s.served → (storedUuids s.data).Nodup)
    (fun _ ↦ List.nodup_nil) (fun {s a} hs ih _ hfresh ↦ ?_) hfresh
  have hbefore : FreshUuids host s.served := hfresh.mono <| by
    rw [served_perform]
    exact Nat.le_add_right _ _
  obtain ⟨answer, hserves, hdata⟩ | ⟨-, hdata⟩ := serves_perform host hs.sessionsWf a
  · rw [hdata]
    rcases hserves.storedUuids_cases with hsame | ⟨⟨c, hcmd, hlogout⟩, hperm⟩
    · rw [hsame]
      exact ih hbefore
    -- what is stored already was supplied for an earlier frame
    · rw [hperm.nodup_iff, List.nodup_cons]
      refine ⟨fun hmem ↦ ?_, ih hbefore⟩
      obtain ⟨i, hi, heq⟩ := hs.exists_supplied _ hmem
      have hserved : (perform host a s).served = s.served + 1 := by
        rw [Action.eq_frame_of_request hcmd hlogout, served_perform]
        rfl
      have hsame := hfresh s.served i (hserved ▸ Nat.lt_succ_self _)
        (hserved ▸ Nat.lt_succ_of_lt hi) (Uuid.str_injective heq)
      exact absurd hsame (Nat.ne_of_gt hi)
  · rw [hdata]
    exact ih hbefore

theorem Reachable.distinct_forest (h : Reachable host s) (hfresh : FreshUuids host s.served) :
    Distinct Resource.key s.data.forest :=
  (List.nodup_append.1 (h.nodup_storedUuids hfresh)).2.1

/-! ### Runs -/

/-- What is listed somewhere stays listed there. -/
theorem Reachable.listing_prefix (h : Reachable host s) (hrun : Steps host s s') (ks : List Str) :
    listing Resource.key ks s.data.forest <+: listing Resource.key ks s'.data.forest := by
  induction hrun with
  | refl => exact List.prefix_refl _
  | tail hrun hstep ih =>
    obtain ⟨a, -, rfl⟩ := hstep
    refine ih.trans ?_
    obtain ⟨answer, hserves, hdata⟩ | ⟨-, hdata⟩ := serves_perform host (h.steps hrun).sessionsWf a
    · rw [hdata]
      rcases hserves.forest with ⟨-, user, ctx, hnew⟩ | ⟨hsame, -⟩
      · rw [hnew.forest, listing_insertAt hnew.place]
        exact List.prefix_append _ _
      · rw [hsame]
    · rw [hdata]

/-- The answer to `CMD_LIST`. -/
theorem Reachable.newMessages_list (h : Reachable host s) {fd : Fd} {code : UInt16}
    {payload : List UInt8} {user : Str} {ctx : ClientContext}
    (ha : s.Enabled (.frame fd code payload)) (hcmd : Command.ofCode? code = some .list)
    (hs : s.data.sessions[fd]? = some user) (hctx : s.data.clientContexts[fd]? = some ctx) :
    newMessages fd s (perform host (.frame fd code payload) s) =
      [makeMessage (listResponse ctx.level).code
        (listBytes (fun x ↦ (x.body ctx.threadUuid).bytes)
          (listing Resource.key ctx.path s.data.forest))] := by
  obtain ⟨answer, hserves, -, hresult⟩ := exists_serves_frame host h.sessionsWf fd code payload
  obtain ⟨ctx', hctx', hanswer, hbytes⟩ := h.list_answer hcmd hs hserves
  obtain rfl := Option.some.inj (hctx.symm.trans hctx')
  rw [newMessages_self h.sessionsWf ha, hresult]
  show [makeMessage answer.msg.code.code answer.msg.body.bytes] = _
  rw [hanswer, hbytes]
  rfl

/-- A context that resolves does so for good. -/
theorem Reachable.resolved_steps (h : Reachable host s) (hrun : Steps host s s')
    {ctx : ClientContext} (hctx : ctx.Resolved s.data) : ctx.Resolved s'.data := by
  induction hrun with
  | refl => exact hctx
  | tail hrun hstep ih =>
    obtain ⟨a, -, rfl⟩ := hstep
    exact ih.mono (change_perform (h.steps hrun).sessionsWf a).extends

/-- **What is listed can be used.** A logged-in connection asks for the list of its stored context,
which is no thread, whose replies cannot be used. Whatever happens after that on any connection,
when a member of the team that is listed, or holds what is listed, sends `CMD_USE` with the context
one level below, at something that the list has shown, he is answered with the bytes that the list
has shown of it, and is in that context. -/
theorem listed_can_be_used (h : Reachable host s) {fd : Fd} {code : UInt16} {payload : List UInt8}
    {user : Str} {ctx : ClientContext} (ha : s.Enabled (.frame fd code payload))
    (hcmd : Command.ofCode? code = some .list) (hs : s.data.sessions[fd]? = some user)
    (hctx : s.data.clientContexts[fd]? = some ctx) (hlevel : ctx.level ≠ useThread) :
    newMessages fd s (perform host (.frame fd code payload) s) =
        [makeMessage (listResponse ctx.level).code
          (listBytes (fun x ↦ (x.body ctx.threadUuid).bytes)
            (listing Resource.key ctx.path s.data.forest))] ∧
      ∀ x ∈ listing Resource.key ctx.path s.data.forest, ∀ s',
        Steps host (perform host (.frame fd code payload) s) s' → FreshUuids host s'.served →
        ∀ fd' code' user', s'.Enabled (.frame fd' code' (ctx.enter x.key).encode) →
        Command.ofCode? code' = some .use → s'.data.sessions[fd']? = some user' →
        IsMember s'.data (ctx.enter x.key).teamUuid.toList user' →
          newMessages fd' s' (perform host (.frame fd' code' (ctx.enter x.key).encode) s') =
              [makeMessage (infoResponse (ctx.enter x.key).level).code
                (x.body ctx.threadUuid).bytes] ∧
          (perform host (.frame fd' code' (ctx.enter x.key).encode) s').data.clientContexts[fd']? =
            some (ctx.enter x.key) := by
  refine ⟨h.newMessages_list ha hcmd hs hctx,
    fun x hx s' hlater hfresh fd' code' user' ha' huse hs' hmember ↦ ?_⟩
  have hrun : Steps host s s' := Relation.ReflTransGen.head ⟨_, ha, rfl⟩ hlater
  have hreachable := h.steps hrun
  have hlisted := (h.listing_prefix hrun ctx.path).subset hx
  have hleads := (h.resolved_steps hrun (h.dataContexts.resolved fd ctx hctx)).leadsTo
    (h.registry.level fd ctx hctx) hlevel (hreachable.distinct_forest hfresh) hlisted
  have hgrant : Grants s'.data user' (ctx.enter x.key) := by
    rw [Grants, hleads.shows user']
    exact ⟨rfl, .inr hmember⟩
  obtain ⟨hdata, hresult⟩ := handleUse_of_granted (host s'.served) hreachable.sessionsWf hs'
    (requestedContext_encode hleads.resolved hleads.level) hgrant (hleads.shows user')
  rw [newMessages_self hreachable.sessionsWf ha', perform_frame_data,
    frameOutcome_of_session hs' huse, handle, extractSv_whole, hdata, hresult]
  refine ⟨rfl, ?_⟩
  show (s'.data.clientContexts.insert fd' _)[fd']? = _
  rw [IntMap.get_insert_self]

/-- The list of `createThenList` is asked for, and its team is about to be used. -/
def listThenUse : Server :=
  execute plainHost [.receive 4 (makeMessage Command.use.code enterPayload)]
    (perform plainHost (.frame 4 Command.list.code [])
      (execute plainHost createThenList Server.init))

/-- The team that was listed is used. -/
theorem listed_can_be_used_team :
    newMessages 4 listThenUse
        (perform plainHost (.frame 4 Command.use.code enterPayload) listThenUse) =
      [makeMessage Response.teamInfo.code ((plainUuid 1).str ++ List.replicate 287 0x62)] := by
  let s := execute plainHost createThenList Server.init
  have hreachable : Reachable plainHost s := reachable_execute (by decide +kernel)
  have hframe : s.Enabled (.frame 4 Command.list.code []) := by decide +kernel
  have hsession : s.data.sessions[(4 : Fd)]? = some (plainUuid 0).str := by decide +kernel
  have hcontext : s.data.clientContexts[(4 : Fd)]? = some ClientContext.init := by decide +kernel
  obtain ⟨-, huse⟩ := listed_can_be_used hreachable hframe (Command.ofCode?_code .list) hsession
    hcontext (by decide)
  have hlisted : (listing Resource.key ClientContext.init.path s.data.forest).map
      (fun x ↦ (x.key, (x.body ClientContext.init.threadUuid).bytes)) =
        [((plainUuid 1).str, (plainUuid 1).str ++ List.replicate 287 0x62)] := by decide +kernel
  obtain ⟨x, hx, hshown⟩ := List.map_eq_singleton_iff.1 hlisted
  obtain ⟨hkey, hbytes⟩ := Prod.mk.inj hshown
  have hlater : Steps plainHost (perform plainHost (.frame 4 Command.list.code []) s) listThenUse :=
    steps_execute (by decide +kernel)
  have hfresh : FreshUuids plainHost listThenUse.served := by
    have hserved : listThenUse.served = 3 := by decide +kernel
    have hthree : ∀ i < 3, ∀ j < 3, (plainHost i).newUuid = (plainHost j).newUuid → i = j := by
      decide +kernel
    rw [hserved]
    exact fun i j hi hj ↦ hthree i hi j hj
  have hmember : IsMember listThenUse.data (plainUuid 1).str (plainUuid 0).str := by
    have hteam : (findTeamByUuid listThenUse.data (plainUuid 1).str).map Team.memberUuids =
        some [(plainUuid 0).str] := by decide +kernel
    obtain ⟨t, ht, hmembers⟩ := Option.map_eq_some_iff.1 hteam
    exact ⟨t, ht, by rw [hmembers]; exact List.mem_singleton_self _⟩
  have hcontext' : ClientContext.init.enter x.key =
      { ClientContext.init with level := useTeam, teamUuid := (plainUuid 1).bytes } := by
    rw [hkey]
    decide +kernel
  have hanswer := huse x (hx ▸ List.mem_singleton_self x) listThenUse hlater hfresh 4
    Command.use.code (plainUuid 0).str
  rw [hcontext', hbytes] at hanswer
  exact (hanswer (by decide +kernel) (Command.ofCode?_code .use) (by decide +kernel) hmember).1

end Server

end MyTeams
