import MyTeams.Server.Registry

/-!
# Contexts never dangle

A stored context holds copies of uuids, which later requests resolve again through three nested
first-match searches. `ServerData.Extends` is the order in which the shared data grows: every lookup
that succeeds before succeeds after, and finds a team, channel or thread with the same description.
Every change goes up in this order, so a context that was granted stays `Resolved` for good.
-/

namespace MyTeams

open FirstMatch ByteField

/-! ### Growth of the tree -/

/-- A thread after replies were added. -/
def Thread.Extends (th th' : Thread) : Prop := th'.record = th.record ∧ th.replies <+: th'.replies

/-- A channel whose threads may have grown in number and size. -/
def Channel.Extends (c c' : Channel) : Prop :=
  c'.record = c.record ∧
    ∀ uuid th, findThreadByUuid c uuid = some th →
      ∃ th', findThreadByUuid c' uuid = some th' ∧ th.Extends th'

/-- A team whose channels may have grown in number and size. -/
def Team.Extends (t t' : Team) : Prop :=
  t'.record = t.record ∧
    ∀ uuid c, findChannelByUuid t uuid = some c →
      ∃ c', findChannelByUuid t' uuid = some c' ∧ c.Extends c'

/-- **Growth of the shared data**: no lookup that succeeded is lost or finds something else. -/
def ServerData.Extends (data after : ServerData) : Prop :=
  ∀ uuid t, findTeamByUuid data uuid = some t →
    ∃ t', findTeamByUuid after uuid = some t' ∧ t.Extends t'

theorem Thread.Extends.refl (th : Thread) : th.Extends th := ⟨rfl, List.prefix_refl _⟩

theorem Channel.Extends.refl (c : Channel) : c.Extends c :=
  ⟨rfl, fun _ th h ↦ ⟨th, h, Thread.Extends.refl th⟩⟩

theorem Team.Extends.refl (t : Team) : t.Extends t :=
  ⟨rfl, fun _ c h ↦ ⟨c, h, Channel.Extends.refl c⟩⟩

theorem ServerData.Extends.of_teams_eq {data after : ServerData} (h : after.teams = data.teams) :
    data.Extends after := by
  intro uuid t ht
  refine ⟨t, ?_, Team.Extends.refl t⟩
  rwa [findTeamByUuid, h]

/-- A uuid that finds something is well formed. -/
theorem isUuid36_of_findTeam {data : ServerData} {uuid : Str} {t : Team}
    (h : findTeamByUuid data uuid = some t) : uuid.length = 36 := by
  by_contra hne
  rw [findTeamByUuid, isUuid36, if_neg (by simpa using hne)] at h
  cases h

theorem isUuid36_of_findChannel {t : Team} {uuid : Str} {c : Channel}
    (h : findChannelByUuid t uuid = some c) : uuid.length = 36 := by
  by_contra hne
  rw [findChannelByUuid, isUuid36, if_neg (by simpa using hne)] at h
  cases h

theorem isUuid36_of_findThread {c : Channel} {uuid : Str} {th : Thread}
    (h : findThreadByUuid c uuid = some th) : uuid.length = 36 := by
  by_contra hne
  rw [findThreadByUuid, isUuid36, if_neg (by simpa using hne)] at h
  cases h

/-! ### Writes go up -/

/-- Lookup of a team after a write to a team. -/
theorem findTeamByUuid_updateTeam {data : ServerData} (uuid36 : Str) {f : Team → Team}
    (hkey : ∀ t, (f t).uuid.str = t.uuid.str) {uuid : Str} {t : Team}
    (h : findTeamByUuid data uuid = some t) :
    findTeamByUuid (updateTeam data uuid36 f) uuid = some (if uuid36 == uuid then f t else t) := by
  have hlen := isUuid36_of_findTeam h
  rw [findTeamByUuid_eq hlen] at h ⊢
  exact find?_updateFirst_of_some hkey uuid36 h

/-- A write that extends the team it reaches extends the data. -/
theorem extends_updateTeam {data : ServerData} (uuid36 : Str) {f : Team → Team}
    (hf : ∀ t : Team, t.Extends (f t)) : data.Extends (updateTeam data uuid36 f) := by
  intro uuid t ht
  have hkey : ∀ t, (f t).uuid.str = t.uuid.str := fun t ↦
    congrArg (fun r : DescribedRecord ↦ r.uuid.toList) (hf t).1
  refine ⟨_, findTeamByUuid_updateTeam uuid36 hkey ht, ?_⟩
  split_ifs
  · exact hf t
  · exact Team.Extends.refl t

theorem extends_updateChannel (t : Team) (uuid36 : Str) {f : Channel → Channel}
    (hf : ∀ c : Channel, c.Extends (f c)) : t.Extends (updateChannel t uuid36 f) := by
  refine ⟨rfl, fun uuid c hc ↦ ?_⟩
  have hlen := isUuid36_of_findChannel hc
  have hkey : ∀ c, (f c).uuid.str = c.uuid.str := fun c ↦
    congrArg (fun r : DescribedRecord ↦ r.uuid.toList) (hf c).1
  rw [findChannelByUuid_eq hlen] at hc ⊢
  refine ⟨_, find?_updateFirst_of_some hkey uuid36 hc, ?_⟩
  split_ifs
  · exact hf c
  · exact Channel.Extends.refl c

theorem extends_updateThread (c : Channel) (uuid36 : Str) {f : Thread → Thread}
    (hf : ∀ th : Thread, th.Extends (f th)) : c.Extends (updateThread c uuid36 f) := by
  refine ⟨rfl, fun uuid th hth ↦ ?_⟩
  have hlen := isUuid36_of_findThread hth
  have hkey : ∀ th, (f th).uuid.str = th.uuid.str := fun th ↦
    congrArg (fun r : ThreadRecord ↦ r.uuid.toList) (hf th).1
  rw [findThreadByUuid_eq hlen] at hth ⊢
  refine ⟨_, find?_updateFirst_of_some hkey uuid36 hth, ?_⟩
  split_ifs
  · exact hf th
  · exact Thread.Extends.refl th

theorem extends_addTeam (data : ServerData) (team : Team) : data.Extends (addTeam data team) := by
  intro uuid t ht
  have hlen := isUuid36_of_findTeam ht
  rw [findTeamByUuid_eq hlen] at ht ⊢
  exact ⟨t, find?_append_of_some ht _, Team.Extends.refl t⟩

theorem extends_appendChannel (t : Team) (channel : Channel) :
    t.Extends { t with channels := t.channels ++ [channel] } := by
  refine ⟨rfl, fun uuid c hc ↦ ⟨c, ?_, Channel.Extends.refl c⟩⟩
  have hlen := isUuid36_of_findChannel hc
  rw [findChannelByUuid_eq hlen] at hc ⊢
  exact find?_append_of_some hc _

theorem extends_appendThread (c : Channel) (thread : Thread) :
    c.Extends { c with threads := c.threads ++ [thread] } := by
  refine ⟨rfl, fun uuid th hth ↦ ⟨th, ?_, Thread.Extends.refl th⟩⟩
  have hlen := isUuid36_of_findThread hth
  rw [findThreadByUuid_eq hlen] at hth ⊢
  exact find?_append_of_some hth _

theorem extends_members (t : Team) (members : List Str) :
    t.Extends { t with memberUuids := members } :=
  ⟨rfl, (Team.Extends.refl t).2⟩

/-- **Every change goes up.** -/
theorem Change.extends {fd : Fd} {payload : List UInt8} {data after : ServerData}
    {cmd : Option Command} (h : Change fd payload data cmd after) : data.Extends after := by
  cases h with
  | addMember => exact extends_updateTeam _ fun t ↦ extends_members t _
  | removeMember => exact extends_updateTeam _ fun t ↦ extends_members t _
  | addTeam => exact extends_addTeam data _
  | addChannel => exact extends_updateTeam _ fun t ↦ extends_appendChannel t _
  | addThread =>
    exact extends_updateTeam _ fun t ↦ extends_updateChannel t _ fun c ↦ extends_appendThread c _
  | addReply =>
    exact extends_updateTeam _ fun t ↦ extends_updateChannel t _ fun c ↦
      extends_updateThread c _ fun th ↦ ⟨rfl, List.prefix_append _ _⟩
  | _ => exact .of_teams_eq rfl

/-! ### Resolved contexts -/

section Lookups

variable {data after : ServerData} {ctx : ClientContext}

theorem team?_extends (h : data.Extends after) {t : Team} (ht : ctx.team? data = some t) :
    ∃ t', ctx.team? after = some t' ∧ t.Extends t' :=
  h _ t ht

theorem channel?_extends (h : data.Extends after) {c : Channel}
    (hc : ctx.channel? data = some c) : ∃ c', ctx.channel? after = some c' ∧ c.Extends c' := by
  obtain ⟨t, ht, hfind⟩ := Option.bind_eq_some_iff.1 hc
  obtain ⟨t', ht', hext⟩ := team?_extends h ht
  obtain ⟨c', hc', hcext⟩ := hext.2 _ c hfind
  exact ⟨c', by rw [channel?_of_team ht', hc'], hcext⟩

theorem thread?_extends (h : data.Extends after) {th : Thread}
    (hth : ctx.thread? data = some th) : ∃ th', ctx.thread? after = some th' ∧ th.Extends th' := by
  obtain ⟨c, hc, hfind⟩ := Option.bind_eq_some_iff.1 hth
  obtain ⟨c', hc', hext⟩ := channel?_extends h hc
  obtain ⟨th', hth', hthext⟩ := hext.2 _ th hfind
  exact ⟨th', by rw [thread?_of_channel hc', hth'], hthext⟩

end Lookups

/-- **A resolved context**: down to its level every uuid finds something inside what the one above
it found, and the uuids below its level are zero. -/
structure ClientContext.Resolved (data : ServerData) (ctx : ClientContext) : Prop where
  team : useTeam ≤ ctx.level → (ctx.team? data).isSome
  channel : useChannel ≤ ctx.level → (ctx.channel? data).isSome
  thread : useThread ≤ ctx.level → (ctx.thread? data).isSome
  noTeam : ctx.level < useTeam → ctx.teamUuid = zeros 36
  noChannel : ctx.level < useChannel → ctx.channelUuid = zeros 36
  noThread : ctx.level < useThread → ctx.threadUuid = zeros 36

theorem ClientContext.Resolved.mono {data after : ServerData} {ctx : ClientContext}
    (h : ctx.Resolved data) (hext : data.Extends after) : ctx.Resolved after where
  team hlevel := by
    obtain ⟨t, ht⟩ := Option.isSome_iff_exists.1 (h.team hlevel)
    obtain ⟨t', ht', -⟩ := team?_extends hext ht
    rw [ht']
    rfl
  channel hlevel := by
    obtain ⟨c, hc⟩ := Option.isSome_iff_exists.1 (h.channel hlevel)
    obtain ⟨c', hc', -⟩ := channel?_extends hext hc
    rw [hc']
    rfl
  thread hlevel := by
    obtain ⟨th, hth⟩ := Option.isSome_iff_exists.1 (h.thread hlevel)
    obtain ⟨th', hth', -⟩ := thread?_extends hext hth
    rw [hth']
    rfl
  noTeam := h.noTeam
  noChannel := h.noChannel
  noThread := h.noThread

theorem resolved_init (data : ServerData) : ClientContext.init.Resolved data where
  team h := absurd h (by decide)
  channel h := absurd h (by decide)
  thread h := absurd h (by decide)
  noTeam _ := rfl
  noChannel _ := rfl
  noThread _ := rfl

theorem isSome_team?_of_channel? {data : ServerData} {ctx : ClientContext}
    (h : (ctx.channel? data).isSome) : (ctx.team? data).isSome := by
  obtain ⟨c, hc⟩ := Option.isSome_iff_exists.1 h
  obtain ⟨t, ht, -⟩ := Option.bind_eq_some_iff.1 hc
  rw [ht]
  rfl

theorem isSome_channel?_of_thread? {data : ServerData} {ctx : ClientContext}
    (h : (ctx.thread? data).isSome) : (ctx.channel? data).isSome := by
  obtain ⟨th, hth⟩ := Option.isSome_iff_exists.1 h
  obtain ⟨c, hc, -⟩ := Option.bind_eq_some_iff.1 hth
  rw [hc]
  rfl

section Levels

variable {data : ServerData} {ctx : ClientContext}

theorem resolved_team (hlevel : ctx.level = useTeam) (hteam : (ctx.team? data).isSome)
    (hchannel : ctx.channelUuid = zeros 36) (hthread : ctx.threadUuid = zeros 36) :
    ctx.Resolved data := by
  constructor <;> rw [hlevel] <;> intro h
  case team => exact hteam
  case noChannel => exact hchannel
  case noThread => exact hthread
  all_goals exact absurd h (by decide)

theorem resolved_channel (hlevel : ctx.level = useChannel) (hchannel : (ctx.channel? data).isSome)
    (hthread : ctx.threadUuid = zeros 36) : ctx.Resolved data := by
  constructor <;> rw [hlevel] <;> intro h
  case team => exact isSome_team?_of_channel? hchannel
  case channel => exact hchannel
  case noThread => exact hthread
  all_goals exact absurd h (by decide)

theorem resolved_thread (hlevel : ctx.level = useThread) (hthread : (ctx.thread? data).isSome) :
    ctx.Resolved data := by
  have hchannel := isSome_channel?_of_thread? hthread
  constructor <;> rw [hlevel] <;> intro h
  case team => exact isSome_team?_of_channel? hchannel
  case channel => exact hchannel
  case thread => exact hthread
  all_goals exact absurd h (by decide)

/-- The levels up to 3 are the four of the protocol. -/
theorem level_cases {level : UInt8} (h : level.toNat ≤ 3) :
    level = useNone ∨ level = useTeam ∨ level = useChannel ∨ level = useThread := by
  simp only [← UInt8.toNat_inj]
  have : useNone.toNat = 0 ∧ useTeam.toNat = 1 ∧ useChannel.toNat = 2 ∧ useThread.toNat = 3 := by
    decide
  omega

/-- A resolved context can be shown: its level is one of the four, and what it names is there. -/
theorem ClientContext.Resolved.isSome_contextInfo (h : ctx.Resolved data)
    (hle : ctx.level.toNat ≤ 3) (user : Str) : (contextInfo data user ctx).isSome := by
  rcases level_cases hle with h0 | h1 | h2 | h3
  · rw [contextInfo_of_none h0]
    rfl
  · rw [contextInfo_of_team h1, Option.isSome_map]
    exact h.team (by rw [h1]; decide)
  · rw [contextInfo_of_channel h2, Option.isSome_map]
    exact h.channel (by rw [h2]; decide)
  · rw [contextInfo_of_thread h3, Option.isSome_map]
    exact h.thread (by rw [h3]; decide)

end Levels

/-- What is granted on request is resolved. -/
theorem resolved_of_grants {data : ServerData} {user payload : Str} {ctx : ClientContext}
    (hreq : requestedContext payload = some ctx) (hgrant : Grants data user ctx) :
    ctx.Resolved data := by
  obtain ⟨hinfo, -⟩ := hgrant
  rw [requestedContext] at hreq
  split at hreq
  · cases hreq
  -- one case per level: what is stored names as much as the level calls for
  split_ifs at hreq with h0 h1 _ h2 _ h3
  · rw [← Option.some.inj hreq, h0]
    exact resolved_init data
  · have hctx := (Option.some.inj hreq).symm
    have hlevel : ctx.level = useTeam := by rw [hctx, h1]
    rw [contextInfo_of_team hlevel, Option.isSome_map] at hinfo
    exact resolved_team hlevel hinfo (by rw [hctx]; rfl) (by rw [hctx]; rfl)
  · have hctx := (Option.some.inj hreq).symm
    have hlevel : ctx.level = useChannel := by rw [hctx, h2]
    rw [contextInfo_of_channel hlevel, Option.isSome_map] at hinfo
    exact resolved_channel hlevel hinfo (by rw [hctx]; rfl)
  · have hctx := (Option.some.inj hreq).symm
    have hlevel : ctx.level = useThread := by rw [hctx, h3]
    rw [contextInfo_of_thread hlevel, Option.isSome_map] at hinfo
    exact resolved_thread hlevel hinfo

/-! ### The invariant -/

/-- The registry invariant with all contexts resolved. -/
structure DataContexts (data : ServerData) : Prop extends DataRegistry data where
  resolved : ∀ (fd : Fd) (ctx : ClientContext), data.clientContexts[fd]? = some ctx →
    ctx.Resolved data

theorem dataContexts_init : DataContexts ServerData.init where
  toDataRegistry := dataRegistry_init
  resolved fd ctx h := by simp [ServerData.init] at h

theorem DataContexts.change {fd : Fd} {payload : List UInt8} {data after : ServerData}
    {cmd : Option Command} (h : DataContexts data) (hchange : Change fd payload data cmd after) :
    DataContexts after where
  toDataRegistry := h.toDataRegistry.change hchange
  resolved d ctx hctx := by
    have hext := hchange.extends
    rcases eq_or_ne d fd with rfl | hd
    · cases hchange with
      | login =>
        rw [loginData, IntMap.get_insert_self] at hctx
        rw [← Option.some.inj hctx]
        exact resolved_init _
      | logout =>
        rw [logoutData, IntMap.get_erase_self] at hctx
        cases hctx
      | use hs hreq hgrant =>
        rw [IntMap.get_insert_self] at hctx
        rw [← Option.some.inj hctx]
        exact (resolved_of_grants hreq hgrant).mono hext
      | _ => exact (h.resolved d ctx hctx).mono hext
    · rw [hchange.contexts_of_ne hd] at hctx
      exact (h.resolved d ctx hctx).mono hext

namespace Server

variable {host : ℕ → Host} {s : Server}

theorem Reachable.dataContexts (h : Reachable host s) : DataContexts s.data :=
  h.data_induction (fun h ↦ h.toDataRegistry.sessionsWf) dataContexts_init fun hd hc ↦ hd.change hc

/-! ### No request meets a dangling context -/

/-- Every logged-in connection has a context, and it can be shown. -/
theorem Reachable.exists_context (h : Reachable host s) {fd : Fd} {user : Str}
    (hs : s.data.sessions[fd]? = some user) :
    ∃ ctx, s.data.clientContexts[fd]? = some ctx ∧ (contextInfo s.data user ctx).isSome := by
  have hcontains : s.data.clientContexts.contains fd = true := by
    rw [← h.registry.keys]
    exact (IntMap.contains_iff _).2 ⟨user, hs⟩
  obtain ⟨ctx, hctx⟩ := (IntMap.contains_iff _).1 hcontains
  have hdata := h.dataContexts
  exact ⟨ctx, hctx, (hdata.resolved fd ctx hctx).isSome_contextInfo (hdata.level fd ctx hctx) user⟩

/-- So the error for dangling contexts is never given. -/
theorem Reachable.not_dangling (h : Reachable host s) {fd : Fd} {user : Str}
    (hs : s.data.sessions[fd]? = some user) :
    ¬ ∀ ctx, s.data.clientContexts[fd]? = some ctx → contextInfo s.data user ctx = none := by
  intro hnone
  obtain ⟨ctx, hctx, hinfo⟩ := h.exists_context hs
  rw [hnone ctx hctx] at hinfo
  cases hinfo

theorem res_code_ne_err_code (r : Response) (e : Error) : r.code ≠ e.code := by
  intro h
  have hcode : (ServerCode.res r).code = (ServerCode.err e).code := h
  cases ServerCode.code_injective hcode

theorem err_code_injective {e e' : Error} (h : e.code = e'.code) : e = e' := by
  have hcode : (ServerCode.err e).code = (ServerCode.err e').code := h
  exact ServerCode.err.inj (ServerCode.code_injective hcode)

variable {fd : Fd} {user : Str}

/-- For a logged-in connection `CMD_LIST` and `CMD_INFO` succeed. -/
theorem Reachable.query_code (h : Reachable host s) (hs : s.data.sessions[fd]? = some user)
    {cmd : Command} (hcmd : cmd = .list ∨ cmd = .info) {env : Host} {p : List UInt8} {a : Answer}
    (ha : Serves env fd p s.data (some cmd) a) : ∃ r, a.msg.code = .res r := by
  cases ha with
  | unauthorized hno => rw [hs] at hno; cases hno
  | refused _ _ hquery => rcases hcmd with rfl | rfl <;> simp at hquery
  | dangling hs' _ hctx =>
    obtain rfl := Option.some.inj (hs.symm.trans hs')
    exact absurd hctx (h.not_dangling hs)
  | list _ _ hlist => exact ⟨_, contextList_code hlist⟩
  | info _ _ hinfo => exact ⟨_, contextInfo_code hinfo⟩
  | _ => simp at hcmd

/-- For a logged-in connection the only errors of `CMD_CREATE` are those without a uuid. -/
theorem Reachable.create_code (h : Reachable host s) (hs : s.data.sessions[fd]? = some user)
    {env : Host} {p : List UInt8} {a : Answer} (ha : Serves env fd p s.data (some .create) a) :
    (∃ r, a.msg.code = .res r) ∨ a.msg.code = .err .invalidCommand ∨
      a.msg.code = .err .notSubscribed := by
  cases ha with
  | unauthorized hno => rw [hs] at hno; cases hno
  | refused _ hb _ hcreate =>
    obtain rfl := hcreate rfl
    cases hb with
    | invalid => exact Or.inr (Or.inl rfl)
    | notSubscribed => exact Or.inr (Or.inr rfl)
  | dangling hs' _ hctx =>
    obtain rfl := Option.some.inj (hs.symm.trans hs')
    exact absurd hctx (h.not_dangling hs)
  | _ => exact Or.inl ⟨_, rfl⟩

theorem Reachable.handleList_code (h : Reachable host s) (hs : s.data.sessions[fd]? = some user)
    (e : Error) : (handleList fd s.data).result.response.code ≠ e.code := by
  obtain ⟨a, ha, -, hresult⟩ : Realizes (Serves (host s.served) fd [] s.data _)
    (handleList fd s.data) := handleList_realizes
  obtain ⟨r, hr⟩ := h.query_code hs (Or.inl rfl) ha
  rw [hresult]
  show a.msg.code.code ≠ e.code
  rw [hr]
  exact res_code_ne_err_code r e

theorem Reachable.handleInfo_code (h : Reachable host s) (hs : s.data.sessions[fd]? = some user)
    (e : Error) : (handleInfo fd s.data).result.response.code ≠ e.code := by
  obtain ⟨a, ha, -, hresult⟩ : Realizes (Serves (host s.served) fd [] s.data _)
    (handleInfo fd s.data) := handleInfo_realizes h.sessionsWf
  obtain ⟨r, hr⟩ := h.query_code hs (Or.inr rfl) ha
  rw [hresult]
  show a.msg.code.code ≠ e.code
  rw [hr]
  exact res_code_ne_err_code r e

theorem Reachable.handleCreate_code (h : Reachable host s)
    (hs : s.data.sessions[fd]? = some user) (env : Host) (payload : List UInt8) {e : Error}
    (he : e ∈ [Error.unknownTeam, .unknownChannel, .unknownThread]) :
    (handleCreate env fd payload s.data).result.response.code ≠ e.code := by
  obtain ⟨a, ha, -, hresult⟩ : Realizes (Serves env fd payload s.data _)
    (handleCreate env fd payload s.data) := handleCreate_realizes
  rw [hresult]
  show a.msg.code.code ≠ e.code
  rcases h.create_code hs ha with ⟨r, hr⟩ | hr | hr <;> rw [hr]
  · exact res_code_ne_err_code r e
  · exact fun hcode ↦ by simp [← err_code_injective (e := .invalidCommand) hcode] at he
  · exact fun hcode ↦ by simp [← err_code_injective (e := .notSubscribed) hcode] at he

/-- **Contexts never dangle.** In every reachable state every stored context resolves down to its
level, one lookup inside the other, and is zero below it. Hence, for a logged-in connection,
`CMD_LIST` and `CMD_INFO` never answer with an error, and `CMD_CREATE` never with one of the three
errors that should carry a uuid. -/
theorem contexts_never_dangle (h : Reachable host s) :
    (∀ (fd : Fd) (ctx : ClientContext), s.data.clientContexts[fd]? = some ctx →
      ctx.Resolved s.data) ∧
    ∀ (fd : Fd) (user : Str), s.data.sessions[fd]? = some user →
      (∀ e : Error, (handleList fd s.data).result.response.code ≠ e.code) ∧
      (∀ e : Error, (handleInfo fd s.data).result.response.code ≠ e.code) ∧
      ∀ env payload, ∀ e ∈ [Error.unknownTeam, .unknownChannel, .unknownThread],
        (handleCreate env fd payload s.data).result.response.code ≠ e.code :=
  ⟨h.dataContexts.resolved, fun _ _ hs ↦ ⟨h.handleList_code hs, h.handleInfo_code hs,
    fun env payload _ he ↦ h.handleCreate_code hs env payload he⟩⟩

/-- One connection logs in, creates a team and enters it. -/
def enterTeam : List Action :=
  .accept 4 :: request 4 .login [0x61] ++ request 4 .create (List.replicate 287 0x62) ++
    request 4 .use (useTeam :: (plainUuid 1).str)

theorem contexts_never_dangle_after_enterTeam :
    (∀ (fd : Fd) (ctx : ClientContext),
      (execute plainHost enterTeam Server.init).data.clientContexts[fd]? = some ctx →
        ctx.Resolved (execute plainHost enterTeam Server.init).data) ∧
    ∀ e : Error,
      (handleList 4 (execute plainHost enterTeam Server.init).data).result.response.code ≠
        e.code := by
  have hreachable : Reachable plainHost (execute plainHost enterTeam Server.init) :=
    reachable_execute (by decide +kernel)
  have hsession : (execute plainHost enterTeam Server.init).data.sessions[(4 : Fd)]? =
      some (plainUuid 0).str := by decide +kernel
  obtain ⟨hresolved, hcodes⟩ := contexts_never_dangle hreachable
  exact ⟨hresolved, (hcodes 4 _ hsession).1⟩

end Server

end MyTeams
