import MyTeams.Server.Disclosure
import MyTeams.Server.Listing

/-!
# Names of siblings

RFC section 4.2 and `libs/myteams/logging_client.h` keep an error for a creation under a name that
already exists, and the client knows it. `handle_create` has no such check: it creates whatever it
accepts, so names stay distinct among siblings exactly as long as nobody asks for a name that is
taken.
-/

namespace MyTeams

open FirstMatch Forest ByteField

/-! ### Names -/

/-- The name or title of a resource, up to its first zero byte; a reply has none. -/
def Resource.name : Resource → Option Str
  | team r | channel r => some (cut r.name.toList)
  | thread r => some (cut r.title.toList)
  | reply _ => none

/-- The names in a vector of resources. -/
def siblingNames (l : List Resource) : List Str := l.filterMap Resource.name

/-- **No two siblings have the same name.** -/
structure NamesDistinct (data : ServerData) : Prop where
  teams : (data.teams.map fun t ↦ cut t.name.toList).Nodup
  channels : ∀ t ∈ data.teams, (t.channels.map fun c ↦ cut c.name.toList).Nodup
  threads : ∀ t ∈ data.teams, ∀ c ∈ t.channels, (c.threads.map fun th ↦ cut th.title.toList).Nodup

theorem siblingNames_map {α : Type} {tree : α → RoseTree Resource} {name : α → Str}
    (h : ∀ a, (tree a).label.name = some (name a)) (l : List α) :
    siblingNames ((l.map tree).map RoseTree.label) = l.map name := by
  rw [siblingNames, List.map_map, List.filterMap_map, ← List.filterMap_eq_map]
  congr 1
  funext a
  exact h a

theorem siblingNames_replies (l : List Reply) :
    siblingNames ((l.map Reply.tree).map RoseTree.label) = [] := by
  rw [siblingNames, List.map_map, List.filterMap_map]
  exact List.filterMap_eq_nil_iff.2 fun _ _ ↦ rfl

/-- Distinctness is a law of every vector of the forest. -/
theorem namesDistinct_iff {data : ServerData} :
    NamesDistinct data ↔ Everywhere (fun l ↦ (siblingNames l).Nodup) data.forest := by
  have hteams : siblingNames (data.forest.map RoseTree.label) =
      data.teams.map fun t ↦ cut t.name.toList := siblingNames_map (fun _ ↦ rfl) data.teams
  have hchannels (t : Team) : siblingNames (t.tree.children.map RoseTree.label) =
      t.channels.map fun c ↦ cut c.name.toList := siblingNames_map (fun _ ↦ rfl) t.channels
  have hthreads (c : Channel) : siblingNames (c.tree.children.map RoseTree.label) =
      c.threads.map fun th ↦ cut th.title.toList := siblingNames_map (fun _ ↦ rfl) c.threads
  have hreplies (th : Thread) : siblingNames (th.tree.children.map RoseTree.label) = [] :=
    siblingNames_replies th.replies
  constructor
  · intro h
    refine ⟨hteams ▸ h.teams, fun x hx ↦ ?_⟩
    obtain ⟨t, ht, rfl⟩ := List.mem_map.1 hx
    refine ⟨hchannels t ▸ h.channels t ht, fun x hx ↦ ?_⟩
    obtain ⟨c, hc, rfl⟩ := List.mem_map.1 hx
    refine ⟨hthreads c ▸ h.threads t ht c hc, fun x hx ↦ ?_⟩
    obtain ⟨th, hth, rfl⟩ := List.mem_map.1 hx
    refine ⟨hreplies th ▸ List.nodup_nil, fun x hx ↦ ?_⟩
    obtain ⟨r, hr, rfl⟩ := List.mem_map.1 hx
    exact ⟨List.nodup_nil, by simp [Reply.tree]⟩
  · intro h
    have hteam {t : Team} (ht : t ∈ data.teams) := h.descend (List.mem_map_of_mem ht)
    refine ⟨hteams ▸ h.here, fun t ht ↦ hchannels t ▸ (hteam ht).here, fun t ht c hc ↦ ?_⟩
    exact hthreads c ▸ ((hteam ht).descend (List.mem_map_of_mem hc)).here

/-- The name of a creation: the first 32 bytes of the payload, up to a zero byte; none for a
reply. -/
theorem name_newResource {host : Host} {fd : Fd} {payload : List UInt8} {data : ServerData}
    {a : Answer} {user : Str} {ctx : ClientContext} (h : Creates host fd payload data a user ctx) :
    (newResource host user payload ctx.level).name =
      if ctx.level = useThread then none else some (cut (payload.take 32)) := by
  have hlevel := h.level
  have hlength := h.length
  have hname (hlen : 0 + 32 ≤ payload.length) :
      cut (payloadField payload 0 32).toList = cut (payload.take 32) := by
    rw [toList_payloadField hlen, List.drop_zero]
  simp only [List.mem_cons, List.not_mem_nil, or_false] at hlevel
  rcases hlevel with h0 | h1 | h2 | h3
  · rw [h0] at hlength ⊢
    have hlen : 32 + 255 ≤ payload.length := hlength
    exact congrArg some (hname (by omega))
  · rw [h1] at hlength ⊢
    have hlen : 32 + 255 ≤ payload.length := hlength
    exact congrArg some (hname (by omega))
  · rw [h2] at hlength ⊢
    have hlen : 32 + 512 ≤ payload.length := hlength
    exact congrArg some (hname (by omega))
  · rw [h3]
    rfl

/-! ### Requests for a name that is taken -/

/-- A `CMD_CREATE` on `fd` passes the checks of `handle_create`, in the stored context `ctx`. -/
structure PassesCreate (fd : Fd) (payload : List UInt8) (data : ServerData) (user : Str)
    (ctx : ClientContext) : Prop where
  session : data.sessions[fd]? = some user
  context : data.clientContexts[fd]? = some ctx
  length : createLength ctx.level ≤ payload.length
  member : ctx.level ≠ useNone → ∃ t, ctx.team? data = some t ∧ user ∈ t.memberUuids

/-- It asks for a name that a sibling has. -/
def Duplicates (fd : Fd) (payload : List UInt8) (data : ServerData) : Prop :=
  ∃ user ctx, PassesCreate fd payload data user ctx ∧ ctx.level ≠ useThread ∧
    cut (payload.take 32) ∈ siblingNames (listing Resource.key ctx.path data.forest)

section Create

variable {host : Host} {fd : Fd} {payload : List UInt8} {data : ServerData} {user : Str}
  {ctx : ClientContext}

/-- What passes the checks: one case for each level of the context. -/
theorem PassesCreate.elim {P : Outcome → Prop} (h : PassesCreate fd payload data user ctx)
    (hle : ctx.level.toNat ≤ 3) (hinfo : (contextInfo data user ctx).isSome)
    (team : ctx.level = useNone → 32 + 255 ≤ payload.length → P
      ⟨addTeam data (newTeam host user payload), Result.created .teamCreated .teamCreated
        (appendTeam [] (newTeam host user payload))
        (loggedFds (addTeam data (newTeam host user payload))),
        [ServerLog.teamCreated host.newUuid (newTeam host user payload).name user]⟩)
    (channel : ctx.level = useTeam → 32 + 255 ≤ payload.length → ∀ t, P
      ⟨addChannel data ctx (newChannel host payload), Result.created .channelCreated .channelCreated
        (appendChannel [] (newChannel host payload)) (teamMemberFds data t),
        [ServerLog.channelCreated t.uuid host.newUuid (newChannel host payload).name]⟩)
    (thread : ctx.level = useChannel → 32 + 512 ≤ payload.length → ∀ t c, P
      ⟨addThread data ctx (newThread host user payload),
        Result.created .threadCreated .threadCreated
        (appendThread [] (newThread host user payload)) (teamMemberFds data t),
        [ServerLog.threadCreated c host.newUuid user (newThread host user payload).title
          (newThread host user payload).body]⟩)
    (reply : ctx.level = useThread → 512 ≤ payload.length → ∀ t th, P
      ⟨addReply data ctx (newReply host user payload), Result.created .replyCreated .replyCreated
        (appendReply ctx.threadUuid [] (newReply host user payload)) (teamMemberFds data t),
        [ServerLog.replyCreated th user (newReply host user payload).body]⟩) :
    P (handleCreate host fd payload data) := by
  have hlength := h.length
  rw [handleCreate, withSession_of_some h.session, withContext_of_some h.context]
  dsimp only
  rcases level_cases hle with h0 | h1 | h2 | h3
  · rw [h0] at hlength
    have hlen : 32 + 255 ≤ payload.length := hlength
    rw [if_pos h0, if_neg (by omega)]
    exact team h0 hlen
  · rw [h1] at hlength
    have hlen : 32 + 255 ≤ payload.length := hlength
    obtain ⟨t, ht, hsub⟩ := h.member (by rw [h1]; decide)
    rw [if_neg (by rw [h1]; decide), if_pos h1, if_neg (by omega), withTeam_of_some ht,
      withSubscription_of_mem hsub]
    exact channel h1 hlen t
  · rw [h2] at hlength
    have hlen : 32 + 512 ≤ payload.length := hlength
    obtain ⟨t, ht, hsub⟩ := h.member (by rw [h2]; decide)
    rw [contextInfo_of_channel h2, Option.isSome_map] at hinfo
    obtain ⟨c, hc⟩ := Option.isSome_iff_exists.1 hinfo
    rw [if_neg (by rw [h2]; decide), if_neg (by rw [h2]; decide), if_pos h2, if_neg (by omega),
      withTeam_of_some ht, withSubscription_of_mem hsub,
      withChannel_of_some ((channel?_of_team ht).symm.trans hc)]
    exact thread h2 hlen t c.uuid
  · rw [h3] at hlength
    have hlen : 512 ≤ payload.length := hlength
    obtain ⟨t, ht, hsub⟩ := h.member (by rw [h3]; decide)
    rw [contextInfo_of_thread h3, Option.isSome_map] at hinfo
    obtain ⟨th, hth⟩ := Option.isSome_iff_exists.1 hinfo
    obtain ⟨c, hc, hfind⟩ := Option.bind_eq_some_iff.1 hth
    rw [if_neg (by rw [h3]; decide), if_neg (by rw [h3]; decide), if_neg (by rw [h3]; decide),
      if_pos h3, if_neg (by omega), withTeam_of_some ht, withSubscription_of_mem hsub,
      withChannel_of_some ((channel?_of_team ht).symm.trans hc), withThread_of_some hfind]
    exact reply h3 hlen t th.uuid

variable (host) in
/-- **What passes the checks is created**, whatever its name. -/
theorem handleCreate_creates (h : PassesCreate fd payload data user ctx) (hle : ctx.level.toNat ≤ 3)
    (hinfo : (contextInfo data user ctx).isSome) :
    (handleCreate host fd payload data).result.response.code =
    (createdResponse ctx.level).code := by
  refine h.elim (P := fun o ↦ o.result.response.code = (createdResponse ctx.level).code) hle hinfo
    (fun h0 _ ↦ ?_) (fun h1 _ _ ↦ ?_) (fun h2 _ _ _ ↦ ?_) fun h3 _ _ _ ↦ ?_
  · rw [h0]
    rfl
  · rw [h1]
    rfl
  · rw [h2]
    rfl
  · rw [h3]
    rfl

end Create

/-- Names stay distinct when the name of a creation is new. -/
theorem NamesDistinct.serves {host : Host} {fd : Fd} {payload : List UInt8} {data : ServerData}
    {cmd : Option Command} {a : Answer} (h : NamesDistinct data)
    (ha : Serves host fd payload data cmd a)
    (hnew : cmd = some .create → ¬ Duplicates fd payload data) : NamesDistinct a.data := by
  rw [namesDistinct_iff] at h ⊢
  rcases ha.forest with ⟨hcmd, user, ctx, hcreates⟩ | ⟨hsame, -⟩
  · rw [hcreates.forest]
    refine h.insertAt List.nodup_nil ?_
    have hold := h.listing Resource.key List.nodup_nil ctx.path
    rw [siblingNames, List.filterMap_append, List.nodup_append]
    refine ⟨hold, ?_, ?_⟩
    · rw [List.filterMap_cons, name_newResource hcreates]
      split_ifs <;> simp
    · rintro name hname name' hname' rfl
      rw [List.filterMap_cons, name_newResource hcreates] at hname'
      split_ifs at hname' with hthread
      · cases hname'
      · rw [List.mem_singleton.1 hname'] at hname
        exact hnew hcmd ⟨user, ctx, ⟨hcreates.session, hcreates.context, hcreates.length,
          hcreates.member⟩, hthread, hname⟩
  · rw [hsame]
    exact h

namespace Server

variable {host : ℕ → Host} {s : Server}

/-- A request for a name that is taken is granted, and the names are distinct no more. -/
theorem Reachable.not_namesDistinct (h : Reachable host s) {fd : Fd} {cmd : UInt16}
    {payload : List UInt8} (hcmd : Command.ofCode? cmd = some .create)
    (hdup : Duplicates fd payload s.data) :
    ¬ NamesDistinct (perform host (.frame fd cmd payload) s).data := by
  intro hdistinct
  obtain ⟨user, ctx, hpasses, hthread, hname⟩ := hdup
  obtain ⟨ctx', hctx', hinfo⟩ := h.exists_context hpasses.session
  obtain rfl := Option.some.inj (hpasses.context.symm.trans hctx')
  obtain ⟨a, hserves, hdata, hresult⟩ := exists_serves_frame host h.sessionsWf fd cmd payload
  have hcode : a.msg.code.code = (ServerCode.res (createdResponse ctx.level)).code := by
    have hcreate := handleCreate_creates (host s.served) hpasses
      (h.dataContexts.level fd ctx hctx') hinfo
    rw [frameOutcome_of_session hpasses.session hcmd, handle, extractSv_whole] at hresult
    rw [hresult] at hcreate
    exact hcreate
  rcases hserves.forest with ⟨-, user', ctx', hcreates⟩ | ⟨-, hnot⟩
  · obtain rfl := Option.some.inj (hpasses.context.symm.trans hcreates.context)
    rw [hdata, namesDistinct_iff, hcreates.forest] at hdistinct
    have hnodup := hdistinct.listing Resource.key List.nodup_nil ctx.path
    rw [listing_insertAt hcreates.place, if_pos (beq_self_eq_true _), siblingNames,
      List.filterMap_append, List.filterMap_cons, name_newResource hcreates, if_neg hthread,
      List.nodup_append] at hnodup
    exact hnodup.2.2 _ hname _ (List.mem_singleton_self _) rfl
  · exact hnot _ (createdResponse_mem ctx.level) (ServerCode.code_injective hcode)

/-! ### The law -/

/-- A step that asks for no name that is taken. -/
def FreshNameStep (host : ℕ → Host) (s s' : Server) : Prop :=
  ∃ a, s.Enabled a ∧ (a.request.1 = some .create → ¬ Duplicates a.fd a.request.2 s.data) ∧
    s' = perform host a s

/-- **The rule for a `CMD_CREATE`**: it leaves the names of siblings distinct, and if it asks for a
name that is taken it is answered by an empty `ERR_ALREADY_EXISTS` and changes nothing. -/
def KeepsNamesDistinct (host : ℕ → Host) (s : Server) (fd : Fd) (payload : List UInt8) : Prop :=
  NamesDistinct (perform host (.frame fd Command.create.code payload) s).data ∧
    (Duplicates fd payload s.data →
      newMessages fd s (perform host (.frame fd Command.create.code payload) s) =
          [makeMessage Error.alreadyExists.code []] ∧
        (perform host (.frame fd Command.create.code payload) s).data = s.data)

theorem namesDistinct_init : NamesDistinct ServerData.init where
  teams := List.nodup_nil
  channels t ht := by cases ht
  threads t ht := by cases ht

/-- **One step** that asks for no name that is taken keeps the names distinct. -/
theorem namesDistinct_perform (hwf : SessionsWf s.data) (h : NamesDistinct s.data) {a : Action}
    (hfresh : a.request.1 = some .create → ¬ Duplicates a.fd a.request.2 s.data) :
    NamesDistinct (perform host a s).data := by
  obtain ⟨answer, hserves, hdata⟩ | ⟨-, hdata⟩ := serves_perform host hwf a
  · rw [hdata]
    exact h.serves hserves hfresh
  · rw [hdata]
    exact h

/-- **When names are unique among siblings.** In every run that never asks for a name that is taken,
no two teams, no two channels of a team and no two threads of a channel ever have the same name; and
from a reachable state with distinct names, a `CMD_CREATE` obeys the rule if and only if the name it
asks for is not taken. -/
theorem sibling_names (host : ℕ → Host) :
    (∀ s, Relation.ReflTransGen (FreshNameStep host) Server.init s → NamesDistinct s.data) ∧
    ∀ s fd payload, Reachable host s → NamesDistinct s.data →
      s.Enabled (.frame fd Command.create.code payload) →
      (KeepsNamesDistinct host s fd payload ↔ ¬ Duplicates fd payload s.data) := by
  constructor
  · intro s hrun
    have hboth : Reachable host s ∧ NamesDistinct s.data := by
      induction hrun with
      | refl => exact ⟨Reachable.init, namesDistinct_init⟩
      | tail _ hstep ih =>
        obtain ⟨a, ha, hfresh, rfl⟩ := hstep
        exact ⟨ih.1.step ha, namesDistinct_perform ih.1.sessionsWf ih.2 hfresh⟩
    exact hboth.2
  · intro s fd payload h hdistinct ha
    have hcreate := Command.ofCode?_code .create
    refine ⟨fun hrule hdup ↦ h.not_namesDistinct hcreate hdup hrule.1, fun hfresh ↦ ⟨?_, ?_⟩⟩
    · exact namesDistinct_perform h.sessionsWf hdistinct fun _ ↦ hfresh
    · exact fun hdup ↦ absurd hdup hfresh

/-- A login, and a team on its way. -/
def loginThenCreate (payload : List UInt8) : List Action :=
  .accept 4 :: request 4 .login [0x61] ++ [.receive 4 (makeMessage Command.create.code payload)]

theorem freshName_execute {as : List Action} {s : Server} (h : Executable host as s)
    (hno : ∀ a ∈ as, a.request.1 ≠ some .create) :
    Relation.ReflTransGen (FreshNameStep host) s (execute host as s) :=
  reflTransGen_execute h fun a ha henabled ↦ ⟨a, henabled, fun hcmd ↦ absurd hcmd (hno a ha), rfl⟩

/-- A name that is not there yet. -/
theorem not_duplicates {fd : Fd} {payload : List UInt8} {data : ServerData} (ctx : ClientContext)
    (hctx : data.clientContexts[fd]? = some ctx)
    (hname : cut (payload.take 32) ∉ siblingNames (listing Resource.key ctx.path data.forest)) :
    ¬ Duplicates fd payload data := by
  rintro ⟨user, ctx', hpasses, -, htaken⟩
  obtain rfl := Option.some.inj (hctx.symm.trans hpasses.context)
  exact hname htaken

/-- A login, a team, and another team on its way. -/
def teamThenCreate (payload : List UInt8) : List Action :=
  loginThenCreate (List.replicate 287 0x62) ++
    [.frame 4 Command.create.code (List.replicate 287 0x62),
      .receive 4 (makeMessage Command.create.code payload)]

/-- A second team, of another name. -/
theorem sibling_names_teamThenCreate :
    let s := execute plainHost (teamThenCreate (List.replicate 287 0x63)) Server.init
    (s.data.teams.map (fun t ↦ cut t.name.toList) = [List.replicate 32 0x62] ∧
      NamesDistinct s.data) ∧
    KeepsNamesDistinct plainHost s 4 (List.replicate 287 0x63) := by
  intro s
  let s₁ := execute plainHost (loginThenCreate (List.replicate 287 0x62)) Server.init
  have hlogin : Executable plainHost (loginThenCreate (List.replicate 287 0x62)) Server.init := by
    decide +kernel
  have hreachable : Reachable plainHost s := reachable_execute (by decide +kernel)
  have hnew₁ : ¬ Duplicates 4 (List.replicate 287 0x62) s₁.data :=
    not_duplicates ClientContext.init (by decide +kernel) (by decide +kernel)
  have hnew : ¬ Duplicates 4 (List.replicate 287 0x63) s.data :=
    not_duplicates ClientContext.init (by decide +kernel) (by decide +kernel)
  obtain ⟨hruns, hsteps⟩ := sibling_names plainHost
  have hdistinct : NamesDistinct s.data := by
    have hrun := freshName_execute hlogin (by decide +kernel)
    have hteam : FreshNameStep plainHost s₁
        (perform plainHost (.frame 4 Command.create.code (List.replicate 287 0x62)) s₁) :=
      ⟨.frame 4 Command.create.code (List.replicate 287 0x62), by decide +kernel,
        fun _ ↦ hnew₁, rfl⟩
    have hnext : FreshNameStep plainHost
        (perform plainHost (.frame 4 Command.create.code (List.replicate 287 0x62)) s₁) s :=
      ⟨.receive 4 (makeMessage Command.create.code (List.replicate 287 0x63)), by decide +kernel,
        fun hcmd ↦ absurd hcmd (by decide), rfl⟩
    exact hruns s ((hrun.tail hteam).tail hnext)
  exact ⟨⟨by decide +kernel, hdistinct⟩,
    (hsteps s 4 _ hreachable hdistinct (by decide +kernel)).2 hnew⟩

/-- A second team of the same name is created. -/
theorem not_sibling_names_secondTeam :
    (¬ ∀ s, Reachable plainHost s → NamesDistinct s.data) ∧
      ¬ ∀ s fd payload, Reachable plainHost s → s.Enabled (.frame fd Command.create.code payload) →
        Duplicates fd payload s.data →
          newMessages fd s (perform plainHost (.frame fd Command.create.code payload) s) =
            [makeMessage Error.alreadyExists.code []] := by
  let s := execute plainHost (loginThenCreate (List.replicate 287 0x62) ++
    [.frame 4 Command.create.code (List.replicate 287 0x62),
      .receive 4 (makeMessage Command.create.code (List.replicate 287 0x62))]) Server.init
  have hreachable : Reachable plainHost s := reachable_execute (by decide +kernel)
  have hframe : s.Enabled (.frame 4 Command.create.code (List.replicate 287 0x62)) := by
    decide +kernel
  constructor
  · intro hdistinct
    have hteams := (hdistinct _ (hreachable.step hframe)).teams
    revert hteams
    decide +kernel
  · intro hrefuses
    have hsession : s.data.sessions[(4 : Fd)]? = some (plainUuid 0).str := by decide +kernel
    have hcontext : s.data.clientContexts[(4 : Fd)]? = some ClientContext.init := by decide +kernel
    have hpasses : PassesCreate 4 (List.replicate 287 0x62) s.data (plainUuid 0).str
        ClientContext.init :=
      ⟨hsession, hcontext, by decide +kernel, fun hne ↦ absurd rfl hne⟩
    have hname : cut ((List.replicate 287 0x62).take 32) ∈
        siblingNames (listing Resource.key ClientContext.init.path s.data.forest) := by
      decide +kernel
    have hanswer := hrefuses s 4 _ hreachable hframe ⟨_, _, hpasses, by decide, hname⟩
    revert hanswer
    decide +kernel

end Server

end MyTeams
