import MyTeams.Server.Contexts

/-!
# Who is shown the content of a team

Membership of a team is checked when a context is set, and again by `CMD_CREATE`, but not by
`CMD_LIST` and `CMD_INFO`: those two answer from the stored context alone. The context outlives the
membership when its user unsubscribes, so the rule that a team is shown to its subscribers only
holds exactly as long as nobody unsubscribes from a team that one of his own connections is in.
-/

namespace MyTeams

open FirstMatch

/-! ### Membership along changes -/

/-- No team lists a member twice. -/
def MembersNodup (data : ServerData) : Prop := ∀ t ∈ data.teams, t.memberUuids.Nodup

theorem mem_teams_of_findTeam {data : ServerData} {uuid : Str} {t : Team}
    (h : findTeamByUuid data uuid = some t) : t ∈ data.teams := by
  rw [findTeamByUuid_eq (isUuid36_of_findTeam h)] at h
  exact List.mem_of_find?_eq_some h

theorem str_of_findTeamByUuid {data : ServerData} {uuid : Str} {t : Team}
    (h : findTeamByUuid data uuid = some t) : t.uuid.str = uuid := by
  rw [findTeamByUuid_eq (isUuid36_of_findTeam h)] at h
  exact eq_of_beq (List.find?_some h :)

/-- A write to a team keeps a law of all teams when it does so for the team it reaches. -/
theorem forall_teams_updateTeam {P : Team → Prop} {data : ServerData} (h : ∀ t ∈ data.teams, P t)
    {uuid36 : Str} {f : Team → Team}
    (hf : ∀ t ∈ data.teams, data.teams.find? (fun t ↦ t.uuid.str == uuid36) = some t → P (f t)) :
    ∀ t ∈ (updateTeam data uuid36 f).teams, P t := by
  intro t ht
  rcases mem_updateFirst ht with ht | ⟨t, hfind, rfl⟩
  · exact h t ht
  · exact hf t (List.mem_of_find?_eq_some hfind) hfind

theorem MembersNodup.change {fd : Fd} {payload : List UInt8} {data after : ServerData}
    {cmd : Option Command} (h : MembersNodup data) (hchange : Change fd payload data cmd after) :
    MembersNodup after := by
  cases hchange with
  | addMember _ _ hteam hsub =>
    refine forall_teams_updateTeam h fun t ht hfind ↦ ?_
    rw [findTeamByUuid_eq (isUuid36_of_findTeam hteam), hfind] at hteam
    obtain rfl := Option.some.inj hteam
    rw [List.nodup_append]
    refine ⟨h t ht, List.nodup_singleton _, ?_⟩
    rintro u hu v hv rfl
    rw [List.mem_singleton.1 hv] at hu
    exact hsub hu
  | removeMember => exact forall_teams_updateTeam h fun t ht _ ↦ (h t ht).erase _
  | addTeam _ hmembers =>
    intro t ht
    rcases List.mem_append.1 ht with ht | ht
    · exact h t ht
    · rw [List.mem_singleton.1 ht, hmembers]
      exact List.nodup_singleton _
  | addChannel => exact forall_teams_updateTeam h fun t ht _ ↦ h t ht
  | addThread => exact forall_teams_updateTeam h fun t ht _ ↦ h t ht
  | addReply => exact forall_teams_updateTeam h fun t ht _ ↦ h t ht
  | _ => exact h

/-- Membership of `user` in the team that `uuid` finds. -/
def IsMember (data : ServerData) (uuid user : Str) : Prop :=
  ∃ t, findTeamByUuid data uuid = some t ∧ user ∈ t.memberUuids

/-- A write that takes nobody out of the team takes nobody out of any team. -/
theorem IsMember.updateTeam {data : ServerData} {uuid user uuid36 : Str} {f : Team → Team}
    (h : IsMember data uuid user) (hkey : ∀ t, (f t).uuid.str = t.uuid.str)
    (hf : ∀ t, uuid36 = uuid → user ∈ t.memberUuids → user ∈ (f t).memberUuids) :
    IsMember (updateTeam data uuid36 f) uuid user := by
  obtain ⟨t, ht, hu⟩ := h
  refine ⟨_, findTeamByUuid_updateTeam uuid36 hkey ht, ?_⟩
  split_ifs with huuid
  · exact hf t (eq_of_beq huuid) hu
  · exact hu

/-- Membership is lost only by an own `CMD_UNSUBSCRIBE`. -/
theorem IsMember.change {fd : Fd} {payload : List UInt8} {data after : ServerData}
    {cmd : Option Command} {uuid user : Str} (h : IsMember data uuid user)
    (hchange : Change fd payload data cmd after)
    (hkeep : cmd = some .unsubscribe → data.sessions[fd]? = some user →
      Server.extractSv payload 0 36 ≠ uuid) : IsMember after uuid user := by
  cases hchange with
  | addMember =>
    exact h.updateTeam (fun _ ↦ rfl) fun t _ hu ↦ List.mem_append_left _ hu
  | removeMember hs huuid =>
    refine h.updateTeam (fun _ ↦ rfl) fun t heq hu ↦ ?_
    refine (List.mem_erase_of_ne ?_).2 hu
    rintro rfl
    exact hkeep rfl hs (huuid.symm.trans heq)
  | addTeam =>
    obtain ⟨t, ht, hu⟩ := h
    have hlen := isUuid36_of_findTeam ht
    rw [findTeamByUuid_eq hlen] at ht
    exact ⟨t, by rw [findTeamByUuid_eq hlen]; exact find?_append_of_some ht _, hu⟩
  | addChannel => exact h.updateTeam (fun _ ↦ rfl) fun _ _ hu ↦ hu
  | addThread => exact h.updateTeam (fun _ ↦ rfl) fun _ _ hu ↦ hu
  | addReply => exact h.updateTeam (fun _ ↦ rfl) fun _ _ hu ↦ hu
  | _ => exact h

theorem findTeamByUuid_removeMember {data : ServerData} {uuid user : Str} {t : Team}
    (h : findTeamByUuid data uuid = some t) :
    findTeamByUuid (removeMember data uuid user) uuid =
      some { t with memberUuids := t.memberUuids.erase user } := by
  have hfind := findTeamByUuid_updateTeam
    (f := fun t ↦ { t with memberUuids := t.memberUuids.erase user }) uuid (fun _ ↦ rfl) h
  rwa [if_pos (beq_self_eq_true uuid)] at hfind

/-! ### Contexts of members -/

/-- Every context below `USE_NONE` is in a team of which the session's user is a member. -/
def Confined (data : ServerData) : Prop :=
  ∀ (fd : Fd) (u : Str) (ctx : ClientContext), data.sessions[fd]? = some u →
    data.clientContexts[fd]? = some ctx → ctx.level ≠ useNone → IsMember data ctx.teamUuid.toList u

/-- No connection of a user who unsubscribes has its context in the team that he leaves. -/
def LeavesNoContext (fd : Fd) (payload : List UInt8) (data : ServerData) : Prop :=
  ∀ u : Str, data.sessions[fd]? = some u →
    ∀ (d : Fd) (ctx : ClientContext), data.sessions[d]? = some u →
      data.clientContexts[d]? = some ctx → ctx.level ≠ useNone →
        ctx.teamUuid.toList ≠ Server.extractSv payload 0 36

/-- Confinement is kept by every change but an unsubscription that leaves a context behind. -/
theorem Confined.change {fd : Fd} {payload : List UInt8} {data after : ServerData}
    {cmd : Option Command} (h : Confined data) (hchange : Change fd payload data cmd after)
    (hleave : cmd = some .unsubscribe → LeavesNoContext fd payload data) : Confined after := by
  intro d u ctx hs hctx hlevel
  by_cases hold : data.sessions[d]? = some u ∧ data.clientContexts[d]? = some ctx
  · refine (h d u ctx hold.1 hold.2 hlevel).change hchange fun hcmd hfd heq ↦ ?_
    exact hleave hcmd u hfd d ctx hold.1 hold.2 hlevel heq.symm
  -- otherwise the session or the context is new, and it is that of the requesting connection
  obtain rfl : d = fd := by
    by_contra hd
    rw [hchange.sessions_of_ne hd] at hs
    rw [hchange.contexts_of_ne hd] at hctx
    exact hold ⟨hs, hctx⟩
  cases hchange with
  | login =>
    rw [loginData, IntMap.get_insert_self] at hctx
    rw [← Option.some.inj hctx] at hlevel
    exact absurd rfl hlevel
  | logout =>
    rw [logoutData, IntMap.get_erase_self] at hs
    cases hs
  | use hs' hreq hgrant =>
    rw [IntMap.get_insert_self] at hctx
    obtain rfl := Option.some.inj hctx
    obtain rfl := Option.some.inj (hs.symm.trans hs')
    obtain ⟨-, hnone | hmember⟩ := hgrant
    · exact absurd hnone hlevel
    · exact hmember
  | _ => exact absurd ⟨hs, hctx⟩ hold

theorem confined_init : Confined ServerData.init := by
  intro fd u ctx hs
  simp [ServerData.init] at hs

namespace Server

variable {host : ℕ → Host} {s : Server}

/-- **The rule for the content of teams**: whenever `CMD_LIST` or `CMD_INFO` on a context in a team
is not answered by an error, the session's user is a member of that team. -/
def DisclosesToMembers (s : Server) : Prop :=
  ∀ (fd : Fd) (u : Str) (ctx : ClientContext), s.data.sessions[fd]? = some u →
    s.data.clientContexts[fd]? = some ctx → ctx.level ∈ [useTeam, useChannel, useThread] →
    ∀ handler ∈ [handleList, handleInfo],
      (∀ e : Error, (handler fd s.data).result.response.code ≠ e.code) →
        IsMember s.data ctx.teamUuid.toList u

/-- As neither request ever fails, the rule is confinement. -/
theorem Reachable.disclosesToMembers_iff (h : Reachable host s) :
    DisclosesToMembers s ↔ Confined s.data := by
  constructor
  · intro hrule fd u ctx hs hctx hlevel
    refine hrule fd u ctx hs hctx ?_ handleList List.mem_cons_self (h.handleList_code hs)
    rcases level_cases (h.registry.level fd ctx hctx) with hnone | hrest
    · exact absurd hnone hlevel
    · simpa using hrest
  · intro hconfined fd u ctx hs hctx hlevel _ _ _
    refine hconfined fd u ctx hs hctx ?_
    rintro hnone
    rw [hnone] at hlevel
    exact absurd hlevel (by decide)

theorem Reachable.membersNodup (h : Reachable host s) : MembersNodup s.data := by
  have hboth := h.data_induction (P := fun data ↦ DataRegistry data ∧ MembersNodup data)
    (fun h ↦ h.1.sessionsWf) ⟨dataRegistry_init, fun t ht ↦ by cases ht⟩
    fun hd hc ↦ ⟨hd.1.change hc, hd.2.change hc⟩
  exact hboth.2

/-- The step condition: if the action is an unsubscription, it leaves no context behind. -/
def Tidy (s : Server) (a : Action) : Prop :=
  a.request.1 = some .unsubscribe → LeavesNoContext a.fd a.request.2 s.data

/-- An unsubscription of a member takes him out of the team. -/
theorem handleUnsubscribe_data {fd : Fd} {data : ServerData} {teamUuid user : Str} {team : Team}
    (hs : data.sessions[fd]? = some user) (hteam : findTeamByUuid data teamUuid = some team)
    (hsub : user ∈ team.memberUuids) :
    (handleUnsubscribe fd teamUuid data).data = removeMember data teamUuid user := by
  rw [handleUnsubscribe, withSession_of_some hs, withUuid36_of_length (isUuid36_of_findTeam hteam),
    withTeam_of_some hteam, withSubscription_of_mem hsub]

theorem frameOutcome_of_session {env : Host} {fd : Fd} {code : UInt16} {cmd : Command}
    {payload : List UInt8} {data : ServerData} {user : Str} (hs : data.sessions[fd]? = some user)
    (hcmd : Command.ofCode? code = some cmd) :
    frameOutcome env fd code payload data = handle env fd cmd payload data := by
  rw [frameOutcome, if_neg (by rw [hs]; simp), hcmd]

/-- **One step**: from a state that keeps the rule, the next one keeps it exactly when the step is
tidy. -/
theorem confined_perform_iff (h : Reachable host s) (hconfined : Confined s.data) (a : Action) :
    Confined (perform host a s).data ↔ Tidy s a := by
  refine ⟨fun hafter hcmd u hfd d ctx hs hctx hlevel heq ↦ ?_, fun htidy ↦
    hconfined.change (change_perform h.sessionsWf a) htidy⟩
  cases a with
  | frame fd cmd payload =>
    change s.data.sessions[fd]? = some u at hfd
    obtain ⟨t, ht, hu⟩ := hconfined d u ctx hs hctx hlevel
    have hdata : (perform host (.frame fd cmd payload) s).data =
        removeMember s.data ctx.teamUuid.toList u := by
      rw [perform_frame_data, frameOutcome_of_session hfd hcmd, heq]
      exact handleUnsubscribe_data hfd (heq ▸ ht) hu
    rw [hdata] at hafter
    obtain ⟨t', ht', hu'⟩ := hafter d u ctx hs hctx hlevel
    rw [findTeamByUuid_removeMember ht] at ht'
    rw [← Option.some.inj ht'] at hu'
    exact (h.membersNodup t (mem_teams_of_findTeam ht)).not_mem_erase hu'
  | _ => cases hcmd

/-- A tidy step. -/
def TidyStep (host : ℕ → Host) (s s' : Server) : Prop :=
  ∃ a, s.Enabled a ∧ s.Tidy a ∧ s' = perform host a s

/-- A run without unsubscriptions is tidy. -/
theorem tidy_execute {as : List Action} {s : Server} (h : Executable host as s)
    (hno : ∀ a ∈ as, a.request.1 ≠ some .unsubscribe) :
    Relation.ReflTransGen (TidyStep host) s (execute host as s) :=
  reflTransGen_execute h fun a ha henabled ↦ ⟨a, henabled, fun hcmd ↦ absurd hcmd (hno a ha), rfl⟩

/-- **When teams are disclosed to their members only.** In every run whose unsubscriptions all leave
no context behind, the rule holds in every state; and from a reachable state that keeps the rule, a
step keeps it if and only if it is such a step. -/
theorem disclosesToMembers_of_tidy (host : ℕ → Host) :
    (∀ s, Relation.ReflTransGen (TidyStep host) Server.init s → DisclosesToMembers s) ∧
    ∀ s a, Reachable host s → DisclosesToMembers s → s.Enabled a →
      (DisclosesToMembers (perform host a s) ↔ s.Tidy a) := by
  constructor
  · intro s hrun
    have hboth : Reachable host s ∧ Confined s.data := by
      induction hrun with
      | refl => exact ⟨Reachable.init, confined_init⟩
      | tail _ hstep ih =>
        obtain ⟨a, ha, htidy, rfl⟩ := hstep
        exact ⟨ih.1.step ha, (confined_perform_iff ih.1 ih.2 a).2 htidy⟩
    exact hboth.1.disclosesToMembers_iff.2 hboth.2
  · intro s a h hrule ha
    rw [(h.step ha).disclosesToMembers_iff]
    exact confined_perform_iff h (h.disclosesToMembers_iff.1 hrule) a

/-- A user who has entered a team keeps the rule, and keeps it in the next step if that one is
tidy. -/
theorem disclosesToMembers_enterTeam :
    DisclosesToMembers (execute plainHost enterTeam Server.init) ∧
      (DisclosesToMembers
          (perform plainHost (.disconnect 4) (execute plainHost enterTeam Server.init)) ↔
        Tidy (execute plainHost enterTeam Server.init) (.disconnect 4)) := by
  have hexecutable : Executable plainHost enterTeam Server.init := by decide +kernel
  obtain ⟨hruns, hsteps⟩ := disclosesToMembers_of_tidy plainHost
  have hrule := hruns _ (tidy_execute hexecutable (by decide +kernel))
  exact ⟨hrule, hsteps _ _ (reachable_execute hexecutable) hrule (by decide +kernel)⟩

/-- The user of `enterTeam` unsubscribes from the team his connection is in: he is still shown its
channels. -/
theorem not_disclosesToMembers_after_unsubscribe :
    ¬ ∀ s, Reachable plainHost s → DisclosesToMembers s := by
  intro hrule
  let s := execute plainHost (enterTeam ++ request 4 .unsubscribe (plainUuid 1).str) Server.init
  have hreachable : Reachable plainHost s := reachable_execute (by decide +kernel)
  have hsession : s.data.sessions[(4 : Fd)]? = some (plainUuid 0).str := by decide +kernel
  have hcontext : s.data.clientContexts[(4 : Fd)]? =
      some { ClientContext.init with level := useTeam, teamUuid := (plainUuid 1).bytes } := by
    decide +kernel
  have hcode : (handleList 4 s.data).result.response.code = Response.listChannels.code := by
    decide +kernel
  have hmembers : (findTeamByUuid s.data (plainUuid 1).str).map Team.memberUuids = some [] := by
    decide +kernel
  obtain ⟨t, ht, hu⟩ := hrule s hreachable 4 _ _ hsession hcontext List.mem_cons_self handleList
    List.mem_cons_self fun e ↦ hcode ▸ res_code_ne_err_code .listChannels e
  change findTeamByUuid s.data (plainUuid 1).str = some t at ht
  rw [ht, Option.map_some] at hmembers
  rw [Option.some.inj hmembers] at hu
  cases hu

end Server

end MyTeams
