import MyTeams.Server.Conversations
import MyTeams.Server.Siblings

/-!
# Membership is a set

The member lists are vectors of uuids, and three requests read them in three ways: `CMD_UNSUBSCRIBE`
erases the first match, `CMD_SUBSCRIBED` filters the teams by a search, and `CMD_SUBSCRIBED` for one
team lists the users that its uuids resolve to, dropping those that resolve to none. The views agree
because no list has duplicates, every uuid in one resolves, and no two teams have the same uuid. The
last is where `uuid_generate` comes in: the uuids it supplied so far are assumed distinct
(`FreshUuids`).
-/

namespace MyTeams

open FirstMatch ByteField

/-! ### Members are users -/

/-- Every member of a team is one of the users. -/
def MembersKnown (data : ServerData) : Prop :=
  ∀ t ∈ data.teams, ∀ v ∈ t.memberUuids, ∃ uuid ∈ data.users.map User.uuid, v = uuid.str

theorem MembersKnown.change {fd : Fd} {payload : List UInt8} {data after : ServerData}
    {cmd : Option Command} (hregistry : DataRegistry data) (h : MembersKnown data)
    (hchange : Change fd payload data cmd after) : MembersKnown after := by
  cases hchange with
  | login huuids =>
    obtain ⟨l, hl⟩ := huuids
    intro t ht v hv
    obtain ⟨uuid, huuid, rfl⟩ := h t ht v hv
    exact ⟨uuid, by rw [loginData, hl]; exact List.mem_append_left l huuid, rfl⟩
  | logout =>
    intro t ht v hv
    rw [uuids_logout]
    exact h t ht v hv
  | addMember hs =>
    refine forall_teams_updateTeam h fun t ht _ v hv ↦ ?_
    rcases List.mem_append.1 hv with hv | hv
    · exact h t ht v hv
    · rw [List.mem_singleton.1 hv]
      exact hregistry.session fd _ hs
  | removeMember =>
    exact forall_teams_updateTeam h fun t ht _ v hv ↦ h t ht v (List.mem_of_mem_erase hv)
  | addTeam hs hmembers =>
    intro t ht v hv
    rcases List.mem_append.1 ht with ht | ht
    · exact h t ht v hv
    · rw [List.mem_singleton.1 ht, hmembers] at hv
      rw [List.mem_singleton.1 hv]
      exact hregistry.session fd _ hs
  | addChannel => exact forall_teams_updateTeam h fun t ht _ ↦ h t ht
  | addThread => exact forall_teams_updateTeam h fun t ht _ ↦ h t ht
  | addReply => exact forall_teams_updateTeam h fun t ht _ ↦ h t ht
  | _ => exact h

theorem MembersKnown.exists_find {data : ServerData} (h : MembersKnown data) {t : Team}
    (ht : t ∈ data.teams) {v : Str} (hv : v ∈ t.memberUuids) :
    ∃ u, findUserByUuid data v = some u := by
  obtain ⟨uuid, huuid, rfl⟩ := h t ht v hv
  obtain ⟨u, hu, rfl⟩ := List.mem_map.1 huuid
  exact Server.exists_findUserByUuid ⟨u, hu, rfl⟩

/-- Uuids that all resolve are those of the users they resolve to. -/
theorem map_filterMap_findUser {data : ServerData} {l : List Str}
    (h : ∀ v ∈ l, ∃ u, findUserByUuid data v = some u) :
    (l.filterMap (findUserByUuid data)).map (fun u ↦ u.uuid.str) = l := by
  induction l with
  | nil => rfl
  | cons v l ih =>
    obtain ⟨hv, hl⟩ := List.forall_mem_cons.1 h
    obtain ⟨u, hu⟩ := hv
    rw [List.filterMap_cons_some hu, List.map_cons, ih hl, str_of_findUserByUuid hu]

/-! ### The three requests -/

section Requests

variable {fd : Fd} {data : ServerData} {user : Str} {t : Team}

theorem handleSubscribe_of_not_mem {uuid : Str} (hs : data.sessions[fd]? = some user)
    (ht : findTeamByUuid data uuid = some t) (hsub : user ∉ t.memberUuids) :
    (handleSubscribe fd uuid data).data = addMember data uuid user := by
  have hnot : isSubscribedTo t user = false := by
    rw [← Bool.not_eq_true, isSubscribedTo_iff]
    exact hsub
  rw [handleSubscribe, withSession_of_some hs, withUuid36_of_length (isUuid36_of_findTeam ht),
    withTeam_of_some ht]
  dsimp only
  rw [hnot]
  rfl

/-- A subscription that is there already changes nothing. -/
theorem handleSubscribe_of_mem {uuid : Str} (hs : data.sessions[fd]? = some user)
    (ht : findTeamByUuid data uuid = some t) (hsub : user ∈ t.memberUuids) :
    handleSubscribe fd uuid data =
      Outcome.answer data .subscribeOk (appendFixed [] t.uuid.bytes.toList 36) := by
  rw [handleSubscribe, withSession_of_some hs, withUuid36_of_length (isUuid36_of_findTeam ht),
    withTeam_of_some ht]
  dsimp only
  rw [isSubscribedTo_iff.2 hsub]
  rfl

/-- A user who joins a team and leaves it again leaves the member lists as they were. -/
theorem removeMember_addMember {uuid : Str} (ht : findTeamByUuid data uuid = some t)
    (hsub : user ∉ t.memberUuids) : removeMember (addMember data uuid user) uuid user = data := by
  have hteams : (removeMember (addMember data uuid user) uuid user).teams = data.teams := by
    show updateFirst (fun t ↦ t.uuid.str == uuid) _
      (updateFirst (fun t ↦ t.uuid.str == uuid) _ data.teams) = data.teams
    refine Eq.trans (updateFirst_updateFirst ?_ data.teams) (updateFirst_eq_self fun t' ht' ↦ ?_)
    · exact fun _ ↦ rfl
    · rw [findTeamByUuid_eq (isUuid36_of_findTeam ht)] at ht
      obtain rfl := Option.some.inj (ht.symm.trans ht')
      rw [List.erase_append_right _ hsub, List.erase_cons_head, List.append_nil]
  calc removeMember (addMember data uuid user) uuid user =
        { data with teams := (removeMember (addMember data uuid user) uuid user).teams } := rfl
    _ = data := by rw [hteams]

theorem handleSubscribedTeams_of_session (hs : data.sessions[fd]? = some user) :
    handleSubscribedTeams fd data = Outcome.answer data .subscribedTeams
      (listBytes DescribedRecord.bytes
        ((data.teams.filter fun t ↦ isSubscribedTo t user).map Team.record)) := by
  rw [handleSubscribedTeams, withSession_of_some hs]
  exact congrArg (Outcome.answer data .subscribedTeams)
    (foldl_append_eq_listBytes appendTeam_eq _)

theorem handleSubscribedUsers_of_mem {uuid : Str} (hs : data.sessions[fd]? = some user)
    (ht : findTeamByUuid data uuid = some t) (hsub : user ∈ t.memberUuids) :
    handleSubscribedUsers fd uuid data = Outcome.answer data .subscribedUsers
      (listBytes UserRecord.bytes
        ((t.memberUuids.filterMap (findUserByUuid data)).map (User.record data))) := by
  rw [handleSubscribedUsers, withSession_of_some hs, withUuid36_of_length (isUuid36_of_findTeam ht),
    withTeam_of_some ht, withSubscription_of_mem hsub]
  exact congrArg (Outcome.answer data .subscribedUsers)
    (foldl_append_eq_listBytes (appendUser_eq data) _)

theorem handleSubscribedUsers_of_not_mem {uuid : Str} (hs : data.sessions[fd]? = some user)
    (ht : findTeamByUuid data uuid = some t) (hsub : user ∉ t.memberUuids) :
    handleSubscribedUsers fd uuid data = Outcome.error data .notSubscribed [] := by
  rw [handleSubscribedUsers, withSession_of_some hs, withUuid36_of_length (isUuid36_of_findTeam ht),
    withTeam_of_some ht, withSubscription_of_not_mem hsub]

end Requests

/-- The responses that say that the session's user is, or is not, a member of a team now. -/
def membershipResponses : List Response := [.subscribeOk, .unsubscribeOk, .teamCreated]

/-- **What the membership responses say**: which of the three it was, and what it did. -/
theorem Serves.membership_cases {host : Host} {fd : Fd} {payload : List UInt8} {data : ServerData}
    {cmd : Option Command} {a : Answer} (h : Serves host fd payload data cmd a) :
    (a.msg.code = .res .subscribeOk ∧ ∃ user team, data.sessions[fd]? = some user ∧
      findTeamByUuid data (Server.extractSv payload 0 36) = some team ∧
      (user ∉ team.memberUuids ∧ a.data = addMember data (Server.extractSv payload 0 36) user ∨
        user ∈ team.memberUuids ∧ a.data = data)) ∨
    (a.msg.code = .res .unsubscribeOk ∧ ∃ user team, data.sessions[fd]? = some user ∧
      findTeamByUuid data (Server.extractSv payload 0 36) = some team ∧
      a.data = removeMember data (Server.extractSv payload 0 36) user) ∨
    (a.msg.code = .res .teamCreated ∧ ∃ user, data.sessions[fd]? = some user ∧
      a.data = addTeam data (newTeam host user payload)) ∨
    ∀ r ∈ membershipResponses, a.msg.code ≠ .res r := by
  have hother {r : Response} (hr : r ∉ membershipResponses) (r' : Response)
      (hr' : r' ∈ membershipResponses) : ServerCode.res r ≠ .res r' := by
    rintro ⟨⟩
    exact hr hr'
  have hinfoResponse (level : UInt8) : infoResponse level ∉ membershipResponses := by
    rw [infoResponse]
    split_ifs <;> decide
  have hlistResponse (level : UInt8) : listResponse level ∉ membershipResponses := by
    rw [listResponse]
    split_ifs <;> decide
  cases h with
  | subscribe hs huuid hteam hsub =>
    subst huuid
    exact .inl ⟨rfl, _, _, hs, hteam, .inl ⟨hsub, rfl⟩⟩
  | resubscribe hs huuid hteam hsub =>
    subst huuid
    exact .inl ⟨rfl, _, _, hs, hteam, .inr ⟨hsub, rfl⟩⟩
  | unsubscribe hs huuid hteam hsub =>
    subst huuid
    exact .inr (.inl ⟨rfl, _, _, hs, hteam, rfl⟩)
  | createTeam hs hctx hlevel hlen hnew =>
    subst hnew
    exact .inr (.inr (.inl ⟨rfl, _, hs, rfl⟩))
  | use hs hreq hgrant hinfo =>
    refine .inr (.inr (.inr ?_))
    rw [Answer.only, contextInfo_code hinfo]
    exact hother (hinfoResponse _)
  | list hs hctx hlist =>
    refine .inr (.inr (.inr ?_))
    rw [Answer.only, contextList_code hlist]
    exact hother (hlistResponse _)
  | info hs hctx hinfo =>
    refine .inr (.inr (.inr ?_))
    rw [Answer.only, contextInfo_code hinfo]
    exact hother (hinfoResponse _)
  | unauthorized | unknown | refused | dangling => exact .inr (.inr (.inr fun _ _ h ↦ by cases h))
  | _ => exact .inr (.inr (.inr (hother (by decide))))

/-- The uuids of the teams, in their order. -/
def teamUuids (data : ServerData) : List Uuid := data.teams.map Team.uuid

theorem teamUuids_updateTeam (data : ServerData) (uuid36 : Str) {f : Team → Team}
    (hf : ∀ t, (f t).uuid = t.uuid) : teamUuids (updateTeam data uuid36 f) = teamUuids data :=
  map_updateFirst hf data.teams

/-- **What a frame does to the uuids of the teams**: a creation adds the one that was supplied. -/
theorem Serves.teamUuids_cases {host : Host} {fd : Fd} {payload : List UInt8} {data : ServerData}
    {cmd : Option Command} {a : Answer} (h : Serves host fd payload data cmd a) :
    teamUuids a.data = teamUuids data ∨
      cmd = some .create ∧ teamUuids a.data = teamUuids data ++ [host.newUuid] := by
  cases h with
  | loginKnown _ hafter | loginNew _ _ hafter | logout _ hafter =>
    subst hafter
    exact .inl rfl
  | createTeam _ _ _ _ hnew =>
    subst hnew
    exact .inr ⟨rfl, List.map_append⟩
  | subscribe | unsubscribe | createChannel | createThread | createReply =>
    exact .inl (teamUuids_updateTeam _ _ fun _ ↦ rfl)
  | _ => exact .inl rfl

/-- When no two teams have the same uuid, a team is found by its own. -/
theorem findTeamByUuid_of_mem {data : ServerData} (hnodup : (teamUuids data).Nodup) {t : Team}
    (ht : t ∈ data.teams) : findTeamByUuid data t.uuid.str = some t := by
  rw [findTeamByUuid_eq t.uuid.length_str]
  rcases hfind : data.teams.find? fun t' ↦ t'.uuid.str == t.uuid.str with - | t'
  · exact absurd (beq_self_eq_true _) (List.find?_eq_none.1 hfind t ht)
  · have hmatch := List.find?_some (p := fun t' : Team ↦ t'.uuid.str == t.uuid.str) hfind
    exact hfind.trans (congrArg some (List.inj_on_of_nodup_map hnodup
      (List.mem_of_find?_eq_some hfind) ht (Uuid.str_injective (eq_of_beq hmatch))))

namespace Server

variable {host : ℕ → Host} {s : Server}

/-! ### Fresh uuids -/

/-- The uuids supplied for the first `n` frames are distinct. -/
def FreshUuids (host : ℕ → Host) (n : ℕ) : Prop :=
  ∀ i j, i < n → j < n → (host i).newUuid = (host j).newUuid → i = j

/-- Each of the uuids that `f` collects was supplied for a request, and at most one for each. -/
structure CollectsUuids (f : ServerData → List Uuid) : Prop where
  init : f ServerData.init = []
  serves : ∀ {host fd payload data cmd a}, Serves host fd payload data cmd a →
    f a.data = f data ∨ (∃ c, cmd = some c ∧ c ≠ .logout) ∧ f a.data = f data ++ [host.newUuid]

/-- The uuids collected were supplied for different frames. -/
theorem CollectsUuids.exists_indices {f : ServerData → List Uuid} (hf : CollectsUuids f)
    (h : Reachable host s) :
    ∃ indices : List ℕ, indices.Nodup ∧ (∀ i ∈ indices, i < s.served) ∧
      f s.data = indices.map fun i ↦ (host i).newUuid := by
  refine h.induction (P := fun s ↦ ∃ indices : List ℕ, indices.Nodup ∧
    (∀ i ∈ indices, i < s.served) ∧
    f s.data = indices.map fun i ↦ (host i).newUuid)
    ⟨[], List.nodup_nil, by simp, hf.init⟩ fun {s a} hs ih _ ↦ ?_
  obtain ⟨indices, hnodup, hlt, huuids⟩ := ih
  have hle : s.served ≤ (perform host a s).served := by
    rw [served_perform]
    exact Nat.le_add_right _ _
  have hkeep (hsame : f (perform host a s).data = f s.data) :
      ∃ indices : List ℕ, indices.Nodup ∧ (∀ i ∈ indices, i < (perform host a s).served) ∧
        f (perform host a s).data = indices.map fun i ↦ (host i).newUuid :=
    ⟨indices, hnodup, fun i hi ↦ (hlt i hi).trans_le hle, hsame.trans huuids⟩
  obtain ⟨answer, hserves, hdata⟩ | ⟨-, hdata⟩ := serves_perform host hs.sessionsWf a
  · rcases hf.serves hserves with hsame | ⟨⟨c, hcmd, hlogout⟩, hnew⟩
    · exact hkeep (by rw [hdata, hsame])
    -- a frame supplies at most one uuid, and its own number is new
    · have hserved : (perform host a s).served = s.served + 1 := by
        rw [Action.eq_frame_of_request hcmd hlogout, served_perform]
        rfl
      refine ⟨indices ++ [s.served], ?_, fun i hi ↦ ?_, ?_⟩
      · rw [List.nodup_append]
        refine ⟨hnodup, List.nodup_singleton _, fun i hi j hj ↦ ?_⟩
        rw [List.mem_singleton.1 hj]
        exact Nat.ne_of_lt (hlt i hi)
      · rw [hserved]
        rcases List.mem_append.1 hi with hi | hi
        · exact Nat.lt_succ_of_lt (hlt i hi)
        · rw [List.mem_singleton.1 hi]
          exact Nat.lt_succ_self _
      · rw [hdata, hnew, huuids, List.map_append]
        rfl
  · exact hkeep (by rw [hdata])

/-- With fresh uuids they are distinct. -/
theorem CollectsUuids.nodup {f : ServerData → List Uuid} (hf : CollectsUuids f)
    (h : Reachable host s) (hfresh : FreshUuids host s.served) : (f s.data).Nodup := by
  obtain ⟨indices, hnodup, hlt, huuids⟩ := hf.exists_indices h
  rw [huuids]
  exact hnodup.map_on fun i hi j hj ↦ hfresh i j (hlt i hi) (hlt j hj)

theorem collectsUuids_teamUuids : CollectsUuids teamUuids :=
  ⟨rfl, fun h ↦ h.teamUuids_cases.imp_right fun ⟨hcmd, hnew⟩ ↦ ⟨⟨_, hcmd, by decide⟩, hnew⟩⟩

theorem Reachable.nodup_teamUuids (h : Reachable host s) (hfresh : FreshUuids host s.served) :
    (teamUuids s.data).Nodup := collectsUuids_teamUuids.nodup h hfresh

/-- With fresh uuids, membership of a team is membership of the team that its uuid finds. -/
theorem Reachable.isMember_iff (h : Reachable host s) (hfresh : FreshUuids host s.served) {t : Team}
    (ht : t ∈ s.data.teams) {user : Str} :
    IsMember s.data t.uuid.str user ↔ user ∈ t.memberUuids := by
  have hfind := findTeamByUuid_of_mem (h.nodup_teamUuids hfresh) ht
  constructor
  · rintro ⟨t', ht', hu⟩
    rwa [Option.some.inj (hfind.symm.trans ht')]
  · exact fun hu ↦ ⟨t, hfind, hu⟩

theorem Reachable.membersKnown (h : Reachable host s) : MembersKnown s.data := by
  have hboth := h.data_induction (P := fun data ↦ DataRegistry data ∧ MembersKnown data)
    (fun h ↦ h.1.sessionsWf) ⟨dataRegistry_init, fun t ht ↦ by cases ht⟩
    fun hd hc ↦ ⟨hd.1.change hc, hd.2.change hd.1 hc⟩
  exact hboth.2

/-! ### The laws -/

variable (host s) in
/-- The code of the response to a frame. -/
def responseCode (fd : Fd) (code : UInt16) (payload : List UInt8) : UInt16 :=
  (frameOutcome (host s.served) fd code payload s.data).result.response.code

/-- **What the requests of `user` on `fd` do to his memberships.** -/
structure MembershipRequests (host : ℕ → Host) (s : Server) (fd : Fd) (user : Str) : Prop where
  /-- After `RES_UNSUBSCRIBE_OK` he is no member. -/
  unsubscribed : ∀ code payload, s.Enabled (.frame fd code payload) →
    responseCode host s fd code payload = Response.unsubscribeOk.code →
    ¬ IsMember (perform host (.frame fd code payload) s).data (extractSv payload 0 36) user
  /-- After `RES_SUBSCRIBE_OK` he is a member. -/
  subscribed : ∀ code payload, s.Enabled (.frame fd code payload) →
    responseCode host s fd code payload = Response.subscribeOk.code →
    IsMember (perform host (.frame fd code payload) s).data (extractSv payload 0 36) user
  /-- After `RES_TEAM_CREATED` he is a member of the new team. -/
  created : ∀ code payload, s.Enabled (.frame fd code payload) →
    responseCode host s fd code payload = Response.teamCreated.code →
    IsMember (perform host (.frame fd code payload) s).data (host s.served).newUuid.str user
  /-- A member who subscribes changes nothing. -/
  resubscribes : ∀ code payload, Command.ofCode? code = some .subscribe →
    IsMember s.data (extractSv payload 0 36) user →
    responseCode host s fd code payload = Response.subscribeOk.code ∧
      (perform host (.frame fd code payload) s).data = s.data
  /-- When he subscribes to a team and then, on any connection and with the teams as the
  subscription left them, unsubscribes from it, the teams are as they were. -/
  restores : ∀ code payload, Command.ofCode? code = some .subscribe →
    (∃ t, findTeamByUuid s.data (extractSv payload 0 36) = some t ∧ user ∉ t.memberUuids) →
    ∀ (s' : Server) fd' code' payload',
      s'.data.teams = (perform host (.frame fd code payload) s).data.teams →
      s'.data.sessions[fd']? = some user → Command.ofCode? code' = some .unsubscribe →
      extractSv payload' 0 36 = extractSv payload 0 36 →
      (perform host (.frame fd' code' payload') s').data.teams = s.data.teams

/-- **What `user` is shown on `fd` of the memberships.** -/
structure MembershipViews (host : ℕ → Host) (s : Server) (fd : Fd) (user : Str) : Prop where
  /-- `CMD_SUBSCRIBED` for the teams shows the teams he is a member of, and no others. -/
  teams : ∀ code payload, s.Enabled (.frame fd code payload) →
    Command.ofCode? code = some .subscribed → payload.head? ≠ some 0x01 →
    ∃ shown : List DescribedRecord,
      newMessages fd s (perform host (.frame fd code payload) s) =
        [makeMessage Response.subscribedTeams.code (listBytes DescribedRecord.bytes shown)] ∧
      (∀ r ∈ shown, ∃ t ∈ s.data.teams, t.record = r) ∧
      ∀ t ∈ s.data.teams, t.record ∈ shown ↔ user ∈ t.memberUuids
  /-- `CMD_SUBSCRIBED` for a team succeeds exactly if he is a member, and then shows every member
  once. -/
  users : ∀ code payload, s.Enabled (.frame fd code payload) →
    Command.ofCode? code = some .subscribed → payload.head? = some 0x01 →
    ∀ t ∈ s.data.teams, extractSv payload 1 36 = t.uuid.str →
    (responseCode host s fd code payload = Response.subscribedUsers.code ↔ user ∈ t.memberUuids) ∧
    (user ∈ t.memberUuids → ∃ shown : List UserRecord,
      newMessages fd s (perform host (.frame fd code payload) s) =
        [makeMessage Response.subscribedUsers.code (listBytes UserRecord.bytes shown)] ∧
      shown.map (fun r ↦ r.uuid.toList) = t.memberUuids)

section Laws

variable {fd : Fd} {user : Str}

/-- The response to a frame is a message that answers it. -/
theorem Reachable.exists_serves (h : Reachable host s) {code : UInt16} {payload : List UInt8}
    {r : Response} (hr : responseCode host s fd code payload = r.code) :
    ∃ a, Serves (host s.served) fd payload s.data (Command.ofCode? code) a ∧ a.msg.code = .res r ∧
      (perform host (.frame fd code payload) s).data = a.data := by
  obtain ⟨a, hserves, hdata, hresult⟩ := exists_serves_frame host h.sessionsWf fd code payload
  refine ⟨a, hserves, ServerCode.code_injective ?_, hdata⟩
  rw [responseCode, hresult] at hr
  exact hr

theorem findTeamByUuid_addMember {data : ServerData} {uuid : Str} {t : Team}
    (h : findTeamByUuid data uuid = some t) (user : Str) :
    findTeamByUuid (addMember data uuid user) uuid =
      some { t with memberUuids := t.memberUuids ++ [user] } := by
  have hfind := findTeamByUuid_updateTeam
    (f := fun t ↦ { t with memberUuids := t.memberUuids ++ [user] }) uuid (fun _ ↦ rfl) h
  rwa [if_pos (beq_self_eq_true uuid)] at hfind

theorem Reachable.not_isMember_of_unsubscribed (h : Reachable host s)
    (hs : s.data.sessions[fd]? = some user) {code : UInt16} {payload : List UInt8}
    (hr : responseCode host s fd code payload = Response.unsubscribeOk.code) :
    ¬ IsMember (perform host (.frame fd code payload) s).data (extractSv payload 0 36) user := by
  obtain ⟨a, hserves, hcode, hdata⟩ := h.exists_serves hr
  rcases hserves.membership_cases with
    ⟨hcode', -⟩ | ⟨-, user', t, hs', ht, hafter⟩ | ⟨hcode', -⟩ | hnone
  · rw [hcode] at hcode'
    cases hcode'
  · obtain rfl := Option.some.inj (hs.symm.trans hs')
    rintro ⟨t', ht', hu⟩
    rw [hdata, hafter, findTeamByUuid_removeMember ht] at ht'
    rw [← Option.some.inj ht'] at hu
    exact (h.membersNodup t (mem_teams_of_findTeam ht)).not_mem_erase hu
  · rw [hcode] at hcode'
    cases hcode'
  · exact absurd hcode (hnone _ (by decide))

theorem Reachable.isMember_of_subscribed (h : Reachable host s)
    (hs : s.data.sessions[fd]? = some user) {code : UInt16} {payload : List UInt8}
    (hr : responseCode host s fd code payload = Response.subscribeOk.code) :
    IsMember (perform host (.frame fd code payload) s).data (extractSv payload 0 36) user := by
  obtain ⟨a, hserves, hcode, hdata⟩ := h.exists_serves hr
  rw [hdata]
  rcases hserves.membership_cases with
    ⟨-, user', t, hs', ht, ⟨-, hafter⟩ | ⟨hsub, hafter⟩⟩ | ⟨hcode', -⟩ | ⟨hcode', -⟩ | hnone
  · obtain rfl := Option.some.inj (hs.symm.trans hs')
    rw [hafter]
    exact ⟨_, findTeamByUuid_addMember ht user, List.mem_append_right _ (List.mem_singleton_self _)⟩
  · obtain rfl := Option.some.inj (hs.symm.trans hs')
    rw [hafter]
    exact ⟨t, ht, hsub⟩
  · rw [hcode] at hcode'
    cases hcode'
  · rw [hcode] at hcode'
    cases hcode'
  · exact absurd hcode (hnone _ (by decide))

theorem Reachable.isMember_of_created (h : Reachable host s)
    (hfresh : FreshUuids host (s.served + 1)) (hs : s.data.sessions[fd]? = some user)
    {code : UInt16} {payload : List UInt8} (ha : s.Enabled (.frame fd code payload))
    (hr : responseCode host s fd code payload = Response.teamCreated.code) :
    IsMember (perform host (.frame fd code payload) s).data (host s.served).newUuid.str user := by
  obtain ⟨a, hserves, hcode, hdata⟩ := h.exists_serves hr
  rcases hserves.membership_cases with
    ⟨hcode', -⟩ | ⟨hcode', -⟩ | ⟨-, user', hs', hafter⟩ | hnone
  · rw [hcode] at hcode'
    cases hcode'
  · rw [hcode] at hcode'
    cases hcode'
  · obtain rfl := Option.some.inj (hs.symm.trans hs')
    -- the new team is the last one, and no other has its uuid
    have hmem : newTeam (host s.served) user payload ∈
        (perform host (.frame fd code payload) s).data.teams := by
      rw [hdata, hafter]
      exact List.mem_append_right _ (List.mem_singleton_self _)
    have hserved : (perform host (.frame fd code payload) s).served = s.served + 1 :=
      served_perform _
    exact ((h.step ha).isMember_iff (hserved ▸ hfresh) hmem).2 (List.mem_singleton_self _)
  · exact absurd hcode (hnone _ (by decide))

theorem resubscribe (hs : s.data.sessions[fd]? = some user) {code : UInt16} {payload : List UInt8}
    (hcmd : Command.ofCode? code = some .subscribe)
    (hmember : IsMember s.data (extractSv payload 0 36) user) :
    responseCode host s fd code payload = Response.subscribeOk.code ∧
      (perform host (.frame fd code payload) s).data = s.data := by
  obtain ⟨t, ht, hu⟩ := hmember
  rw [responseCode, perform_frame_data, frameOutcome_of_session hs hcmd, handle,
    handleSubscribe_of_mem hs ht hu]
  exact ⟨rfl, rfl⟩

theorem subscribe_unsubscribe (hs : s.data.sessions[fd]? = some user) {code : UInt16}
    {payload : List UInt8} (hcmd : Command.ofCode? code = some .subscribe) {t : Team}
    (ht : findTeamByUuid s.data (extractSv payload 0 36) = some t) (hu : user ∉ t.memberUuids)
    {s' : Server} {fd' : Fd} {code' : UInt16} {payload' : List UInt8}
    (hteams : s'.data.teams = (perform host (.frame fd code payload) s).data.teams)
    (hs' : s'.data.sessions[fd']? = some user) (hcmd' : Command.ofCode? code' = some .unsubscribe)
    (hpayload : extractSv payload' 0 36 = extractSv payload 0 36) :
    (perform host (.frame fd' code' payload') s').data.teams = s.data.teams := by
  have hafter : s'.data.teams = (addMember s.data (extractSv payload 0 36) user).teams := by
    rw [hteams, perform_frame_data, frameOutcome_of_session hs hcmd, handle,
      handleSubscribe_of_not_mem hs ht hu]
  have ht' : findTeamByUuid s'.data (extractSv payload 0 36) =
      some { t with memberUuids := t.memberUuids ++ [user] } := by
    have hfind := findTeamByUuid_addMember ht user
    rwa [findTeamByUuid, ← hafter] at hfind
  rw [perform_frame_data, frameOutcome_of_session hs' hcmd', handle, hpayload,
    handleUnsubscribe_data hs' ht' (List.mem_append_right _ (List.mem_singleton_self _))]
  -- a removal looks at the teams only
  have hremove : (removeMember s'.data (extractSv payload 0 36) user).teams =
      (removeMember (addMember s.data (extractSv payload 0 36) user) (extractSv payload 0 36)
        user).teams := by
    rw [removeMember, removeMember, updateTeam, updateTeam, hafter]
  rw [hremove, removeMember_addMember ht hu]

theorem Reachable.subscribedTeams_view (h : Reachable host s) (hfresh : FreshUuids host s.served)
    (hs : s.data.sessions[fd]? = some user) {code : UInt16} {payload : List UInt8}
    (ha : s.Enabled (.frame fd code payload)) (hcmd : Command.ofCode? code = some .subscribed)
    (hflag : payload.head? ≠ some 0x01) :
    ∃ shown : List DescribedRecord,
      newMessages fd s (perform host (.frame fd code payload) s) =
        [makeMessage Response.subscribedTeams.code (listBytes DescribedRecord.bytes shown)] ∧
      (∀ r ∈ shown, ∃ t ∈ s.data.teams, t.record = r) ∧
      ∀ t ∈ s.data.teams, t.record ∈ shown ↔ user ∈ t.memberUuids := by
  refine ⟨(s.data.teams.filter fun t ↦ isSubscribedTo t user).map Team.record, ?_, fun r hr ↦ ?_,
    fun t ht ↦ ?_⟩
  · rw [newMessages_self h.sessionsWf ha, frameOutcome_of_session hs hcmd, handle, if_neg hflag,
      handleSubscribedTeams_of_session hs]
    rfl
  · obtain ⟨t, ht, rfl⟩ := List.mem_map.1 hr
    exact ⟨t, (List.mem_filter.1 ht).1, rfl⟩
  · constructor
    · intro hshown
      obtain ⟨t', ht', hrecord⟩ := List.mem_map.1 hshown
      obtain ⟨hmem, hsub⟩ := List.mem_filter.1 ht'
      have huuid : t'.uuid = t.uuid :=
        Uuid.str_injective (congrArg (fun r : DescribedRecord ↦ r.uuid.toList) hrecord)
      obtain rfl := List.inj_on_of_nodup_map (h.nodup_teamUuids hfresh) hmem ht huuid
      exact isSubscribedTo_iff.1 hsub
    · intro hu
      exact List.mem_map_of_mem (List.mem_filter.2 ⟨ht, isSubscribedTo_iff.2 hu⟩)

theorem Reachable.subscribedUsers_view (h : Reachable host s) (hfresh : FreshUuids host s.served)
    (hs : s.data.sessions[fd]? = some user) {code : UInt16} {payload : List UInt8}
    (ha : s.Enabled (.frame fd code payload)) (hcmd : Command.ofCode? code = some .subscribed)
    (hflag : payload.head? = some 0x01) {t : Team} (ht : t ∈ s.data.teams)
    (huuid : extractSv payload 1 36 = t.uuid.str) :
    (responseCode host s fd code payload = Response.subscribedUsers.code ↔ user ∈ t.memberUuids) ∧
    (user ∈ t.memberUuids → ∃ shown : List UserRecord,
      newMessages fd s (perform host (.frame fd code payload) s) =
        [makeMessage Response.subscribedUsers.code (listBytes UserRecord.bytes shown)] ∧
      shown.map (fun r ↦ r.uuid.toList) = t.memberUuids) := by
  have hfind := findTeamByUuid_of_mem (h.nodup_teamUuids hfresh) ht
  have houtcome : frameOutcome (host s.served) fd code payload s.data =
      handleSubscribedUsers fd t.uuid.str s.data := by
    rw [frameOutcome_of_session hs hcmd, handle, if_pos hflag, huuid]
  by_cases hu : user ∈ t.memberUuids
  · have hanswer := houtcome.trans (handleSubscribedUsers_of_mem hs hfind hu)
    refine ⟨iff_of_true (by rw [responseCode, hanswer]; rfl) hu, fun _ ↦
      ⟨(t.memberUuids.filterMap (findUserByUuid s.data)).map (User.record s.data), ?_, ?_⟩⟩
    · rw [newMessages_self h.sessionsWf ha, hanswer]
      rfl
    · rw [List.map_map]
      exact map_filterMap_findUser fun v hv ↦ h.membersKnown.exists_find ht hv
  · have hrefused := houtcome.trans (handleSubscribedUsers_of_not_mem hs hfind hu)
    refine ⟨iff_of_false ?_ hu, fun hmem ↦ absurd hmem hu⟩
    rw [responseCode, hrefused]
    exact (res_code_ne_err_code .subscribedUsers .notSubscribed).symm

end Laws

/-- **Membership is a set with consistent views.** In a reachable state, when the uuids supplied so
far are distinct: no team lists a member twice, every member is a user, and for every session of a
user the requests change his membership as their answers say, and the views of it agree. -/
theorem membership (h : Reachable host s) (hfresh : FreshUuids host (s.served + 1)) :
    (∀ t ∈ s.data.teams, t.memberUuids.Nodup ∧
      ∀ v ∈ t.memberUuids, ∃ u ∈ s.data.users, u.uuid.str = v) ∧
    ∀ fd user, s.data.sessions[fd]? = some user →
      MembershipRequests host s fd user ∧ MembershipViews host s fd user := by
  have hsofar : FreshUuids host s.served := fun i j hi hj ↦
    hfresh i j (Nat.lt_succ_of_lt hi) (Nat.lt_succ_of_lt hj)
  refine ⟨fun t ht ↦ ⟨h.membersNodup t ht, fun v hv ↦ ?_⟩, fun fd user hs ↦ ⟨?_, ?_⟩⟩
  · obtain ⟨uuid, huuid, rfl⟩ := h.membersKnown t ht v hv
    obtain ⟨u, hu, rfl⟩ := List.mem_map.1 huuid
    exact ⟨u, hu, rfl⟩
  · exact {
      unsubscribed := fun _ _ _ ↦ h.not_isMember_of_unsubscribed hs
      subscribed := fun _ _ _ ↦ h.isMember_of_subscribed hs
      created := fun _ _ ha ↦ h.isMember_of_created hfresh hs ha
      resubscribes := fun _ _ ↦ resubscribe hs
      restores := fun _ _ hcmd ⟨_, ht, hu⟩ _ _ _ _ ↦ subscribe_unsubscribe hs hcmd ht hu }
  · exact {
      teams := fun _ _ ha ↦ h.subscribedTeams_view hsofar hs ha
      users := fun _ _ ha hcmd hflag _ ↦ h.subscribedUsers_view hsofar hs ha hcmd hflag }

/-- The user of `enterTeam` asks to leave the team, and is no member of it after that. -/
theorem membership_enterTeam :
    ∃ s, s = execute plainHost (enterTeam ++
        [.receive 4 (makeMessage Command.unsubscribe.code (plainUuid 1).str)]) Server.init ∧
      (∀ t ∈ s.data.teams, t.memberUuids.Nodup) ∧
      ¬ IsMember (perform plainHost (.frame 4 Command.unsubscribe.code (plainUuid 1).str) s).data
        (plainUuid 1).str (plainUuid 0).str := by
  let s := execute plainHost (enterTeam ++
    [.receive 4 (makeMessage Command.unsubscribe.code (plainUuid 1).str)]) Server.init
  have hreachable : Reachable plainHost s := reachable_execute (by decide +kernel)
  have hfresh : FreshUuids plainHost (s.served + 1) := by
    have hserved : s.served + 1 = 4 := by decide +kernel
    have hfour : ∀ i < 4, ∀ j < 4, (plainHost i).newUuid = (plainHost j).newUuid → i = j := by
      decide +kernel
    rw [hserved]
    exact fun i j hi hj ↦ hfour i hi j hj
  have hsession : s.data.sessions[(4 : Fd)]? = some (plainUuid 0).str := by decide +kernel
  have hframe : s.Enabled (.frame 4 Command.unsubscribe.code (plainUuid 1).str) := by decide +kernel
  have hcode : responseCode plainHost s 4 Command.unsubscribe.code (plainUuid 1).str =
      Response.unsubscribeOk.code := by decide +kernel
  have huuid : extractSv (plainUuid 1).str 0 36 = (plainUuid 1).str := by decide +kernel
  obtain ⟨hsets, hrequests⟩ := membership hreachable hfresh
  refine ⟨s, rfl, fun t ht ↦ (hsets t ht).1, ?_⟩
  have hgone := (hrequests 4 _ hsession).1.unsubscribed _ _ hframe hcode
  rwa [huuid] at hgone

end Server

end MyTeams
