import MyTeams.Server.Tree
import MyTeams.Server.Answers

/-!
# What one frame leaves alone

A frame that is answered by an error, or that only asks, changes nothing and causes no event. Any
other frame has a small effect (`FrameEffect`): the other connections keep their sessions and
contexts, the other users their memberships, everything that was stored stays where it was, and at
most one thing is added.
-/

namespace MyTeams

open FirstMatch Forest ByteField

/-! ### Errors and queries -/

/-- The commands that only ask. -/
def queries : List Command := [.users, .user, .messages, .subscribed, .list, .info]

/-- **Errors and queries change nothing**, and nobody is told. -/
theorem Serves.unchanged {host : Host} {fd : Fd} {payload : List UInt8} {data : ServerData}
    {cmd : Option Command} {a : Answer} (h : Serves host fd payload data cmd a)
    (hquiet : (∃ e, a.msg.code = .err e) ∨ ∃ c ∈ queries, cmd = some c) :
    a.data = data ∧ a.events = [] := by
  have habsurd {r : Response} {c : Command} (hc : c ∉ queries)
      (h : (∃ e, ServerCode.res r = .err e) ∨ ∃ c' ∈ queries, some c = some c') : False := by
    rcases h with ⟨e, he⟩ | ⟨c', hc', heq⟩
    · cases he
    · exact hc (Option.some.inj heq ▸ hc')
  cases h with
  | loginKnown | loginNew | logout | send | subscribe | unsubscribe | createTeam | createChannel |
    createThread | createReply => exact (habsurd (by decide) hquiet).elim
  | use hs hreq hgrant hinfo =>
    rw [Answer.only, contextInfo_code hinfo] at hquiet
    exact (habsurd (by decide) hquiet).elim
  | _ => exact ⟨rfl, rfl⟩

/-! ### Memberships -/

/-- The teams of a user, in the order of the teams. -/
def memberships (data : ServerData) (user : Str) : List Uuid :=
  (data.teams.filter fun t ↦ isSubscribedTo t user).map Team.uuid

/-- The members of a team other than `user`, in their order. -/
def Team.othersThan (user : Option Str) (t : Team) : List Str :=
  t.memberUuids.filter fun v ↦ some v ≠ user

/-- The teams, each with its members other than `user`. -/
def othersThan (user : Option Str) (data : ServerData) : List (Uuid × List Str) :=
  data.teams.map fun t ↦ (t.uuid, t.othersThan user)

/-- The memberships of the others can be read off. -/
theorem memberships_eq {user : Option Str} {v : Str} (hv : user ≠ some v) (data : ServerData) :
    memberships data v = ((othersThan user data).filter fun x ↦ x.2.contains v).map Prod.fst := by
  rw [memberships, othersThan, List.filter_map, List.map_map]
  have hmem : (fun t ↦ isSubscribedTo t v) =
      (fun x : Uuid × List Str ↦ x.2.contains v) ∘ fun t ↦ (t.uuid, t.othersThan user) := by
    funext t
    rw [Bool.eq_iff_iff, isSubscribedTo_iff, Function.comp_apply, List.contains_iff_mem,
      Team.othersThan, List.mem_filter, decide_eq_true (Ne.symm hv)]
    exact (and_iff_left rfl).symm
  rw [hmem]
  rfl

/-- A write that leaves the other members of the team it reaches alone leaves all of them alone. -/
theorem othersThan_updateTeam {user : Option Str} (data : ServerData) (uuid36 : Str)
    {f : Team → Team} (huuid : ∀ t, (f t).uuid = t.uuid)
    (hf : ∀ t, (f t).othersThan user = t.othersThan user) :
    othersThan user (updateTeam data uuid36 f) = othersThan user data :=
  map_updateFirst (fun t ↦ Prod.ext (huuid t) (hf t)) data.teams

theorem othersThan_addMember (data : ServerData) (uuid36 user : Str) :
    othersThan (some user) (addMember data uuid36 user) = othersThan (some user) data := by
  refine othersThan_updateTeam data uuid36 (fun _ ↦ rfl) fun t ↦ ?_
  simp [Team.othersThan]

theorem othersThan_removeMember (data : ServerData) (uuid36 user : Str) :
    othersThan (some user) (removeMember data uuid36 user) = othersThan (some user) data := by
  refine othersThan_updateTeam data uuid36 (fun _ ↦ rfl) fun t ↦ ?_
  rw [Team.othersThan, Team.othersThan, ← List.erase_filter, List.erase_of_not_mem (by simp)]

/-! ### The effect of a frame -/

/-- The stored identities: uuids and names. -/
def identities (data : ServerData) : List (Uuid × Bytes 32) :=
  data.users.map fun u ↦ (u.uuid, u.name)

theorem identities_loginKnown (data : ServerData) (fd : Fd) (p : User → Bool) (user : User) :
    identities (loginData data fd (updateFirst p (User.loggedIn fd) data.users) user) =
      identities data :=
  map_updateFirst (f := User.loggedIn fd) (fun _ ↦ rfl) data.users

theorem identities_loginNew (data : ServerData) (fd : Fd) (u user : User) :
    identities (loginData data fd (data.users ++ [u]) user) =
      identities data ++ [(u.uuid, u.name)] :=
  List.map_append

theorem identities_logout (data : ServerData) (fd : Fd) (user : Str) :
    identities (logoutData data fd user) = identities data := by
  refine map_updateFirst ?_ _
  exact fun _ ↦ rfl

theorem length_users (data : ServerData) : data.users.length = (identities data).length :=
  (List.length_map _).symm

/-- How many users, private messages, teams, channels, threads and replies there are. -/
def ServerData.size (data : ServerData) : ℕ :=
  data.users.length + data.messages.length + Forest.size data.forest

theorem size_addMessage (data : ServerData) (m : Message) :
    { data with messages := data.messages ++ [m] }.size ≤ data.size + 1 := by
  show data.users.length + (data.messages ++ [m]).length + Forest.size data.forest ≤ data.size + 1
  rw [ServerData.size, List.length_append, List.length_singleton]
  omega

/-- **The effect of a frame** of the connection `fd`. -/
structure FrameEffect (fd : Fd) (data after : ServerData) : Prop where
  /-- The other connections keep their sessions. -/
  sessions : ∀ d : Fd, d ≠ fd → after.sessions[d]? = data.sessions[d]?
  /-- They keep their contexts. -/
  contexts : ∀ d : Fd, d ≠ fd → after.clientContexts[d]? = data.clientContexts[d]?
  /-- In every team the other users stay the members they were, and a new team has none of them. -/
  members : ∃ new, (∀ x ∈ new, x.2 = []) ∧
    othersThan data.sessions[fd]? after = othersThan data.sessions[fd]? data ++ new
  /-- Old users come first, with their names. -/
  users : identities data <+: identities after
  /-- Old messages come first. -/
  messages : data.messages <+: after.messages
  /-- Every team, channel, thread and reply stays at its place, with its fields. -/
  resources : ∀ p r, labelAt p data.forest = some r → labelAt p after.forest = some r
  /-- At most one thing is added. -/
  size : after.size ≤ data.size + 1

/-- The other users keep their memberships. -/
theorem FrameEffect.memberships {fd : Fd} {data after : ServerData} (h : FrameEffect fd data after)
    {user : Str} (hs : data.sessions[fd]? ≠ some user) :
    memberships after user = memberships data user := by
  obtain ⟨new, hnew, hmembers⟩ := h.members
  rw [memberships_eq hs, memberships_eq hs, hmembers, List.filter_append, List.map_append]
  have hnone : new.filter (fun x ↦ x.2.contains user) = [] := by
    refine List.filter_eq_nil_iff.2 fun x hx ↦ ?_
    rw [hnew x hx]
    exact Bool.false_ne_true
  rw [hnone, List.map_nil, List.append_nil]

section Effects

variable {fd : Fd} {data after : ServerData}

/-- A change that the teams and the messages do not show has an effect on the requesting connection
only. -/
theorem frameEffect_of_teams_eq {cmd : Option Command} {payload : List UInt8}
    (h : Change fd payload data cmd after) (hteams : after.teams = data.teams)
    (hmessages : after.messages = data.messages)
    (husers : ∃ new, identities after = identities data ++ new ∧ new.length ≤ 1) :
    FrameEffect fd data after where
  sessions _ := h.sessions_of_ne
  contexts _ := h.contexts_of_ne
  members := ⟨[], by simp, by rw [List.append_nil, othersThan, othersThan, hteams]⟩
  users := by
    obtain ⟨new, hnew, -⟩ := husers
    exact hnew ▸ List.prefix_append _ _
  messages := hmessages ▸ List.prefix_refl _
  resources _ _ := by
    rw [forest_of_teams_eq hteams]
    exact id
  size := by
    obtain ⟨new, hnew, hlength⟩ := husers
    rw [ServerData.size, ServerData.size, forest_of_teams_eq hteams, hmessages, length_users,
      length_users data, hnew, List.length_append]
    omega

/-- A change of the teams only. -/
theorem frameEffect_of_teams {cmd : Option Command} {payload : List UInt8}
    (h : Change fd payload data cmd after) (husers : after.users = data.users)
    (hmessages : after.messages = data.messages)
    (hmembers : ∃ new, (∀ x ∈ new, x.2 = []) ∧
      othersThan data.sessions[fd]? after = othersThan data.sessions[fd]? data ++ new)
    (hforest : after.forest = data.forest ∨
      ∃ r ks, after.forest = insertAt Resource.key (.leaf r) ks data.forest) :
    FrameEffect fd data after where
  sessions _ := h.sessions_of_ne
  contexts _ := h.contexts_of_ne
  members := hmembers
  users := by
    rw [identities, identities, husers]
  messages := hmessages ▸ List.prefix_refl _
  resources p r hr := by
    rcases hforest with hforest | ⟨x, ks, hforest⟩ <;> rw [hforest]
    · exact hr
    · exact labelAt_insertAt hr _ ks
  size := by
    rw [ServerData.size, ServerData.size, husers, hmessages]
    rcases hforest with hforest | ⟨x, ks, hforest⟩ <;> rw [hforest]
    · omega
    · have hsize : Forest.size (insertAt Resource.key (.leaf x) ks data.forest) ≤ _ :=
        size_insertAt_le x ks data.forest
      omega

end Effects

/-- **Every frame has such an effect.** -/
theorem Serves.effect {host : Host} {fd : Fd} {payload : List UInt8} {data : ServerData}
    {cmd : Option Command} {a : Answer} (h : Serves host fd payload data cmd a) :
    FrameEffect fd data a.data := by
  have hchange := h.change
  -- a frame inserts at most one resource, which moves no other
  have hforest : a.data.forest = data.forest ∨
      ∃ r ks, a.data.forest = insertAt Resource.key (.leaf r) ks data.forest := by
    rcases h.forest with ⟨-, user, ctx, hcreates⟩ | ⟨hsame, -⟩
    · exact .inr ⟨_, _, hcreates.forest⟩
    · exact .inl hsame
  cases h with
  | loginKnown _ hafter =>
    subst hafter
    exact frameEffect_of_teams_eq hchange rfl rfl
      ⟨[], (identities_loginKnown ..).trans (List.append_nil _).symm, Nat.zero_le 1⟩
  | loginNew _ _ hafter =>
    subst hafter
    exact frameEffect_of_teams_eq hchange rfl rfl ⟨[_], identities_loginNew .., Nat.le_refl 1⟩
  | logout _ hafter =>
    subst hafter
    exact frameEffect_of_teams_eq hchange rfl rfl
      ⟨[], (identities_logout ..).trans (List.append_nil _).symm, Nat.zero_le 1⟩
  | send =>
    exact {
      sessions := fun _ ↦ hchange.sessions_of_ne
      contexts := fun _ ↦ hchange.contexts_of_ne
      members := ⟨[], by simp, (List.append_nil _).symm⟩
      users := List.prefix_refl _
      messages := List.prefix_append _ _
      resources := fun _ _ ↦ id
      size := size_addMessage data _ }
  | subscribe hs =>
    refine frameEffect_of_teams hchange rfl rfl ⟨[], by simp, ?_⟩ hforest
    rw [hs, List.append_nil, Answer.only, othersThan_addMember]
  | unsubscribe hs =>
    refine frameEffect_of_teams hchange rfl rfl ⟨[], by simp, ?_⟩ hforest
    rw [hs, List.append_nil, Answer.only, othersThan_removeMember]
  | @createTeam user ctx team hs hctx hlevel hlen hnew =>
    refine frameEffect_of_teams hchange rfl rfl ⟨[(team.uuid, team.othersThan (some user))], ?_, ?_⟩
      hforest
    · rw [hnew]
      simp [Team.othersThan, newTeam]
    · rw [hs]
      exact List.map_append
  | createChannel | createThread | createReply =>
    refine frameEffect_of_teams hchange rfl rfl ⟨[], by simp, ?_⟩ hforest
    rw [List.append_nil]
    exact othersThan_updateTeam _ _ (fun _ ↦ rfl) fun _ ↦ rfl
  | _ => exact frameEffect_of_teams_eq hchange rfl rfl ⟨[], (List.append_nil _).symm, Nat.zero_le 1⟩

namespace Server

variable {host : ℕ → Host} {s : Server}

/-- **The frame and the atomicity of a step.** When a frame is answered by an error code, or only
asks, the shared data is exactly as before and the response is all that is queued. In every other
case the step has the effect of one frame, and the other users keep their memberships. -/
theorem step_frame (h : Reachable host s) {fd : Fd} {cmd : UInt16} {payload : List UInt8}
    (ha : s.Enabled (.frame fd cmd payload)) :
    ((∃ e : Error,
          (frameOutcome (host s.served) fd cmd payload s.data).result.response.code = e.code) ∨
        (∃ c ∈ queries, Command.ofCode? cmd = some c) →
      (perform host (.frame fd cmd payload) s).data = s.data ∧
        ∀ d, newMessages d s (perform host (.frame fd cmd payload) s) =
          if d = fd then
            [(frameOutcome (host s.served) fd cmd payload s.data).result.response.bytes]
          else []) ∧
    FrameEffect fd s.data (perform host (.frame fd cmd payload) s).data ∧
    ∀ user : Str, s.data.sessions[fd]? ≠ some user →
      memberships (perform host (.frame fd cmd payload) s).data user = memberships s.data user := by
  obtain ⟨c, rest, hc, -⟩ := ha
  have hfd : s.clients.contains fd = true := (IntMap.contains_iff _).2 ⟨c, hc⟩
  obtain ⟨a, hserves, hdata, hresult⟩ := exists_serves_frame host h.sessionsWf fd cmd payload
  have heffect : FrameEffect fd s.data (perform host (.frame fd cmd payload) s).data := by
    rw [hdata]
    exact hserves.effect
  refine ⟨fun hquiet ↦ ?_, heffect, fun user ↦ heffect.memberships⟩
  -- an error or a query changes nothing
  have hcode : (∃ e, a.msg.code = .err e) ∨ ∃ c ∈ queries, Command.ofCode? cmd = some c := by
    refine hquiet.imp_left fun ⟨e, he⟩ ↦ ⟨e, ServerCode.code_injective ?_⟩
    rw [hresult] at he
    exact he
  obtain ⟨hsame, hevents⟩ := hserves.unchanged hcode
  refine ⟨hdata.trans hsame, fun d ↦ ?_⟩
  rw [newMessages_of_append (queuedOn_frame hfd hresult d), hresult, Answer.messagesTo, hevents]
  rcases eq_or_ne d fd with rfl | hd
  · rw [if_pos hfd, if_pos rfl, if_pos rfl]
    rfl
  · rw [if_neg hd, if_neg hd, List.flatMap_nil, List.map_nil, ite_self]

variable (host) in
/-- Every action has such an effect: losing a connection is a logout, and the others change
nothing. -/
theorem effect_perform (hwf : SessionsWf s.data) (a : Action) :
    FrameEffect a.fd s.data (perform host a s).data := by
  obtain ⟨answer, hserves, hdata⟩ | ⟨-, hdata⟩ := serves_perform host hwf a
  · rw [hdata]
    exact hserves.effect
  · rw [hdata]
    exact frameEffect_of_teams_eq (@Change.none a.fd [] s.data none) rfl rfl
      ⟨[], (List.append_nil _).symm, Nat.zero_le 1⟩

/-- **Growth along runs**: users and messages come first with what they say of themselves, and every
team, channel, thread and reply stays at its place. -/
theorem Reachable.grows (h : Reachable host s) {s' : Server} (hs : Steps host s s') :
    identities s.data <+: identities s'.data ∧ s.data.messages <+: s'.data.messages ∧
      ∀ p r, labelAt p s.data.forest = some r → labelAt p s'.data.forest = some r := by
  induction hs with
  | refl => exact ⟨List.prefix_refl _, List.prefix_refl _, fun _ _ ↦ id⟩
  | tail hs hstep ih =>
    obtain ⟨a, -, rfl⟩ := hstep
    have heffect := effect_perform host (h.steps hs).sessionsWf a
    exact ⟨ih.1.trans heffect.users, ih.2.1.trans heffect.messages,
      fun p r hr ↦ heffect.resources p r (ih.2.2 p r hr)⟩

/-- Two users in one team, and a message from the first to the second. -/
def twoMembers : List Action :=
  .accept 4 :: request 4 .login [0x61] ++ .accept 5 :: request 5 .login [0x62] ++
    request 4 .create (List.replicate 287 0x63) ++ request 5 .subscribe (plainUuid 2).str ++
    request 4 .send ((plainUuid 1).str ++ List.replicate 512 0x64) ++
    [.receive 4 (makeMessage Command.unsubscribe.code (plainUuid 2).str),
      .receive 5 (makeMessage Command.list.code [])]

/-- A list changes nothing and is answered to nobody else; when the first user leaves the team, the
step has the effect of one frame, and the second is still in it. -/
theorem step_frame_twoMembers :
    let s := execute plainHost twoMembers Server.init
    ((perform plainHost (.frame 5 Command.list.code []) s).data = s.data ∧
      newMessages 4 s (perform plainHost (.frame 5 Command.list.code []) s) = []) ∧
    FrameEffect 4 s.data
      (perform plainHost (.frame 4 Command.unsubscribe.code (plainUuid 2).str) s).data ∧
    memberships (perform plainHost (.frame 4 Command.unsubscribe.code (plainUuid 2).str) s).data
      (plainUuid 1).str = [plainUuid 2] := by
  intro s
  have hs : Reachable plainHost s := reachable_execute (by decide +kernel)
  have hlist : s.Enabled (.frame 5 Command.list.code []) := by decide +kernel
  have hleave : s.Enabled (.frame 4 Command.unsubscribe.code (plainUuid 2).str) := by
    decide +kernel
  have hmember : memberships s.data (plainUuid 1).str = [plainUuid 2] := by decide +kernel
  obtain ⟨hsame, hmessages⟩ := (step_frame hs hlist).1 (Or.inr ⟨.list, by decide, rfl⟩)
  obtain ⟨-, heffect, hothers⟩ := step_frame hs hleave
  refine ⟨⟨hsame, (hmessages 4).trans (if_neg (by decide))⟩, heffect, ?_⟩
  rw [hothers _ (by decide +kernel), hmember]

end Server

end MyTeams
