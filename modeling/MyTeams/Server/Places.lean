import MyTeams.Server.Growth
import MyTeams.Server.Membership

/-!
# Where texts are kept

A text that a user has written is kept at a `Place`: as the name of a user, in a team, channel,
thread or reply, or as a private message. Nothing that is kept at a place is ever moved or changed
(`Reachable.texts_steps`). Replies and events do not carry places, they carry copies; `shown` says,
code by code, of which places, and `Reachable.shows` that the texts in a message are those kept
there.
-/

namespace MyTeams

open ByteField FirstMatch Forest

/-! ### Texts and places -/

/-- Where the server keeps texts: in a user, in the resource at a path of positions, or in a private
message. -/
inductive Place
  | user (i : ℕ)
  | resource (p : List ℕ)
  | message (i : ℕ)
  deriving DecidableEq

/-! The texts of a record, each up to its first zero byte. -/

def UserRecord.texts (r : UserRecord) : List Str := [cut r.name.toList]

def DescribedRecord.texts (r : DescribedRecord) : List Str :=
  [cut r.name.toList, cut r.description.toList]

def ThreadRecord.texts (r : ThreadRecord) : List Str := [cut r.title.toList, cut r.body.toList]

def ReplyRecord.texts (r : ReplyRecord) : List Str := [cut r.body.toList]

def MessageRecord.texts (r : MessageRecord) : List Str := [cut r.body.toList]

/-- The texts of a resource. -/
def Resource.texts : Resource → List Str
  | team r | channel r => r.texts
  | thread r => r.texts
  | reply r => [cut r.body.toList]

/-- The texts in a message, record by record. -/
def Body.texts : Body → List (List Str)
  | .empty | .uuid _ => []
  | .account _ name => [[cut name.toList]]
  | .user r => [r.texts]
  | .described r => [r.texts]
  | .thread r => [r.texts]
  | .reply r => [r.texts]
  | .received _ body => [[cut body.toList]]
  | .users l => l.map UserRecord.texts
  | .describeds l => l.map DescribedRecord.texts
  | .threads l => l.map ThreadRecord.texts
  | .replies l => l.map ReplyRecord.texts
  | .messages l => l.map MessageRecord.texts

/-- What is kept at a place. -/
def ServerData.texts (data : ServerData) : Place → Option (List Str)
  | .user i => (identities data)[i]?.map fun x ↦ [cut x.2.toList]
  | .resource p => (labelAt p data.forest).map Resource.texts
  | .message i => data.messages[i]?.map fun m ↦ [cut m.body.toList]

/-! ### What a message shows -/

/-- The user of the session, if there is one. -/
def sessionUser (data : ServerData) (fd : Fd) : Str := data.sessions[fd]?.getD []

/-- The path of the stored context, if there is one. -/
def storedPath (data : ServerData) (fd : Fd) : List Str :=
  (data.clientContexts[fd]?.getD ClientContext.init).path

/-- The user that a uuid finds. -/
def userPlaces (data : ServerData) (uuid : Str) : List Place :=
  (data.users.findIdx? fun u ↦ u.uuid.str == uuid).toList.map .user

/-- The resource that a path finds. -/
def nodePlaces (data : ServerData) (ks : List Str) : List Place :=
  (positionAt Resource.key ks data.forest).toList.map .resource

/-- The place of the next resource below the one that a path finds. -/
def nextPlaces (data : ServerData) (ks : List Str) : List Place :=
  (positionAt Resource.key ks data.forest).toList.map fun p ↦
    .resource (p ++ [(listing Resource.key ks data.forest).length])

/-- The resources below the one that a path finds. -/
def childPlaces (data : ServerData) (ks : List Str) : List Place :=
  (positionAt Resource.key ks data.forest).toList.flatMap fun p ↦
    (List.range (listing Resource.key ks data.forest).length).map fun i ↦ .resource (p ++ [i])

/-- **The places that a message shows**, record by record, when it has the given code and is sent
because of a request on `fd` that takes `data` to `after`. -/
def shown (fd : Fd) (payload : List UInt8) (data after : ServerData) : ServerCode → List Place
  | .res .loginOk | .evt .userLoggedIn =>
    -- the user of that name, or the new one
    [.user ((data.users.findIdx? fun u ↦ cut u.name.toList == cut payload).getD data.users.length)]
  | .res .logoutOk | .evt .userLoggedOut | .res .userDetails =>
    userPlaces data (sessionUser data fd)
  | .res .usersList => (List.range data.users.length).map .user
  | .res .userInfo => userPlaces data (Server.extractSv payload 0 36)
  | .res .subscribedUsers =>
    ((findTeamByUuid data (Server.extractSv payload 1 36)).toList.flatMap Team.memberUuids).flatMap
      (userPlaces data)
  | .res .subscribedTeams =>
    (data.teams.findIdxs fun t ↦ isSubscribedTo t (sessionUser data fd)).map fun i ↦ .resource [i]
  | .res .messagesList =>
    (data.messages.findIdxs (messageMatch (sessionUser data fd)
      (Server.extractSv payload 0 36))).map .message
  | .evt .messageReceived => [.message data.messages.length]
  | .res .listTeams | .res .listChannels | .res .listThreads | .res .listReplies =>
    childPlaces data (storedPath data fd)
  | .res .teamInfo | .res .channelInfo | .res .threadInfo =>
    -- `CMD_USE` shows the context that it stores
    nodePlaces after (storedPath after fd)
  | .res .teamCreated | .res .channelCreated | .res .threadCreated | .res .replyCreated
  | .evt .teamCreated | .evt .channelCreated | .evt .threadCreated | .evt .replyCreated =>
    nextPlaces data (storedPath data fd)
  | .res .sendOk | .res .subscribeOk | .res .unsubscribeOk | .err _ => []

/-- The message has the texts that are kept at the places it shows. -/
def Shows (fd : Fd) (payload : List UInt8) (data after : ServerData) (m : Msg) : Prop :=
  (shown fd payload data after m.code).map after.texts = m.body.texts.map some

/-! ### Nothing is moved -/

/-- **A frame leaves what is kept where it is.** -/
theorem FrameEffect.texts {fd : Fd} {data after : ServerData} (h : FrameEffect fd data after)
    {p : Place} {ts : List Str} (hp : data.texts p = some ts) : after.texts p = some ts := by
  cases p with
  | user i =>
    obtain ⟨x, hx, rfl⟩ := Option.map_eq_some_iff.1 hp
    rw [ServerData.texts, getElem?_of_prefix h.users hx]
    rfl
  | resource p =>
    obtain ⟨r, hr, rfl⟩ := Option.map_eq_some_iff.1 hp
    rw [ServerData.texts, h.resources p r hr]
    rfl
  | message i =>
    obtain ⟨m, hm, rfl⟩ := Option.map_eq_some_iff.1 hp
    rw [ServerData.texts, getElem?_of_prefix h.messages hm]
    rfl

/-! ### What is shown is what is kept -/

section Shown

variable {host : Host} {fd : Fd} {payload : List UInt8} {data after : ServerData}

/-- The users that a uuid finds are kept where they were. -/
theorem map_userPlaces (h : identities data <+: identities after) (uuid : Str) :
    (userPlaces data uuid).map after.texts =
      ((data.users.find? fun u ↦ u.uuid.str == uuid).toList.map
        fun u ↦ [cut u.name.toList]).map some := by
  rcases hidx : data.users.findIdx? fun u ↦ u.uuid.str == uuid with - | i
  · rw [userPlaces, hidx, List.find?_eq_bind_findIdx?_getElem?, hidx]
    rfl
  · obtain ⟨hi, -⟩ := List.findIdx?_eq_some_iff_getElem.1 hidx
    have huser : (identities data)[i]? = some (data.users[i].uuid, data.users[i].name) := by
      rw [identities, List.getElem?_map, List.getElem?_eq_getElem hi, Option.map_some]
    rw [userPlaces, hidx, find?_of_findIdx? hidx, List.getElem?_eq_getElem hi]
    show [after.texts (.user i)] = _
    rw [ServerData.texts, getElem?_of_prefix h huser]
    rfl

/-- A list of users. -/
theorem map_users (data : ServerData) :
    ((List.range data.users.length).map Place.user).map data.texts =
      ((data.users.map (User.record data)).map UserRecord.texts).map some := by
  simp only [List.map_map]
  rw [length_users]
  refine (map_range_getElem? (fun x ↦ [cut x.2.toList]) (identities data)).trans ?_
  exact List.map_map

/-- A list of the users that uuids find. -/
theorem map_members {uuids : List Str} (h : ∀ v ∈ uuids, v.length = 36) :
    (uuids.flatMap (userPlaces data)).map data.texts =
      (((uuids.filterMap (findUserByUuid data)).map (User.record data)).map
        UserRecord.texts).map some := by
  induction uuids with
  | nil => rfl
  | cons v uuids ih =>
    obtain ⟨hv, huuids⟩ := List.forall_mem_cons.1 h
    rw [List.flatMap_cons, List.map_append, ih huuids, map_userPlaces (List.prefix_refl _),
      ← findUserByUuid_eq hv]
    rcases hfind : findUserByUuid data v with - | u
    · rw [List.filterMap_cons_none hfind]
      rfl
    · rw [List.filterMap_cons_some hfind]
      rfl

/-- The teams of a user. -/
theorem map_teams (p : Team → Bool) (data : ServerData) :
    ((data.teams.findIdxs p).map fun i ↦ Place.resource [i]).map data.texts =
      (((data.teams.filter p).map Team.record).map DescribedRecord.texts).map some := by
  have htexts (i : ℕ) :
      data.texts (.resource [i]) = data.teams[i]?.map fun t ↦ t.record.texts := by
    rw [ServerData.texts, labelAt, ServerData.forest, List.getElem?_map]
    cases data.teams[i]? <;> rfl
  simp only [List.map_map]
  refine Eq.trans ?_ (map_findIdxs_getElem? (fun t ↦ t.record.texts) p data.teams)
  exact List.map_congr_left fun i _ ↦ htexts i

/-- The messages of a conversation. -/
theorem map_messages (p : Message → Bool) (data : ServerData) :
    ((data.messages.findIdxs p).map Place.message).map data.texts =
      (((data.messages.filter p).map Message.record).map MessageRecord.texts).map some := by
  simp only [List.map_map]
  exact map_findIdxs_getElem? (fun m ↦ [cut m.body.toList]) p data.messages

theorem texts_body (r : Resource) (threadUuid : Bytes 36) :
    (r.body threadUuid).texts = [r.texts] := by
  cases r <;> rfl

variable {ks : List Str}

/-- A resource that a path finds. -/
theorem map_nodePlaces {p : List ℕ} {r : Resource}
    (hp : positionAt Resource.key ks data.forest = some p) (hr : labelAt p data.forest = some r) :
    (nodePlaces data ks).map data.texts = [some r.texts] := by
  rw [nodePlaces, hp]
  show [data.texts (.resource p)] = _
  rw [ServerData.texts, hr, Option.map_some]

/-- The resources below one that a path finds. -/
theorem map_childPlaces {g : List (RoseTree Resource)}
    (h : childrenAt Resource.key ks data.forest = some g) :
    (childPlaces data ks).map data.texts =
      ((g.map RoseTree.label).map Resource.texts).map some := by
  obtain ⟨p, hp⟩ := exists_positionAt h
  rw [childPlaces, hp, childrenAt_eq_listing h, List.length_map, Option.toList_some,
    List.flatMap_singleton]
  simp only [List.map_map]
  refine Eq.trans ?_ (map_range_getElem? (fun t ↦ t.label.texts) g)
  refine List.map_congr_left fun i _ ↦ ?_
  show data.texts (.resource (p ++ [i])) = _
  rw [ServerData.texts, labelAt_child h hp, Option.map_map]
  rfl

/-- **A creation is kept at the next place.** -/
theorem Creates.map_nextPlaces {a : Answer} {user : Str} {ctx : ClientContext}
    (h : Creates host fd payload data a user ctx) :
    (nextPlaces data (storedPath data fd)).map a.data.texts =
      [some (newResource host user payload ctx.level).texts] := by
  obtain ⟨g, hg⟩ := Option.isSome_iff_exists.1 h.place
  obtain ⟨p, hp⟩ := exists_positionAt hg
  have hpath : storedPath data fd = ctx.path := by
    rw [storedPath, h.context, Option.getD_some]
  rw [hpath, nextPlaces, hp, childrenAt_eq_listing hg, List.length_map]
  show [a.data.texts (.resource (p ++ [g.length]))] = _
  rw [ServerData.texts, h.forest, labelAt_insertAt_new hg hp, Option.map_some]

/-! ### Contexts -/

theorem shown_infoResponse {level : UInt8} (h : level ≠ useNone) :
    shown fd payload data after (.res (infoResponse level)) =
      nodePlaces after (storedPath after fd) := by
  rw [infoResponse, if_neg h]
  split_ifs <;> rfl

theorem shown_listResponse (level : UInt8) :
    shown fd payload data after (.res (listResponse level)) =
      childPlaces data (storedPath data fd) := by
  rw [listResponse]
  split_ifs <;> rfl

theorem shown_createdResponse (level : UInt8) :
    shown fd payload data after (.res (createdResponse level)) =
      nextPlaces data (storedPath data fd) := by
  rw [createdResponse]
  split_ifs <;> rfl

/-- A context below `USE_NONE` that resolves has a position, and shows what is there. -/
theorem positionAt_of_contextInfo {user : Str} {ctx : ClientContext} {m : Msg}
    (h : contextInfo data user ctx = some m) (hlevel : ctx.level ≠ useNone) :
    ∃ p r, positionAt Resource.key ctx.path data.forest = some p ∧
      labelAt p data.forest = some r ∧ m.body.texts = [r.texts] := by
  have hteam {t : Team} (ht : ctx.team? data = some t) :
      childrenAt Resource.key [ctx.teamUuid.toList] data.forest = some t.tree.children := by
    rw [childrenAt_cons (find?_forest_of_team ht), childrenAt_nil]
  have hchannel {t : Team} {c : Channel} (ht : ctx.team? data = some t)
      (hc : findChannelByUuid t ctx.channelUuid.toList = some c) :
      childrenAt Resource.key [ctx.teamUuid.toList, ctx.channelUuid.toList] data.forest =
        some c.tree.children := by
    rw [childrenAt_cons (find?_forest_of_team ht), childrenAt_cons (find?_tree_of_channel hc),
      childrenAt_nil]
  rw [contextInfo, if_neg hlevel] at h
  split_ifs at h with h1 h2 h3
  · obtain ⟨t, ht, rfl⟩ := Option.map_eq_some_iff.1 h
    obtain ⟨p, hp, hr⟩ :=
      labelAt_positionAt (@childrenAt_nil _ _ _ Resource.key data.forest) (find?_forest_of_team ht)
    rw [path_of_team h1]
    exact ⟨p, _, hp, hr, rfl⟩
  · obtain ⟨c, hc, rfl⟩ := Option.map_eq_some_iff.1 h
    obtain ⟨t, ht, hfind⟩ := Option.bind_eq_some_iff.1 hc
    obtain ⟨p, hp, hr⟩ := labelAt_positionAt (hteam ht) (find?_tree_of_channel hfind)
    rw [path_of_channel h2]
    exact ⟨p, _, hp, hr, rfl⟩
  · obtain ⟨th, hth, rfl⟩ := Option.map_eq_some_iff.1 h
    obtain ⟨c, hc, hfind⟩ := Option.bind_eq_some_iff.1 hth
    obtain ⟨t, ht, hfind'⟩ := Option.bind_eq_some_iff.1 hc
    obtain ⟨p, hp, hr⟩ := labelAt_positionAt (hchannel ht hfind') (find?_tree_of_thread hfind)
    rw [path_of_thread h3]
    exact ⟨p, _, hp, hr, rfl⟩

/-- A context that resolves lists what is below its path. -/
theorem childrenAt_of_contextList {ctx : ClientContext} {m : Msg}
    (h : contextList data ctx = some m) :
    ∃ g, childrenAt Resource.key ctx.path data.forest = some g ∧
      m.body.texts = (g.map RoseTree.label).map Resource.texts := by
  rw [contextList] at h
  split_ifs at h with h0 h1 h2 h3
  · refine ⟨_, childrenAt_of_none h0, ?_⟩
    rw [← Option.some.inj h, ServerData.forest, List.map_map, List.map_map]
    exact List.map_map
  · obtain ⟨t, ht, rfl⟩ := Option.map_eq_some_iff.1 h
    refine ⟨_, childrenAt_of_team h1 ht, ?_⟩
    simp [Body.texts, Team.tree, Channel.tree, Resource.texts]
  · obtain ⟨c, hc, rfl⟩ := Option.map_eq_some_iff.1 h
    refine ⟨_, childrenAt_of_channel h2 hc, ?_⟩
    simp [Body.texts, Channel.tree, Thread.tree, Resource.texts]
  · obtain ⟨th, hth, rfl⟩ := Option.map_eq_some_iff.1 h
    refine ⟨_, childrenAt_of_thread h3 hth, ?_⟩
    simp [Body.texts, Thread.tree, Reply.tree, Resource.texts, ReplyRecord.texts, Reply.record]

/-! ### Answers -/

/-- A message without texts, that shows no place. -/
theorem shows_of_nil {m : Msg} (hcode : shown fd payload data after m.code = [])
    (hbody : m.body.texts = []) : Shows fd payload data after m := by
  rw [Shows, hcode, hbody]
  rfl

theorem shows_error {e : Error} {b : Body} (hb : b.texts = []) :
    Shows fd payload data after ⟨.err e, b⟩ :=
  shows_of_nil rfl hb

theorem ErrorBody.texts {e : Error} {b : Body} (h : ErrorBody e b) : b.texts = [] := by
  cases h <;> rfl

/-- What holds of the response and of the presence event holds of all messages. -/
theorem forall_msgs_presence {P : Msg → Prop} {m : Msg} {evt : Event} {online : Prop}
    [Decidable online] {b : Body} {fds : List Fd} (hm : P m) (hevt : P ⟨.evt evt, b⟩) :
    ∀ m' ∈ (Answer.mk after m (presenceEvents evt online b fds)).msgs, P m' := by
  intro m' hm'
  rcases List.mem_cons.1 hm' with rfl | hm'
  · exact hm
  · rw [presenceEvents] at hm'
    split_ifs at hm'
    · cases hm'
    · rw [List.mem_singleton.1 hm']
      exact hevt

/-- The response to a login and its event show the user. -/
theorem shows_login {x : Uuid × Bytes 32} {i : ℕ}
    (hi : (data.users.findIdx? fun u ↦ cut u.name.toList == cut payload).getD data.users.length = i)
    (hx : (identities after)[i]? = some x) {online : Prop} [Decidable online] {fds : List Fd} :
    ∀ m ∈ (Answer.mk after ⟨.res .loginOk, .account x.1.bytes x.2⟩
      (presenceEvents .userLoggedIn online (.account x.1.bytes x.2) fds)).msgs,
      Shows fd payload data after m := by
  have htexts : after.texts (.user i) = some [cut x.2.toList] := by
    rw [ServerData.texts, hx, Option.map_some]
  refine forall_msgs_presence ?_ ?_
  all_goals
    rw [Shows, shown, hi]
    exact congrArg (fun t ↦ [t]) htexts

/-- What shows the user of the session. -/
theorem shows_session {user : Str} {u : User} (hs : data.sessions[fd]? = some user)
    (hu : (data.users.find? fun u ↦ u.uuid.str == user) = some u)
    (hafter : identities data <+: identities after) {m : Msg} {uuid : Bytes 36}
    (hcode : m.code ∈ [.res .logoutOk, .evt .userLoggedOut, .res .userDetails])
    (hbody : m.body = .account uuid u.name) : Shows fd payload data after m := by
  have hplaces : shown fd payload data after m.code = userPlaces data user := by
    have huser : sessionUser data fd = user := by rw [sessionUser, hs, Option.getD_some]
    simp only [List.mem_cons, List.not_mem_nil, or_false] at hcode
    rcases hcode with h | h | h
    all_goals
      rw [h, ← huser]
      rfl
  rw [Shows, hplaces, map_userPlaces hafter, hu, hbody]
  rfl

/-- The response and the event of a creation show the same place. -/
theorem Creates.shows {a : Answer} {user : Str} {ctx : ClientContext}
    (h : Creates host fd payload data a user ctx) {r : Response} {evt : Event} {b : Body}
    {fds : List Fd} (ha : a = ⟨a.data, ⟨.res r, b⟩, [(⟨.evt evt, b⟩, fds)]⟩)
    (hres : shown fd payload data a.data (.res r) = nextPlaces data (storedPath data fd))
    (hevt : shown fd payload data a.data (.evt evt) = nextPlaces data (storedPath data fd)) :
    ∀ m ∈ a.msgs, Shows fd payload data a.data m := by
  have hbody : b.texts = [(newResource host user payload ctx.level).texts] := by
    have hmsg := h.msg
    rw [ha] at hmsg
    rw [show b = _ from congrArg Msg.body hmsg, texts_body]
  have hshows {k : ServerCode}
      (hk : shown fd payload data a.data k = nextPlaces data (storedPath data fd)) :
      Shows fd payload data a.data ⟨k, b⟩ := by
    rw [Shows, hk, h.map_nextPlaces, hbody]
    rfl
  intro m hm
  rw [ha] at hm
  rcases List.mem_cons.1 hm with rfl | hm
  · exact hshows hres
  · rw [List.mem_singleton.1 hm]
    exact hshows hevt

/-- What shows a context, where it is stored. -/
theorem shows_contextInfo {user : Str} {u : User} {ctx : ClientContext} {m : Msg}
    (hs : data.sessions[fd]? = some user) (hu : findUserByUuid data user = some u)
    (hinfo : contextInfo data user ctx = some m) (hctx : after.clientContexts[fd]? = some ctx)
    (hteams : after.teams = data.teams) (husers : after.users = data.users) :
    Shows fd payload data after m := by
  rcases eq_or_ne ctx.level useNone with hlevel | hlevel
  · rw [contextInfo_of_none hlevel, accountBody, hu] at hinfo
    obtain rfl := Option.some.inj hinfo
    have hfind := hu
    rw [findUserByUuid_eq (length_of_findUserByUuid hu)] at hfind
    refine shows_session hs hfind ?_ (by simp) rfl
    rw [identities, identities, husers]
  · obtain ⟨p, r, hp, hr, htexts⟩ := positionAt_of_contextInfo hinfo hlevel
    rw [← forest_of_teams_eq hteams] at hp hr
    rw [Shows, contextInfo_code hinfo, shown_infoResponse hlevel, storedPath, hctx,
      Option.getD_some, map_nodePlaces hp hr, htexts]
    rfl

/-- **What an answer shows is kept**, for every command but `CMD_USER`: all its messages have the
texts that are kept at the places they show. -/
theorem Serves.shows {cmd : Option Command} {a : Answer} (hregistry : DataRegistry data)
    (hmembers : MembersKnown data) (hcmd : cmd ≠ some .user)
    (h : Serves host fd payload data cmd a) : ∀ m ∈ a.msgs, Shows fd payload data a.data m := by
  have hcreates {r : Response} (hr : r ∈ createdResponses) (hcode : a.msg.code = .res r) :
      ∃ user ctx, Creates host fd payload data a user ctx := by
    rcases h.forest with ⟨-, hnew⟩ | ⟨-, hnot⟩
    · exact hnew
    · exact absurd hcode (hnot r hr)
  have hsession {user : Str} (hs : data.sessions[fd]? = some user) :
      ∃ u, (data.users.find? fun u ↦ u.uuid.str == user) = some u := by
    obtain ⟨uuid, huuid, rfl⟩ := hregistry.session fd user hs
    obtain ⟨u, hu, rfl⟩ := List.mem_map.1 huuid
    exact Option.isSome_iff_exists.1 (List.find?_isSome.2 ⟨u, hu, beq_self_eq_true _⟩)
  have hwf {user : Str} (hs : data.sessions[fd]? = some user) : user.length = 36 :=
    hregistry.sessionsWf fd user hs
  have honly {after : ServerData} {m : Msg} (hm : Shows fd payload data after m) :
      ∀ m' ∈ (Answer.only after m).msgs, Shows fd payload data after m' :=
    fun m' hm' ↦ List.mem_singleton.1 hm' ▸ hm
  cases h with
  | unauthorized | unknown | dangling => exact honly (shows_error rfl)
  | refused _ hb => exact honly (shows_error hb.texts)
  | @loginKnown user hfind after hafter =>
    obtain ⟨i, hi, hu⟩ := exists_findIdx? hfind
    refine @shows_login fd payload data after (user.uuid, user.name) i ?_ ?_ _ _ _
    · exact congrArg (fun o ↦ o.getD data.users.length) hi
    · rw [hafter, identities_loginKnown, identities, List.getElem?_map, hu, Option.map_some]
  | @loginNew hfind user huser after hafter =>
    -- nobody has the name, so the new user is shown, at the end
    have hnone : (data.users.findIdx? fun u ↦ cut u.name.toList == cut payload) = none :=
      List.findIdx?_eq_none_iff.2 fun u hu ↦ Bool.eq_false_iff.2 (List.find?_eq_none.1 hfind u hu)
    refine @shows_login fd payload data after (user.uuid, user.name) data.users.length ?_ ?_ _ _ _
    · rw [hnone, Option.getD_none]
    · rw [hafter, identities_loginNew, length_users, List.getElem?_append_right (Nat.le_refl _),
        Nat.sub_self]
      rfl
  | @logout user hs after hafter =>
    obtain ⟨u, hu⟩ := hsession hs
    have hbody : logoutBody data user = .account (fill 36 user) u.name := by rw [logoutBody, hu]
    have hsame : identities data <+: identities after := by rw [hafter, identities_logout]
    exact forall_msgs_presence (shows_session hs hu hsame List.mem_cons_self hbody)
      (shows_session hs hu hsame (by simp) hbody)
  | users => exact honly (map_users data)
  | user => exact absurd rfl hcmd
  | @send user receiverUuid receiver msg hs huuid hreceiver hmsg =>
    have hkept : ({ data with messages := data.messages ++ [msg] } : ServerData).texts
        (.message data.messages.length) = some [cut msg.body.toList] := by
      rw [ServerData.texts, List.getElem?_append_right (Nat.le_refl _), Nat.sub_self]
      rfl
    intro m hm
    rcases List.mem_cons.1 hm with rfl | hm
    · exact shows_of_nil rfl rfl
    · dsimp only at hm
      split_ifs at hm
      · cases hm
      · rw [List.mem_singleton.1 hm]
        exact congrArg (fun t ↦ [t]) hkept
  | @messages user hs =>
    refine honly ?_
    rw [Shows, shown, sessionUser, hs, Option.getD_some]
    exact map_messages _ data
  | subscribe | resubscribe | unsubscribe => exact honly (shows_of_nil rfl rfl)
  | @subscribedTeams user hs =>
    refine honly ?_
    rw [Shows, shown, sessionUser, hs, Option.getD_some]
    exact map_teams _ data
  | @subscribedUsers user team hs hteam hsub =>
    refine honly ?_
    rw [Shows, shown, hteam, Option.toList_some, List.flatMap_singleton]
    refine map_members fun v hv ↦ ?_
    obtain ⟨uuid, -, rfl⟩ := hmembers team (mem_teams_of_findTeam hteam) v hv
    exact uuid.length_str
  | @use user ctx m hs hreq hgrant hinfo =>
    obtain ⟨u, hu⟩ := hsession hs
    refine honly (shows_contextInfo hs ((findUserByUuid_eq (hwf hs)).trans hu) hinfo ?_ rfl rfl)
    exact IntMap.get_insert_self _ _ _
  | @list user ctx m hs hctx hlist =>
    obtain ⟨g, hg, htexts⟩ := childrenAt_of_contextList hlist
    refine honly ?_
    rw [Shows, contextList_code hlist, shown_listResponse, storedPath, hctx, Option.getD_some,
      htexts, map_childPlaces hg]
  | @info user ctx m hs hctx hinfo =>
    obtain ⟨u, hu⟩ := hsession hs
    exact honly (shows_contextInfo hs ((findUserByUuid_eq (hwf hs)).trans hu) hinfo hctx rfl rfl)
  | createTeam =>
    obtain ⟨user, ctx, hnew⟩ := hcreates (r := .teamCreated) (by decide) rfl
    exact hnew.shows rfl rfl rfl
  | createChannel =>
    obtain ⟨user, ctx, hnew⟩ := hcreates (r := .channelCreated) (by decide) rfl
    exact hnew.shows rfl rfl rfl
  | createThread =>
    obtain ⟨user, ctx, hnew⟩ := hcreates (r := .threadCreated) (by decide) rfl
    exact hnew.shows rfl rfl rfl
  | createReply =>
    obtain ⟨user, ctx, hnew⟩ := hcreates (r := .replyCreated) (by decide) rfl
    exact hnew.shows rfl rfl rfl

/-- The answer to `CMD_USER` shows the user that was asked for. -/
theorem handleUser_shows {user : Str} (hs : data.sessions[fd]? = some user) :
    Realizes (fun a ↦ Serves host fd payload data (some .user) a ∧
        ∀ m ∈ a.msgs, Shows fd payload data a.data m)
      (handleUser fd (Server.extractSv payload 0 36) data) := by
  have hlog : isLoggedIn data fd = true := (IntMap.contains_iff _).2 ⟨user, hs⟩
  have hrefused {e : Error} {b : Body} (hb : ErrorBody e b) :
      Serves host fd payload data (some .user) (.only data ⟨.err e, b⟩) ∧
        ∀ m ∈ (Answer.only data ⟨.err e, b⟩).msgs, Shows fd payload data data m :=
    ⟨.refused hs hb (by decide) (fun h ↦ by cases h) (fun h ↦ by cases h),
      fun m hm ↦ List.mem_singleton.1 hm ▸ shows_error hb.texts⟩
  simp only [handleUser, hlog]
  refine withUuid36_elim (fun _ ↦ ?_) fun hlen ↦ withUser_elim ?_ fun u hu ↦ ?_
  · exact realizes_error (hrefused .invalid) rfl
  · exact realizes_error (hrefused (.user _)) (appendFixed_uuid hlen)
  · rw [findUserByUuid_eq hlen] at hu
    refine realizes_answer
      ⟨.user hs (List.mem_of_find?_eq_some hu), fun m hm ↦ ?_⟩ (appendUser_eq data [] u)
    have hshown := map_userPlaces (List.prefix_refl (identities data))
      (Server.extractSv payload 0 36)
    rw [hu] at hshown
    rw [List.mem_singleton.1 hm]
    exact hshown

/-- **What a frame shows is kept.** -/
theorem frameOutcome_shows (hregistry : DataRegistry data) (hmembers : MembersKnown data)
    (code : UInt16) :
    Realizes (fun a ↦ Serves host fd payload data (Command.ofCode? code) a ∧
        ∀ m ∈ a.msgs, Shows fd payload data a.data m)
      (frameOutcome host fd code payload data) := by
  obtain ⟨a, hserves, hdata, hresult⟩ :
      Realizes (Serves host fd payload data (Command.ofCode? code))
        (frameOutcome host fd code payload data) := frameOutcome_realizes hregistry.sessionsWf
  -- `Serves` does not say which user `CMD_USER` shows, so that one is looked up in the handler
  by_cases hcmd : Command.ofCode? code = some .user
  · rcases hs : data.sessions[fd]? with - | user
    · refine ⟨a, ⟨hserves, ?_⟩, hdata, hresult⟩
      rw [hcmd] at hserves
      cases hserves with
      | unauthorized => exact fun m hm ↦ List.mem_singleton.1 hm ▸ shows_error rfl
      | refused hs' => rw [hs] at hs'; cases hs'
      | dangling hs' => rw [hs] at hs'; cases hs'
      | user hs' => rw [hs] at hs'; cases hs'
    · rw [Server.frameOutcome_of_session hs hcmd, hcmd]
      exact handleUser_shows hs
  · exact ⟨a, ⟨hserves, hserves.shows hregistry hmembers hcmd⟩, hdata, hresult⟩

end Shown

namespace Server

variable {host : ℕ → Host} {s : Server}

/-- The places that the messages of an action show. -/
def Action.shown (host : ℕ → Host) (s : Server) (a : Action) : ServerCode → List Place :=
  MyTeams.shown a.fd a.request.2 s.data (perform host a s).data

/-- **Along every run** what is kept at a place stays there. -/
theorem Reachable.texts_steps (h : Reachable host s) {s' : Server} (hs : Steps host s s')
    {p : Place} {ts : List Str} (hp : s.data.texts p = some ts) : s'.data.texts p = some ts := by
  induction hs with
  | refl => exact hp
  | tail hs hstep ih =>
    obtain ⟨a, -, rfl⟩ := hstep
    exact (effect_perform host (h.steps hs).sessionsWf a).texts ih

/-- **Along every run** a message that an action queues belongs to an answer, and shows what is
kept. -/
theorem Reachable.shows (h : Reachable host s) {a : Action} (ha : s.Enabled a) {d : Fd}
    {b : List UInt8} (hb : b ∈ newMessages d s (perform host a s)) :
    ∃ cmd answer m, Serves (host s.served) a.fd a.request.2 s.data cmd answer ∧ m ∈ answer.msgs ∧
      b = m.bytes ∧ Shows a.fd a.request.2 s.data (perform host a s).data m := by
  have hserved {p : Prop} [Decidable p] {cmd : Option Command} {answer : Answer}
      (hserves : Serves (host s.served) a.fd a.request.2 s.data cmd answer)
      (hdata : (perform host a s).data = answer.data)
      (hshows : ∀ m ∈ answer.msgs, Shows a.fd a.request.2 s.data answer.data m)
      (hb : b ∈ if p then (answer.messagesTo a.fd d).map Msg.bytes else []) :
      ∃ cmd answer m, Serves (host s.served) a.fd a.request.2 s.data cmd answer ∧ m ∈ answer.msgs ∧
        b = m.bytes ∧ Shows a.fd a.request.2 s.data (perform host a s).data m := by
    split_ifs at hb
    · obtain ⟨m, hm, rfl⟩ := List.mem_map.1 hb
      have hmem := mem_msgs_of_mem_messagesTo hm
      exact ⟨cmd, answer, m, hserves, hmem, rfl, hdata ▸ hshows m hmem⟩
    · cases hb
  cases a with
  | frame fd code payload =>
    obtain ⟨c, rest, hc, -⟩ := ha
    obtain ⟨answer, ⟨hserves, hshows⟩, hdata, hresult⟩ :=
      @frameOutcome_shows (host s.served) fd payload s.data h.registry.toDataRegistry h.membersKnown
        code
    rw [newMessages_of_append
      (queuedOn_frame ((IntMap.contains_iff _).2 ⟨c, hc⟩) hresult d)] at hb
    exact hserved hserves ((perform_frame_data ..).trans hdata) hshows hb
  | disconnect fd =>
    obtain ⟨answer, hserves, hdata, hqueue⟩ := exists_answer_disconnect host h.sessionsWf fd
    rw [newMessages_of_append (hqueue d)] at hb
    exact hserved hserves hdata
      (hserves.shows h.registry.toDataRegistry h.membersKnown (by decide)) hb
  | _ =>
    rw [newMessages_quiet (by simp) (by simp)] at hb
    cases hb

end Server

end MyTeams
