import MyTeams.Lib.Forest
import MyTeams.Server.Contexts

/-!
# The tree of resources

Teams hold channels, channels hold threads, threads hold replies. Seen as a forest of `Resource`s
the shared data has one operation: a successful `CMD_CREATE` appends a leaf where the stored context
points (`Creates`), and nothing else any request does shows in the forest (`Serves.forest`). A
context is a path of keys in it, and `CMD_LIST` reads the listing at that path
(`bytes_contextList`).
-/

namespace MyTeams

open FirstMatch Forest ByteField

/-! ### Resources -/

/-- What is stored of a team, channel, thread or reply beside what it holds and who is a member. -/
inductive Resource
  | team (r : DescribedRecord)
  | channel (r : DescribedRecord)
  | thread (r : ThreadRecord)
  | reply (r : Reply)

namespace Resource

/-- The uuid that a resource is looked up by. -/
def key : Resource → Str
  | team r | channel r => r.uuid.toList
  | thread r => r.uuid.toList
  | reply r => r.uuid.str

/-- The body that shows a resource, of the thread `threadUuid` if it is a reply. -/
def body (threadUuid : Bytes 36) : Resource → Body
  | team r | channel r => .described r
  | thread r => .thread r
  | reply r => .reply (r.record threadUuid)

end Resource

/-- The tree of a reply. -/
def Reply.tree (r : Reply) : RoseTree Resource := .leaf (.reply r)

/-- The tree of a thread. -/
def Thread.tree (th : Thread) : RoseTree Resource :=
  .node (.thread th.record) (th.replies.map Reply.tree)

/-- The tree of a channel. -/
def Channel.tree (c : Channel) : RoseTree Resource :=
  .node (.channel c.record) (c.threads.map Thread.tree)

/-- The tree of a team. -/
def Team.tree (t : Team) : RoseTree Resource := .node (.team t.record) (t.channels.map Channel.tree)

/-- The teams with all they hold. -/
def ServerData.forest (data : ServerData) : List (RoseTree Resource) := data.teams.map Team.tree

/-- The path of a context: the uuids down to its level. -/
def ClientContext.path (ctx : ClientContext) : List Str :=
  [ctx.teamUuid.toList, ctx.channelUuid.toList, ctx.threadUuid.toList].take ctx.level.toNat

/-! ### Paths by level -/

section Levels

variable {ctx : ClientContext} {data : ServerData}

theorem path_of_none (h : ctx.level = useNone) : ctx.path = [] := by
  rw [ClientContext.path, h]
  rfl

theorem path_of_team (h : ctx.level = useTeam) : ctx.path = [ctx.teamUuid.toList] := by
  rw [ClientContext.path, h]
  rfl

theorem path_of_channel (h : ctx.level = useChannel) :
    ctx.path = [ctx.teamUuid.toList, ctx.channelUuid.toList] := by
  rw [ClientContext.path, h]
  rfl

theorem path_of_thread (h : ctx.level = useThread) :
    ctx.path = [ctx.teamUuid.toList, ctx.channelUuid.toList, ctx.threadUuid.toList] := by
  rw [ClientContext.path, h]
  rfl

/-! ### Lookups are finds in the forest -/

theorem find?_forest (uuid : Str) :
    (data.forest.find? fun t ↦ t.label.key == uuid) =
      (data.teams.find? fun t ↦ t.uuid.str == uuid).map Team.tree :=
  List.find?_map

theorem find?_forest_of_team {t : Team} (h : ctx.team? data = some t) :
    (data.forest.find? fun t ↦ t.label.key == ctx.teamUuid.toList) = some t.tree := by
  rw [ClientContext.team?, findTeamByUuid_eq ctx.teamUuid.toList_length] at h
  rw [find?_forest, h, Option.map_some]

theorem find?_tree_of_channel {t : Team} {c : Channel}
    (h : findChannelByUuid t ctx.channelUuid.toList = some c) :
    (t.tree.children.find? fun t ↦ t.label.key == ctx.channelUuid.toList) = some c.tree := by
  rw [findChannelByUuid_eq ctx.channelUuid.toList_length] at h
  exact List.find?_map.trans (congrArg (Option.map Channel.tree) h)

theorem find?_tree_of_thread {c : Channel} {th : Thread}
    (h : findThreadByUuid c ctx.threadUuid.toList = some th) :
    (c.tree.children.find? fun t ↦ t.label.key == ctx.threadUuid.toList) = some th.tree := by
  rw [findThreadByUuid_eq ctx.threadUuid.toList_length] at h
  exact List.find?_map.trans (congrArg (Option.map Thread.tree) h)

theorem childrenAt_of_none (h : ctx.level = useNone) :
    childrenAt Resource.key ctx.path data.forest = some data.forest := by
  rw [path_of_none h, childrenAt_nil]

theorem childrenAt_of_team (h : ctx.level = useTeam) {t : Team} (ht : ctx.team? data = some t) :
    childrenAt Resource.key ctx.path data.forest = some t.tree.children := by
  rw [path_of_team h, childrenAt_cons (find?_forest_of_team ht), childrenAt_nil]

theorem childrenAt_of_channel (h : ctx.level = useChannel) {c : Channel}
    (hc : ctx.channel? data = some c) :
    childrenAt Resource.key ctx.path data.forest = some c.tree.children := by
  obtain ⟨t, ht, hfind⟩ := Option.bind_eq_some_iff.1 hc
  rw [path_of_channel h, childrenAt_cons (find?_forest_of_team ht),
    childrenAt_cons (find?_tree_of_channel hfind), childrenAt_nil]

theorem childrenAt_of_thread (h : ctx.level = useThread) {th : Thread}
    (hth : ctx.thread? data = some th) :
    childrenAt Resource.key ctx.path data.forest = some th.tree.children := by
  obtain ⟨c, hc, hfind⟩ := Option.bind_eq_some_iff.1 hth
  obtain ⟨t, ht, hfind'⟩ := Option.bind_eq_some_iff.1 hc
  rw [path_of_thread h, childrenAt_cons (find?_forest_of_team ht),
    childrenAt_cons (find?_tree_of_channel hfind'), childrenAt_cons (find?_tree_of_thread hfind),
    childrenAt_nil]

theorem childrenAt_eq_listing {ks : List Str} {f cs : List (RoseTree Resource)}
    (h : childrenAt Resource.key ks f = some cs) :
    listing Resource.key ks f = cs.map RoseTree.label := by
  rw [listing, h, Option.getD_some]

/-- **`CMD_LIST` reads the listing at the path of the context.** -/
theorem bytes_contextList {m : Msg} (h : contextList data ctx = some m) :
    m.body.bytes = listBytes (fun r ↦ (r.body ctx.threadUuid).bytes)
      (listing Resource.key ctx.path data.forest) := by
  have hbytes {α : Type} (bytes : α → List UInt8) {ρ : Type} (record : ρ → α)
      (tree : ρ → RoseTree Resource)
      (hrecord : ∀ r, ((tree r).label.body ctx.threadUuid).bytes = bytes (record r)) (l : List ρ) :
      listBytes bytes (l.map record) =
        listBytes (fun r ↦ (r.body ctx.threadUuid).bytes) ((l.map tree).map RoseTree.label) := by
    rw [listBytes, listBytes, List.length_map, List.length_map, List.length_map, List.map_map,
      List.map_map, List.map_map]
    congr 3
    funext r
    exact (hrecord r).symm
  rw [contextList] at h
  split_ifs at h with h0 h1 h2 h3
  · rw [← Option.some.inj h, childrenAt_eq_listing (childrenAt_of_none h0)]
    exact hbytes DescribedRecord.bytes Team.record Team.tree (fun _ ↦ rfl) data.teams
  · obtain ⟨t, ht, rfl⟩ := Option.map_eq_some_iff.1 h
    rw [childrenAt_eq_listing (childrenAt_of_team h1 ht)]
    exact hbytes DescribedRecord.bytes Channel.record Channel.tree (fun _ ↦ rfl) t.channels
  · obtain ⟨c, hc, rfl⟩ := Option.map_eq_some_iff.1 h
    rw [childrenAt_eq_listing (childrenAt_of_channel h2 hc)]
    exact hbytes ThreadRecord.bytes Thread.record Thread.tree (fun _ ↦ rfl) c.threads
  · obtain ⟨th, hth, rfl⟩ := Option.map_eq_some_iff.1 h
    rw [childrenAt_eq_listing (childrenAt_of_thread h3 hth)]
    exact hbytes ReplyRecord.bytes (Reply.record ctx.threadUuid) Reply.tree (fun _ ↦ rfl) th.replies

end Levels

/-! ### Changes of the forest -/

theorem forest_of_teams_eq {data after : ServerData} (h : after.teams = data.teams) :
    after.forest = data.forest := by
  rw [ServerData.forest, ServerData.forest, h]

/-- A write to a team that shows in its tree shows in the forest at the team's uuid. -/
theorem forest_updateTeam (data : ServerData) (uuid36 : Str) {f : Team → Team}
    {g : RoseTree Resource → RoseTree Resource} (h : ∀ t : Team, (f t).tree = g t.tree) :
    (updateTeam data uuid36 f).forest =
      updateFirst (fun t ↦ t.label.key == uuid36) g data.forest :=
  map_updateFirst_eq (p := fun t : Team ↦ t.uuid.str == uuid36)
    (q := fun t : RoseTree Resource ↦ t.label.key == uuid36) (fun _ ↦ rfl) h data.teams

theorem tree_updateChannel (t : Team) (uuid36 : Str) {f : Channel → Channel}
    {g : RoseTree Resource → RoseTree Resource} (h : ∀ c : Channel, (f c).tree = g c.tree) :
    (updateChannel t uuid36 f).tree.children =
      updateFirst (fun t ↦ t.label.key == uuid36) g t.tree.children :=
  map_updateFirst_eq (p := fun c : Channel ↦ c.uuid.str == uuid36)
    (q := fun t : RoseTree Resource ↦ t.label.key == uuid36) (fun _ ↦ rfl) h t.channels

theorem tree_updateThread (c : Channel) (uuid36 : Str) {f : Thread → Thread}
    {g : RoseTree Resource → RoseTree Resource} (h : ∀ th : Thread, (f th).tree = g th.tree) :
    (updateThread c uuid36 f).tree.children =
      updateFirst (fun t ↦ t.label.key == uuid36) g c.tree.children :=
  map_updateFirst_eq (p := fun th : Thread ↦ th.uuid.str == uuid36)
    (q := fun t : RoseTree Resource ↦ t.label.key == uuid36) (fun _ ↦ rfl) h c.threads

/-- A write that does not show in the trees of teams. -/
theorem forest_updateTeam_same (data : ServerData) (uuid36 : Str) {f : Team → Team}
    (h : ∀ t : Team, (f t).tree = t.tree) : (updateTeam data uuid36 f).forest = data.forest :=
  map_updateFirst h data.teams

theorem forest_addTeam (data : ServerData) (team : Team) :
    (addTeam data team).forest = insertAt Resource.key team.tree [] data.forest :=
  List.map_append

/-- Appending at the bottom of a context's path. -/
theorem forest_addChannel (data : ServerData) (ctx : ClientContext) (channel : Channel) :
    (addChannel data ctx channel).forest =
      insertAt Resource.key channel.tree [ctx.teamUuid.toList] data.forest := by
  refine forest_updateTeam data _ fun t ↦ ?_
  rw [insertAt, Team.tree, List.map_append]
  rfl

theorem forest_addThread (data : ServerData) (ctx : ClientContext) (thread : Thread) :
    (addThread data ctx thread).forest =
      insertAt Resource.key thread.tree [ctx.teamUuid.toList, ctx.channelUuid.toList]
        data.forest := by
  refine forest_updateTeam data _ fun t ↦ congrArg (RoseTree.node _) ?_
  refine tree_updateChannel t _ fun c ↦ ?_
  rw [insertAt, Channel.tree, List.map_append]
  rfl

theorem forest_addReply (data : ServerData) (ctx : ClientContext) (reply : Reply) :
    (addReply data ctx reply).forest =
      insertAt Resource.key reply.tree
        [ctx.teamUuid.toList, ctx.channelUuid.toList, ctx.threadUuid.toList] data.forest := by
  refine forest_updateTeam data _ fun t ↦ congrArg (RoseTree.node _) ?_
  refine tree_updateChannel t _ fun c ↦ congrArg (RoseTree.node _) ?_
  refine tree_updateThread c _ fun th ↦ ?_
  rw [insertAt, Thread.tree, List.map_append]
  rfl

/-! ### Creations -/

/-- What `handle_create` creates at a level. -/
def newResource (host : Host) (user payload : Str) (level : UInt8) : Resource :=
  if level = useNone then .team (newTeam host user payload).record
  else if level = useTeam then .channel (newChannel host payload).record
  else if level = useChannel then .thread (newThread host user payload).record
  else .reply (newReply host user payload)

/-- The responses to a successful `CMD_CREATE`. -/
def createdResponses : List Response :=
  [.teamCreated, .channelCreated, .threadCreated, .replyCreated]

/-- How many payload bytes `handle_create` asks for at a level. -/
def createLength (level : UInt8) : ℕ :=
  if level = useNone ∨ level = useTeam then 32 + 255
  else if level = useChannel then 32 + 512
  else 512

/-- **A creation**: the answer `a` to a frame on `fd` says that `user` has created a resource in the
stored context `ctx`. -/
structure Creates (host : Host) (fd : Fd) (payload : List UInt8) (data : ServerData) (a : Answer)
    (user : Str) (ctx : ClientContext) : Prop where
  session : data.sessions[fd]? = some user
  context : data.clientContexts[fd]? = some ctx
  /-- The level is one of the four, and the payload long enough for it. -/
  level : ctx.level ∈ [useNone, useTeam, useChannel, useThread]
  length : createLength ctx.level ≤ payload.length
  /-- Below `USE_NONE` the user is a member of the team at this moment. -/
  member : ctx.level ≠ useNone → ∃ t, ctx.team? data = some t ∧ user ∈ t.memberUuids
  /-- The path leads somewhere, and there the resource is appended. -/
  place : (childrenAt Resource.key ctx.path data.forest).isSome
  forest : a.data.forest =
    insertAt Resource.key (.leaf (newResource host user payload ctx.level)) ctx.path data.forest
  /-- The response shows the resource. -/
  msg : a.msg = ⟨.res (createdResponse ctx.level),
    (newResource host user payload ctx.level).body ctx.threadUuid⟩

theorem createdResponse_mem (level : UInt8) : createdResponse level ∈ createdResponses := by
  rw [createdResponse]
  split_ifs <;> decide

theorem infoResponse_not_mem (level : UInt8) : infoResponse level ∉ createdResponses := by
  rw [infoResponse]
  split_ifs <;> decide

theorem listResponse_not_mem (level : UInt8) : listResponse level ∉ createdResponses := by
  rw [listResponse]
  split_ifs <;> decide

/-- **What a frame does to the tree**: it creates a resource, or leaves the tree alone and does not
answer with a creation. -/
theorem Serves.forest {host : Host} {fd : Fd} {payload : List UInt8} {data : ServerData}
    {cmd : Option Command} {a : Answer} (h : Serves host fd payload data cmd a) :
    (cmd = some .create ∧ ∃ user ctx, Creates host fd payload data a user ctx) ∨
      a.data.forest = data.forest ∧ ∀ r ∈ createdResponses, a.msg.code ≠ .res r := by
  have hother {r : Response} (hr : r ∉ createdResponses) (r' : Response)
      (hr' : r' ∈ createdResponses) : ServerCode.res r ≠ .res r' := by
    rintro ⟨⟩
    exact hr hr'
  -- the four creations, each below the path of its context; then the rest
  cases h with
  | @createTeam user ctx team hs hctx hlevel hlen hnew =>
    refine .inl ⟨rfl, user, ctx, hs, hctx, by simp [hlevel], ?_, fun hne ↦ absurd hlevel hne,
      ?_, ?_, ?_⟩
    · rw [createLength, if_pos (Or.inl hlevel)]
      exact hlen
    · rw [childrenAt_of_none hlevel]
      rfl
    · rw [path_of_none hlevel, hlevel, forest_addTeam, hnew]
      rfl
    · rw [hlevel, hnew]
      rfl
  | @createChannel user ctx team channel hs hctx hlevel hlen hteam hsub hnew =>
    refine .inl ⟨rfl, user, ctx, hs, hctx, by simp [hlevel], ?_, fun _ ↦ ⟨team, hteam, hsub⟩,
      ?_, ?_, ?_⟩
    · rw [createLength, if_pos (Or.inr hlevel)]
      exact hlen
    · rw [childrenAt_of_team hlevel hteam]
      rfl
    · rw [path_of_team hlevel, hlevel, forest_addChannel, hnew]
      rfl
    · rw [hlevel, hnew]
      rfl
  | @createThread user ctx team channel thread hs hctx hlevel hlen hteam hsub hchannel hnew =>
    refine .inl ⟨rfl, user, ctx, hs, hctx, by simp [hlevel], ?_, fun _ ↦ ⟨team, hteam, hsub⟩,
      ?_, ?_, ?_⟩
    · rw [hlevel]
      exact hlen
    · rw [childrenAt_of_channel hlevel hchannel]
      rfl
    · rw [path_of_channel hlevel, hlevel, forest_addThread, hnew]
      rfl
    · rw [hlevel, hnew]
      rfl
  | @createReply user ctx team thread reply hs hctx hlevel hlen hteam hsub hthread hnew =>
    refine .inl ⟨rfl, user, ctx, hs, hctx, by simp [hlevel], ?_, fun _ ↦ ⟨team, hteam, hsub⟩,
      ?_, ?_, ?_⟩
    · rw [hlevel]
      exact hlen
    · rw [childrenAt_of_thread hlevel hthread]
      rfl
    · rw [path_of_thread hlevel, hlevel, forest_addReply, hnew]
      rfl
    · rw [hlevel, hnew]
      rfl
  | loginKnown _ hafter | loginNew _ _ hafter | logout _ hafter =>
    exact .inr ⟨by rw [hafter]; rfl, hother (by decide)⟩
  | send => exact .inr ⟨rfl, hother (by decide)⟩
  | subscribe | unsubscribe =>
    exact .inr ⟨forest_updateTeam_same _ _ fun _ ↦ rfl, hother (by decide)⟩
  | use hs hreq hgrant hinfo =>
    refine .inr ⟨rfl, ?_⟩
    rw [Answer.only, contextInfo_code hinfo]
    exact hother (infoResponse_not_mem _)
  | list hs hctx hlist =>
    refine .inr ⟨rfl, ?_⟩
    rw [Answer.only, contextList_code hlist]
    exact hother (listResponse_not_mem _)
  | info hs hctx hinfo =>
    refine .inr ⟨rfl, ?_⟩
    rw [Answer.only, contextInfo_code hinfo]
    exact hother (infoResponse_not_mem _)
  | unauthorized | unknown | refused | dangling => exact .inr ⟨rfl, fun _ _ h ↦ by cases h⟩
  | _ => exact .inr ⟨rfl, hother (by decide)⟩

end MyTeams
