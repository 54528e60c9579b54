import MyTeams.Message
import MyTeams.Server.EventLoop

/-!
# What a frame can do

The server as its protocol sees it: `Serves` relates the shared data before a frame to an `Answer` —
the data after it, the message it is answered with, and the events it causes with their audiences.
There is one constructor per way a frame can end, with its guards, and messages are typed
(`MyTeams.Msg`) rather than bytes.

`frameOutcome_realizes` is the refinement: on data whose sessions are 36 bytes long, what
`_dispatch` computes is the packet form of an answer that `Serves` allows. Everything proved later
about single frames is a case analysis on `Serves`; no handler is unfolded again.
-/

namespace MyTeams

open ByteField FirstMatch

/-! ### Presence and membership as propositions -/

/-- Some session holds the uuid. -/
def Online (data : ServerData) (uuid : Str) : Prop := ∃ fd : Fd, data.sessions[fd]? = some uuid

theorem any_sessions_iff {m : IntMap Str} {uuid : Str} :
    (m.toList.any fun kv ↦ kv.2 == uuid) = true ↔ ∃ fd : Fd, m[fd]? = some uuid := by
  rw [List.any_eq_true]
  constructor
  · rintro ⟨⟨fd, v⟩, hmem, hv⟩
    exact ⟨fd, ((IntMap.mem_toList m).1 hmem).trans (congrArg some (eq_of_beq hv))⟩
  · rintro ⟨fd, h⟩
    exact ⟨(fd, uuid), (IntMap.mem_toList m).2 h, beq_self_eq_true _⟩

theorem isUserOnline_iff {data : ServerData} {user : User} :
    isUserOnline data user = true ↔ Online data user.uuid.str :=
  any_sessions_iff

theorem isSubscribedTo_iff {team : Team} {uuid : Str} :
    isSubscribedTo team uuid = true ↔ uuid ∈ team.memberUuids := by
  rw [isSubscribedTo, List.contains_iff_mem]

/-- With 36-byte keys the length guard of the lookups is redundant. -/
theorem findTeamByUuid_eq {data : ServerData} {uuid : Str} (h : uuid.length = 36) :
    findTeamByUuid data uuid = data.teams.find? fun t ↦ t.uuid.str == uuid := by
  rw [findTeamByUuid, isUuid36, h, if_pos (by decide)]

theorem findChannelByUuid_eq {team : Team} {uuid : Str} (h : uuid.length = 36) :
    findChannelByUuid team uuid = team.channels.find? fun c ↦ c.uuid.str == uuid := by
  rw [findChannelByUuid, isUuid36, h, if_pos (by decide)]

theorem findThreadByUuid_eq {channel : Channel} {uuid : Str} (h : uuid.length = 36) :
    findThreadByUuid channel uuid = channel.threads.find? fun t ↦ t.uuid.str == uuid := by
  rw [findThreadByUuid, isUuid36, h, if_pos (by decide)]

theorem findUserByUuid_eq {data : ServerData} {uuid : Str} (h : uuid.length = 36) :
    findUserByUuid data uuid = data.users.find? fun u ↦ u.uuid.str == uuid := by
  rw [findUserByUuid, isUuid36, h, if_pos (by decide)]

/-! ### Contexts -/

/-- The team a context names. -/
def ClientContext.team? (ctx : ClientContext) (data : ServerData) : Option Team :=
  findTeamByUuid data ctx.teamUuid.toList

/-- The channel a context names, inside its team. -/
def ClientContext.channel? (ctx : ClientContext) (data : ServerData) : Option Channel :=
  (ctx.team? data).bind fun t ↦ findChannelByUuid t ctx.channelUuid.toList

/-- The thread a context names, inside its channel. -/
def ClientContext.thread? (ctx : ClientContext) (data : ServerData) : Option Thread :=
  (ctx.channel? data).bind fun c ↦ findThreadByUuid c ctx.threadUuid.toList

/-- The account that a session's own details show. -/
def accountBody (data : ServerData) (userUuid : Str) : Body :=
  match findUserByUuid data userUuid with
  | some user => .account user.uuid.bytes user.name
  | none => .account (fill 36 userUuid) (zeros 32)

/-- What a context shows of itself, if it resolves. -/
def contextInfo (data : ServerData) (userUuid : Str) (ctx : ClientContext) : Option Msg :=
  if ctx.level = useNone then some ⟨.res .userDetails, accountBody data userUuid⟩
  else if ctx.level = useTeam then
    (ctx.team? data).map fun t ↦ ⟨.res .teamInfo, .described t.record⟩
  else if ctx.level = useChannel then
    (ctx.channel? data).map fun c ↦ ⟨.res .channelInfo, .described c.record⟩
  else if ctx.level = useThread then
    (ctx.thread? data).map fun t ↦ ⟨.res .threadInfo, .thread t.record⟩
  else none

/-- What a context holds, if it resolves. -/
def contextList (data : ServerData) (ctx : ClientContext) : Option Msg :=
  if ctx.level = useNone then
    some ⟨.res .listTeams, .describeds (data.teams.map Team.record)⟩
  else if ctx.level = useTeam then
    (ctx.team? data).map fun t ↦ ⟨.res .listChannels, .describeds (t.channels.map Channel.record)⟩
  else if ctx.level = useChannel then
    (ctx.channel? data).map fun c ↦ ⟨.res .listThreads, .threads (c.threads.map Thread.record)⟩
  else if ctx.level = useThread then
    (ctx.thread? data).map fun t ↦
      ⟨.res .listReplies, .replies (t.replies.map (Reply.record ctx.threadUuid))⟩
  else none

section Levels

variable {data : ServerData} {userUuid : Str} {ctx : ClientContext}

theorem contextInfo_of_none (h : ctx.level = useNone) :
    contextInfo data userUuid ctx = some ⟨.res .userDetails, accountBody data userUuid⟩ := by
  rw [contextInfo, if_pos h]

theorem contextInfo_of_team (h : ctx.level = useTeam) :
    contextInfo data userUuid ctx =
      (ctx.team? data).map fun t ↦ ⟨.res .teamInfo, .described t.record⟩ := by
  simp [contextInfo, h, useNone, useTeam]

theorem contextInfo_of_channel (h : ctx.level = useChannel) :
    contextInfo data userUuid ctx =
      (ctx.channel? data).map fun c ↦ ⟨.res .channelInfo, .described c.record⟩ := by
  simp [contextInfo, h, useNone, useTeam, useChannel]

theorem contextInfo_of_thread (h : ctx.level = useThread) :
    contextInfo data userUuid ctx =
      (ctx.thread? data).map fun t ↦ ⟨.res .threadInfo, .thread t.record⟩ := by
  simp [contextInfo, h, useNone, useTeam, useChannel, useThread]

theorem contextList_of_none (h : ctx.level = useNone) :
    contextList data ctx =
      some ⟨.res .listTeams, .describeds (data.teams.map Team.record)⟩ := by
  rw [contextList, if_pos h]

theorem contextList_of_team (h : ctx.level = useTeam) :
    contextList data ctx = (ctx.team? data).map fun t ↦
      ⟨.res .listChannels, .describeds (t.channels.map Channel.record)⟩ := by
  simp [contextList, h, useNone, useTeam]

theorem contextList_of_channel (h : ctx.level = useChannel) :
    contextList data ctx = (ctx.channel? data).map fun c ↦
      ⟨.res .listThreads, .threads (c.threads.map Thread.record)⟩ := by
  simp [contextList, h, useNone, useTeam, useChannel]

theorem contextList_of_thread (h : ctx.level = useThread) :
    contextList data ctx = (ctx.thread? data).map fun t ↦
      ⟨.res .listReplies, .replies (t.replies.map (Reply.record ctx.threadUuid))⟩ := by
  simp [contextList, h, useNone, useTeam, useChannel, useThread]

/-- The response that shows a context of the given level, as in the tables of RFC sections 7 and
9. -/
def infoResponse (level : UInt8) : Response :=
  if level = useNone then .userDetails
  else if level = useTeam then .teamInfo
  else if level = useChannel then .channelInfo
  else .threadInfo

/-- The response that lists a context of the given level. -/
def listResponse (level : UInt8) : Response :=
  if level = useNone then .listTeams
  else if level = useTeam then .listChannels
  else if level = useChannel then .listThreads
  else .listReplies

/-- The response for what is created in a context of the given level. -/
def createdResponse (level : UInt8) : Response :=
  if level = useNone then .teamCreated
  else if level = useTeam then .channelCreated
  else if level = useChannel then .threadCreated
  else .replyCreated

theorem contextInfo_code {m : Msg} (h : contextInfo data userUuid ctx = some m) :
    m.code = .res (infoResponse ctx.level) := by
  rw [contextInfo] at h
  rw [infoResponse]
  split_ifs at h ⊢
  · rw [← Option.some.inj h]
  all_goals
    obtain ⟨x, -, rfl⟩ := Option.map_eq_some_iff.1 h
    rfl

theorem contextList_code {m : Msg} (h : contextList data ctx = some m) :
    m.code = .res (listResponse ctx.level) := by
  rw [contextList] at h
  rw [listResponse]
  split_ifs at h ⊢
  · rw [← Option.some.inj h]
  all_goals
    obtain ⟨x, -, rfl⟩ := Option.map_eq_some_iff.1 h
    rfl

end Levels

/-- The context a `CMD_USE` payload asks for, if it is long enough for its level. -/
def requestedContext (payload : Str) : Option ClientContext :=
  match payload.head? with
  | none => none
  | some level =>
    if level = useNone then some { ClientContext.init with level := level }
    else if level = useTeam then
      if payload.length < 1 + 36 then none
      else some { ClientContext.init with level := level, teamUuid := fill 36 (useUuid payload 0) }
    else if level = useChannel then
      if payload.length < 1 + 36 + 36 then none
      else
        some
          { ClientContext.init with
            level := level
            teamUuid := fill 36 (useUuid payload 0)
            channelUuid := fill 36 (useUuid payload 1) }
    else if level = useThread then
      if payload.length < 1 + 36 + 36 + 36 then none
      else
        some
          { level := level
            teamUuid := fill 36 (useUuid payload 0)
            channelUuid := fill 36 (useUuid payload 1)
            threadUuid := fill 36 (useUuid payload 2) }
    else none

/-- A context is granted to a user when it resolves and, below level `USE_NONE`, the user is a
member of its team. -/
def Grants (data : ServerData) (userUuid : Str) (ctx : ClientContext) : Prop :=
  (contextInfo data userUuid ctx).isSome ∧
    (ctx.level = useNone ∨ ∃ t, ctx.team? data = some t ∧ userUuid ∈ t.memberUuids)

/-! ### Answers -/

/-- The effect of one frame: the data it leaves, the message it is answered with, and the events it
causes, each with the descriptors it is meant for. -/
structure Answer where
  data : ServerData
  msg : Msg
  events : List (Msg × List Fd)

/-- The packet form of an answer. -/
def Answer.result (a : Answer) : Result :=
  ⟨a.msg.packet, a.events.map fun e ↦ ⟨e.1.packet, e.2⟩⟩

/-- An answer that changes nothing and causes nothing. -/
def Answer.only (data : ServerData) (m : Msg) : Answer := ⟨data, m, []⟩

/-- The bodies of error messages that repeat the uuid asked for. -/
inductive ErrorBody : Error → Body → Prop
  | invalid : ErrorBody .invalidCommand .empty
  | notSubscribed : ErrorBody .notSubscribed .empty
  | team (u : Bytes 36) : ErrorBody .unknownTeam (.uuid u)
  | channel (u : Bytes 36) : ErrorBody .unknownChannel (.uuid u)
  | thread (u : Bytes 36) : ErrorBody .unknownThread (.uuid u)
  | user (u : Bytes 36) : ErrorBody .unknownUser (.uuid u)

/-- The event that announces a login or a logout. -/
def presenceEvents (evt : Event) (online : Prop) [Decidable online] (body : Body)
    (fds : List Fd) : List (Msg × List Fd) :=
  if online then [] else [(⟨.evt evt, body⟩, fds)]

/-- What a logout says of the session it ends. -/
def logoutBody (data : ServerData) (uuid : Str) : Body :=
  match data.users.find? fun u ↦ u.uuid.str == uuid with
  | some user => .account (fill 36 uuid) user.name
  | none => .account (fill 36 uuid) (zeros 32)

/-- **What a frame can do**: `Serves host fd payload data cmd answer` when a frame with that
payload, whose code stands for `cmd` (or for no command), may be answered so on connection `fd`. -/
inductive Serves (host : Host) (fd : Fd) (payload : List UInt8) (data : ServerData) :
    Option Command → Answer → Prop
  /-- Before a login everything but a login is refused. -/
  | unauthorized {cmd : Option Command} (hs : data.sessions[fd]? = none)
    (hcmd : cmd ≠ some .login) :
    Serves host fd payload data cmd (.only data ⟨.err .unauthorized, .empty⟩)
  /-- A code that is no command. -/
  | unknown {user : Str} (hs : data.sessions[fd]? = some user) :
    Serves host fd payload data none (.only data ⟨.err .invalidCommand, .empty⟩)
  /-- An argument is malformed, names nothing, or names a team of which the user is no member. -/
  | refused {cmd : Command} {user : Str} {e : Error} {b : Body}
    (hs : data.sessions[fd]? = some user) (hb : ErrorBody e b)
    (hquery : cmd ≠ .login ∧ cmd ≠ .logout ∧ cmd ≠ .list ∧ cmd ≠ .info)
    (hcreate : cmd = .create → b = .empty)
    (huse : cmd = .use → ¬ ∃ ctx, requestedContext payload = some ctx ∧ Grants data user ctx) :
    Serves host fd payload data (some cmd) (.only data ⟨.err e, b⟩)
  /-- The stored context is missing or does not resolve. -/
  | dangling {cmd : Command} {user : Str} {e : Error} (hs : data.sessions[fd]? = some user)
    (hcmd : cmd = .create ∨ cmd = .list ∨ cmd = .info)
    (hctx : ∀ ctx, data.clientContexts[fd]? = some ctx → contextInfo data user ctx = none) :
    Serves host fd payload data (some cmd) (.only data ⟨.err e, .empty⟩)
  /-- A login under a name already taken. -/
  | loginKnown {user : User} (hfind : findUserByName data (cut payload) = some user)
    {after : ServerData}
    (hafter : after =
      loginData data fd
        (updateFirst (fun u ↦ trimPaddedName u.name.toList == cut payload) (User.loggedIn fd)
          data.users) user) :
    Serves host fd payload data (some .login)
      ⟨after, ⟨.res .loginOk, .account user.uuid.bytes user.name⟩,
        presenceEvents .userLoggedIn (isUserOnline data user) (.account user.uuid.bytes user.name)
          (loggedFds after)⟩
  /-- A login under a new name. -/
  | loginNew (hfind : findUserByName data (cut payload) = none) {user : User}
    (huser : user = newUser host fd (cut payload)) {after : ServerData}
    (hafter : after = loginData data fd (data.users ++ [user]) user) :
    Serves host fd payload data (some .login)
      ⟨after, ⟨.res .loginOk, .account user.uuid.bytes user.name⟩,
        presenceEvents .userLoggedIn (isUserOnline data user) (.account user.uuid.bytes user.name)
          (loggedFds after)⟩
  /-- A logout. -/
  | logout {user : Str} (hs : data.sessions[fd]? = some user) {after : ServerData}
    (hafter : after = logoutData data fd user) :
    Serves host fd payload data (some .logout)
      ⟨after, ⟨.res .logoutOk, logoutBody data user⟩,
        presenceEvents .userLoggedOut (after.sessions.toList.any fun kv ↦ kv.2 == user)
          (logoutBody data user) (loggedFds after ++ [fd])⟩
  | users {user : Str} (hs : data.sessions[fd]? = some user) :
    Serves host fd payload data (some .users)
      (.only data ⟨.res .usersList, .users (data.users.map (User.record data))⟩)
  | user {user : Str} (hs : data.sessions[fd]? = some user) {u : User} (hu : u ∈ data.users) :
    Serves host fd payload data (some .user) (.only data ⟨.res .userInfo, .user (u.record data)⟩)
  /-- A private message, stored and announced to the receiver's sessions. -/
  | send {user receiverUuid : Str} {receiver : User} {msg : Message}
    (hs : data.sessions[fd]? = some user)
    (huuid : receiverUuid = Server.extractSv payload 0 36)
    (hreceiver : findUserByUuid data receiverUuid = some receiver)
    (hmsg : msg = newMessage host user receiverUuid (Server.extractSv payload 36 512)) :
    Serves host fd payload data (some .send)
      ⟨{ data with messages := data.messages ++ [msg] }, ⟨.res .sendOk, .empty⟩,
        if (userFds data receiver.uuid.str).isEmpty then []
        else [(⟨.evt .messageReceived, .received msg.senderUuid msg.body⟩,
          userFds data receiver.uuid.str)]⟩
  | messages {user : Str} (hs : data.sessions[fd]? = some user) :
    Serves host fd payload data (some .messages)
      (.only data ⟨.res .messagesList,
        .messages ((data.messages.filter
          (messageMatch user (Server.extractSv payload 0 36))).map Message.record)⟩)
  /-- A subscription of a user who is no member yet. -/
  | subscribe {user teamUuid : Str} {team : Team} (hs : data.sessions[fd]? = some user)
    (huuid : teamUuid = Server.extractSv payload 0 36)
    (hteam : findTeamByUuid data teamUuid = some team) (hsub : user ∉ team.memberUuids) :
    Serves host fd payload data (some .subscribe)
      (.only (addMember data teamUuid user) ⟨.res .subscribeOk, .uuid team.uuid.bytes⟩)
  /-- A subscription that is there already. -/
  | resubscribe {user teamUuid : Str} {team : Team} (hs : data.sessions[fd]? = some user)
    (huuid : teamUuid = Server.extractSv payload 0 36)
    (hteam : findTeamByUuid data teamUuid = some team) (hsub : user ∈ team.memberUuids) :
    Serves host fd payload data (some .subscribe)
      (.only data ⟨.res .subscribeOk, .uuid team.uuid.bytes⟩)
  | unsubscribe {user teamUuid : Str} {team : Team} (hs : data.sessions[fd]? = some user)
    (huuid : teamUuid = Server.extractSv payload 0 36)
    (hteam : findTeamByUuid data teamUuid = some team) (hsub : user ∈ team.memberUuids) :
    Serves host fd payload data (some .unsubscribe)
      (.only (removeMember data teamUuid user) ⟨.res .unsubscribeOk, .uuid team.uuid.bytes⟩)
  | subscribedTeams {user : Str} (hs : data.sessions[fd]? = some user) :
    Serves host fd payload data (some .subscribed)
      (.only data ⟨.res .subscribedTeams,
        .describeds ((data.teams.filter fun t ↦ isSubscribedTo t user).map Team.record)⟩)
  | subscribedUsers {user : Str} {team : Team} (hs : data.sessions[fd]? = some user)
    (hteam : findTeamByUuid data (Server.extractSv payload 1 36) = some team)
    (hsub : user ∈ team.memberUuids) :
    Serves host fd payload data (some .subscribed)
      (.only data ⟨.res .subscribedUsers,
        .users ((team.memberUuids.filterMap (findUserByUuid data)).map (User.record data))⟩)
  /-- A context that is granted is stored, and shown. -/
  | use {user : Str} {ctx : ClientContext} {m : Msg} (hs : data.sessions[fd]? = some user)
    (hreq : requestedContext payload = some ctx) (hgrant : Grants data user ctx)
    (hinfo : contextInfo data user ctx = some m) :
    Serves host fd payload data (some .use)
      (.only { data with clientContexts := data.clientContexts.insert fd ctx } m)
  | list {user : Str} {ctx : ClientContext} {m : Msg} (hs : data.sessions[fd]? = some user)
    (hctx : data.clientContexts[fd]? = some ctx) (hlist : contextList data ctx = some m) :
    Serves host fd payload data (some .list) (.only data m)
  | info {user : Str} {ctx : ClientContext} {m : Msg} (hs : data.sessions[fd]? = some user)
    (hctx : data.clientContexts[fd]? = some ctx) (hinfo : contextInfo data user ctx = some m) :
    Serves host fd payload data (some .info) (.only data m)
  | createTeam {user : Str} {ctx : ClientContext} {team : Team}
    (hs : data.sessions[fd]? = some user) (hctx : data.clientContexts[fd]? = some ctx)
    (hlevel : ctx.level = useNone) (hlen : 32 + 255 ≤ payload.length)
    (hnew : team = newTeam host user payload) :
    Serves host fd payload data (some .create)
      ⟨addTeam data team, ⟨.res .teamCreated, .described team.record⟩,
        [(⟨.evt .teamCreated, .described team.record⟩, loggedFds data)]⟩
  | createChannel {user : Str} {ctx : ClientContext} {team : Team} {channel : Channel}
    (hs : data.sessions[fd]? = some user) (hctx : data.clientContexts[fd]? = some ctx)
    (hlevel : ctx.level = useTeam) (hlen : 32 + 255 ≤ payload.length)
    (hteam : ctx.team? data = some team) (hsub : user ∈ team.memberUuids)
    (hnew : channel = newChannel host payload) :
    Serves host fd payload data (some .create)
      ⟨addChannel data ctx channel, ⟨.res .channelCreated, .described channel.record⟩,
        [(⟨.evt .channelCreated, .described channel.record⟩, teamMemberFds data team)]⟩
  | createThread {user : Str} {ctx : ClientContext} {team : Team} {channel : Channel}
    {thread : Thread} (hs : data.sessions[fd]? = some user)
    (hctx : data.clientContexts[fd]? = some ctx) (hlevel : ctx.level = useChannel)
    (hlen : 32 + 512 ≤ payload.length) (hteam : ctx.team? data = some team)
    (hsub : user ∈ team.memberUuids) (hchannel : ctx.channel? data = some channel)
    (hnew : thread = newThread host user payload) :
    Serves host fd payload data (some .create)
      ⟨addThread data ctx thread, ⟨.res .threadCreated, .thread thread.record⟩,
        [(⟨.evt .threadCreated, .thread thread.record⟩, teamMemberFds data team)]⟩
  | createReply {user : Str} {ctx : ClientContext} {team : Team} {thread : Thread} {reply : Reply}
    (hs : data.sessions[fd]? = some user) (hctx : data.clientContexts[fd]? = some ctx)
    (hlevel : ctx.level = useThread) (hlen : 512 ≤ payload.length)
    (hteam : ctx.team? data = some team) (hsub : user ∈ team.memberUuids)
    (hthread : ctx.thread? data = some thread) (hnew : reply = newReply host user payload) :
    Serves host fd payload data (some .create)
      ⟨addReply data ctx reply, ⟨.res .replyCreated, .reply (reply.record ctx.threadUuid)⟩,
        [(⟨.evt .replyCreated, .reply (reply.record ctx.threadUuid)⟩, teamMemberFds data team)]⟩

end MyTeams
