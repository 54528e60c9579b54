import MyTeams.Server.Detail

/-!
# Creation

`src/server/handlers/mtp_create.cpp`. What is created, and how the payload is read, is decided by
the stored context alone.
-/

namespace MyTeams

open ByteField

/-- A `memcpy` of `size` bytes at `offset` of a payload. -/
def payloadField (payloadBytes : Str) (offset size : ℕ) : Bytes size :=
  fill size (payloadBytes.drop offset)

/-- The response and the event that announce a new resource carry the same payload. -/
def Result.created (r : Response) (evt : Event) (payload : List UInt8) (fds : List Fd) : Result :=
  { Result.reply r.code payload with pushes := [Push.event evt payload fds] }

/-- The `team_t` that `handle_create` fills in. -/
def newTeam (host : Host) (userUuid payloadBytes : Str) : Team :=
  { uuid := host.newUuid
    name := payloadField payloadBytes 0 32
    description := payloadField payloadBytes 32 255
    channels := []
    memberUuids := [userUuid] }

/-- The `channel_t` that `handle_create` fills in. -/
def newChannel (host : Host) (payloadBytes : Str) : Channel :=
  { uuid := host.newUuid
    name := payloadField payloadBytes 0 32
    description := payloadField payloadBytes 32 255
    threads := [] }

/-- The `thread_t` that `handle_create` fills in. -/
def newThread (host : Host) (userUuid payloadBytes : Str) : Thread :=
  { uuid := host.newUuid
    creatorUuid := fill 36 userUuid
    title := payloadField payloadBytes 0 32
    body := payloadField payloadBytes 32 512
    timestamp := host.time
    replies := [] }

/-- The `reply_t` that `handle_create` fills in. -/
def newReply (host : Host) (userUuid payloadBytes : Str) : Reply :=
  { uuid := host.newUuid
    creatorUuid := fill 36 userUuid
    body := payloadField payloadBytes 0 512
    timestamp := host.time }

/-- `_data.teams.push_back(team)`. -/
def addTeam (data : ServerData) (team : Team) : ServerData :=
  { data with teams := data.teams ++ [team] }

/-- `team->channels.push_back(channel)`, with `team` found by the context. -/
def addChannel (data : ServerData) (ctx : ClientContext) (channel : Channel) : ServerData :=
  updateTeam data ctx.teamUuid.toList fun t ↦ { t with channels := t.channels ++ [channel] }

/-- `channel->threads.push_back(thread)`, with `channel` found by the context. -/
def addThread (data : ServerData) (ctx : ClientContext) (thread : Thread) : ServerData :=
  updateTeam data ctx.teamUuid.toList fun t ↦
    updateChannel t ctx.channelUuid.toList fun c ↦ { c with threads := c.threads ++ [thread] }

/-- `thread->replies.push_back(reply)`, with `thread` found by the context. -/
def addReply (data : ServerData) (ctx : ClientContext) (reply : Reply) : ServerData :=
  updateTeam data ctx.teamUuid.toList fun t ↦
    updateChannel t ctx.channelUuid.toList fun c ↦
      updateThread c ctx.threadUuid.toList fun th ↦ { th with replies := th.replies ++ [reply] }

/-- `Business::handle_create`. -/
def handleCreate (host : Host) (fd : Fd) (payloadBytes : Str) (data : ServerData) : Outcome :=
  withSession data fd fun userUuid ↦
  withContext data fd fun ctx ↦
  if ctx.level = useNone then
    if payloadBytes.length < 32 + 255 then
      Outcome.error data .invalidCommand []
    else
      let team := newTeam host userUuid payloadBytes
      let data := addTeam data team
      ⟨data, Result.created .teamCreated .teamCreated (appendTeam [] team) (loggedFds data),
        [ServerLog.teamCreated team.uuid team.name userUuid]⟩
  else if ctx.level = useTeam then
    if payloadBytes.length < 32 + 255 then
      Outcome.error data .invalidCommand []
    else
      withTeam data ctx.teamUuid.toList [] fun team ↦
      withSubscription data team userUuid <|
      let channel := newChannel host payloadBytes
      ⟨addChannel data ctx channel,
        Result.created .channelCreated .channelCreated (appendChannel [] channel)
          (teamMemberFds data team),
        [ServerLog.channelCreated team.uuid channel.uuid channel.name]⟩
  else if ctx.level = useChannel then
    if payloadBytes.length < 32 + 512 then
      Outcome.error data .invalidCommand []
    else
      withTeam data ctx.teamUuid.toList [] fun team ↦
      withSubscription data team userUuid <|
      withChannel data team ctx.channelUuid.toList [] fun channel ↦
      let thread := newThread host userUuid payloadBytes
      ⟨addThread data ctx thread,
        Result.created .threadCreated .threadCreated (appendThread [] thread)
          (teamMemberFds data team),
        [ServerLog.threadCreated channel.uuid thread.uuid userUuid thread.title thread.body]⟩
  else if ctx.level = useThread then
    if payloadBytes.length < 512 then
      Outcome.error data .invalidCommand []
    else
      withTeam data ctx.teamUuid.toList [] fun team ↦
      withSubscription data team userUuid <|
      withChannel data team ctx.channelUuid.toList [] fun channel ↦
      withThread data channel ctx.threadUuid.toList [] fun thread ↦
      let reply := newReply host userUuid payloadBytes
      ⟨addReply data ctx reply,
        Result.created .replyCreated .replyCreated (appendReply ctx.threadUuid [] reply)
          (teamMemberFds data team),
        [ServerLog.replyCreated thread.uuid userUuid reply.body]⟩
  else
    Outcome.error data .invalidCommand []

end MyTeams
