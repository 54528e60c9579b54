import MyTeams.Server.Detail

/-!
# Contexts

`src/server/handlers/mtp_context.cpp`, `mtp_list.cpp` and `mtp_info.cpp`: setting the context of a
connection, and the two queries that read it.
-/

namespace MyTeams

open ByteField

/-! ### `CMD_USE` -/

/-- The `i`-th uuid after the level byte of a `CMD_USE` payload. -/
def useUuid (payloadBytes : Str) (i : ℕ) : Str := (payloadBytes.drop (1 + i * 36)).take 36

/-- `Business::handle_use`. -/
def handleUse (fd : Fd) (payloadBytes : Str) (data : ServerData) : Outcome :=
  withSession data fd fun userUuid ↦
  match payloadBytes.head? with
  | none => Outcome.error data .invalidCommand []
  | some level =>
    let ctx : ClientContext := { ClientContext.init with level := level }
    let teamUuid := useUuid payloadBytes 0
    let channelUuid := useUuid payloadBytes 1
    let threadUuid := useUuid payloadBytes 2
    let store (ctx : ClientContext) : ServerData :=
      { data with clientContexts := data.clientContexts.insert fd ctx }
    if level = useNone then
      Outcome.answer (store ctx) .userDetails (userDetails (store ctx) userUuid)
    else if level = useTeam then
      if payloadBytes.length < 1 + 36 then
        Outcome.error data .invalidCommand []
      else
        withTeam data teamUuid (appendFixed [] teamUuid 36) fun team ↦
        withSubscription data team userUuid <|
        let ctx := { ctx with teamUuid := fill 36 teamUuid }
        Outcome.answer (store ctx) .teamInfo (appendTeam [] team)
    else if level = useChannel then
      if payloadBytes.length < 1 + 36 + 36 then
        Outcome.error data .invalidCommand []
      else
        withTeam data teamUuid (appendFixed [] teamUuid 36) fun team ↦
        withSubscription data team userUuid <|
        withChannel data team channelUuid (appendFixed [] channelUuid 36) fun channel ↦
        let ctx := { ctx with teamUuid := fill 36 teamUuid, channelUuid := fill 36 channelUuid }
        Outcome.answer (store ctx) .channelInfo (appendChannel [] channel)
    else if level = useThread then
      if payloadBytes.length < 1 + 36 + 36 + 36 then
        Outcome.error data .invalidCommand []
      else
        withTeam data teamUuid (appendFixed [] teamUuid 36) fun team ↦
        withSubscription data team userUuid <|
        withChannel data team channelUuid (appendFixed [] channelUuid 36) fun channel ↦
        withThread data channel threadUuid (appendFixed [] threadUuid 36) fun thread ↦
        let ctx :=
          { ctx with
            teamUuid := fill 36 teamUuid
            channelUuid := fill 36 channelUuid
            threadUuid := fill 36 threadUuid }
        Outcome.answer (store ctx) .threadInfo (appendThread [] thread)
    else
      Outcome.error data .invalidCommand []

/-! ### `CMD_LIST` -/

/-- `Business::handle_list`. -/
def handleList (fd : Fd) (data : ServerData) : Outcome :=
  withSession data fd fun _ ↦
  withContext data fd fun ctx ↦
  if ctx.level = useNone then
    let payload := appendU32 [] (UInt32.ofNat data.teams.length)
    Outcome.answer data .listTeams (data.teams.foldl appendTeam payload)
  else if ctx.level = useTeam then
    withTeam data ctx.teamUuid.toList [] fun team ↦
    let payload := appendU32 [] (UInt32.ofNat team.channels.length)
    Outcome.answer data .listChannels (team.channels.foldl appendChannel payload)
  else if ctx.level = useChannel then
    withTeam data ctx.teamUuid.toList [] fun team ↦
    withChannel data team ctx.channelUuid.toList [] fun channel ↦
    let payload := appendU32 [] (UInt32.ofNat channel.threads.length)
    Outcome.answer data .listThreads (channel.threads.foldl appendThread payload)
  else if ctx.level = useThread then
    withTeam data ctx.teamUuid.toList [] fun team ↦
    withChannel data team ctx.channelUuid.toList [] fun channel ↦
    withThread data channel ctx.threadUuid.toList [] fun thread ↦
    let payload := appendU32 [] (UInt32.ofNat thread.replies.length)
    Outcome.answer data .listReplies (thread.replies.foldl (appendReply ctx.threadUuid) payload)
  else
    Outcome.error data .invalidCommand []

/-! ### `CMD_INFO` -/

/-- `Business::handle_info`. -/
def handleInfo (fd : Fd) (data : ServerData) : Outcome :=
  withSession data fd fun userUuid ↦
  withContext data fd fun ctx ↦
  if ctx.level = useNone then
    Outcome.answer data .userDetails (userDetails data userUuid)
  else if ctx.level = useTeam then
    withTeam data ctx.teamUuid.toList [] fun team ↦
    Outcome.answer data .teamInfo (appendTeam [] team)
  else if ctx.level = useChannel then
    withTeam data ctx.teamUuid.toList [] fun team ↦
    withChannel data team ctx.channelUuid.toList [] fun channel ↦
    Outcome.answer data .channelInfo (appendChannel [] channel)
  else if ctx.level = useThread then
    withTeam data ctx.teamUuid.toList [] fun team ↦
    withChannel data team ctx.channelUuid.toList [] fun channel ↦
    withThread data channel ctx.threadUuid.toList [] fun thread ↦
    Outcome.answer data .threadInfo (appendThread [] thread)
  else
    Outcome.error data .invalidCommand []

end MyTeams
