import MyTeams.Lib.ReadLog
import MyTeams.Server.EventLoop

/-!
# The server with its reads recorded

The handlers, the dispatcher and the receive loop once more, with every copy out of a byte object
made by `slice`, which records the length of the object, the offset and the size: the `memcpy` and
`append_fixed` calls, the views into payloads, the slices of a receive buffer, and the integers that
are copied byte by byte. The objects are those of the source: a uuid array has its 37 cells, a
`std::string` its characters. Lookups compare whole arrays and copy nothing.
-/

namespace MyTeams

namespace Reads

open ByteOrder ByteField FirstMatch ReadLog Traced

/-! ### Serialization -/

/-- The cells of a uuid array: 36 characters and the terminator. -/
def cells (uuid37 : Bytes 36) : List UInt8 := uuid37.toList ++ [0]

/-- `append_fixed`. -/
def appendFixed (out data : List UInt8) (size : ℕ) : Traced (List UInt8) := do
  let bytes ← slice data 0 size
  return out ++ bytes

/-- `append_u32`. -/
def appendU32 (out : List UInt8) (value : UInt32) : Traced (List UInt8) :=
  appendFixed out (be32 value) 4

/-- `append_i64`. -/
def appendI64 (out : List UInt8) (value : Int64) : Traced (List UInt8) :=
  appendFixed out (leBytes 8 (htonll value.toUInt64).toNat) 8

/-- `append_uuid36`. -/
def appendUuid36 (out : List UInt8) (uuid37 : Bytes 36) : Traced (List UInt8) :=
  appendFixed out (cells uuid37) 36

/-- `append_name32`. -/
def appendName32 (out : List UInt8) (name32 : Bytes 32) : Traced (List UInt8) :=
  appendFixed out name32.toList 32

/-- `make_message`: the bytes of the two integers of the header. -/
def makeMessage (code : UInt16) (payload : List UInt8) : Traced (List UInt8) := do
  let cmd ← slice (be16 code) 0 2
  let size ← slice (be32 (UInt32.ofNat payload.length)) 0 4
  return cmd ++ size ++ payload

/-- A `memcpy` into a zeroed array. -/
def copyField (src : List UInt8) (offset size : ℕ) : Traced (Bytes size) := do
  let bytes ← slice src offset size
  return fill size bytes

/-- A `memcpy` of at most `size` bytes into a zeroed array. -/
def copyPrefix (src : Str) (size : ℕ) : Traced (Bytes size) := do
  let bytes ← slice src 0 (min src.length size)
  return fill size bytes

/-! ### Results -/

def reply (code : UInt16) (payload : List UInt8) : Traced Result := do
  let bytes ← makeMessage code payload
  return ⟨⟨code, bytes⟩, []⟩

def event (evt : Event) (payload : List UInt8) (fds : List Fd) : Traced Push := do
  let bytes ← makeMessage evt.code payload
  return ⟨⟨evt.code, bytes⟩, fds⟩

def error (data : ServerData) (e : Error) (payload : List UInt8) : Traced Outcome := do
  let result ← reply e.code payload
  return ⟨data, result, []⟩

def answer (data : ServerData) (r : Response) (payload : List UInt8) : Traced Outcome := do
  let result ← reply r.code payload
  return ⟨data, result, []⟩

def created (r : Response) (evt : Event) (payload : List UInt8) (fds : List Fd) :
    Traced Result := do
  let result ← reply r.code payload
  let push ← event evt payload fds
  return { result with pushes := [push] }

/-! ### Guards

An error that sends the uuid back copies it only when it is sent. -/

def withSession (data : ServerData) (fd : Fd) (k : Str → Traced Outcome) : Traced Outcome :=
  match data.sessions[fd]? with
  | none => error data .unauthorized []
  | some uuid => k uuid

def withUuid36 (data : ServerData) (uuid : Str) (k : Traced Outcome) : Traced Outcome :=
  if !isUuid36 uuid then error data .invalidCommand [] else k

/-- An error with a payload. -/
def errorWith (data : ServerData) (e : Error) (payload : Traced (List UInt8)) : Traced Outcome := do
  let payload ← payload
  error data e payload

def withUser (data : ServerData) (uuid : Str) (payload : Traced (List UInt8))
    (k : User → Traced Outcome) : Traced Outcome :=
  match findUserByUuid data uuid with
  | none => errorWith data .unknownUser payload
  | some user => k user

def withTeam (data : ServerData) (uuid : Str) (payload : Traced (List UInt8))
    (k : Team → Traced Outcome) : Traced Outcome :=
  match findTeamByUuid data uuid with
  | none => errorWith data .unknownTeam payload
  | some team => k team

def withSubscription (data : ServerData) (team : Team) (userUuid : Str) (k : Traced Outcome) :
    Traced Outcome :=
  if !isSubscribedTo team userUuid then error data .notSubscribed [] else k

def withChannel (data : ServerData) (team : Team) (uuid : Str) (payload : Traced (List UInt8))
    (k : Channel → Traced Outcome) : Traced Outcome :=
  match findChannelByUuid team uuid with
  | none => errorWith data .unknownChannel payload
  | some channel => k channel

def withThread (data : ServerData) (channel : Channel) (uuid : Str) (payload : Traced (List UInt8))
    (k : Thread → Traced Outcome) : Traced Outcome :=
  match findThreadByUuid channel uuid with
  | none => errorWith data .unknownThread payload
  | some thread => k thread

def withContext (data : ServerData) (fd : Fd) (k : ClientContext → Traced Outcome) :
    Traced Outcome :=
  match data.clientContexts[fd]? with
  | none => error data .invalidCommand []
  | some ctx => k ctx

/-! ### Records -/

def appendUser (data : ServerData) (payload : List UInt8) (u : User) : Traced (List UInt8) := do
  let status : UInt8 := if isUserOnline data u then 0x01 else 0x00
  let payload ← appendUuid36 payload u.uuid.bytes
  let payload ← appendName32 payload u.name
  appendFixed payload [status] 1

def appendMessage (payload : List UInt8) (m : Message) : Traced (List UInt8) := do
  let payload ← appendFixed payload (cells m.senderUuid) 36
  let payload ← appendFixed payload (cells m.receiverUuid) 36
  let payload ← appendI64 payload m.timestamp
  appendFixed payload m.body.toList 512

def appendTeam (payload : List UInt8) (team : Team) : Traced (List UInt8) := do
  let payload ← appendUuid36 payload team.uuid.bytes
  let payload ← appendName32 payload team.name
  appendFixed payload team.description.toList 255

def appendChannel (payload : List UInt8) (channel : Channel) : Traced (List UInt8) := do
  let payload ← appendUuid36 payload channel.uuid.bytes
  let payload ← appendName32 payload channel.name
  appendFixed payload channel.description.toList 255

def appendThread (payload : List UInt8) (thread : Thread) : Traced (List UInt8) := do
  let payload ← appendUuid36 payload thread.uuid.bytes
  let payload ← appendUuid36 payload thread.creatorUuid
  let payload ← appendI64 payload thread.timestamp
  let payload ← appendName32 payload thread.title
  appendFixed payload thread.body.toList 512

def appendReply (threadUuid : Bytes 36) (payload : List UInt8) (r : Reply) :
    Traced (List UInt8) := do
  let payload ← appendFixed payload (cells threadUuid) 36
  let payload ← appendUuid36 payload r.creatorUuid
  let payload ← appendI64 payload r.timestamp
  appendFixed payload r.body.toList 512

def userDetails (data : ServerData) (userUuid : Str) : Traced (List UInt8) :=
  match findUserByUuid data userUuid with
  | some user => do
    let payload ← appendUuid36 [] user.uuid.bytes
    appendName32 payload user.name
  | none => do
    let payload ← appendFixed [] userUuid 36
    appendFixed payload (zeros 32).toList 32

/-! ### `mtp_auth.cpp` and `mtp_users.cpp` -/

def loginResult (wasOnline : Bool) (data : ServerData) (user : User) : Traced Result := do
  let payload ← appendUuid36 [] user.uuid.bytes
  let payload ← appendName32 payload user.name
  let result ← reply Response.loginOk.code payload
  if wasOnline then
    return result
  else
    let push ← event .userLoggedIn payload (loggedFds data)
    return { result with pushes := [push] }

def handleLogin (host : Host) (fd : Fd) (name : Str) (data : ServerData) : Traced Outcome :=
  let name := trimPaddedName name
  match findUserByName data name with
  | none => do
    let fixed ← copyPrefix name 32
    let user : User := { uuid := host.newUuid, name := fixed, isLogged := true, fd := fd }
    let wasOnline := isUserOnline data user
    let data := loginData data fd (data.users ++ [user]) user
    let result ← loginResult wasOnline data user
    return ⟨data, result, ServerLog.userCreated user.uuid user.name ::
      if wasOnline then [] else [ServerLog.userLoggedIn user.uuid]⟩
  | some user => do
    let wasOnline := isUserOnline data user
    let users :=
      updateFirst (fun u ↦ trimPaddedName u.name.toList == name) (User.loggedIn fd) data.users
    let data := loginData data fd users user
    let result ← loginResult wasOnline data user
    return ⟨data, result, if wasOnline then [] else [ServerLog.userLoggedIn user.uuid]⟩

def logoutPayload (data : ServerData) (uuid : Str) : Traced (List UInt8) := do
  let payload ← appendFixed [] uuid 36
  match data.users.find? fun u ↦ u.uuid.str == uuid with
  | some user => appendName32 payload user.name
  | none => appendFixed payload (zeros 32).toList 32

def handleLogout (fd : Fd) (data : ServerData) : Traced Outcome :=
  withSession data fd fun uuid ↦ do
  let payload ← logoutPayload data uuid
  let data := logoutData data fd uuid
  let result ← reply Response.logoutOk.code payload
  if data.sessions.toList.any fun kv ↦ kv.2 == uuid then
    return ⟨data, result, []⟩
  else
    let push ← event .userLoggedOut payload (loggedFds data ++ [fd])
    return ⟨data, { result with pushes := [push] }, [ServerLog.userLoggedOut uuid]⟩

def handleUsers (fd : Fd) (data : ServerData) : Traced Outcome :=
  if !isLoggedIn data fd then
    error data .unauthorized []
  else do
    let payload ← appendU32 [] (UInt32.ofNat data.users.length)
    let payload ← data.users.foldlM (appendUser data) payload
    answer data .usersList payload

def handleUser (fd : Fd) (userUuid : Str) (data : ServerData) : Traced Outcome :=
  if !isLoggedIn data fd then
    error data .unauthorized []
  else
    withUuid36 data userUuid <|
    withUser data userUuid (appendFixed [] userUuid 36) fun user ↦ do
    let payload ← appendUser data [] user
    answer data .userInfo payload

/-! ### `mtp_messages.cpp` -/

def newMessage (host : Host) (senderUuid receiverUuid body : Str) : Traced Message := do
  let sender ← copyPrefix senderUuid 36
  let receiver ← copyField receiverUuid 0 36
  let body ← copyPrefix (trimPaddedName body) 512
  return { senderUuid := sender, receiverUuid := receiver, body := body, timestamp := host.time }

def handleSend (host : Host) (fd : Fd) (receiverUuid body : Str) (data : ServerData) :
    Traced Outcome :=
  withSession data fd fun senderUuid ↦
  withUuid36 data receiverUuid <|
  withUser data receiverUuid (appendFixed [] receiverUuid 36) fun receiver ↦ do
  let msg ← newMessage host senderUuid receiverUuid body
  let result ← reply Response.sendOk.code []
  let evtPayload ← appendFixed [] senderUuid 36
  let evtPayload ← appendFixed evtPayload msg.body.toList 512
  let fds := userFds data receiver.uuid.str
  let push ← event .messageReceived evtPayload fds
  return ⟨{ data with messages := data.messages ++ [msg] },
    { result with pushes := if fds.isEmpty then [] else [push] },
    [ServerLog.privateMessageSended senderUuid receiver.uuid msg.body]⟩

def handleMessages (fd : Fd) (userUuid : Str) (data : ServerData) : Traced Outcome :=
  withSession data fd fun selfUuid ↦
  withUuid36 data userUuid <|
  withUser data userUuid (appendFixed [] userUuid 36) fun _ ↦ do
  let msgs := data.messages.filter (messageMatch selfUuid userUuid)
  let payload ← appendU32 [] (UInt32.ofNat msgs.length)
  let payload ← msgs.foldlM appendMessage payload
  answer data .messagesList payload

/-! ### `mtp_subscriptions.cpp` -/

def handleSubscribe (fd : Fd) (teamUuid : Str) (data : ServerData) : Traced Outcome :=
  withSession data fd fun userUuid ↦
  withUuid36 data teamUuid <|
  withTeam data teamUuid (appendFixed [] teamUuid 36) fun team ↦ do
  let payload ← appendFixed [] (cells team.uuid.bytes) 36
  if !isSubscribedTo team userUuid then
    let result ← reply Response.subscribeOk.code payload
    return ⟨addMember data teamUuid userUuid, result, [ServerLog.userSubscribed team.uuid userUuid]⟩
  else
    answer data .subscribeOk payload

def handleUnsubscribe (fd : Fd) (teamUuid : Str) (data : ServerData) : Traced Outcome :=
  withSession data fd fun userUuid ↦
  withUuid36 data teamUuid <|
  withTeam data teamUuid (appendFixed [] teamUuid 36) fun team ↦
  withSubscription data team userUuid do
  let payload ← appendFixed [] (cells team.uuid.bytes) 36
  let result ← reply Response.unsubscribeOk.code payload
  return ⟨removeMember data teamUuid userUuid, result,
    [ServerLog.userUnsubscribed team.uuid userUuid]⟩

def handleSubscribedTeams (fd : Fd) (data : ServerData) : Traced Outcome :=
  withSession data fd fun userUuid ↦ do
  let subscribed := data.teams.filter fun t ↦ isSubscribedTo t userUuid
  let payload ← appendU32 [] (UInt32.ofNat subscribed.length)
  let payload ← subscribed.foldlM appendTeam payload
  answer data .subscribedTeams payload

def handleSubscribedUsers (fd : Fd) (teamUuid : Str) (data : ServerData) : Traced Outcome :=
  withSession data fd fun userUuid ↦
  withUuid36 data teamUuid <|
  withTeam data teamUuid (appendFixed [] teamUuid 36) fun team ↦
  withSubscription data team userUuid do
  let users := team.memberUuids.filterMap (findUserByUuid data)
  let payload ← appendU32 [] (UInt32.ofNat users.length)
  let payload ← users.foldlM (appendUser data) payload
  answer data .subscribedUsers payload

/-! ### `mtp_context.cpp`, `mtp_list.cpp` and `mtp_info.cpp` -/

/-- A view of a uuid in a `CMD_USE` payload. -/
def useUuid (payloadBytes : Str) (i : ℕ) : Traced Str := slice payloadBytes (1 + i * 36) 36

def handleUse (fd : Fd) (payloadBytes : Str) (data : ServerData) : Traced Outcome :=
  withSession data fd fun userUuid ↦
  if payloadBytes.isEmpty then
    error data .invalidCommand []
  else do
    let byte ← slice payloadBytes 0 1
    let level := byte.headD 0
    let ctx : ClientContext := { ClientContext.init with level := level }
    let store (ctx : ClientContext) : ServerData :=
      { data with clientContexts := data.clientContexts.insert fd ctx }
    if level = useNone then
      let payload ← userDetails (store ctx) userUuid
      answer (store ctx) .userDetails payload
    else if level = useTeam then
      if payloadBytes.length < 1 + 36 then
        error data .invalidCommand []
      else
        let teamUuid ← useUuid payloadBytes 0
        withTeam data teamUuid (appendFixed [] teamUuid 36) fun team ↦
        withSubscription data team userUuid do
        let team36 ← copyField teamUuid 0 36
        let payload ← appendTeam [] team
        answer (store { ctx with teamUuid := team36 }) .teamInfo payload
    else if level = useChannel then
      if payloadBytes.length < 1 + 36 + 36 then
        error data .invalidCommand []
      else
        let teamUuid ← useUuid payloadBytes 0
        let channelUuid ← useUuid payloadBytes 1
        withTeam data teamUuid (appendFixed [] teamUuid 36) fun team ↦
        withSubscription data team userUuid <|
        withChannel data team channelUuid (appendFixed [] channelUuid 36) fun channel ↦ do
        let team36 ← copyField teamUuid 0 36
        let channel36 ← copyField channelUuid 0 36
        let payload ← appendChannel [] channel
        answer (store { ctx with teamUuid := team36, channelUuid := channel36 }) .channelInfo
          payload
    else if level = useThread then
      if payloadBytes.length < 1 + 36 + 36 + 36 then
        error data .invalidCommand []
      else
        let teamUuid ← useUuid payloadBytes 0
        let channelUuid ← useUuid payloadBytes 1
        let threadUuid ← useUuid payloadBytes 2
        withTeam data teamUuid (appendFixed [] teamUuid 36) fun team ↦
        withSubscription data team userUuid <|
        withChannel data team channelUuid (appendFixed [] channelUuid 36) fun channel ↦
        withThread data channel threadUuid (appendFixed [] threadUuid 36) fun thread ↦ do
        let team36 ← copyField teamUuid 0 36
        let channel36 ← copyField channelUuid 0 36
        let thread36 ← copyField threadUuid 0 36
        let payload ← appendThread [] thread
        answer
          (store
            { ctx with teamUuid := team36, channelUuid := channel36, threadUuid := thread36 })
          .threadInfo payload
    else
      error data .invalidCommand []

/-- A view of a uuid in a stored context. -/
def contextUuid (uuid37 : Bytes 36) : Traced Str := slice (cells uuid37) 0 36

def handleList (fd : Fd) (data : ServerData) : Traced Outcome :=
  withSession data fd fun _ ↦
  withContext data fd fun ctx ↦ do
  if ctx.level = useNone then
    let payload ← appendU32 [] (UInt32.ofNat data.teams.length)
    let payload ← data.teams.foldlM appendTeam payload
    answer data .listTeams payload
  else if ctx.level = useTeam then
    let teamUuid ← contextUuid ctx.teamUuid
    withTeam data teamUuid (pure []) fun team ↦ do
    let payload ← appendU32 [] (UInt32.ofNat team.channels.length)
    let payload ← team.channels.foldlM appendChannel payload
    answer data .listChannels payload
  else if ctx.level = useChannel then
    let teamUuid ← contextUuid ctx.teamUuid
    withTeam data teamUuid (pure []) fun team ↦ do
    let channelUuid ← contextUuid ctx.channelUuid
    withChannel data team channelUuid (pure []) fun channel ↦ do
    let payload ← appendU32 [] (UInt32.ofNat channel.threads.length)
    let payload ← channel.threads.foldlM appendThread payload
    answer data .listThreads payload
  else if ctx.level = useThread then
    let teamUuid ← contextUuid ctx.teamUuid
    withTeam data teamUuid (pure []) fun team ↦ do
    let channelUuid ← contextUuid ctx.channelUuid
    withChannel data team channelUuid (pure []) fun channel ↦ do
    let threadUuid ← contextUuid ctx.threadUuid
    withThread data channel threadUuid (pure []) fun thread ↦ do
    let payload ← appendU32 [] (UInt32.ofNat thread.replies.length)
    let payload ← thread.replies.foldlM (appendReply ctx.threadUuid) payload
    answer data .listReplies payload
  else
    error data .invalidCommand []

def handleInfo (fd : Fd) (data : ServerData) : Traced Outcome :=
  withSession data fd fun userUuid ↦
  withContext data fd fun ctx ↦ do
  if ctx.level = useNone then
    let payload ← userDetails data userUuid
    answer data .userDetails payload
  else if ctx.level = useTeam then
    let teamUuid ← contextUuid ctx.teamUuid
    withTeam data teamUuid (pure []) fun team ↦ do
    let payload ← appendTeam [] team
    answer data .teamInfo payload
  else if ctx.level = useChannel then
    let teamUuid ← contextUuid ctx.teamUuid
    withTeam data teamUuid (pure []) fun team ↦ do
    let channelUuid ← contextUuid ctx.channelUuid
    withChannel data team channelUuid (pure []) fun channel ↦ do
    let payload ← appendChannel [] channel
    answer data .channelInfo payload
  else if ctx.level = useThread then
    let teamUuid ← contextUuid ctx.teamUuid
    withTeam data teamUuid (pure []) fun team ↦ do
    let channelUuid ← contextUuid ctx.channelUuid
    withChannel data team channelUuid (pure []) fun channel ↦ do
    let threadUuid ← contextUuid ctx.threadUuid
    withThread data channel threadUuid (pure []) fun thread ↦ do
    let payload ← appendThread [] thread
    answer data .threadInfo payload
  else
    error data .invalidCommand []

/-! ### `mtp_create.cpp` -/

def newTeam (host : Host) (userUuid payloadBytes : Str) : Traced Team := do
  let name ← copyField payloadBytes 0 32
  let description ← copyField payloadBytes 32 255
  return { uuid := host.newUuid, name, description, channels := [], memberUuids := [userUuid] }

def newChannel (host : Host) (payloadBytes : Str) : Traced Channel := do
  let name ← copyField payloadBytes 0 32
  let description ← copyField payloadBytes 32 255
  return { uuid := host.newUuid, name, description, threads := [] }

def newThread (host : Host) (userUuid payloadBytes : Str) : Traced Thread := do
  let creatorUuid ← copyField userUuid 0 36
  let title ← copyField payloadBytes 0 32
  let body ← copyField payloadBytes 32 512
  return { uuid := host.newUuid, creatorUuid, title, body, timestamp := host.time, replies := [] }

def newReply (host : Host) (userUuid payloadBytes : Str) : Traced Reply := do
  let creatorUuid ← copyField userUuid 0 36
  let body ← copyField payloadBytes 0 512
  return { uuid := host.newUuid, creatorUuid, body, timestamp := host.time }

def handleCreate (host : Host) (fd : Fd) (payloadBytes : Str) (data : ServerData) :
    Traced Outcome :=
  withSession data fd fun userUuid ↦
  withContext data fd fun ctx ↦ do
  if ctx.level = useNone then
    if payloadBytes.length < 32 + 255 then
      error data .invalidCommand []
    else
      let team ← newTeam host userUuid payloadBytes
      let data := addTeam data team
      let payload ← appendTeam [] team
      let result ← created .teamCreated .teamCreated payload (loggedFds data)
      return ⟨data, result, [ServerLog.teamCreated team.uuid team.name userUuid]⟩
  else if ctx.level = useTeam then
    if payloadBytes.length < 32 + 255 then
      error data .invalidCommand []
    else
      let teamUuid ← contextUuid ctx.teamUuid
      withTeam data teamUuid (pure []) fun team ↦
      withSubscription data team userUuid do
      let channel ← newChannel host payloadBytes
      let payload ← appendChannel [] channel
      let result ← created .channelCreated .channelCreated payload (teamMemberFds data team)
      return ⟨addChannel data ctx channel, result,
        [ServerLog.channelCreated team.uuid channel.uuid channel.name]⟩
  else if ctx.level = useChannel then
    if payloadBytes.length < 32 + 512 then
      error data .invalidCommand []
    else
      let teamUuid ← contextUuid ctx.teamUuid
      withTeam data teamUuid (pure []) fun team ↦
      withSubscription data team userUuid do
      let channelUuid ← contextUuid ctx.channelUuid
      withChannel data team channelUuid (pure []) fun channel ↦ do
      let thread ← newThread host userUuid payloadBytes
      let payload ← appendThread [] thread
      let result ← created .threadCreated .threadCreated payload (teamMemberFds data team)
      return ⟨addThread data ctx thread, result,
        [ServerLog.threadCreated channel.uuid thread.uuid userUuid thread.title thread.body]⟩
  else if ctx.level = useThread then
    if payloadBytes.length < 512 then
      error data .invalidCommand []
    else
      let teamUuid ← contextUuid ctx.teamUuid
      withTeam data teamUuid (pure []) fun team ↦
      withSubscription data team userUuid do
      let channelUuid ← contextUuid ctx.channelUuid
      withChannel data team channelUuid (pure []) fun channel ↦ do
      let threadUuid ← contextUuid ctx.threadUuid
      withThread data channel threadUuid (pure []) fun thread ↦ do
      let r ← newReply host userUuid payloadBytes
      let payload ← appendReply ctx.threadUuid [] r
      let result ← created .replyCreated .replyCreated payload (teamMemberFds data team)
      return ⟨addReply data ctx r, result, [ServerLog.replyCreated thread.uuid userUuid r.body]⟩
  else
    error data .invalidCommand []

/-! ### `Server.cpp` -/

/-- `extract_sv`. -/
def extractSv (p : List UInt8) (offset size : ℕ) : Traced Str :=
  if offset + size > p.length then pure [] else slice p offset size

/-- The `switch` of `_dispatch`. -/
def handle (h : Host) (fd : Fd) (cmd : Command) (payload : List UInt8) (data : ServerData) :
    Traced Outcome := do
  match cmd with
  | .login => handleLogin h fd (← extractSv payload 0 payload.length) data
  | .logout => handleLogout fd data
  | .users => handleUsers fd data
  | .user => handleUser fd (← extractSv payload 0 36) data
  | .send => handleSend h fd (← extractSv payload 0 36) (← extractSv payload 36 512) data
  | .messages => handleMessages fd (← extractSv payload 0 36) data
  | .subscribe => handleSubscribe fd (← extractSv payload 0 36) data
  | .subscribed =>
    if payload.head? = some 0x01 then handleSubscribedUsers fd (← extractSv payload 1 36) data
    else handleSubscribedTeams fd data
  | .unsubscribe => handleUnsubscribe fd (← extractSv payload 0 36) data
  | .use => handleUse fd (← extractSv payload 0 payload.length) data
  | .create => handleCreate h fd (← extractSv payload 0 payload.length) data
  | .list => handleList fd data
  | .info => handleInfo fd data

/-- The two frames that `_dispatch` builds by hand. -/
def emptyFrame (code : UInt16) : Traced (List UInt8) := do
  let cmd ← slice (be16 code) 0 2
  let size ← slice (be32 0) 0 4
  return cmd ++ size

variable (host : ℕ → Host)

/-- `_dispatch`. -/
def dispatch (fd : Fd) (cmd : UInt16) (payload : List UInt8) (s : Server) : Traced Server := do
  let h := host s.served
  let s := s.record (.dispatched fd cmd payload s.data)
  let s := { s with served := s.served + 1 }
  let logged := s.data.sessions.contains fd
  if !logged && cmd != Command.login.code then
    let err ← emptyFrame Error.unauthorized.code
    return s.queueBytes fd err
  else
    match Command.ofCode? cmd with
    | some cmd =>
      let o ← handle h fd cmd payload s.data
      return { s with data := o.data }.sendResult fd o.result
    | none =>
      let err ← emptyFrame Error.invalidCommand.code
      return s.queueBytes fd err

/-- `_handle_client_disconnect`. -/
def handleClientDisconnect (fd : Fd) (s : Server) : Traced Server :=
  if s.data.sessions.contains fd then do
    let o ← handleLogout fd s.data
    let s := Server.deliver fd o.result.pushes { s with data := o.data }
    return { s with clients := s.clients.erase fd }.record (.closed fd)
  else
    return { s with clients := s.clients.erase fd }.record (.closed fd)

/-- The loop of `_process_recv_buffer`. -/
def processRecvLoop (fd : Fd) : ℕ → Server → Traced Server
  | 0, s => pure s
  | n + 1, s => do
    let buf := (s.clients[fd]?.getD default).recvBuffer
    if buf.length < headerSize then
      return s
    else
      let cmd ← slice buf 0 2
      let size ← slice buf 2 4
      let payloadSize := (ofBe32 size).toNat
      if payloadSize > 65535 then
        handleClientDisconnect fd s
      else if buf.length < headerSize + payloadSize then
        return s
      else
        let payload ← slice buf headerSize payloadSize
        let s := s.modifyClient fd fun c ↦
          { c with recvBuffer := c.recvBuffer.drop (headerSize + payloadSize) }
        let s ← dispatch host fd (ofBe16 cmd) payload s
        if s.clients.contains fd then processRecvLoop fd n s else return s

/-- `_handle_client_read`, when `read` delivered `tmp`. -/
def handleClientRead (fd : Fd) (tmp : List UInt8) (s : Server) : Traced Server :=
  if tmp.isEmpty then handleClientDisconnect fd s
  else
    let s := s.modifyClient fd fun c ↦ { c with recvBuffer := c.recvBuffer ++ tmp }
    let s := s.modifyClient fd id
    processRecvLoop host fd ((s.clients[fd]?.getD default).recvBuffer.length + 1) s

end Reads

end MyTeams
