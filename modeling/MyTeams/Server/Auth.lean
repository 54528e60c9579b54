import MyTeams.Server.Detail

/-!
# Login, logout and the user queries

`src/server/handlers/mtp_auth.cpp` and `src/server/handlers/mtp_users.cpp`.
-/

namespace MyTeams

open ByteField FirstMatch

/-- The `user_t` that `handle_login` fills in for an unknown name. -/
def newUser (host : Host) (fd : Fd) (name : Str) : User :=
  { uuid := host.newUuid, name := setFixedName name, isLogged := true, fd := fd }

/-- `user->is_logged = true; user->fd = fd`. -/
def User.loggedIn (fd : Fd) (user : User) : User := { user with isLogged := true, fd := fd }

/-- The session and the fresh context of a login, over the given users. -/
def loginData (data : ServerData) (fd : Fd) (users : List User) (user : User) : ServerData :=
  { data with
    users := users
    sessions := data.sessions.insert fd user.uuid.str
    clientContexts := data.clientContexts.insert fd ClientContext.init }

/-- The response of a login, and its event unless the user was online already. -/
def loginResult (wasOnline : Bool) (data : ServerData) (user : User) : Result :=
  let payload := appendUuid36 [] user.uuid.bytes
  let payload := appendName32 payload user.name
  { Result.reply Response.loginOk.code payload with
    pushes := if wasOnline then [] else [Push.event .userLoggedIn payload (loggedFds data)] }

/-- `Business::handle_login`. -/
def handleLogin (host : Host) (fd : Fd) (name : Str) (data : ServerData) : Outcome :=
  let name := trimPaddedName name
  match findUserByName data name with
  | none =>
    let user := newUser host fd name
    let wasOnline := isUserOnline data user
    let data := loginData data fd (data.users ++ [user]) user
    ⟨data, loginResult wasOnline data user,
      ServerLog.userCreated user.uuid user.name ::
        if wasOnline then [] else [ServerLog.userLoggedIn user.uuid]⟩
  | some user =>
    let wasOnline := isUserOnline data user
    -- the writes go through the pointer to the first match
    let users :=
      updateFirst (fun u ↦ trimPaddedName u.name.toList == name) (User.loggedIn fd) data.users
    let data := loginData data fd users user
    ⟨data, loginResult wasOnline data user,
      if wasOnline then [] else [ServerLog.userLoggedIn user.uuid]⟩

/-- What `handle_logout` leaves of the session `uuid` of `fd`. -/
def logoutData (data : ServerData) (fd : Fd) (uuid : Str) : ServerData :=
  let sessions := data.sessions.erase fd
  let stillOnline := sessions.toList.any fun kv ↦ kv.2 == uuid
  { data with
    users :=
      updateFirst (fun u ↦ u.uuid.str == uuid) (fun u ↦ { u with isLogged := stillOnline })
        data.users
    sessions := sessions
    clientContexts := data.clientContexts.erase fd }

/-- The payload that `handle_logout` builds for the session `uuid`. -/
def logoutPayload (data : ServerData) (uuid : Str) : List UInt8 :=
  let payload := appendFixed [] uuid 36
  match data.users.find? fun u ↦ u.uuid.str == uuid with
  | some user => appendName32 payload user.name
  | none => appendFixed payload (zeros 32).toList 32

/-- `Business::handle_logout`. -/
def handleLogout (fd : Fd) (data : ServerData) : Outcome :=
  withSession data fd fun uuid ↦
  let payload := logoutPayload data uuid
  let data := logoutData data fd uuid
  if data.sessions.toList.any fun kv ↦ kv.2 == uuid then
    ⟨data, Result.reply Response.logoutOk.code payload, []⟩
  else
    ⟨data,
      { Result.reply Response.logoutOk.code payload with
        pushes := [Push.event .userLoggedOut payload (loggedFds data ++ [fd])] },
      [ServerLog.userLoggedOut uuid]⟩

/-- `Business::handle_users`. -/
def handleUsers (fd : Fd) (data : ServerData) : Outcome :=
  if !isLoggedIn data fd then
    Outcome.error data .unauthorized []
  else
    let payload := appendU32 [] (UInt32.ofNat data.users.length)
    let payload := data.users.foldl (appendUser data) payload
    Outcome.answer data .usersList payload

/-- `Business::handle_user`. -/
def handleUser (fd : Fd) (userUuid : Str) (data : ServerData) : Outcome :=
  if !isLoggedIn data fd then
    Outcome.error data .unauthorized []
  else
    withUuid36 data userUuid <|
    withUser data userUuid (appendFixed [] userUuid 36) fun user ↦
    Outcome.answer data .userInfo (appendUser data [] user)

end MyTeams
