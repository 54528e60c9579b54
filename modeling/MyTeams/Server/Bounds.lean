import MyTeams.Server.Reads
import MyTeams.Server.Registry

/-!
# Reads in bounds

The recording copy of the server computes what the server computes, and all its reads are inside
their objects. Both are one relation, `Yields`, proved in one walk over the handlers:
`yields_handleUse` and its siblings. What a read rests on is the check in front of it, the size of
an array, or, for the uuid of a session, that every session of a reachable state is a string of 36
bytes.
-/

namespace MyTeams

namespace Reads

open ByteOrder ByteField FirstMatch ReadLog Traced

/-! ### Serialization -/

theorem take_cells (b : Bytes 36) : (cells b).take 36 = b.toList :=
  List.take_left' b.toList_length

theorem yields_appendFixed {data : List UInt8} {size : ℕ} (h : size ≤ data.length)
    (out : List UInt8) : Yields (appendFixed out data size) (MyTeams.appendFixed out data size) :=
  (yields_slice (show 0 + size ≤ data.length by omega)).bind (yields_pure _)

theorem yields_appendField {n : ℕ} (b : Bytes n) (out : List UInt8) :
    Yields (appendFixed out b.toList n) (MyTeams.appendFixed out b.toList n) :=
  yields_appendFixed b.toList_length.ge out

theorem yields_appendU32 (out : List UInt8) (v : UInt32) :
    Yields (appendU32 out v) (MyTeams.appendU32 out v) :=
  yields_appendFixed (length_be32 v).ge out

theorem yields_appendI64 (out : List UInt8) (v : Int64) :
    Yields (appendI64 out v) (MyTeams.appendI64 out v) :=
  yields_appendFixed (length_leBytes _ _).ge out

/-- The first 36 of the 37 cells are the uuid. -/
theorem yields_appendCells (out : List UInt8) (b : Bytes 36) :
    Yields (appendFixed out (cells b) 36) (MyTeams.appendFixed out b.toList 36) := by
  have hread := yields_appendFixed (show 36 ≤ (cells b).length by simp [cells]) out
  rwa [MyTeams.appendFixed, take_cells, ← appendFixed_toList] at hread

theorem yields_appendUuid36 (out : List UInt8) (b : Bytes 36) :
    Yields (appendUuid36 out b) (MyTeams.appendUuid36 out b) :=
  yields_appendCells out b

theorem yields_appendName32 (out : List UInt8) (b : Bytes 32) :
    Yields (appendName32 out b) (MyTeams.appendName32 out b) :=
  yields_appendField b out

theorem yields_makeMessage (code : UInt16) (payload : List UInt8) :
    Yields (makeMessage code payload) (MyTeams.makeMessage code payload) :=
  (yields_slice_whole (length_be16 code)).bind <|
    (yields_slice_whole (length_be32 _)).bind (yields_pure _)

theorem yields_copyField {src : List UInt8} {offset size : ℕ} (h : offset + size ≤ src.length) :
    Yields (copyField src offset size) (payloadField src offset size) := by
  have hread : Yields (copyField src offset size) (fill size ((src.drop offset).take size)) :=
    (yields_slice h).bind (yields_pure _)
  rwa [fill_take] at hread

theorem yields_copyPrefix (src : Str) (size : ℕ) :
    Yields (copyPrefix src size) (fill size src) := by
  have hread : Yields (copyPrefix src size) (fill size (src.take (min src.length size))) :=
    (yields_slice (show 0 + min src.length size ≤ src.length by omega)).bind (yields_pure _)
  rwa [Nat.min_comm, ← List.take_take, List.take_length, fill_take] at hread

/-! ### Results -/

theorem yields_reply (code : UInt16) (payload : List UInt8) :
    Yields (reply code payload) (Result.reply code payload) :=
  (yields_makeMessage code payload).bind (yields_pure _)

theorem yields_event (evt : Event) (payload : List UInt8) (fds : List Fd) :
    Yields (event evt payload fds) (Push.event evt payload fds) :=
  (yields_makeMessage evt.code payload).bind (yields_pure _)

theorem yields_error (data : ServerData) (e : Error) (payload : List UInt8) :
    Yields (error data e payload) (Outcome.error data e payload) :=
  (yields_reply e.code payload).bind (yields_pure _)

theorem yields_answer (data : ServerData) (r : Response) (payload : List UInt8) :
    Yields (answer data r payload) (Outcome.answer data r payload) :=
  (yields_reply r.code payload).bind (yields_pure _)

theorem yields_created (r : Response) (evt : Event) (payload : List UInt8) (fds : List Fd) :
    Yields (created r evt payload fds) (Result.created r evt payload fds) :=
  (yields_reply r.code payload).bind <| (yields_event evt payload fds).bind (yields_pure _)

/-! ### Guards -/

section Guards

variable {data : ServerData} {uuid : Str} {e : Traced (List UInt8)} {p : List UInt8}

theorem yields_withSession {fd : Fd} {k : Str → Traced Outcome} {k' : Str → Outcome}
    (h : ∀ user, data.sessions[fd]? = some user → Yields (k user) (k' user)) :
    Yields (withSession data fd k) (MyTeams.withSession data fd k') := by
  rcases hs : data.sessions[fd]? with - | user <;> simp only [withSession, MyTeams.withSession, hs]
  · exact yields_error data .unauthorized []
  · exact h user hs

theorem yields_withUuid36 {k : Traced Outcome} {k' : Outcome}
    (h : uuid.length = 36 → Yields k k') :
    Yields (withUuid36 data uuid k) (MyTeams.withUuid36 data uuid k') := by
  refine yields_ite (fun _ ↦ yields_error data .invalidCommand []) fun hlength ↦ h ?_
  simpa [isUuid36] using hlength

theorem yields_errorWith {error : Error} (h : Yields e p) :
    Yields (errorWith data error e) (Outcome.error data error p) :=
  h.bind (yields_error data error p)

theorem yields_withUser {k : User → Traced Outcome} {k' : User → Outcome} (he : Yields e p)
    (h : ∀ user, Yields (k user) (k' user)) :
    Yields (withUser data uuid e k) (MyTeams.withUser data uuid p k') := by
  rcases hu : findUserByUuid data uuid with - | user <;> simp only [withUser, MyTeams.withUser, hu]
  · exact yields_errorWith he
  · exact h user

theorem yields_withTeam {k : Team → Traced Outcome} {k' : Team → Outcome} (he : Yields e p)
    (h : ∀ team, Yields (k team) (k' team)) :
    Yields (withTeam data uuid e k) (MyTeams.withTeam data uuid p k') := by
  rcases ht : findTeamByUuid data uuid with - | team <;> simp only [withTeam, MyTeams.withTeam, ht]
  · exact yields_errorWith he
  · exact h team

theorem yields_withSubscription {team : Team} {user : Str} {k : Traced Outcome} {k' : Outcome}
    (h : Yields k k') :
    Yields (withSubscription data team user k) (MyTeams.withSubscription data team user k') :=
  yields_ite (fun _ ↦ yields_error data .notSubscribed []) fun _ ↦ h

theorem yields_withChannel {team : Team} {k : Channel → Traced Outcome} {k' : Channel → Outcome}
    (he : Yields e p) (h : ∀ channel, Yields (k channel) (k' channel)) :
    Yields (withChannel data team uuid e k) (MyTeams.withChannel data team uuid p k') := by
  rcases hc : findChannelByUuid team uuid with - | channel <;>
    simp only [withChannel, MyTeams.withChannel, hc]
  · exact yields_errorWith he
  · exact h channel

theorem yields_withThread {channel : Channel} {k : Thread → Traced Outcome} {k' : Thread → Outcome}
    (he : Yields e p) (h : ∀ thread, Yields (k thread) (k' thread)) :
    Yields (withThread data channel uuid e k) (MyTeams.withThread data channel uuid p k') := by
  rcases ht : findThreadByUuid channel uuid with - | thread <;>
    simp only [withThread, MyTeams.withThread, ht]
  · exact yields_errorWith he
  · exact h thread

theorem yields_withContext {fd : Fd} {k : ClientContext → Traced Outcome}
    {k' : ClientContext → Outcome} (h : ∀ ctx, Yields (k ctx) (k' ctx)) :
    Yields (withContext data fd k) (MyTeams.withContext data fd k') := by
  rcases hctx : data.clientContexts[fd]? with - | ctx <;>
    simp only [withContext, MyTeams.withContext, hctx]
  · exact yields_error data .invalidCommand []
  · exact h ctx

/-- A uuid that is sent back in an error. -/
theorem yields_uuidError (h : uuid.length = 36) :
    Yields (appendFixed [] uuid 36) (MyTeams.appendFixed [] uuid 36) :=
  yields_appendFixed h.ge []

end Guards

/-! ### Records -/

theorem yields_appendUser (data : ServerData) (payload : List UInt8) (u : User) :
    Yields (appendUser data payload u) (MyTeams.appendUser data payload u) :=
  (yields_appendUuid36 payload u.uuid.bytes).bind <| (yields_appendName32 _ u.name).bind <|
    yields_appendFixed (by simp) _

theorem yields_appendMessage (payload : List UInt8) (m : Message) :
    Yields (appendMessage payload m) (MyTeams.appendMessage payload m) :=
  (yields_appendCells payload m.senderUuid).bind <| (yields_appendCells _ m.receiverUuid).bind <|
    (yields_appendI64 _ m.timestamp).bind <| yields_appendField m.body _

theorem yields_appendTeam (payload : List UInt8) (team : Team) :
    Yields (appendTeam payload team) (MyTeams.appendTeam payload team) :=
  (yields_appendUuid36 payload team.uuid.bytes).bind <| (yields_appendName32 _ team.name).bind <|
    yields_appendField team.description _

theorem yields_appendChannel (payload : List UInt8) (channel : Channel) :
    Yields (appendChannel payload channel) (MyTeams.appendChannel payload channel) :=
  (yields_appendUuid36 payload channel.uuid.bytes).bind <|
    (yields_appendName32 _ channel.name).bind <| yields_appendField channel.description _

theorem yields_appendThread (payload : List UInt8) (thread : Thread) :
    Yields (appendThread payload thread) (MyTeams.appendThread payload thread) :=
  (yields_appendUuid36 payload thread.uuid.bytes).bind <|
    (yields_appendUuid36 _ thread.creatorUuid).bind <| (yields_appendI64 _ thread.timestamp).bind <|
    (yields_appendName32 _ thread.title).bind <| yields_appendField thread.body _

theorem yields_appendReply (threadUuid : Bytes 36) (payload : List UInt8) (r : Reply) :
    Yields (appendReply threadUuid payload r) (MyTeams.appendReply threadUuid payload r) :=
  (yields_appendCells payload threadUuid).bind <| (yields_appendUuid36 _ r.creatorUuid).bind <|
    (yields_appendI64 _ r.timestamp).bind <| yields_appendField r.body _

/-- A list of records behind its count. -/
theorem yields_records {α : Type} {f : List UInt8 → α → Traced (List UInt8)}
    {g : List UInt8 → α → List UInt8} (h : ∀ payload x, Yields (f payload x) (g payload x))
    (l : List α) (data : ServerData) (r : Response) :
    Yields
      (do
        let payload ← appendU32 [] (UInt32.ofNat l.length)
        let payload ← l.foldlM f payload
        answer data r payload)
      (Outcome.answer data r (l.foldl g (MyTeams.appendU32 [] (UInt32.ofNat l.length)))) :=
  (yields_appendU32 [] _).bind <| (yields_foldlM (fun payload x _ ↦ h payload x) _).bind <|
    yields_answer data r _

theorem yields_userDetails {data : ServerData} {user : Str} (h : user.length = 36) :
    Yields (userDetails data user) (MyTeams.userDetails data user) := by
  rcases hu : findUserByUuid data user with - | u <;>
    simp only [userDetails, MyTeams.userDetails, hu]
  · exact (yields_appendFixed h.ge []).bind (yields_appendField (zeros 32) _)
  · exact (yields_appendUuid36 [] u.uuid.bytes).bind (yields_appendName32 _ u.name)

/-! ### The handlers -/

section Handlers

variable {host : Host} {fd : Fd} {payload : Str} {data : ServerData}

theorem yields_loginResult (wasOnline : Bool) (data : ServerData) (user : User) :
    Yields (loginResult wasOnline data user) (MyTeams.loginResult wasOnline data user) := by
  refine (yields_appendUuid36 [] user.uuid.bytes).bind <| (yields_appendName32 _ user.name).bind <|
    (yields_reply _ _).bind ?_
  cases wasOnline
  · exact (yields_event _ _ _).bind (yields_pure _)
  · exact yields_pure _

theorem yields_handleLogin (name : Str) :
    Yields (handleLogin host fd name data) (MyTeams.handleLogin host fd name data) := by
  rcases hu : findUserByName data (trimPaddedName name) with - | user <;>
    simp only [handleLogin, MyTeams.handleLogin, hu]
  · exact (yields_copyPrefix _ 32).bind <| (yields_loginResult _ _ _).bind (yields_pure _)
  · exact (yields_loginResult _ _ _).bind (yields_pure _)

/-- The uuid of a session is copied whole. -/
theorem yields_handleLogout (hwf : SessionsWf data) :
    Yields (handleLogout fd data) (MyTeams.handleLogout fd data) := by
  refine yields_withSession fun uuid hs ↦ ?_
  have hpayload : Yields (logoutPayload data uuid) (MyTeams.logoutPayload data uuid) := by
    refine (yields_appendFixed (hwf fd uuid hs).ge []).bind ?_
    rcases hu : data.users.find? fun u ↦ u.uuid.str == uuid with - | u <;>
      simp only [MyTeams.logoutPayload, hu]
    · exact yields_appendField (zeros 32) _
    · exact yields_appendName32 _ u.name
  refine hpayload.bind <| (yields_reply _ _).bind <| yields_ite (fun _ ↦ yields_pure _) fun _ ↦ ?_
  exact (yields_event _ _ _).bind (yields_pure _)

theorem yields_handleUsers : Yields (handleUsers fd data) (MyTeams.handleUsers fd data) :=
  yields_ite (fun _ ↦ yields_error data .unauthorized []) fun _ ↦
    yields_records (yields_appendUser data) data.users data .usersList

theorem yields_handleUser (uuid : Str) :
    Yields (handleUser fd uuid data) (MyTeams.handleUser fd uuid data) :=
  yields_ite (fun _ ↦ yields_error data .unauthorized []) fun _ ↦
    yields_withUuid36 fun hlength ↦ yields_withUser (yields_uuidError hlength) fun user ↦
    (yields_appendUser data [] user).bind (yields_answer data .userInfo _)

theorem yields_handleSend (hwf : SessionsWf data) (uuid body : Str) :
    Yields (handleSend host fd uuid body data) (MyTeams.handleSend host fd uuid body data) := by
  refine yields_withSession fun sender hs ↦ yields_withUuid36 fun hlength ↦
    yields_withUser (yields_uuidError hlength) fun receiver ↦ ?_
  have hmsg : Yields (newMessage host sender uuid body)
      (MyTeams.newMessage host sender uuid body) :=
    (yields_copyPrefix sender 36).bind <|
      (yields_copyField (show 0 + 36 ≤ uuid.length by omega)).bind <|
      (yields_copyPrefix (trimPaddedName body) 512).bind (yields_pure _)
  refine hmsg.bind <| (yields_reply _ _).bind <|
    (yields_appendFixed (hwf fd sender hs).ge []).bind <| (yields_appendField _ _).bind <|
    (yields_event _ _ _).bind ?_
  exact yields_pure _

theorem yields_handleMessages (uuid : Str) :
    Yields (handleMessages fd uuid data) (MyTeams.handleMessages fd uuid data) :=
  yields_withSession fun self _ ↦ yields_withUuid36 fun hlength ↦
    yields_withUser (yields_uuidError hlength) fun _ ↦
    yields_records yields_appendMessage (data.messages.filter (messageMatch self uuid)) data _

theorem yields_handleSubscribe (uuid : Str) :
    Yields (handleSubscribe fd uuid data) (MyTeams.handleSubscribe fd uuid data) :=
  yields_withSession fun _ _ ↦ yields_withUuid36 fun hlength ↦
    yields_withTeam (yields_uuidError hlength) fun team ↦
    (yields_appendCells [] team.uuid.bytes).bind <|
    yields_ite (fun _ ↦ (yields_reply _ _).bind (yields_pure _)) fun _ ↦ yields_answer data _ _

theorem yields_handleUnsubscribe (uuid : Str) :
    Yields (handleUnsubscribe fd uuid data) (MyTeams.handleUnsubscribe fd uuid data) :=
  yields_withSession fun _ _ ↦ yields_withUuid36 fun hlength ↦
    yields_withTeam (yields_uuidError hlength) fun team ↦ yields_withSubscription <|
    (yields_appendCells [] team.uuid.bytes).bind <| (yields_reply _ _).bind (yields_pure _)

theorem yields_handleSubscribedTeams :
    Yields (handleSubscribedTeams fd data) (MyTeams.handleSubscribedTeams fd data) :=
  yields_withSession fun user _ ↦
    yields_records yields_appendTeam (data.teams.filter fun t ↦ isSubscribedTo t user) data _

theorem yields_handleSubscribedUsers (uuid : Str) :
    Yields (handleSubscribedUsers fd uuid data) (MyTeams.handleSubscribedUsers fd uuid data) :=
  yields_withSession fun _ _ ↦ yields_withUuid36 fun hlength ↦
    yields_withTeam (yields_uuidError hlength) fun team ↦ yields_withSubscription <|
    yields_records (yields_appendUser data) (team.memberUuids.filterMap (findUserByUuid data))
      data _

/-! The commands that read a stored context. -/

theorem yields_contextUuid (uuid37 : Bytes 36) : Yields (contextUuid uuid37) uuid37.toList := by
  have hread := yields_slice (show 0 + 36 ≤ (cells uuid37).length by simp [cells])
  rwa [List.drop_zero, take_cells] at hread

theorem yields_storedTeam {ctx : ClientContext} {k : Team → Traced Outcome} {k' : Team → Outcome}
    (h : ∀ team, Yields (k team) (k' team)) :
    Yields (contextUuid ctx.teamUuid >>= fun uuid ↦ withTeam data uuid (pure []) k)
      (MyTeams.withTeam data ctx.teamUuid.toList [] k') :=
  (yields_contextUuid ctx.teamUuid).bind (yields_withTeam (yields_pure []) h)

theorem yields_storedChannel {ctx : ClientContext} {team : Team} {k : Channel → Traced Outcome}
    {k' : Channel → Outcome} (h : ∀ channel, Yields (k channel) (k' channel)) :
    Yields (contextUuid ctx.channelUuid >>= fun uuid ↦ withChannel data team uuid (pure []) k)
      (MyTeams.withChannel data team ctx.channelUuid.toList [] k') :=
  (yields_contextUuid ctx.channelUuid).bind (yields_withChannel (yields_pure []) h)

theorem yields_storedThread {ctx : ClientContext} {channel : Channel} {k : Thread → Traced Outcome}
    {k' : Thread → Outcome} (h : ∀ thread, Yields (k thread) (k' thread)) :
    Yields (contextUuid ctx.threadUuid >>= fun uuid ↦ withThread data channel uuid (pure []) k)
      (MyTeams.withThread data channel ctx.threadUuid.toList [] k') :=
  (yields_contextUuid ctx.threadUuid).bind (yields_withThread (yields_pure []) h)

theorem yields_handleList : Yields (handleList fd data) (MyTeams.handleList fd data) :=
  yields_withSession fun _ _ ↦ yields_withContext fun ctx ↦
    yields_ite (fun _ ↦ yields_records yields_appendTeam data.teams data _) fun _ ↦
    yields_ite (fun _ ↦ yields_storedTeam fun team ↦
      yields_records yields_appendChannel team.channels data _) fun _ ↦
    yields_ite (fun _ ↦ yields_storedTeam fun _ ↦ yields_storedChannel fun channel ↦
      yields_records yields_appendThread channel.threads data _) fun _ ↦
    yields_ite (fun _ ↦ yields_storedTeam fun _ ↦ yields_storedChannel fun _ ↦
      yields_storedThread fun thread ↦
      yields_records (yields_appendReply ctx.threadUuid) thread.replies data _) fun _ ↦
    yields_error data .invalidCommand []

theorem yields_handleInfo (hwf : SessionsWf data) :
    Yields (handleInfo fd data) (MyTeams.handleInfo fd data) :=
  yields_withSession fun user hs ↦ yields_withContext fun _ ↦
    yields_ite (fun _ ↦ (yields_userDetails (hwf fd user hs)).bind (yields_answer data _ _)) fun _ ↦
    yields_ite (fun _ ↦ yields_storedTeam fun team ↦
      (yields_appendTeam [] team).bind (yields_answer data _ _)) fun _ ↦
    yields_ite (fun _ ↦ yields_storedTeam fun _ ↦ yields_storedChannel fun channel ↦
      (yields_appendChannel [] channel).bind (yields_answer data _ _)) fun _ ↦
    yields_ite (fun _ ↦ yields_storedTeam fun _ ↦ yields_storedChannel fun _ ↦
      yields_storedThread fun thread ↦
      (yields_appendThread [] thread).bind (yields_answer data _ _)) fun _ ↦
    yields_error data .invalidCommand []

/-- The copies of `CMD_CREATE` rest on the length of the payload, and those of the creator on the
length of the session's uuid. -/
theorem yields_handleCreate (hwf : SessionsWf data) :
    Yields (handleCreate host fd payload data) (MyTeams.handleCreate host fd payload data) := by
  refine yields_withSession fun user hs ↦ yields_withContext fun ctx ↦ ?_
  have huser : 0 + 36 ≤ user.length := by
    have hlength := hwf fd user hs
    omega
  refine yields_ite (fun _ ↦ ?_) fun _ ↦ yields_ite (fun _ ↦ ?_) fun _ ↦ yields_ite (fun _ ↦ ?_)
    fun _ ↦ yields_ite (fun _ ↦ ?_) fun _ ↦ yields_error data .invalidCommand []
  · refine yields_ite (fun _ ↦ yields_error data .invalidCommand []) fun hlength ↦ ?_
    have hteam : Yields (newTeam host user payload) (MyTeams.newTeam host user payload) :=
      (yields_copyField (by omega)).bind <| (yields_copyField (by omega)).bind (yields_pure _)
    exact hteam.bind <| (yields_appendTeam [] _).bind <|
      (yields_created _ _ _ _).bind (yields_pure _)
  · refine yields_ite (fun _ ↦ yields_error data .invalidCommand []) fun hlength ↦
      yields_storedTeam fun team ↦ yields_withSubscription ?_
    have hchannel : Yields (newChannel host payload) (MyTeams.newChannel host payload) :=
      (yields_copyField (by omega)).bind <| (yields_copyField (by omega)).bind (yields_pure _)
    exact hchannel.bind <| (yields_appendChannel [] _).bind <|
      (yields_created _ _ _ _).bind (yields_pure _)
  · refine yields_ite (fun _ ↦ yields_error data .invalidCommand []) fun hlength ↦
      yields_storedTeam fun team ↦ yields_withSubscription <| yields_storedChannel fun channel ↦ ?_
    have hthread : Yields (newThread host user payload) (MyTeams.newThread host user payload) :=
      (yields_copyField huser).bind <| (yields_copyField (by omega)).bind <|
        (yields_copyField (by omega)).bind (yields_pure _)
    exact hthread.bind <| (yields_appendThread [] _).bind <|
      (yields_created _ _ _ _).bind (yields_pure _)
  · refine yields_ite (fun _ ↦ yields_error data .invalidCommand []) fun hlength ↦
      yields_storedTeam fun team ↦ yields_withSubscription <| yields_storedChannel fun channel ↦
      yields_storedThread fun thread ↦ ?_
    have hreply : Yields (newReply host user payload) (MyTeams.newReply host user payload) :=
      (yields_copyField huser).bind <| (yields_copyField (by omega)).bind (yields_pure _)
    exact hreply.bind <| (yields_appendReply ctx.threadUuid [] _).bind <|
      (yields_created _ _ _ _).bind (yields_pure _)

/-! `CMD_USE`: the views into the payload rest on its length, and have 36 bytes each. -/

theorem yields_useUuid {i : ℕ} (h : 1 + i * 36 + 36 ≤ payload.length) :
    Yields (useUuid payload i) (MyTeams.useUuid payload i) :=
  yields_slice h

theorem yields_copyUuid {uuid : Str} (h : uuid.length = 36) :
    Yields (copyField uuid 0 36) (fill 36 uuid) :=
  yields_copyField (by omega)

theorem yields_handleUse (hwf : SessionsWf data) :
    Yields (handleUse fd payload data) (MyTeams.handleUse fd payload data) := by
  refine yields_withSession fun user hs ↦ ?_
  rcases payload with - | ⟨level, rest⟩
  · exact yields_error data .invalidCommand []
  refine (yields_slice (show 0 + 1 ≤ (level :: rest).length by simp)).bind ?_
  refine yields_ite (fun _ ↦ ?_) fun _ ↦ yields_ite (fun _ ↦ ?_) fun _ ↦ yields_ite (fun _ ↦ ?_)
    fun _ ↦ yields_ite (fun _ ↦ ?_) fun _ ↦ yields_error data .invalidCommand []
  · exact (yields_userDetails (hwf fd user hs)).bind (yields_answer _ _ _)
  · refine yields_ite (fun _ ↦ yields_error data .invalidCommand []) fun hlength ↦ ?_
    have hteam := length_useUuid (show 1 + (0 + 1) * 36 ≤ (level :: rest).length by omega)
    exact (yields_useUuid (by omega)).bind <| yields_withTeam (yields_uuidError hteam) fun team ↦
      yields_withSubscription <| (yields_copyUuid hteam).bind <|
      (yields_appendTeam [] team).bind (yields_answer _ _ _)
  · refine yields_ite (fun _ ↦ yields_error data .invalidCommand []) fun hlength ↦ ?_
    have hteam := length_useUuid (show 1 + (0 + 1) * 36 ≤ (level :: rest).length by omega)
    have hchannel := length_useUuid (show 1 + (1 + 1) * 36 ≤ (level :: rest).length by omega)
    exact (yields_useUuid (by omega)).bind <| (yields_useUuid (by omega)).bind <|
      yields_withTeam (yields_uuidError hteam) fun team ↦ yields_withSubscription <|
      yields_withChannel (yields_uuidError hchannel) fun channel ↦ (yields_copyUuid hteam).bind <|
      (yields_copyUuid hchannel).bind <|
        (yields_appendChannel [] channel).bind (yields_answer _ _ _)
  · refine yields_ite (fun _ ↦ yields_error data .invalidCommand []) fun hlength ↦ ?_
    have hteam := length_useUuid (show 1 + (0 + 1) * 36 ≤ (level :: rest).length by omega)
    have hchannel := length_useUuid (show 1 + (1 + 1) * 36 ≤ (level :: rest).length by omega)
    have hthread := length_useUuid (show 1 + (2 + 1) * 36 ≤ (level :: rest).length by omega)
    exact (yields_useUuid (by omega)).bind <| (yields_useUuid (by omega)).bind <|
      (yields_useUuid (by omega)).bind <|
      yields_withTeam (yields_uuidError hteam) fun team ↦ yields_withSubscription <|
      yields_withChannel (yields_uuidError hchannel) fun channel ↦
      yields_withThread (yields_uuidError hthread) fun thread ↦ (yields_copyUuid hteam).bind <|
      (yields_copyUuid hchannel).bind <| (yields_copyUuid hthread).bind <|
      (yields_appendThread [] thread).bind (yields_answer _ _ _)

/-! ### The dispatcher and the receive loop -/

/-- `extract_sv` looks only at ranges that fit. -/
theorem yields_extractSv (p : List UInt8) (offset size : ℕ) :
    Yields (extractSv p offset size) (Server.extractSv p offset size) :=
  yields_ite (fun _ ↦ yields_pure []) fun h ↦ yields_slice (by omega)

theorem yields_handle (hwf : SessionsWf data) (cmd : Command) :
    Yields (handle host fd cmd payload data) (Server.handle host fd cmd payload data) := by
  cases cmd with
  | login => exact (yields_extractSv _ _ _).bind (yields_handleLogin _)
  | logout => exact yields_handleLogout hwf
  | users => exact yields_handleUsers
  | user => exact (yields_extractSv _ _ _).bind (yields_handleUser _)
  | send =>
    exact (yields_extractSv _ _ _).bind ((yields_extractSv _ _ _).bind (yields_handleSend hwf _ _))
  | messages => exact (yields_extractSv _ _ _).bind (yields_handleMessages _)
  | subscribe => exact (yields_extractSv _ _ _).bind (yields_handleSubscribe _)
  | subscribed =>
    exact yields_ite (fun _ ↦ (yields_extractSv _ _ _).bind (yields_handleSubscribedUsers _))
      fun _ ↦ yields_handleSubscribedTeams
  | unsubscribe => exact (yields_extractSv _ _ _).bind (yields_handleUnsubscribe _)
  | use => exact (yields_extractSv _ _ _).bind (yields_handleUse hwf)
  | create => exact (yields_extractSv _ _ _).bind (yields_handleCreate hwf)
  | list => exact yields_handleList
  | info => exact yields_handleInfo hwf

end Handlers

section Loop

variable {host : ℕ → Host} {s : Server}

theorem yields_emptyFrame (code : UInt16) : Yields (emptyFrame code) (be16 code ++ be32 0) :=
  (yields_slice_whole (length_be16 code)).bind <|
    (yields_slice_whole (length_be32 0)).bind (yields_pure _)

theorem yields_dispatch (hwf : SessionsWf s.data) (fd : Fd) (cmd : UInt16) (payload : List UInt8) :
    Yields (dispatch host fd cmd payload s) (Server.dispatch host fd cmd payload s) := by
  refine yields_ite (fun _ ↦ (yields_emptyFrame _).bind (yields_pure _)) fun _ ↦ ?_
  rcases Command.ofCode? cmd with - | c
  · exact (yields_emptyFrame _).bind (yields_pure _)
  · exact (yields_handle hwf c).bind (yields_pure _)

theorem yields_handleClientDisconnect (hwf : SessionsWf s.data) (fd : Fd) :
    Yields (handleClientDisconnect fd s) (Server.handleClientDisconnect fd s) := by
  rw [handleClientDisconnect, Server.handleClientDisconnect]
  split_ifs
  · exact (yields_handleLogout hwf).bind (yields_pure _)
  · exact yields_pure _

/-- One dispatched frame leaves a registry for the next round. -/
theorem yields_dispatch_bind {fd : Fd} {cmd : UInt16} {payload : List UInt8}
    {k : Server → Traced Server} {k' : Server → Server} (h : DataRegistry s.data)
    (hk : ∀ after : Server, DataRegistry after.data → Yields (k after) (k' after)) :
    Yields (dispatch host fd cmd payload s >>= k)
      (k' (Server.dispatch host fd cmd payload s)) := by
  refine (yields_dispatch h.sessionsWf fd cmd payload).bind (hk _ ?_)
  obtain ⟨answer, hserves, hdata, -⟩ :
      Realizes (Serves (host s.served) fd payload s.data (Command.ofCode? cmd))
        (frameOutcome (host s.served) fd cmd payload s.data) := frameOutcome_realizes h.sessionsWf
  rw [Server.dispatch_eq_queueAll, Server.queueAll_data, hdata]
  exact h.change hserves.change

/-- The header and the payload are inside the buffer, round after round. -/
theorem yields_processRecvLoop (h : DataRegistry s.data) (fd : Fd) (n : ℕ) :
    Yields (processRecvLoop host fd n s) (Server.processRecvLoop host fd n s) := by
  induction n generalizing s with
  | zero => exact yields_pure s
  | succ n ih =>
    refine yields_ite (fun _ ↦ yields_pure s) fun hheader ↦ ?_
    have hsix : 6 ≤ ((s.clients[fd]?.getD default).recvBuffer).length := not_lt.1 hheader
    have hcode : 0 + 2 ≤ ((s.clients[fd]?.getD default).recvBuffer).length := by omega
    have hsize : 2 + 4 ≤ ((s.clients[fd]?.getD default).recvBuffer).length := by omega
    refine (yields_slice hcode).bind <| (yields_slice hsize).bind ?_
    refine yields_ite (fun _ ↦ yields_handleClientDisconnect h.sessionsWf fd) fun _ ↦
      yields_ite (fun _ ↦ yields_pure s) fun hwhole ↦ ?_
    refine (yields_slice (not_lt.1 hwhole)).bind ?_
    exact @yields_dispatch_bind host (s.modifyClient fd _) fd _ _ _
      (fun after ↦ if after.clients.contains fd then Server.processRecvLoop host fd n after
        else after) h
      fun after hafter ↦ yields_ite (fun _ ↦ ih hafter) fun _ ↦ yields_pure after

/-- Whatever `read` delivers. -/
theorem yields_handleClientRead (h : DataRegistry s.data) (fd : Fd) (tmp : List UInt8) :
    Yields (handleClientRead host fd tmp s) (Server.handleClientRead host fd tmp s) := by
  refine yields_ite (fun _ ↦ yields_handleClientDisconnect h.sessionsWf fd) fun _ ↦ ?_
  exact yields_processRecvLoop (s := (s.modifyClient fd _).modifyClient fd id) h fd _

end Loop

end Reads

/-! ### The law -/

namespace Server

open ReadLog

variable {host : ℕ → Host} {s : Server}

/-- **All fixed-width copies stay in bounds.** In every reachable state, the recording copies of
`_dispatch` for any frame, of the receive path for any bytes that arrive and of the end of a
connection compute what the server computes, and every read that they record lies inside its
object. -/
theorem reads_inBounds (h : Reachable host s) (fd : Fd) :
    (∀ (cmd : UInt16) (payload : List UInt8),
      (Reads.dispatch host fd cmd payload s).Yields (dispatch host fd cmd payload s)) ∧
    (∀ tmp : List UInt8,
      (Reads.handleClientRead host fd tmp s).Yields (handleClientRead host fd tmp s)) ∧
    (Reads.handleClientDisconnect fd s).Yields (handleClientDisconnect fd s) :=
  ⟨Reads.yields_dispatch h.sessionsWf fd,
    Reads.yields_handleClientRead h.registry.toDataRegistry fd,
    Reads.yields_handleClientDisconnect h.sessionsWf fd⟩

/-- A logout of a logged-in connection copies the uuid of the session. -/
theorem reads_inBounds_logout :
    let s := execute plainHost (.accept 4 :: request 4 .login [97]) Server.init
    (⟨36, 0, 36⟩ : Read) ∈ (Reads.dispatch plainHost 4 Command.logout.code [] s).reads ∧
      (Reads.dispatch plainHost 4 Command.logout.code [] s).Yields
        (dispatch plainHost 4 Command.logout.code [] s) := by
  intro s
  refine ⟨by decide +kernel, ?_⟩
  exact (reads_inBounds (reachable_execute (by decide +kernel)) 4).1 Command.logout.code []

end Server

end MyTeams
