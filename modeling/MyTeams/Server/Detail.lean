import MyTeams.Data
import MyTeams.Lib.FirstMatch
import MyTeams.Protocol

/-!
# Serialization and lookup helpers

The helpers of `src/server/handlers/mtp_detail.hpp`, and the writes that the handlers make through
the pointers those lookups return: a write through the pointer to the first match is an update of
the first match (`FirstMatch.updateFirst`).

`htonll` is modeled on a little-endian host, as two `htonl` calls and a shift; `appendI64_eq` says
that the bytes it leaves in memory are the big-endian image after all.
-/

namespace MyTeams

open ByteOrder ByteField FirstMatch

/-! ### Serialization -/

/-- `make_message`: header and payload. The size is cast to 32 bits. -/
def makeMessage (code : UInt16) (payload : List UInt8) : List UInt8 :=
  be16 code ++ be32 (UInt32.ofNat payload.length) ++ payload

/-- `append_fixed`: copy `size` bytes. -/
def appendFixed (out data : List UInt8) (size : ℕ) : List UInt8 := out ++ data.take size

/-- `append_u32`. -/
def appendU32 (out : List UInt8) (value : UInt32) : List UInt8 := appendFixed out (be32 value) 4

/-- `htonl` on a little-endian host: the integer whose memory image is the big-endian image of
`v`. -/
def htonl (v : UInt32) : UInt32 := UInt32.ofNat (leNat (be32 v))

/-- `htonll`, the little-endian branch. -/
def htonll (value : UInt64) : UInt64 :=
  (htonl (value &&& 0xFFFFFFFF).toUInt32).toUInt64 <<< 32 |||
    (htonl (value >>> 32).toUInt32).toUInt64

/-- `append_i64`: the memory image of `htonll`. -/
def appendI64 (out : List UInt8) (value : Int64) : List UInt8 :=
  appendFixed out (leBytes 8 (htonll value.toUInt64).toNat) 8

/-- `append_uuid36`. -/
def appendUuid36 (out : List UInt8) (uuid37 : Bytes 36) : List UInt8 :=
  appendFixed out uuid37.toList 36

/-- `append_name32`. -/
def appendName32 (out : List UInt8) (name32 : Bytes 32) : List UInt8 :=
  appendFixed out name32.toList 32

@[simp] theorem appendFixed_of_length {out data : List UInt8} {size : ℕ} (h : data.length = size) :
    appendFixed out data size = out ++ data := by
  rw [appendFixed, List.take_of_length_le h.le]

@[simp] theorem appendFixed_toList {n : ℕ} (out : List UInt8) (b : Bytes n) :
    appendFixed out b.toList n = out ++ b.toList :=
  appendFixed_of_length b.toList_length

@[simp] theorem appendU32_eq (out : List UInt8) (v : UInt32) : appendU32 out v = out ++ be32 v :=
  appendFixed_of_length (length_be32 v)

@[simp] theorem appendUuid36_eq (out : List UInt8) (u : Bytes 36) :
    appendUuid36 out u = out ++ u.toList :=
  appendFixed_toList out u

@[simp] theorem appendName32_eq (out : List UInt8) (b : Bytes 32) :
    appendName32 out b = out ++ b.toList :=
  appendFixed_toList out b

/-- The memory image of `htonl` is the big-endian image. -/
theorem leBytes_htonl (v : UInt32) : leBytes 4 (htonl v).toNat = be32 v := by
  have hlt : leNat (be32 v) < UInt32.size := by simpa using leNat_lt (be32 v)
  have h := leBytes_leNat (be32 v)
  rw [length_be32] at h
  rw [htonl, UInt32.toNat_ofNat_of_lt' hlt, h]

theorem toNat_htonll (v : UInt64) :
    (htonll v).toNat =
      (htonl (v >>> 32).toUInt32).toNat + (htonl (v &&& 0xFFFFFFFF).toUInt32).toNat * 256 ^ 4 := by
  set hi := htonl (v >>> 32).toUInt32 with hhi
  set lo := htonl (v &&& 0xFFFFFFFF).toUInt32 with hlo
  have hlo_lt : lo.toNat < 2 ^ 32 := lo.toNat_lt
  have hhi_lt : hi.toNat < 2 ^ 32 := hi.toNat_lt
  rw [htonll, ← hhi, ← hlo, UInt64.toNat_or, UInt64.toNat_shiftLeft]
  simp only [UInt32.toNat_toUInt64, UInt64.toNat_ofNat, Nat.reducePow, Nat.reduceMod]
  rw [Nat.mod_eq_of_lt (by rw [Nat.shiftLeft_eq]; omega),
    ← Nat.shiftLeft_add_eq_or_of_lt (by simpa using hhi_lt), Nat.shiftLeft_eq]
  omega

/-- **`append_i64` is big-endian**: the hand-written `htonll` composes with the memory layout of a
little-endian host to the network image of the 64-bit value. -/
@[simp] theorem appendI64_eq (out : List UInt8) (v : Int64) :
    appendI64 out v = out ++ beBytes 8 v.toUInt64.toNat := by
  set u := v.toUInt64 with hu
  have hhi : (htonl (u >>> 32).toUInt32).toNat < 256 ^ 4 := UInt32.toNat_lt _
  have hlow : leBytes 4 (htonll u).toNat = beBytes 4 (u.toNat / 256 ^ 4) := by
    rw [toNat_htonll, leBytes_congr (Nat.add_mul_mod_self_right _ _ _), leBytes_htonl, be32]
    refine beBytes_congr ?_
    simp [Nat.shiftRight_eq_div_pow]
  have hhigh : leBytes 4 ((htonll u).toNat / 256 ^ 4) = beBytes 4 u.toNat := by
    rw [toNat_htonll, Nat.add_mul_div_right _ _ (by decide), Nat.div_eq_of_lt hhi, Nat.zero_add,
      leBytes_htonl, be32]
    refine beBytes_congr ?_
    have hmask : ∀ n : ℕ, n &&& 4294967295 = n % 2 ^ 32 := fun n ↦
      Nat.and_two_pow_sub_one_eq_mod n 32
    simp [hmask]
  rw [appendI64, ← hu, appendFixed_of_length (length_leBytes _ _), leBytes_add 4 4, hlow, hhigh,
    ← beBytes_add 4 4]

/-! ### Names -/

/-- `trim_padded_name`: up to the first zero byte. -/
def trimPaddedName (name : Str) : Str := cut name

/-- `find_user_by_name`: the first user whose trimmed name is `name`. -/
def findUserByName (data : ServerData) (name : Str) : Option User :=
  data.users.find? fun user ↦ trimPaddedName user.name.toList == name

/-- `set_fixed_name`: the name in a zeroed 32-byte field. -/
def setFixedName (name : Str) : Bytes 32 := fill 32 name

/-! ### Presence -/

/-- `is_logged_in`. -/
def isLoggedIn (data : ServerData) (fd : Fd) : Bool := data.sessions.contains fd

/-- `is_user_online`: some session holds the user's uuid. -/
def isUserOnline (data : ServerData) (user : User) : Bool :=
  data.sessions.toList.any fun kv ↦ kv.2 == user.uuid.str

/-! ### Lookup by uuid -/

/-- `is_uuid36`. -/
def isUuid36 (uuid : Str) : Bool := uuid.length == 36

/-- `find_user_by_uuid`. -/
def findUserByUuid (data : ServerData) (uuid36 : Str) : Option User :=
  if isUuid36 uuid36 then data.users.find? fun u ↦ u.uuid.str == uuid36 else none

/-- `find_team_by_uuid`. -/
def findTeamByUuid (data : ServerData) (uuid36 : Str) : Option Team :=
  if isUuid36 uuid36 then data.teams.find? fun t ↦ t.uuid.str == uuid36 else none

/-- `is_subscribed_to`. -/
def isSubscribedTo (team : Team) (userUuid : Str) : Bool := team.memberUuids.contains userUuid

/-- `find_channel_by_uuid`. -/
def findChannelByUuid (team : Team) (uuid36 : Str) : Option Channel :=
  if isUuid36 uuid36 then team.channels.find? fun channel ↦ channel.uuid.str == uuid36 else none

/-- `find_thread_by_uuid`. -/
def findThreadByUuid (channel : Channel) (uuid36 : Str) : Option Thread :=
  if isUuid36 uuid36 then channel.threads.find? fun thread ↦ thread.uuid.str == uuid36 else none

/-- `logged_fds`. -/
def loggedFds (data : ServerData) : List Fd := data.sessions.toList.map Prod.fst

/-- `team_member_fds`. -/
def teamMemberFds (data : ServerData) (team : Team) : List Fd :=
  (data.sessions.toList.filter fun kv ↦ isSubscribedTo team kv.2).map Prod.fst

/-! ### Writes through the pointers found -/

/-- A write through the pointer `find_team_by_uuid` returned. -/
def updateTeam (data : ServerData) (uuid36 : Str) (f : Team → Team) : ServerData :=
  { data with teams := updateFirst (fun t ↦ t.uuid.str == uuid36) f data.teams }

/-- A write through the pointer `find_channel_by_uuid` returned. -/
def updateChannel (team : Team) (uuid36 : Str) (f : Channel → Channel) : Team :=
  { team with channels := updateFirst (fun c ↦ c.uuid.str == uuid36) f team.channels }

/-- A write through the pointer `find_thread_by_uuid` returned. -/
def updateThread (channel : Channel) (uuid36 : Str) (f : Thread → Thread) : Channel :=
  { channel with threads := updateFirst (fun t ↦ t.uuid.str == uuid36) f channel.threads }

/-! ### Results

Every path of every handler ends by filling in the response code and `make_message` of that code. -/

/-- A response and no pushes. -/
def Result.reply (code : UInt16) (payload : List UInt8) : Result :=
  ⟨⟨code, makeMessage code payload⟩, []⟩

/-- An event for the given descriptors. -/
def Push.event (evt : Event) (payload : List UInt8) (fds : List Fd) : Push :=
  ⟨⟨evt.code, makeMessage evt.code payload⟩, fds⟩

/-- An early return with an error: nothing has been changed, logged or pushed. -/
def Outcome.error (data : ServerData) (e : Error) (payload : List UInt8) : Outcome :=
  ⟨data, Result.reply e.code payload, []⟩

/-- A success response without pushes. -/
def Outcome.answer (data : ServerData) (r : Response) (payload : List UInt8) : Outcome :=
  ⟨data, Result.reply r.code payload, []⟩

/-! ### Guards

The lookups and the membership test that guard most branches, each with its early return. Handlers
differ in what the error carries: `payload` is the uuid asked for in some and empty in others. -/

/-- Go on with the session of `fd`, or return `ERR_UNAUTHORIZED`. -/
def withSession (data : ServerData) (fd : Fd) (k : Str → Outcome) : Outcome :=
  match data.sessions[fd]? with
  | none => Outcome.error data .unauthorized []
  | some uuid => k uuid

/-- Go on when a uuid argument has 36 bytes, or return `ERR_INVALID_COMMAND`. -/
def withUuid36 (data : ServerData) (uuid : Str) (k : Outcome) : Outcome :=
  if !isUuid36 uuid then Outcome.error data .invalidCommand [] else k

/-- Go on with the user found, or return `ERR_UNKNOWN_USER`. -/
def withUser (data : ServerData) (uuid : Str) (payload : List UInt8) (k : User → Outcome) :
    Outcome :=
  match findUserByUuid data uuid with
  | none => Outcome.error data .unknownUser payload
  | some user => k user

/-- Go on with the team found, or return `ERR_UNKNOWN_TEAM`. -/
def withTeam (data : ServerData) (uuid : Str) (payload : List UInt8) (k : Team → Outcome) :
    Outcome :=
  match findTeamByUuid data uuid with
  | none => Outcome.error data .unknownTeam payload
  | some team => k team

/-- Go on when the user is a member of the team, or return `ERR_NOT_SUBSCRIBED`. -/
def withSubscription (data : ServerData) (team : Team) (userUuid : Str) (k : Outcome) : Outcome :=
  if !isSubscribedTo team userUuid then Outcome.error data .notSubscribed [] else k

/-- Go on with the channel found, or return `ERR_UNKNOWN_CHANNEL`. -/
def withChannel (data : ServerData) (team : Team) (uuid : Str) (payload : List UInt8)
    (k : Channel → Outcome) : Outcome :=
  match findChannelByUuid team uuid with
  | none => Outcome.error data .unknownChannel payload
  | some channel => k channel

/-- Go on with the thread found, or return `ERR_UNKNOWN_THREAD`. -/
def withThread (data : ServerData) (channel : Channel) (uuid : Str) (payload : List UInt8)
    (k : Thread → Outcome) : Outcome :=
  match findThreadByUuid channel uuid with
  | none => Outcome.error data .unknownThread payload
  | some thread => k thread

/-- Go on with the stored context of `fd`, or return `ERR_INVALID_COMMAND`. -/
def withContext (data : ServerData) (fd : Fd) (k : ClientContext → Outcome) : Outcome :=
  match data.clientContexts[fd]? with
  | none => Outcome.error data .invalidCommand []
  | some ctx => k ctx

/-! ### Records

The bytes that the handlers append for one record. -/

/-- One user with its status. -/
def appendUser (data : ServerData) (payload : List UInt8) (u : User) : List UInt8 :=
  let status : UInt8 := if isUserOnline data u then 0x01 else 0x00
  let payload := appendUuid36 payload u.uuid.bytes
  let payload := appendName32 payload u.name
  appendFixed payload [status] 1

/-- One private message. -/
def appendMessage (payload : List UInt8) (m : Message) : List UInt8 :=
  let payload := appendFixed payload m.senderUuid.toList 36
  let payload := appendFixed payload m.receiverUuid.toList 36
  let payload := appendI64 payload m.timestamp
  appendFixed payload m.body.toList 512

/-- One team. -/
def appendTeam (payload : List UInt8) (team : Team) : List UInt8 :=
  let payload := appendUuid36 payload team.uuid.bytes
  let payload := appendName32 payload team.name
  appendFixed payload team.description.toList 255

/-- One channel. -/
def appendChannel (payload : List UInt8) (channel : Channel) : List UInt8 :=
  let payload := appendUuid36 payload channel.uuid.bytes
  let payload := appendName32 payload channel.name
  appendFixed payload channel.description.toList 255

/-- One thread. -/
def appendThread (payload : List UInt8) (thread : Thread) : List UInt8 :=
  let payload := appendUuid36 payload thread.uuid.bytes
  let payload := appendUuid36 payload thread.creatorUuid
  let payload := appendI64 payload thread.timestamp
  let payload := appendName32 payload thread.title
  appendFixed payload thread.body.toList 512

/-- One reply, under the uuid of the thread it was asked for by. -/
def appendReply (threadUuid : Bytes 36) (payload : List UInt8) (reply : Reply) : List UInt8 :=
  let payload := appendFixed payload threadUuid.toList 36
  let payload := appendUuid36 payload reply.creatorUuid
  let payload := appendI64 payload reply.timestamp
  appendFixed payload reply.body.toList 512

/-- The session's own user, with a zeroed name when its uuid is not found. -/
def userDetails (data : ServerData) (userUuid : Str) : List UInt8 :=
  match findUserByUuid data userUuid with
  | some user => appendName32 (appendUuid36 [] user.uuid.bytes) user.name
  | none => appendFixed (appendFixed [] userUuid 36) (zeros 32).toList 32

end MyTeams
