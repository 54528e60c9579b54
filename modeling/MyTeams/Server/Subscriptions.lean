import MyTeams.Server.Detail

/-!
# Subscriptions

`src/server/handlers/mtp_subscriptions.cpp`.
-/

namespace MyTeams

/-- `team->member_uuids.push_back(user_uuid)`. -/
def addMember (data : ServerData) (teamUuid userUuid : Str) : ServerData :=
  updateTeam data teamUuid fun t ↦ { t with memberUuids := t.memberUuids ++ [userUuid] }

/-- `members.erase(mit)`: only the first match goes. -/
def removeMember (data : ServerData) (teamUuid userUuid : Str) : ServerData :=
  updateTeam data teamUuid fun t ↦ { t with memberUuids := t.memberUuids.erase userUuid }

/-- `Business::handle_subscribe`. -/
def handleSubscribe (fd : Fd) (teamUuid : Str) (data : ServerData) : Outcome :=
  withSession data fd fun userUuid ↦
  withUuid36 data teamUuid <|
  withTeam data teamUuid (appendFixed [] teamUuid 36) fun team ↦
  let payload := appendFixed [] team.uuid.bytes.toList 36
  if !isSubscribedTo team userUuid then
    ⟨addMember data teamUuid userUuid, Result.reply Response.subscribeOk.code payload,
      [ServerLog.userSubscribed team.uuid userUuid]⟩
  else
    Outcome.answer data .subscribeOk payload

/-- `Business::handle_unsubscribe`. -/
def handleUnsubscribe (fd : Fd) (teamUuid : Str) (data : ServerData) : Outcome :=
  withSession data fd fun userUuid ↦
  withUuid36 data teamUuid <|
  withTeam data teamUuid (appendFixed [] teamUuid 36) fun team ↦
  withSubscription data team userUuid <|
  ⟨removeMember data teamUuid userUuid,
    Result.reply Response.unsubscribeOk.code (appendFixed [] team.uuid.bytes.toList 36),
    [ServerLog.userUnsubscribed team.uuid userUuid]⟩

/-- `Business::handle_subscribed_teams`. -/
def handleSubscribedTeams (fd : Fd) (data : ServerData) : Outcome :=
  withSession data fd fun userUuid ↦
  let subscribed := data.teams.filter fun t ↦ isSubscribedTo t userUuid
  let payload := appendU32 [] (UInt32.ofNat subscribed.length)
  let payload := subscribed.foldl appendTeam payload
  Outcome.answer data .subscribedTeams payload

/-- `Business::handle_subscribed_users`. -/
def handleSubscribedUsers (fd : Fd) (teamUuid : Str) (data : ServerData) : Outcome :=
  withSession data fd fun userUuid ↦
  withUuid36 data teamUuid <|
  withTeam data teamUuid (appendFixed [] teamUuid 36) fun team ↦
  withSubscription data team userUuid <|
  let users := team.memberUuids.filterMap (findUserByUuid data)
  let payload := appendU32 [] (UInt32.ofNat users.length)
  let payload := users.foldl (appendUser data) payload
  Outcome.answer data .subscribedUsers payload

end MyTeams
