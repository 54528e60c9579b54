import MyTeams.Server.Answers

/-!
# Sizes of messages

The header of a message holds the payload size in 32 bits. Only a list can be longer than that, so
it is a matter of the request and of what is stored whether its answer has a header that can be read
(`ListsFit`, `Serves.length_lt`). Events are never that long.
-/

namespace MyTeams

/-- The request does not ask for a list of 2^32 bytes or more. -/
def ListsFit (fd : Fd) (payload : List UInt8) (data : ServerData) : Option Command → Prop
  | some .users => (layout (.res .usersList)).length data.users.length < 2 ^ 32
  | some .messages => ∀ user ∈ data.sessions[fd]?,
    (layout (.res .messagesList)).length
      (data.messages.filter (messageMatch user (Server.extractSv payload 0 36))).length < 2 ^ 32
  | some .subscribed =>
    (∀ user ∈ data.sessions[fd]?, (layout (.res .subscribedTeams)).length
      (data.teams.filter fun t ↦ isSubscribedTo t user).length < 2 ^ 32) ∧
    ∀ team ∈ findTeamByUuid data (Server.extractSv payload 1 36),
      (layout (.res .subscribedUsers)).length team.memberUuids.length < 2 ^ 32
  | some .list => ∀ ctx ∈ data.clientContexts[fd]?, ∀ m ∈ contextList data ctx,
    m.body.layout.length m.body.count < 2 ^ 32
  | _ => True

instance (fd : Fd) (payload : List UInt8) (data : ServerData) (cmd : Option Command) :
    Decidable (ListsFit fd payload data cmd) :=
  match cmd with
  | some .users => inferInstanceAs (Decidable (_ < _))
  | some .messages => inferInstanceAs (Decidable (∀ user ∈ data.sessions[fd]?, _ < _))
  | some .subscribed => inferInstanceAs (Decidable ((∀ user ∈ data.sessions[fd]?, _ < _) ∧
      ∀ team ∈ findTeamByUuid data (Server.extractSv payload 1 36), _ < _))
  | some .list => inferInstanceAs (Decidable (∀ ctx ∈ data.clientContexts[fd]?,
      ∀ m ∈ contextList data ctx, _ < _))
  | some .login | some .logout | some .user | some .send | some .subscribe | some .unsubscribe
  | some .use | some .create | some .info | none => instDecidableTrue

/-- What is no list is short. -/
theorem Body.length_lt {b : Body} (h : b.count = 0) : b.bytes.length < 2 ^ 32 := by
  rw [Body.length_bytes, h]
  cases b <;> simp [Body.layout, Layout.length]

theorem contextInfo_count {data : ServerData} {user : Str} {ctx : ClientContext} {m : Msg}
    (h : contextInfo data user ctx = some m) : m.body.count = 0 := by
  rw [contextInfo] at h
  split_ifs at h
  · rw [← Option.some.inj h, accountBody]
    split <;> rfl
  all_goals
    obtain ⟨x, -, rfl⟩ := Option.map_eq_some_iff.1 h
    rfl

theorem ErrorBody.count_eq_zero {e : Error} {b : Body} (h : ErrorBody e b) : b.count = 0 := by
  cases h <;> rfl

theorem logoutBody_count (data : ServerData) (uuid : Str) : (logoutBody data uuid).count = 0 := by
  rw [logoutBody]
  split <;> rfl

section Answers

variable {host : Host} {fd : Fd} {payload : List UInt8} {data : ServerData} {cmd : Option Command}
  {a : Answer}

/-- Events are no lists. -/
theorem Serves.count_event (h : Serves host fd payload data cmd a) :
    ∀ e ∈ a.events, e.1.body.count = 0 := by
  have hpresence {evt : Event} {online : Prop} [Decidable online] {body : Body} {fds : List Fd}
      (hbody : body.count = 0) : ∀ e ∈ presenceEvents evt online body fds, e.1.body.count = 0 := by
    intro e he
    rw [presenceEvents] at he
    split_ifs at he
    · cases he
    · rw [List.mem_singleton.1 he]
      exact hbody
  intro e he
  cases h with
  | loginKnown | loginNew => exact hpresence rfl e he
  | logout => exact hpresence (logoutBody_count _ _) e he
  | send =>
    dsimp only at he
    split_ifs at he
    · cases he
    · rw [List.mem_singleton.1 he]
      rfl
  | createTeam | createChannel | createThread | createReply =>
    rw [List.mem_singleton.1 he]
    rfl
  | _ => cases he

/-- **The header of every message can be read** unless the request asks for too long a list. -/
theorem Serves.length_lt (h : Serves host fd payload data cmd a)
    (hfit : ListsFit fd payload data cmd) : ∀ m ∈ a.msgs, m.body.bytes.length < 2 ^ 32 := by
  intro m hm
  rcases List.mem_cons.1 hm with rfl | hm
  · cases h with
    | users =>
      rw [Body.length_bytes]
      show Layout.length (List.length _) _ < _
      rw [List.length_map]
      exact hfit
    | messages hs =>
      rw [Body.length_bytes]
      show Layout.length (List.length _) _ < _
      rw [List.length_map]
      exact hfit _ hs
    | subscribedTeams hs =>
      rw [Body.length_bytes]
      show Layout.length (List.length _) _ < _
      rw [List.length_map]
      exact hfit.1 _ hs
    | @subscribedUsers user team hs hteam =>
      -- members that are no users are left out
      have hle := List.length_filterMap_le (findUserByUuid data) team.memberUuids
      have hshort := hfit.2 _ hteam
      rw [Body.length_bytes]
      show 4 + List.length _ * _ < _
      rw [List.length_map]
      exact Nat.lt_of_le_of_lt (Nat.add_le_add_left (Nat.mul_le_mul_right _ hle) 4) hshort
    | @list user ctx m hs hctx hlist =>
      show m.body.bytes.length < 2 ^ 32
      rw [Body.length_bytes]
      exact hfit _ hctx _ hlist
    | use _ _ _ hinfo => exact Body.length_lt (contextInfo_count hinfo)
    | info _ _ hinfo => exact Body.length_lt (contextInfo_count hinfo)
    | refused _ hb => exact Body.length_lt hb.count_eq_zero
    | logout => exact Body.length_lt (logoutBody_count _ _)
    | _ => exact Body.length_lt rfl
  · obtain ⟨e, he, rfl⟩ := List.mem_map.1 hm
    exact Body.length_lt (h.count_event e he)

end Answers

end MyTeams
