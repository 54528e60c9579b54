import MyTeams.Server.Audience

/-!
# The issuer's own copy of an event

The handlers compute the audience of an event as the rules of `doc/RFC.md`, section 11, have it, and
the connection whose request caused the event belongs to it: `handle_logout` even appends its
descriptor by hand. The delivery loop of `_send_result` then leaves that connection out. So a push
is delivered to its audience exactly when the issuer is not part of it, which is the case of a
private message to somebody else and of nothing else.
-/

namespace MyTeams

/-- **The audience of RFC section 11** for an event that a request on `c` caused. "All logged-in
clients" are those after a login, and those before a logout. -/
def Recipient (before after : ServerData) (c : Fd) (payload : List UInt8) (d : Fd) : Event → Prop
  | .messageReceived => before.sessions[d]? = some (payload.take 36)
  | .userLoggedIn => LoggedIn after d
  | .userLoggedOut | .teamCreated => LoggedIn before d
  | .channelCreated | .threadCreated | .replyCreated =>
    ∃ u ctx team, before.sessions[d]? = some u ∧ before.clientContexts[c]? = some ctx ∧
      ctx.team? before = some team ∧ u ∈ team.memberUuids

/-- The request is a private message to somebody else than its sender. -/
def ToAnother (cmd : Option Command) (fd : Fd) (payload : List UInt8) (data : ServerData) : Prop :=
  cmd = some .send ∧ data.sessions[fd]? ≠ some (payload.take 36)

/-- What an answer pushes: one event, to distinct descriptors that are its audience. -/
structure Pushes (cmd : Option Command) (fd : Fd) (payload : List UInt8) (data : ServerData)
    (a : Answer) (evt : Event) (b : Body) (fds : List Fd) : Prop where
  events : a.events = [(⟨.evt evt, b⟩, fds)]
  nodup : fds.Nodup
  audience : ∀ d, d ∈ fds ↔ Recipient data a.data fd payload d evt
  issuer : fd ∈ fds ↔ ¬ ToAnother cmd fd payload data

section Pushes

variable {host : Host} {fd : Fd} {payload : List UInt8} {data : ServerData} {a : Answer}

/-- An event that a request other than `CMD_SEND` causes has its issuer in the audience. -/
theorem pushes_of_issuer {cmd : Option Command} {evt : Event} {b : Body} {fds : List Fd}
    (hcmd : cmd ≠ some .send) (hevents : a.events = [(⟨.evt evt, b⟩, fds)]) (hnodup : fds.Nodup)
    (haudience : ∀ d, d ∈ fds ↔ Recipient data a.data fd payload d evt) (hissuer : fd ∈ fds) :
    Pushes cmd fd payload data a evt b fds where
  events := hevents
  nodup := hnodup
  audience := haudience
  issuer := iff_of_true hissuer fun h ↦ hcmd h.1

/-- The sessions before a logout are those after it, and the one that ended. -/
theorem mem_loggedFds_logoutData {user : Str} (hs : data.sessions[fd]? = some user) {d : Fd} :
    d ∈ loggedFds (logoutData data fd user) ++ [fd] ↔ LoggedIn data d := by
  rw [List.mem_append, List.mem_singleton, mem_loggedFds, logoutData, LoggedIn]
  rcases eq_or_ne d fd with rfl | hd
  · exact iff_of_true (.inr rfl) ⟨user, hs⟩
  · rw [or_iff_left hd, IntMap.get_erase_of_ne _ hd]

/-- **What the handlers push** goes to the audience, and that has the issuer in it unless the
request is a private message to somebody else. -/
theorem Serves.pushes {cmd : Option Command} (h : Serves host fd payload data cmd a) {m : Msg}
    {fds : List Fd} (he : (m, fds) ∈ a.events) :
    ∃ evt b, m = ⟨.evt evt, b⟩ ∧ Pushes cmd fd payload data a evt b fds := by
  have hlogin {users : List User} {user : User} {after : ServerData}
      (hafter : after = loginData data fd users user) : fd ∈ loggedFds after := by
    rw [mem_loggedFds, hafter, loginData]
    exact ⟨_, by rw [IntMap.get_insert_self]⟩
  have hmember {user : Str} {team : Team} (hs : data.sessions[fd]? = some user)
      (hsub : user ∈ team.memberUuids) : fd ∈ teamMemberFds data team :=
    mem_teamMemberFds.2 ⟨user, hs, hsub⟩
  cases h with
  | loginKnown hfind hafter | loginNew hfind huser hafter =>
    dsimp only [presenceEvents] at he
    split_ifs at he with hon
    · cases he
    · obtain ⟨rfl, rfl⟩ := Prod.mk.inj (List.mem_singleton.1 he)
      exact ⟨_, _, rfl, pushes_of_issuer (by simp) (if_neg hon) (nodup_loggedFds _)
        (fun d ↦ mem_loggedFds) (hlogin hafter)⟩
  | logout hs hafter =>
    subst hafter
    dsimp only [presenceEvents] at he
    split_ifs at he with hon
    · cases he
    · obtain ⟨rfl, rfl⟩ := Prod.mk.inj (List.mem_singleton.1 he)
      refine ⟨_, _, rfl, pushes_of_issuer (by simp) (if_neg hon) (nodup_loggedFds_concat ?_)
        (fun d ↦ mem_loggedFds_logoutData hs)
          (List.mem_append_right _ (List.mem_singleton_self fd))⟩
      rw [logoutData, IntMap.get_erase_self]
  | @send user receiverUuid receiver msg hs huuid hreceiver hmsg =>
    dsimp only at he
    split_ifs at he with hempty
    · cases he
    · obtain ⟨rfl, rfl⟩ := Prod.mk.inj (List.mem_singleton.1 he)
      have hfds (d : Fd) : d ∈ userFds data receiver.uuid.str ↔
          data.sessions[d]? = some (payload.take 36) := by
        rw [mem_userFds, extractSv_of_findUser (huuid ▸ hreceiver)]
      refine ⟨_, _, rfl, if_neg hempty, nodup_userFds _ _, hfds, ?_⟩
      rw [hfds, ToAnother, not_and, not_not, forall_prop_of_true rfl]
  | createTeam hs =>
    obtain ⟨rfl, rfl⟩ := Prod.mk.inj (List.mem_singleton.1 he)
    exact ⟨_, _, rfl, pushes_of_issuer (by simp) rfl (nodup_loggedFds _) (fun d ↦ mem_loggedFds)
      (mem_loggedFds.2 ⟨_, hs⟩)⟩
  | createChannel hs hctx _ _ hteam hsub | createThread hs hctx _ _ hteam hsub
  | createReply hs hctx _ _ hteam hsub =>
    obtain ⟨rfl, rfl⟩ := Prod.mk.inj (List.mem_singleton.1 he)
    exact ⟨_, _, rfl, pushes_of_issuer (by simp) rfl (nodup_teamMemberFds _ _)
      (fun d ↦ audience_team hctx hteam) (hmember hs hsub)⟩
  | _ => cases he

/-- The copies of an event among the messages for one connection: one for everybody in the audience
but the issuer. -/
theorem Pushes.count {cmd : Option Command} {evt : Event} {b : Body} {fds : List Fd}
    (h : Pushes cmd fd payload data a evt b fds) (hresponse : isPush a.msg.code.code = false)
    (d : Fd) :
    ((a.messagesTo fd d).map Msg.bytes).count (Msg.bytes ⟨.evt evt, b⟩) =
      if d ∈ fds ∧ d ≠ fd then 1 else 0 := by
  rcases eq_or_ne d fd with rfl | hd
  · rw [messagesTo_self, if_neg fun h ↦ h.2 rfl, List.map_singleton, List.count_eq_zero,
      List.mem_singleton]
    -- the response is no event, and the header tells
    intro heq
    have hcode := congrArg headerCode heq
    rw [headerCode_bytes, headerCode_bytes] at hcode
    rw [← hcode, (isPush_code _).2 ⟨evt, rfl⟩] at hresponse
    cases hresponse
  · rw [messagesTo_of_event hd h.events h.nodup]
    by_cases hmem : d ∈ fds
    · rw [if_pos hmem, if_pos ⟨hmem, hd⟩, List.map_singleton, List.count_singleton_self]
    · rw [if_neg hmem, if_neg fun h ↦ hmem h.1]
      rfl

end Pushes

namespace Server

variable {host : ℕ → Host} {s : Server} {fd : Fd} {cmd : UInt16} {payload : List UInt8}

/-- **A push honoured by the delivery**: its descriptors are the audience of the event, with the
issuer among them unless the request is a private message to somebody else; and the packet is queued
once to each of them that is connected, and to nobody else. -/
structure Honours (host : ℕ → Host) (s : Server) (fd : Fd) (cmd : UInt16) (payload : List UInt8)
    (push : Push) : Prop where
  audience : ∃ evt : Event, push.packet.code = evt.code ∧ ∀ d, d ∈ push.fds ↔
    Recipient s.data (perform host (.frame fd cmd payload) s).data fd payload d evt
  issuer : ¬ ToAnother (Command.ofCode? cmd) fd payload s.data → fd ∈ push.fds
  delivered : ∀ d,
    (newMessages d s (perform host (.frame fd cmd payload) s)).count push.packet.bytes =
      if d ∈ push.fds ∧ (perform host (.frame fd cmd payload) s).clients.contains d then 1 else 0

/-- **When the delivery honours the handler's audience.** In every reachable state, a push that the
handler of a frame returns is delivered to exactly its audience if and only if the request is a
private message to somebody else: in all other cases the issuer belongs to the audience and gets no
copy. -/
theorem honours_iff (h : Reachable host s) (ha : s.Enabled (.frame fd cmd payload)) {push : Push}
    (hpush : push ∈ (frameOutcome (host s.served) fd cmd payload s.data).result.pushes) :
    Honours host s fd cmd payload push ↔ ToAnother (Command.ofCode? cmd) fd payload s.data := by
  obtain ⟨c, rest, hc, -⟩ := ha
  have hmem : s.clients.contains fd = true := (IntMap.contains_iff _).2 ⟨c, hc⟩
  obtain ⟨answer, hserves, hafter, hresult⟩ := exists_serves_frame host h.sessionsWf fd cmd payload
  rw [hresult] at hpush
  obtain ⟨⟨m, fds⟩, hevent, rfl⟩ := List.mem_map.1 hpush
  obtain ⟨evt, b, rfl, hpushes⟩ := hserves.pushes hevent
  have hcount (d : Fd) : (newMessages d s (perform host (.frame fd cmd payload) s)).count
      (Msg.bytes ⟨.evt evt, b⟩) = if s.clients.contains d ∧ d ∈ fds ∧ d ≠ fd then 1 else 0 := by
    rw [newMessages_of_append (queuedOn_frame hmem hresult d)]
    by_cases hd : s.clients.contains d = true
    · rw [if_pos hd, hpushes.count hserves.not_push]
      exact if_congr (and_iff_right hd).symm rfl rfl
    · rw [if_neg hd, if_neg fun h ↦ hd h.1]
      rfl
  constructor
  · intro hhonours
    by_contra hself
    -- the issuer is in the audience, and the loop passes it over
    have hfd : fd ∈ fds := hpushes.issuer.2 hself
    have hone := hhonours.delivered fd
    rw [if_pos ⟨hfd, (contains_frame hmem _ _ fd).trans hmem⟩] at hone
    have hzero := hcount fd
    rw [if_neg fun h ↦ h.2.2 rfl] at hzero
    cases hone.symm.trans hzero
  · intro hanother
    refine ⟨⟨evt, rfl, fun d ↦ hafter ▸ hpushes.audience d⟩, fun h ↦ absurd hanother h, fun d ↦ ?_⟩
    refine (hcount d).trans (if_congr ?_ rfl rfl)
    rw [contains_frame hmem]
    constructor
    · exact fun h ↦ ⟨h.2.1, h.1⟩
    · rintro ⟨hd, hclient⟩
      refine ⟨hclient, hd, ?_⟩
      rintro rfl
      exact hpushes.issuer.1 hd hanother

/-- Two users, and a private message from the first to the second that has arrived in full. -/
def aboutToTell : List Action :=
  .accept 4 :: request 4 .login [97] ++ .accept 5 :: request 5 .login [98] ++
    [.receive 4 (makeMessage Command.send.code (plainUuid 1).str)]

/-- The message goes to the session of the second user. -/
theorem honours_aboutToTell :
    Honours plainHost (execute plainHost aboutToTell Server.init) 4 Command.send.code
      (plainUuid 1).str
      (Push.event .messageReceived ((plainUuid 0).str ++ List.replicate 512 0) [5]) := by
  have hsession : (execute plainHost aboutToTell Server.init).data.sessions[(4 : Fd)]? =
      some (plainUuid 0).str := by decide +kernel
  refine (honours_iff (reachable_execute (by decide +kernel)) (by decide +kernel)
    (by decide +kernel)).2 ⟨Command.ofCode?_code _, ?_⟩
  rw [hsession]
  decide +kernel

/-- The first user of all logs in: the push of the handler names his connection, which gets the
response only. -/
theorem not_honours_login :
    ¬ ∀ (s : Server) (fd : Fd) (cmd : UInt16) (payload : List UInt8) (push : Push),
      Reachable plainHost s → s.Enabled (.frame fd cmd payload) →
      push ∈ (frameOutcome (plainHost s.served) fd cmd payload s.data).result.pushes →
      Honours plainHost s fd cmd payload push := by
  intro hlaw
  let s := execute plainHost [.accept 4, .receive 4 (makeMessage Command.login.code [97])]
    Server.init
  let push := Push.event .userLoggedIn ((plainUuid 0).str ++ (setFixedName [97]).toList) [4]
  have hcount : (newMessages 4 s (perform plainHost (.frame 4 Command.login.code [97]) s)).count
      push.packet.bytes = 0 := by decide +kernel
  have hclient : (perform plainHost (.frame 4 Command.login.code [97]) s).clients.contains 4 =
      true := by decide +kernel
  have hone := (hlaw s 4 Command.login.code [97] push (reachable_execute (by decide +kernel))
    (by decide +kernel) (by decide +kernel)).delivered 4
  rw [hcount, if_pos ⟨List.mem_singleton_self _, hclient⟩] at hone
  cases hone

end Server

end MyTeams
