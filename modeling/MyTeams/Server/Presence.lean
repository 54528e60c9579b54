import MyTeams.Server.Audience

/-!
# Presence

The two presence events are meant to tell every other logged-in connection when a user comes online
or goes offline: `PresenceLaw` says that a step makes exactly the announcements its transitions call
for. A session can end in three ways. A logout and a lost connection announce it; a second login on
the same connection overwrites the session of the first user without a word. `Announced` is the
condition that this does not happen unnoticed, and `presence_law_iff` shows that a step obeys the
law exactly when it meets the condition, and that an observer who counts events along such steps
always knows who is online.
-/

namespace MyTeams

open ByteField

/-! ### Counting events -/

/-- The uuid at the front of a payload. -/
def frontUuid (m : List UInt8) : Str := (m.drop headerSize).take 36

/-- How many of the messages are the event `evt` of the user `u`. -/
def eventCount (evt : Event) (u : Str) (ms : List (List UInt8)) : ℕ :=
  ms.countP fun m ↦ headerCode m == evt.code && frontUuid m == u

@[simp] theorem eventCount_nil (evt : Event) (u : Str) : eventCount evt u [] = 0 := rfl

@[simp] theorem eventCount_append (evt : Event) (u : Str) (ms ms' : List (List UInt8)) :
    eventCount evt u (ms ++ ms') = eventCount evt u ms + eventCount evt u ms' :=
  List.countP_append

/-- The messages hold one copy of the event if `P`, and none otherwise. -/
structure Copies (evt : Event) (u : Str) (ms : List (List UInt8)) (P : Prop) : Prop where
  one : P → eventCount evt u ms = 1
  zero : ¬ P → eventCount evt u ms = 0

theorem Copies.congr {evt : Event} {u : Str} {ms : List (List UInt8)} {P Q : Prop}
    (h : Copies evt u ms P) (hiff : P ↔ Q) : Copies evt u ms Q :=
  ⟨fun hQ ↦ h.one (hiff.2 hQ), fun hQ ↦ h.zero fun hP ↦ hQ (hiff.1 hP)⟩

theorem copies_false_iff {evt : Event} {u : Str} {ms : List (List UInt8)} :
    Copies evt u ms False ↔ eventCount evt u ms = 0 :=
  ⟨fun h ↦ h.zero id, fun h ↦ ⟨False.elim, fun _ ↦ h⟩⟩

/-- Where nothing is announced, nothing may have to be announced. -/
theorem copies_iff_not {evt : Event} {u : Str} {ms : List (List UInt8)} {P : Prop}
    (h : Copies evt u ms False) : Copies evt u ms P ↔ ¬ P := by
  have hzero := copies_false_iff.1 h
  refine ⟨fun hcopies hP ↦ ?_, fun hP ↦ ⟨fun h ↦ absurd h hP, fun _ ↦ hzero⟩⟩
  rw [hcopies.one hP] at hzero
  cases hzero

/-- A message with another code is no copy. -/
theorem copies_of_code_ne {evt : Event} {u : Str} {l : List Msg}
    (h : ∀ m ∈ l, m.code ≠ .evt evt) : Copies evt u (l.map Msg.bytes) False := by
  refine copies_false_iff.2 (List.countP_eq_zero.2 fun b hb ↦ ?_)
  obtain ⟨m, hm, rfl⟩ := List.mem_map.1 hb
  rw [headerCode_bytes, Bool.and_eq_true, beq_iff_eq]
  exact fun heq ↦ h m hm (ServerCode.code_injective heq.1)

theorem frontUuid_account (code : ServerCode) (uuid : Bytes 36) (name : Bytes 32) :
    frontUuid (Msg.bytes ⟨code, .account uuid name⟩) = uuid.toList := by
  have hdrop : (Msg.bytes ⟨code, .account uuid name⟩).drop headerSize =
      uuid.toList ++ name.toList := by
    show (makeMessage code.code _).drop headerSize = _
    rw [makeMessage, List.drop_left' (by simp [headerSize])]
    rfl
  rw [frontUuid, hdrop, List.take_left' uuid.toList_length]

/-- One presence event, sent or not: it is one copy for the user it is about. -/
theorem copies_account {evt : Event} {u : Str} {uuid : Bytes 36} {name : Bytes 32} {P : Prop}
    [Decidable P] :
    Copies evt u ((if P then [(⟨.evt evt, .account uuid name⟩ : Msg)] else []).map Msg.bytes)
      (P ∧ uuid.toList = u) := by
  have hcount (h : P) : eventCount evt u
      ((if P then [(⟨.evt evt, .account uuid name⟩ : Msg)] else []).map Msg.bytes) =
        if uuid.toList = u then 1 else 0 := by
    rw [if_pos h, List.map_singleton, eventCount, List.countP_singleton, headerCode_bytes,
      frontUuid_account]
    simp [ServerCode.code]
  refine ⟨fun h ↦ by rw [hcount h.1, if_pos h.2], fun h ↦ ?_⟩
  rcases Classical.em P with hP | hP
  · rw [hcount hP, if_neg fun hu ↦ h ⟨hP, hu⟩]
  · rw [if_neg hP]
    rfl

/-! ### The law -/

/-- **The law of presence** for a step about the connection `fd`: whoever comes online, or goes
offline, is announced once to every other connection that is logged in afterwards; and nothing else
is. -/
def PresenceLaw (before after : ServerData) (fd : Fd) (queued : Fd → List (List UInt8)) : Prop :=
  ∀ (u : Str) (d : Fd),
    Copies .userLoggedIn u (queued d)
        ((d ≠ fd ∧ LoggedIn after d) ∧ ¬ Online before u ∧ Online after u) ∧
      Copies .userLoggedOut u (queued d)
        ((d ≠ fd ∧ LoggedIn after d) ∧ Online before u ∧ ¬ Online after u)

/-- The uuid of the user whom a `CMD_LOGIN` with this payload logs in. -/
def loginUuid (env : Host) (data : ServerData) (payload : List UInt8) : Str :=
  match findUserByName data (trimPaddedName payload) with
  | some user => user.uuid.str
  | none => env.newUuid.str

/-- A user with no session but the one of `fd`. -/
def OnlySession (data : ServerData) (fd : Fd) (u : Str) : Prop :=
  data.sessions[fd]? = some u ∧ ∀ d, d ≠ fd → data.sessions[d]? ≠ some u

/-- A login on `fd` takes the place of the only session of another user, and somebody is there to
miss the announcement. -/
def Overwrites (env : Host) (fd : Fd) (payload : List UInt8) (data : ServerData) : Prop :=
  (∃ u, OnlySession data fd u ∧ loginUuid env data payload ≠ u) ∧ ∃ d, d ≠ fd ∧ LoggedIn data d

/-! ### What a frame announces -/

/-- How an answer affects sessions, with what it announces. -/
inductive Announcement (env : Host) (fd : Fd) (payload : List UInt8) (data : ServerData) :
    Option Command → Answer → Prop
  | login {user : User} {users : List User} {a : Answer}
    (huser : user.uuid.str = loginUuid env data payload)
    (hdata : a.data = loginData data fd users user)
    (hevents : a.events = presenceEvents .userLoggedIn (isUserOnline data user)
      (.account user.uuid.bytes user.name) (loggedFds a.data)) :
    Announcement env fd payload data (some .login) a
  | logout {u : Str} {a : Answer} (hs : data.sessions[fd]? = some u)
    (hdata : a.data = logoutData data fd u)
    (hevents : a.events = presenceEvents .userLoggedOut
      (a.data.sessions.toList.any fun kv ↦ kv.2 == u) (logoutBody data u)
      (loggedFds a.data ++ [fd])) :
    Announcement env fd payload data (some .logout) a
  | other {cmd : Option Command} {a : Answer} (hcmd : cmd ≠ some .login)
    (hdata : a.data.sessions = data.sessions)
    (hevents : ∀ e ∈ a.events, e.1.code ≠ .evt .userLoggedIn ∧ e.1.code ≠ .evt .userLoggedOut) :
    Announcement env fd payload data cmd a

theorem Serves.announcement {env : Host} {fd : Fd} {payload : List UInt8} {data : ServerData}
    {cmd : Option Command} {a : Answer} (h : Serves env fd payload data cmd a) :
    Announcement env fd payload data cmd a := by
  have hsilent {cmd : Option Command} {a : Answer} (hcmd : cmd ≠ some .login)
      (hdata : a.data.sessions = data.sessions) (hevents : a.events = []) :
      Announcement env fd payload data cmd a :=
    .other hcmd hdata fun e he ↦ by rw [hevents] at he; cases he
  have hone {cmd : Option Command} {a : Answer} {e : Msg × List Fd} (hcmd : cmd ≠ some .login)
      (hdata : a.data.sessions = data.sessions) (hevents : a.events = [e])
      (hcode : e.1.code ≠ .evt .userLoggedIn ∧ e.1.code ≠ .evt .userLoggedOut) :
      Announcement env fd payload data cmd a := by
    refine .other hcmd hdata fun e' he ↦ ?_
    rw [hevents] at he
    rwa [List.mem_singleton.1 he]
  cases h with
  | loginKnown hfind hafter =>
    refine .login ?_ hafter rfl
    rw [loginUuid, trimPaddedName, hfind]
  | loginNew hfind huser hafter =>
    refine .login ?_ hafter rfl
    rw [loginUuid, trimPaddedName, hfind, huser]
    rfl
  | logout hs hafter => exact .logout hs hafter rfl
  | unauthorized hs hcmd => exact hsilent hcmd rfl rfl
  | refused hs hb hquery => exact hsilent (by simpa using hquery.1) rfl rfl
  | dangling hs hcmd =>
    refine hsilent ?_ rfl rfl
    rintro h
    obtain rfl := Option.some.inj h
    simp at hcmd
  | @send user receiverUuid receiver msg hs =>
    cases hempty : (userFds data receiver.uuid.str).isEmpty with
    | true => exact hsilent (by simp) rfl rfl
    | false => exact hone (by simp) rfl rfl (by simp)
  | createTeam => exact hone (by simp) rfl rfl (by simp)
  | createChannel => exact hone (by simp) rfl rfl (by simp)
  | createThread => exact hone (by simp) rfl rfl (by simp)
  | createReply => exact hone (by simp) rfl rfl (by simp)
  | _ => exact hsilent (by simp) rfl rfl

section Counts

variable {env : Host} {fd : Fd} {payload : List UInt8} {data : ServerData} {a : Answer}

theorem messagesTo_presence {evt : Event} {online : Prop} [Decidable online] {b : Body}
    {fds : List Fd} {d : Fd} (hd : d ≠ fd) (h : a.events = presenceEvents evt online b fds)
    (hfds : fds.Nodup) :
    a.messagesTo fd d = if ¬ online ∧ d ∈ fds then [⟨.evt evt, b⟩] else [] := by
  rw [presenceEvents] at h
  split_ifs at h with hon
  · rw [messagesTo_of_no_event hd h, if_neg fun hboth ↦ hboth.1 hon]
  · rw [messagesTo_of_event hd h hfds]
    simp only [hon, not_false_eq_true, true_and]

theorem Copies.guard {evt : Event} {u : Str} {ms : List (List UInt8)} {P C : Prop} [Decidable C]
    (h : Copies evt u ms P) (hC : P → C) : Copies evt u (if C then ms else []) P := by
  refine ⟨fun hP ↦ ?_, fun hP ↦ ?_⟩
  · rw [if_pos (hC hP)]
    exact h.one hP
  · split_ifs
    · exact h.zero hP
    · rfl

/-- A message that is no event is no copy. -/
theorem copies_self (evt : Event) (u : Str) (h : isPush a.msg.code.code = false) :
    Copies evt u ((a.messagesTo fd fd).map Msg.bytes) False := by
  rw [messagesTo_self]
  refine copies_of_code_ne fun m hm hcode ↦ ?_
  rw [List.mem_singleton.1 hm] at hcode
  rw [Bool.eq_false_iff] at h
  exact h ((isPush_code a.msg.code).2 ⟨evt, hcode⟩)

variable (fd) in
/-- The copies of a presence event among the messages for `d`. -/
theorem copies_presence {evt : Event} {online : Prop} [Decidable online] {uuid : Bytes 36}
    {name : Bytes 32} {fds : List Fd} (hpush : isPush a.msg.code.code = false)
    (h : a.events = presenceEvents evt online (.account uuid name) fds) (hfds : fds.Nodup) (u : Str)
    (d : Fd) :
    Copies evt u ((a.messagesTo fd d).map Msg.bytes)
      (d ≠ fd ∧ (¬ online ∧ d ∈ fds) ∧ uuid.toList = u) := by
  rcases eq_or_ne d fd with rfl | hd
  · exact (copies_self evt u hpush).congr (by simp)
  · rw [messagesTo_presence hd h hfds]
    exact copies_account.congr (and_iff_right hd).symm

variable (fd) in
/-- Neither presence event is the other. -/
theorem copies_presence_ne {evt : Event} (evt' : Event) (hne : evt ≠ evt') {online : Prop}
    [Decidable online] {b : Body} {fds : List Fd} (hpush : isPush a.msg.code.code = false)
    (h : a.events = presenceEvents evt online b fds) (hfds : fds.Nodup) (u : Str) (d : Fd) :
    Copies evt' u ((a.messagesTo fd d).map Msg.bytes) False := by
  rcases eq_or_ne d fd with rfl | hd
  · exact copies_self evt' u hpush
  · rw [messagesTo_presence hd h hfds]
    refine copies_of_code_ne fun m hm hcode ↦ ?_
    split_ifs at hm
    · rw [List.mem_singleton.1 hm] at hcode
      exact hne (ServerCode.evt.inj hcode)
    · cases hm

variable (fd) in
theorem copies_of_events {evt : Event} (hpush : isPush a.msg.code.code = false)
    (h : ∀ e ∈ a.events, e.1.code ≠ .evt evt) (u : Str) (d : Fd) :
    Copies evt u ((a.messagesTo fd d).map Msg.bytes) False := by
  rcases eq_or_ne d fd with rfl | hd
  · exact copies_self evt u hpush
  · refine copies_of_code_ne fun m hm ↦ ?_
    rw [Answer.messagesTo, if_neg hd] at hm
    obtain ⟨e, he, hme⟩ := List.mem_flatMap.1 hm
    rw [List.eq_of_mem_replicate hme]
    exact h e he

/-! ### Who is online afterwards -/

theorem online_loginData {users : List User} {user : User} {u : Str} :
    Online (loginData data fd users user) u ↔
      u = user.uuid.str ∨ ∃ d, d ≠ fd ∧ data.sessions[d]? = some u := by
  simp only [Online, loginData, IntMap.get_insert_eq_some_iff, exists_or, exists_eq_left]
  rw [eq_comm]

theorem online_logoutData {user u : Str} :
    Online (logoutData data fd user) u ↔ ∃ d, d ≠ fd ∧ data.sessions[d]? = some u := by
  simp only [Online, logoutData, IntMap.get_erase_eq_some_iff]

/-- Who goes offline when `fd` changes hands had no other session. -/
theorem online_and_not_iff {u : Str} :
    (Online data u ∧ ¬ ∃ d, d ≠ fd ∧ data.sessions[d]? = some u) ↔ OnlySession data fd u := by
  constructor
  · rintro ⟨⟨d, hd⟩, hno⟩
    rcases eq_or_ne d fd with rfl | hne
    · exact ⟨hd, fun d' hd' h ↦ hno ⟨d', hd', h⟩⟩
    · exact absurd ⟨d, hne, hd⟩ hno
  · rintro ⟨hfd, hno⟩
    exact ⟨⟨fd, hfd⟩, fun ⟨d, hd, h⟩ ↦ hno d hd h⟩

/-! ### The law for an answer -/

variable {C : Fd → Prop} [DecidablePred C]

/-- A login obeys the law unless it takes the place of another user's only session. -/
theorem presenceLaw_login {user : User} {users : List User}
    (hpush : isPush a.msg.code.code = false) (huser : user.uuid.str = loginUuid env data payload)
    (hdata : a.data = loginData data fd users user)
    (hevents : a.events = presenceEvents .userLoggedIn (isUserOnline data user)
      (.account user.uuid.bytes user.name) (loggedFds a.data))
    (hC : ∀ d, d ≠ fd → LoggedIn a.data d → C d) :
    PresenceLaw data a.data fd (fun d ↦ if C d then (a.messagesTo fd d).map Msg.bytes else []) ↔
      ¬ Overwrites env fd payload data := by
  have hnodup := nodup_loggedFds a.data
  have hafter (u : Str) : Online a.data u ↔
      u = user.uuid.str ∨ ∃ d, d ≠ fd ∧ data.sessions[d]? = some u := by
    rw [hdata, online_loginData]
  have hothers (d : Fd) (hd : d ≠ fd) : LoggedIn a.data d ↔ LoggedIn data d := by
    have hget : a.data.sessions[d]? = data.sessions[d]? := by
      rw [hdata]
      exact IntMap.get_insert_of_ne _ hd _
    rw [LoggedIn, LoggedIn, hget]
  -- the login is announced as it should be
  have hin (u : Str) (d : Fd) :
      Copies .userLoggedIn u (if C d then (a.messagesTo fd d).map Msg.bytes else [])
        ((d ≠ fd ∧ LoggedIn a.data d) ∧ ¬ Online data u ∧ Online a.data u) := by
    have hcopies := copies_presence fd hpush hevents hnodup u d
    refine (hcopies.guard fun h ↦ hC d h.1 (mem_loggedFds.1 h.2.1.2)).congr ?_
    rw [isUserOnline_iff, mem_loggedFds, hafter]
    constructor
    · rintro ⟨hd, ⟨hoff, hlogged⟩, rfl⟩
      exact ⟨⟨hd, hlogged⟩, hoff, .inl rfl⟩
    · rintro ⟨⟨hd, hlogged⟩, hoff, rfl | ⟨d', -, hd'⟩⟩
      · exact ⟨hd, ⟨hoff, hlogged⟩, rfl⟩
      · exact absurd ⟨d', hd'⟩ hoff
  -- no departure is ever announced, so there must be none
  have hout (u : Str) (d : Fd) :
      Copies .userLoggedOut u (if C d then (a.messagesTo fd d).map Msg.bytes else [])
          ((d ≠ fd ∧ LoggedIn a.data d) ∧ Online data u ∧ ¬ Online a.data u) ↔
        ¬ ((d ≠ fd ∧ LoggedIn data d) ∧ OnlySession data fd u ∧
          loginUuid env data payload ≠ u) := by
    have hcopies := copies_presence_ne fd .userLoggedOut (by decide) hpush hevents hnodup u d
    rw [copies_iff_not (hcopies.guard False.elim), and_congr_right (hothers d), ← huser, hafter,
      not_or, and_comm (a := ¬ u = _), ← and_assoc (a := Online data u), online_and_not_iff,
      ne_comm (a := user.uuid.str)]
  constructor
  · rintro hlaw ⟨⟨u, honly, hne⟩, d, hd, hlogged⟩
    exact (hout u d).1 (hlaw u d).2 ⟨⟨hd, hlogged⟩, honly, hne⟩
  · intro hno u d
    refine ⟨hin u d, (hout u d).2 ?_⟩
    rintro ⟨⟨hd, hlogged⟩, honly, hne⟩
    exact hno ⟨⟨u, honly, hne⟩, d, hd, hlogged⟩

/-- A logout obeys the law. -/
theorem presenceLaw_logout {user : Str} (hwf : SessionsWf data)
    (hpush : isPush a.msg.code.code = false) (hs : data.sessions[fd]? = some user)
    (hdata : a.data = logoutData data fd user)
    (hevents : a.events = presenceEvents .userLoggedOut
      (a.data.sessions.toList.any fun kv ↦ kv.2 == user) (logoutBody data user)
      (loggedFds a.data ++ [fd]))
    (hC : ∀ d, d ≠ fd → LoggedIn a.data d → C d) :
    PresenceLaw data a.data fd
      (fun d ↦ if C d then (a.messagesTo fd d).map Msg.bytes else []) := by
  have hafter (u : Str) : Online a.data u ↔ ∃ d, d ≠ fd ∧ data.sessions[d]? = some u := by
    rw [hdata, online_logoutData]
  have hgone : a.data.sessions[fd]? = none := by
    rw [hdata, logoutData, IntMap.get_erase_self]
  have hnodup : (loggedFds a.data ++ [fd]).Nodup := nodup_loggedFds_concat hgone
  obtain ⟨name, hbody⟩ : ∃ name, logoutBody data user = .account (fill 36 user) name := by
    rw [logoutBody]
    split <;> exact ⟨_, rfl⟩
  rw [hbody] at hevents
  refine fun u d ↦ ⟨?_, ?_⟩
  · have hcopies := copies_presence_ne fd .userLoggedIn (by decide) hpush hevents hnodup u d
    refine (hcopies.guard False.elim).congr (iff_of_false id ?_)
    rintro ⟨-, hoff, hon⟩
    obtain ⟨d', -, hd'⟩ := (hafter u).1 hon
    exact hoff ⟨d', hd'⟩
  · have hcopies := copies_presence fd hpush hevents hnodup u d
    have hlogged : d ≠ fd → (d ∈ loggedFds a.data ++ [fd] ↔ LoggedIn a.data d) := fun hd ↦ by
      rw [List.mem_append, List.mem_singleton, or_iff_left hd, mem_loggedFds, LoggedIn]
    refine (hcopies.guard fun h ↦ hC d h.1 ((hlogged h.1).1 h.2.1.2)).congr ?_
    rw [toList_fill_of_length (hwf fd user hs), any_sessions_iff]
    constructor
    · rintro ⟨hd, ⟨hoff, hmem⟩, rfl⟩
      exact ⟨⟨hd, (hlogged hd).1 hmem⟩, ⟨fd, hs⟩, hoff⟩
    · rintro ⟨⟨hd, hmem⟩, hon, hoff⟩
      have honly : OnlySession data fd u := online_and_not_iff.1 ⟨hon, (hafter u).not.1 hoff⟩
      obtain rfl := Option.some.inj (hs.symm.trans honly.1)
      exact ⟨hd, ⟨hoff, (hlogged hd).2 hmem⟩, rfl⟩

/-- Where the sessions stay, nothing is announced. -/
theorem presenceLaw_other (hpush : isPush a.msg.code.code = false)
    (hdata : a.data.sessions = data.sessions)
    (hevents : ∀ e ∈ a.events, e.1.code ≠ .evt .userLoggedIn ∧ e.1.code ≠ .evt .userLoggedOut) :
    PresenceLaw data a.data fd
      (fun d ↦ if C d then (a.messagesTo fd d).map Msg.bytes else []) := by
  have hsame (u : Str) : Online a.data u ↔ Online data u := by rw [Online, Online, hdata]
  refine fun u d ↦ ⟨?_, ?_⟩
  · have hcopies := copies_of_events fd hpush (fun e he ↦ (hevents e he).1) u d
    refine (hcopies.guard False.elim).congr (iff_of_false id ?_)
    rintro ⟨-, hoff, hon⟩
    exact hoff ((hsame u).1 hon)
  · have hcopies := copies_of_events fd hpush (fun e he ↦ (hevents e he).2) u d
    refine (hcopies.guard False.elim).congr (iff_of_false id ?_)
    rintro ⟨-, hon, hoff⟩
    exact hoff ((hsame u).2 hon)

/-- **Law of presence for an answer**: it is broken exactly by a login that takes the place of
another user's only session, with somebody there to miss it. -/
theorem Serves.presenceLaw_iff {cmd : Option Command} (h : Serves env fd payload data cmd a)
    (hwf : SessionsWf data) (hC : ∀ d, d ≠ fd → LoggedIn a.data d → C d) :
    PresenceLaw data a.data fd (fun d ↦ if C d then (a.messagesTo fd d).map Msg.bytes else []) ↔
      ¬ (cmd = some .login ∧ Overwrites env fd payload data) := by
  have hpush := h.not_push
  cases h.announcement with
  | login huser hdata hevents =>
    rw [presenceLaw_login hpush huser hdata hevents hC, and_iff_right rfl]
  | logout hs hdata hevents =>
    exact iff_of_true (presenceLaw_logout hwf hpush hs hdata hevents hC) fun h ↦ by cases h.1
  | other hcmd hdata hevents =>
    exact iff_of_true (presenceLaw_other hpush hdata hevents) fun h ↦ hcmd h.1

end Counts

namespace Server

variable {host : ℕ → Host} {s : Server}

/-! ### The law for a step -/

/-- The step condition: the action is no login that takes the place of another user's only session
while somebody is there to miss it. -/
def Announced (host : ℕ → Host) (s : Server) (a : Action) : Prop :=
  ¬ (a.request.1 = some .login ∧ Overwrites (host s.served) a.fd a.request.2 s.data)

/-- The law of presence, for one action. -/
def KeepsPresence (host : ℕ → Host) (s : Server) (a : Action) : Prop :=
  PresenceLaw s.data (perform host a s).data a.fd fun d ↦ newMessages d s (perform host a s)

/-- **One step** obeys the law exactly when it meets the condition. -/
theorem Reachable.keepsPresence_iff (h : Reachable host s) {a : Action} (ha : s.Enabled a) :
    KeepsPresence host s a ↔ Announced host s a := by
  obtain ⟨answer, hserves, hdata, hnew⟩ | ⟨hnone, hdata, hnew⟩ :=
    answer_perform host h.sessionsWf ha
  · rw [KeepsPresence, funext hnew, hdata]
    -- a session belongs to a client
    refine hserves.presenceLaw_iff h.sessionsWf fun d _ hlogged ↦ ?_
    rw [← hdata] at hlogged
    exact (h.step ha).registry.client d ((IntMap.contains_iff _).2 hlogged)
  · refine iff_of_true (fun u d ↦ ?_) fun h ↦ by rw [hnone] at h; cases h.1
    dsimp only
    rw [hnew, hdata]
    exact ⟨(copies_false_iff.2 rfl).congr (iff_of_false id fun h ↦ h.2.1 h.2.2),
      (copies_false_iff.2 rfl).congr (iff_of_false id fun h ↦ h.2.2 h.2.1)⟩

/-! ### The observer -/

variable (host) in
/-- A step that meets the condition, and neither starts nor ends a session on `d`. -/
def WatchedStep (d : Fd) (s s' : Server) : Prop :=
  ∃ a, s.Enabled a ∧ Announced host s a ∧
    (a.fd = d → a.request.1 ≠ some .login ∧ a.request.1 ≠ some .logout) ∧ s' = perform host a s

open Classical in
/-- One if the user is online, none otherwise. -/
noncomputable def presence (data : ServerData) (u : Str) : ℕ := if Online data u then 1 else 0

/-- **One step of an observer**: the events it gets make up for the change. -/
theorem Reachable.presence_step (h : Reachable host s) {a : Action} (ha : s.Enabled a)
    (hok : Announced host s a) {d : Fd}
    (hd : a.fd = d → a.request.1 ≠ some .login ∧ a.request.1 ≠ some .logout)
    (hlogged : LoggedIn s.data d) (u : Str) :
    LoggedIn (perform host a s).data d ∧
      presence (perform host a s).data u +
          eventCount .userLoggedOut u (newMessages d s (perform host a s)) =
        presence s.data u + eventCount .userLoggedIn u (newMessages d s (perform host a s)) := by
  obtain ⟨hin, hout⟩ := (h.keepsPresence_iff ha).2 hok u d
  rcases eq_or_ne d a.fd with rfl | hne
  · obtain ⟨hlogin, hlogout⟩ := hd rfl
    have hsame : (perform host a s).data.sessions = s.data.sessions :=
      sessions_of_request (change_perform h.sessionsWf a) hlogin hlogout
    rw [hin.zero fun h ↦ h.1.1 rfl, hout.zero fun h ↦ h.1.1 rfl, presence, presence, Online, Online,
      LoggedIn, hsame]
    exact ⟨hlogged, rfl⟩
  · have hafter : LoggedIn (perform host a s).data d :=
      (loggedIn_perform h.sessionsWf hne).2 hlogged
    refine ⟨hafter, ?_⟩
    rw [presence, presence]
    by_cases hb : Online s.data u <;> by_cases ha : Online (perform host a s).data u
    · rw [hin.zero fun h ↦ h.2.1 hb, hout.zero fun h ↦ h.2.2 ha, if_pos ha, if_pos hb]
    · rw [hin.zero fun h ↦ h.2.1 hb, hout.one ⟨⟨hne, hafter⟩, hb, ha⟩, if_neg ha, if_pos hb]
    · rw [hin.one ⟨⟨hne, hafter⟩, hb, ha⟩, hout.zero fun h ↦ h.2.2 ha, if_pos ha, if_neg hb]
    · rw [hin.zero fun h ↦ ha h.2.2, hout.zero fun h ↦ hb h.2.1, if_neg ha, if_neg hb]

/-- **Along a run**: an observer that stays logged in and counts the two presence events of `u`
knows whether `u` is online. -/
theorem presence_of_watched {s₀ : Server} (h₀ : Reachable host s₀) {d : Fd}
    (hlogged : LoggedIn s₀.data d) (h : Relation.ReflTransGen (WatchedStep host d) s₀ s) (u : Str) :
    Reachable host s ∧ LoggedIn s.data d ∧ queuedOn d s₀.trace <+: queuedOn d s.trace ∧
      presence s.data u + eventCount .userLoggedOut u (newMessages d s₀ s) =
        presence s₀.data u + eventCount .userLoggedIn u (newMessages d s₀ s) := by
  induction h with
  | refl =>
    refine ⟨h₀, hlogged, List.prefix_rfl, ?_⟩
    rw [newMessages_of_append (List.append_nil _).symm]
    rfl
  | @tail s s' _ hstep ih =>
    obtain ⟨hreachable, hlogged, hprefix, hcount⟩ := ih
    obtain ⟨a, ha, hok, hd, rfl⟩ := hstep
    obtain ⟨hafter, hstep⟩ := hreachable.presence_step ha hok hd hlogged u
    obtain ⟨hprefix', hnew⟩ := newMessages_perform host d s₀ a hprefix
    refine ⟨hreachable.step ha, hafter, hprefix', ?_⟩
    rw [hnew, eventCount_append, eventCount_append]
    omega

/-- **Presence.** A step of any run obeys the law of presence if and only if it is no login that
takes the place of another user's only session with somebody there to miss it; and along such steps
an observer that stays logged in knows from the events it counts who is online. -/
theorem presence_law_iff (host : ℕ → Host) :
    (∀ s a, Reachable host s → s.Enabled a → (KeepsPresence host s a ↔ Announced host s a)) ∧
      ∀ s₀ s d, Reachable host s₀ → LoggedIn s₀.data d →
        Relation.ReflTransGen (WatchedStep host d) s₀ s →
        LoggedIn s.data d ∧ ∀ u,
          presence s.data u + eventCount .userLoggedOut u (newMessages d s₀ s) =
            presence s₀.data u + eventCount .userLoggedIn u (newMessages d s₀ s) := by
  refine ⟨fun s a h ha ↦ h.keepsPresence_iff ha, fun s₀ s d h₀ hlogged hrun ↦ ?_⟩
  have hknows := presence_of_watched h₀ hlogged hrun
  exact ⟨(hknows []).2.1, fun u ↦ (hknows u).2.2.2⟩

/-- An observer has logged in on 4, and the login of a second user has arrived on 5. -/
def observed : List Action :=
  .accept 4 :: request 4 .login [111] ++
    [.accept 5, .receive 5 (makeMessage Command.login.code [97])]

/-- The observer of `observed` gets to know of the login. -/
theorem presence_law_iff_observed :
    (KeepsPresence plainHost (execute plainHost observed Server.init)
        (.frame 5 Command.login.code [97]) ↔
      Announced plainHost (execute plainHost observed Server.init)
        (.frame 5 Command.login.code [97])) ∧
      ∀ u, presence (execute plainHost (observed ++ [.frame 5 Command.login.code [97]])
              Server.init).data u +
            eventCount .userLoggedOut u (newMessages 4 (execute plainHost observed Server.init)
              (execute plainHost (observed ++ [.frame 5 Command.login.code [97]]) Server.init)) =
          presence (execute plainHost observed Server.init).data u +
            eventCount .userLoggedIn u (newMessages 4 (execute plainHost observed Server.init)
              (execute plainHost (observed ++ [.frame 5 Command.login.code [97]])
                Server.init)) := by
  obtain ⟨hsteps, hruns⟩ := presence_law_iff plainHost
  have hreachable : Reachable plainHost (execute plainHost observed Server.init) :=
    reachable_execute (by decide +kernel)
  have henabled : (execute plainHost observed Server.init).Enabled
      (.frame 5 Command.login.code [97]) := by
    decide +kernel
  have hlogged : LoggedIn (execute plainHost observed Server.init).data 4 :=
    (IntMap.contains_iff _).1 (by decide +kernel)
  have hfresh : (execute plainHost observed Server.init).data.sessions[(5 : Fd)]? = none := by
    decide +kernel
  refine ⟨hsteps _ _ hreachable henabled, (hruns _ _ 4 hreachable hlogged (.single
    ⟨.frame 5 Command.login.code [97], henabled, ?_, fun h ↦ absurd h (by decide), ?_⟩)).2⟩
  · rintro ⟨-, ⟨u, honly, -⟩, -⟩
    have hsession := honly.1
    change (execute plainHost observed Server.init).data.sessions[(5 : Fd)]? = some u at hsession
    rw [hfresh] at hsession
    cases hsession
  · rw [execute_append]
    rfl

/-- The user of `observed` logs in again under another name on the same connection: nobody is told
that the first user is gone. -/
theorem not_keepsPresence_relogin :
    ¬ ∀ s a, Reachable plainHost s → s.Enabled a → KeepsPresence plainHost s a := by
  intro hlaw
  let s := execute plainHost (observed ++ .frame 5 Command.login.code [97] ::
    [.receive 5 (makeMessage Command.login.code [98])]) Server.init
  have hlogged : LoggedIn (perform plainHost (.frame 5 Command.login.code [98]) s).data 4 :=
    (IntMap.contains_iff _).1 (by decide +kernel)
  have hbefore : Online s.data (plainUuid 1).str := any_sessions_iff.1 (by decide +kernel)
  have hafter : ¬ Online (perform plainHost (.frame 5 Command.login.code [98]) s).data
      (plainUuid 1).str := fun h ↦ by
    have hany := any_sessions_iff.2 h
    revert hany
    decide +kernel
  have hnone : eventCount .userLoggedOut (plainUuid 1).str
      (newMessages 4 s (perform plainHost (.frame 5 Command.login.code [98]) s)) = 0 := by
    decide +kernel
  have hcopies := (hlaw s (.frame 5 Command.login.code [98]) (reachable_execute (by decide +kernel))
    (by decide +kernel) (plainUuid 1).str 4).2
  have hone := hcopies.one ⟨⟨by decide, hlogged⟩, hbefore, hafter⟩
  rw [hnone] at hone
  cases hone

end Server

end MyTeams
