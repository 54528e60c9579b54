import MyTeams.Server.Presence

/-!
# User records and sessions

`user_t` repeats what the session map says: whether the user is logged in, and one descriptor of
his. `handle_login` writes both, `handle_logout` writes the first only, and a login on a connection
that has a session takes that session away without a write. So a record goes stale exactly when the
descriptor it holds stops being a session of its user by one of these two ways: `Undisturbed` is the
condition that it does not happen, and `records_mirror_iff` shows that a step keeps records and
sessions in agreement if and only if it meets the condition.

A user is looked up by his uuid, so the agreement rests on `uuid_generate` never returning the uuid
of a user that exists: `FreshUuid`.
-/

namespace MyTeams

open ByteField FirstMatch

/-! ### Records -/

/-- **A record that mirrors the sessions**: the user is marked as logged in exactly if he has a
session, and then the recorded descriptor is one. -/
def User.Mirrors (sessions : IntMap Str) (u : User) : Prop :=
  (u.isLogged = true ↔ ∃ fd : Fd, sessions[fd]? = some u.uuid.str) ∧
    (u.isLogged = true → sessions[u.fd]? = some u.uuid.str)

/-- All records mirror the sessions. -/
def Mirror (data : ServerData) : Prop := ∀ u ∈ data.users, u.Mirrors data.sessions

/-- No two users have the same uuid. -/
def UuidsNodup (data : ServerData) : Prop := (data.users.map User.uuid).Nodup

section Records

variable {sessions : IntMap Str} {u : User} {fd : Fd} {x : Str}

/-- A session of somebody else takes the place of one that the record does not point to. -/
theorem User.mirrors_insert_iff (h : u.Mirrors sessions) (hx : u.uuid.str ≠ x) :
    u.Mirrors (sessions.insert fd x) ↔ ¬ (u.isLogged = true ∧ u.fd = fd) := by
  have hinsert (d : Fd) : (sessions.insert fd x)[d]? = some u.uuid.str ↔
      d ≠ fd ∧ sessions[d]? = some u.uuid.str := by
    rw [IntMap.get_insert_eq_some_iff, or_iff_right fun heq ↦ hx heq.2.symm]
  simp only [Mirrors, hinsert]
  constructor
  · rintro ⟨-, hfd⟩ ⟨hlogged, heq⟩
    exact (hfd hlogged).1 heq
  · intro hno
    have hkeeps : u.isLogged = true → u.fd ≠ fd ∧ sessions[u.fd]? = some u.uuid.str :=
      fun hlogged ↦ ⟨fun heq ↦ hno ⟨hlogged, heq⟩, h.2 hlogged⟩
    exact ⟨⟨fun hlogged ↦ ⟨u.fd, hkeeps hlogged⟩, fun ⟨d, _, hd⟩ ↦ h.1.2 ⟨d, hd⟩⟩, hkeeps⟩

/-- The user who logs in gets a record that points to his new session. -/
theorem User.mirrors_loggedIn (sessions : IntMap Str) (fd : Fd) (u : User) :
    (u.loggedIn fd).Mirrors (sessions.insert fd u.uuid.str) := by
  have hself : (sessions.insert fd u.uuid.str)[fd]? = some u.uuid.str := by
    rw [IntMap.get_insert_self]
  exact ⟨iff_of_true rfl ⟨fd, hself⟩, fun _ ↦ hself⟩

/-- The end of a session does not concern the records of others. -/
theorem User.mirrors_erase (h : u.Mirrors sessions) (hs : sessions[fd]? = some x)
    (hx : u.uuid.str ≠ x) : u.Mirrors (sessions.erase fd) := by
  have herase (d : Fd) : (sessions.erase fd)[d]? = some u.uuid.str ↔
      sessions[d]? = some u.uuid.str := by
    rw [IntMap.get_erase_eq_some_iff, and_iff_right_iff_imp]
    rintro hd rfl
    exact hx (Option.some.inj (hd.symm.trans hs))
  simp only [Mirrors, herase]
  exact h

/-- The user who logs out keeps a record that points to a session of his, if there is one left,
unless it is the one that ends. -/
theorem User.mirrors_loggedOut_iff (h : u.Mirrors sessions)
    (hs : sessions[fd]? = some u.uuid.str) :
    { u with isLogged := (sessions.erase fd).toList.any fun kv ↦ kv.2 == u.uuid.str }.Mirrors
        (sessions.erase fd) ↔
      ¬ (u.fd = fd ∧ ∃ d, d ≠ fd ∧ sessions[d]? = some u.uuid.str) := by
  simp only [Mirrors, any_sessions_iff, IntMap.get_erase_eq_some_iff, true_and]
  constructor
  · rintro hmirrors ⟨heq, hother⟩
    exact (hmirrors hother).1 heq
  · rintro hno hother
    exact ⟨fun heq ↦ hno ⟨heq, hother⟩, h.2 (h.1.2 ⟨fd, hs⟩)⟩

end Records

/-! ### The two writers -/

/-- The record of no other user who is logged in points to the connection of a login. -/
def NotTaken (env : Host) (fd : Fd) (payload : List UInt8) (data : ServerData) : Prop :=
  ∀ u ∈ data.users, u.isLogged = true → u.fd = fd → u.uuid.str = loginUuid env data payload

/-- The record of a user with another session does not point to the connection whose session
ends. -/
def NotPointed (fd : Fd) (data : ServerData) : Prop :=
  ∀ u ∈ data.users, data.sessions[fd]? = some u.uuid.str →
    ¬ (u.fd = fd ∧ ∃ d, d ≠ fd ∧ data.sessions[d]? = some u.uuid.str)

section Writers

instance (env : Host) (fd : Fd) (payload : List UInt8) (data : ServerData) :
    Decidable (NotTaken env fd payload data) :=
  inferInstanceAs (Decidable (∀ u ∈ data.users, _ → _ → _))

variable {env : Host} {fd : Fd} {payload : List UInt8} {data : ServerData}

/-- What a login leaves of the records of everybody else. -/
theorem forall_mirrors_insert_iff (h : Mirror data) (x : Uuid) :
    (∀ u ∈ data.users, u.uuid ≠ x → u.Mirrors (data.sessions.insert fd x.str)) ↔
      ∀ u ∈ data.users, u.isLogged = true → u.fd = fd → u.uuid.str = x.str := by
  refine forall₂_congr fun u hu ↦ ?_
  constructor
  · intro hmirrors hlogged hfd
    by_contra hne
    exact (User.mirrors_insert_iff (h u hu) hne).1 (hmirrors fun heq ↦ hne (heq ▸ rfl))
      ⟨hlogged, hfd⟩
  · intro hpoints hne
    refine (User.mirrors_insert_iff (h u hu) fun heq ↦ hne (Uuid.str_injective heq)).2 ?_
    rintro ⟨hlogged, hfd⟩
    exact hne (Uuid.str_injective (hpoints hlogged hfd))

/-- A login under a name that is taken. -/
theorem mirror_loginKnown_iff (h : Mirror data) (hnodup : UuidsNodup data) {user : User}
    (hfind : findUserByName data (cut payload) = some user) :
    Mirror (loginData data fd
        (updateFirst (fun u ↦ trimPaddedName u.name.toList == cut payload) (User.loggedIn fd)
          data.users) user) ↔
      NotTaken env fd payload data := by
  have huuid : loginUuid env data payload = user.uuid.str := by
    rw [loginUuid, trimPaddedName, hfind]
  show (∀ u ∈ updateFirst _ (User.loggedIn fd) data.users,
    u.Mirrors (data.sessions.insert fd user.uuid.str)) ↔ _
  rw [forall_updateFirst_iff hnodup hfind, and_iff_right (User.mirrors_loggedIn _ fd user),
    NotTaken, huuid, ← forall_mirrors_insert_iff h]

/-- A login under a new name, with a uuid that nobody has. -/
theorem mirror_loginNew_iff (h : Mirror data) (hfresh : ∀ u ∈ data.users, u.uuid ≠ env.newUuid)
    (hfind : findUserByName data (cut payload) = none) :
    Mirror (loginData data fd (data.users ++ [newUser env fd (cut payload)])
        (newUser env fd (cut payload))) ↔
      NotTaken env fd payload data := by
  have huuid : loginUuid env data payload = env.newUuid.str := by
    rw [loginUuid, trimPaddedName, hfind]
  have hnew : (newUser env fd (cut payload)).Mirrors (data.sessions.insert fd env.newUuid.str) :=
    User.mirrors_loggedIn data.sessions fd (newUser env fd (cut payload))
  show (∀ u ∈ data.users ++ [newUser env fd (cut payload)],
    u.Mirrors (data.sessions.insert fd env.newUuid.str)) ↔ _
  rw [NotTaken, huuid, ← forall_mirrors_insert_iff h]
  constructor
  · exact fun hall u hu _ ↦ hall u (List.mem_append_left _ hu)
  · intro hall u hu
    rcases List.mem_append.1 hu with hu | hu
    · exact hall u hu (hfresh u hu)
    · rw [List.mem_singleton.1 hu]
      exact hnew

/-- The end of a session. -/
theorem mirror_logout_iff (h : Mirror data) (hnodup : UuidsNodup data) {uuid : Uuid}
    (hs : data.sessions[fd]? = some uuid.str) (hknown : uuid ∈ data.users.map User.uuid) :
    Mirror (logoutData data fd uuid.str) ↔ NotPointed fd data := by
  obtain ⟨user, huser, hfind⟩ : ∃ user ∈ data.users,
      data.users.find? (fun u ↦ u.uuid.str == uuid.str) = some user := by
    obtain ⟨u, hu, rfl⟩ := List.mem_map.1 hknown
    obtain ⟨user, hfind⟩ := Option.isSome_iff_exists.1
      (List.find?_isSome (p := fun v : User ↦ v.uuid.str == u.uuid.str).2
        ⟨u, hu, beq_self_eq_true _⟩)
    exact ⟨user, List.mem_of_find?_eq_some hfind, hfind⟩
  obtain rfl : user.uuid = uuid := Uuid.str_injective (eq_of_beq (List.find?_some hfind :))
  show (∀ u ∈ updateFirst (fun u ↦ u.uuid.str == user.uuid.str) _ data.users,
    u.Mirrors (data.sessions.erase fd)) ↔ _
  rw [forall_updateFirst_iff hnodup hfind, User.mirrors_loggedOut_iff (h user huser) hs]
  constructor
  · rintro ⟨hno, -⟩ u hu hsu
    have heq : u = user := by
      refine List.inj_on_of_nodup_map hnodup hu huser (Uuid.str_injective ?_)
      exact Option.some.inj (hsu.symm.trans hs)
    rwa [heq]
  · intro hall
    refine ⟨hall user huser hs, fun u hu hne ↦ ?_⟩
    exact User.mirrors_erase (h u hu) hs fun heq ↦ hne (Uuid.str_injective heq)

/-- **What an answer leaves of the records**: they mirror the sessions unless one of the two writers
has left a record behind. -/
theorem Serves.mirror_iff {cmd : Option Command} {a : Answer}
    (hserves : Serves env fd payload data cmd a) (hregistry : DataRegistry data)
    (hnodup : UuidsNodup data) (h : Mirror data)
    (hfresh : cmd = some .login → ∀ u ∈ data.users, u.uuid ≠ env.newUuid) :
    Mirror a.data ↔ (cmd = some .login → NotTaken env fd payload data) ∧
      (cmd = some .logout → NotPointed fd data) := by
  have hlogin {P : Prop} (hiff : Mirror a.data ↔ P) :
      Mirror a.data ↔ (some Command.login = some .login → P) ∧
        (some Command.login = some .logout → NotPointed fd data) := by
    rw [hiff, forall_prop_of_true rfl]
    exact (and_iff_left fun h ↦ by cases h).symm
  cases hserves with
  | loginKnown hfind hafter =>
    subst hafter
    exact hlogin (mirror_loginKnown_iff h hnodup hfind)
  | loginNew hfind huser hafter =>
    subst hafter huser
    exact hlogin (mirror_loginNew_iff h (hfresh rfl) hfind)
  | @logout user hs after hafter =>
    subst hafter
    obtain ⟨uuid, huuid, rfl⟩ := hregistry.session fd user hs
    refine (mirror_logout_iff h hnodup hs huuid).trans ?_
    rw [forall_prop_of_true rfl]
    exact (and_iff_right fun h ↦ by cases h).symm
  | unauthorized hs hcmd =>
    refine iff_of_true h ⟨fun h ↦ absurd h hcmd, fun _ u _ hsu ↦ ?_⟩
    rw [hs] at hsu
    cases hsu
  | refused _ _ hquery =>
    exact iff_of_true h ⟨fun h ↦ absurd (Option.some.inj h) hquery.1,
      fun h ↦ absurd (Option.some.inj h) hquery.2.1⟩
  | dangling _ hcmd =>
    refine iff_of_true h ⟨?_, ?_⟩ <;> rintro ⟨⟩ <;> simp at hcmd
  | _ => exact iff_of_true h ⟨(fun h ↦ by cases h), fun h ↦ by cases h⟩

/-- Uuids stay distinct as long as `uuid_generate` does its part. -/
theorem UuidsNodup.serves {cmd : Option Command} {a : Answer} (hnodup : UuidsNodup data)
    (hserves : Serves env fd payload data cmd a)
    (hfresh : cmd = some .login → ∀ u ∈ data.users, u.uuid ≠ env.newUuid) : UuidsNodup a.data := by
  cases hserves with
  | loginKnown hfind hafter =>
    subst hafter
    show ((updateFirst _ (User.loggedIn fd) data.users).map User.uuid).Nodup
    rw [uuids_loggedIn]
    exact hnodup
  | loginNew hfind huser hafter =>
    subst hafter huser
    show ((data.users ++ [_]).map User.uuid).Nodup
    rw [List.map_append, List.nodup_append]
    refine ⟨hnodup, List.nodup_singleton _, ?_⟩
    rintro x hx y hy rfl
    obtain ⟨u, hu, rfl⟩ := List.mem_map.1 hx
    exact hfresh rfl u hu (List.mem_singleton.1 hy)
  | logout hs hafter =>
    subst hafter
    rw [UuidsNodup, uuids_logout]
    exact hnodup
  | _ => exact hnodup

end Writers

namespace Server

variable {host : ℕ → Host} {s : Server}

/-! ### Runs -/

/-- What `uuid_generate` promises: the next uuid is that of no user. -/
def FreshUuid (host : ℕ → Host) (s : Server) : Prop :=
  ∀ u ∈ s.data.users, u.uuid ≠ (host s.served).newUuid

instance (host : ℕ → Host) (s : Server) : Decidable (FreshUuid host s) :=
  inferInstanceAs (Decidable (∀ u ∈ s.data.users, _))

/-- The step condition: a login does not take the connection that the record of another logged-in
user points to, and no session ends that the record of a user with another session points to. -/
def Undisturbed (host : ℕ → Host) (s : Server) (a : Action) : Prop :=
  (a.request.1 = some .login → NotTaken (host s.served) a.fd a.request.2 s.data) ∧
    (a.request.1 = some .logout → NotPointed a.fd s.data)

/-- **One step** keeps the records in agreement exactly when it meets the condition. -/
theorem Reachable.mirror_perform_iff (h : Reachable host s) (hnodup : UuidsNodup s.data)
    (hmirror : Mirror s.data) {a : Action} (hfresh : a.request.1 = some .login → FreshUuid host s) :
    UuidsNodup (perform host a s).data ∧
      (Mirror (perform host a s).data ↔ Undisturbed host s a) := by
  have hregistry := h.registry.toDataRegistry
  obtain ⟨answer, hserves, hdata⟩ | ⟨hnone, hdata⟩ := serves_perform host h.sessionsWf a
  · rw [hdata]
    exact ⟨hnodup.serves hserves hfresh, hserves.mirror_iff hregistry hnodup hmirror hfresh⟩
  · rw [hdata, Undisturbed, hnone]
    exact ⟨hnodup, iff_of_true hmirror ⟨(fun h ↦ by cases h), fun h ↦ by cases h⟩⟩

/-- A step that meets the condition, and gets a fresh uuid if it is a login. -/
def UndisturbedStep (host : ℕ → Host) (s s' : Server) : Prop :=
  ∃ a, s.Enabled a ∧ (a.request.1 = some .login → FreshUuid host s) ∧ Undisturbed host s a ∧
    s' = perform host a s

/-- **When user records mirror the sessions.** In every run whose steps all meet the condition, the
records agree with the sessions in every state; and from a reachable state where they agree, the
next step leaves them in agreement if and only if it meets the condition. -/
theorem records_mirror_iff (host : ℕ → Host) :
    (∀ s, Relation.ReflTransGen (UndisturbedStep host) Server.init s → Mirror s.data) ∧
    ∀ s a, Reachable host s → UuidsNodup s.data → Mirror s.data → s.Enabled a →
      (a.request.1 = some .login → FreshUuid host s) →
      (Mirror (perform host a s).data ↔ Undisturbed host s a) := by
  constructor
  · intro s hrun
    have hall : Reachable host s ∧ UuidsNodup s.data ∧ Mirror s.data := by
      induction hrun with
      | refl => exact ⟨Reachable.init, List.nodup_nil, fun u hu ↦ by cases hu⟩
      | tail _ hstep ih =>
        obtain ⟨a, ha, hfresh, hok, rfl⟩ := hstep
        obtain ⟨hreachable, hnodup, hmirror⟩ := ih
        obtain ⟨hnodup', hiff⟩ := hreachable.mirror_perform_iff hnodup hmirror hfresh
        exact ⟨hreachable.step ha, hnodup', hiff.2 hok⟩
    exact hall.2.2
  · exact fun s a h hnodup hmirror _ hfresh ↦ (h.mirror_perform_iff hnodup hmirror hfresh).2

/-- One user logs in on two connections. -/
def twoConnections : List Action :=
  .accept 4 :: request 4 .login [97] ++ .accept 5 :: request 5 .login [97]

/-- The older of two connections is lost: the record points to the newer one, and stays right. -/
theorem records_mirror_iff_olderLost :
    Mirror (execute plainHost twoConnections Server.init).data ∧
      Mirror (perform plainHost (.disconnect 4)
        (execute plainHost twoConnections Server.init)).data := by
  obtain ⟨hruns, hsteps⟩ := records_mirror_iff plainHost
  let s := execute plainHost twoConnections Server.init
  have hstep {s : Server} (a : Action) (h : s.Enabled a ∧
      (a.request.1 = some .login → FreshUuid plainHost s) ∧ (a.request.1 = some .login →
        NotTaken (plainHost s.served) a.fd a.request.2 s.data) ∧ a.request.1 ≠ some .logout) :
      UndisturbedStep plainHost s (perform plainHost a s) :=
    ⟨a, h.1, h.2.1, ⟨h.2.2.1, fun hcmd ↦ absurd hcmd h.2.2.2⟩, rfl⟩
  have hmirror : Mirror s.data := hruns s <|
    ((((((Relation.ReflTransGen.refl (r := UndisturbedStep plainHost)).tail
      (hstep (.accept 4) (by decide +kernel))).tail
      (hstep (.receive 4 (makeMessage Command.login.code [97])) (by decide +kernel))).tail
      (hstep (.frame 4 Command.login.code [97]) (by decide +kernel))).tail
      (hstep (.accept 5) (by decide +kernel))).tail
      (hstep (.receive 5 (makeMessage Command.login.code [97])) (by decide +kernel))).tail
      (hstep (.frame 5 Command.login.code [97]) (by decide +kernel))
  refine ⟨hmirror, (hsteps s (.disconnect 4) (reachable_execute (by decide +kernel))
    (by unfold UuidsNodup; decide +kernel) hmirror (by decide +kernel) fun h ↦ by cases h).2
      ⟨(fun h ↦ by cases h), ?_⟩⟩
  -- The record points to the descriptor of the second login.
  rintro - u hu - ⟨hfd, -⟩
  have hfds : ∀ u ∈ s.data.users, u.fd ≠ 4 := by decide +kernel
  exact hfds u hu hfd

/-- The newer of two connections is lost: the user is still logged in, and his record points to a
descriptor that is closed. -/
theorem not_mirror_newerLost : ¬ ∀ s, Reachable plainHost s → Mirror s.data := by
  intro hall
  let s := execute plainHost (twoConnections ++ [.disconnect 5]) Server.init
  have hrecord : s.data.users.map (fun u ↦ (u.isLogged, u.fd)) = [(true, 5)] := by decide +kernel
  have hsession : s.data.sessions[(5 : Fd)]? = none := by decide +kernel
  obtain ⟨u, hu⟩ : ∃ u, s.data.users = [u] := List.length_eq_one_iff.1 (by
    rw [← List.length_map, hrecord]
    rfl)
  rw [hu] at hrecord
  obtain ⟨hlogged, hfd⟩ := Prod.mk.inj (List.singleton_inj.1 hrecord)
  have hpoints := (hall s (reachable_execute (by decide +kernel)) u
    (hu ▸ List.mem_singleton_self u)).2 hlogged
  rw [hfd, hsession] at hpoints
  cases hpoints

end Server

end MyTeams
