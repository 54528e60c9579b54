import MyTeams.Server.Growth

/-!
# One name, one user

`CMD_LOGIN` looks the name of its payload up among the stored names, and adds a user when there is
none. The name is cut at its first zero byte for the lookup, and cut to 32 bytes when it is stored.
A name of up to 32 bytes is found again as it was stored; a longer one never is, so each login with
it adds another user of the same stored name.
-/

namespace MyTeams

open ByteField FirstMatch

/-! ### Lookup by name -/

/-- The identity that a name finds. -/
def identityOf (data : ServerData) (name : Str) : Option (Uuid × Bytes 32) :=
  (identities data).find? fun x ↦ cut x.2.toList == name

theorem identityOf_eq (data : ServerData) (name : Str) :
    identityOf data name = (findUserByName data name).map fun u ↦ (u.uuid, u.name) :=
  List.find?_map

/-- What a name has found it finds for good. -/
theorem identityOf_of_prefix {data after : ServerData} (h : identities data <+: identities after)
    {name : Str} {x : Uuid × Bytes 32} (hx : identityOf data name = some x) :
    identityOf after name = some x := by
  obtain ⟨new, hnew⟩ := h
  rw [identityOf, ← hnew]
  exact find?_append_of_some hx new

/-- A name that is found is no longer than a stored one. -/
theorem length_le_of_identityOf {data : ServerData} {name : Str} {x : Uuid × Bytes 32}
    (h : identityOf data name = some x) : name.length ≤ 32 := by
  have hname := List.find?_some (p := fun x : Uuid × Bytes 32 ↦ cut x.2.toList == name) h
  rw [← eq_of_beq hname]
  exact length_cut_le x.2

/-- A name of up to 32 bytes is read back as it was stored. -/
theorem cut_setFixedName {name : Str} (h : (cut name).length ≤ 32) :
    cut (setFixedName (cut name)).toList = cut name := by
  rw [setFixedName, cut_fill_of_not_mem (not_mem_cut name), List.take_of_length_le h]

/-! ### Logins -/

/-- The response to a login. -/
def loginResponse (x : Uuid × Bytes 32) : Packet :=
  ⟨Response.loginOk.code,
    makeMessage Response.loginOk.code (appendName32 (appendUuid36 [] x.1.bytes) x.2)⟩

/-- A login under a known name shows the user of that name. -/
theorem handleLogin_known (host : Host) (fd : Fd) {name : Str} {data : ServerData}
    {x : Uuid × Bytes 32} (h : identityOf data (cut name) = some x) :
    identities (handleLogin host fd name data).data = identities data ∧
      (handleLogin host fd name data).result.response = loginResponse x := by
  rw [identityOf_eq] at h
  obtain ⟨user, hfind, rfl⟩ := Option.map_eq_some_iff.1 h
  have hfind' : findUserByName data (trimPaddedName name) = some user := hfind
  rw [handleLogin, hfind']
  exact ⟨identities_loginKnown data fd _ user, rfl⟩

/-- A login under a new name adds a user. -/
theorem handleLogin_new (host : Host) (fd : Fd) {name : Str} {data : ServerData}
    (h : identityOf data (cut name) = none) :
    identities (handleLogin host fd name data).data =
        identities data ++ [(host.newUuid, setFixedName (cut name))] ∧
      (handleLogin host fd name data).result.response =
        loginResponse (host.newUuid, setFixedName (cut name)) := by
  rw [identityOf_eq, Option.map_eq_none_iff] at h
  have hfind : findUserByName data (trimPaddedName name) = none := h
  rw [handleLogin, hfind]
  exact ⟨identities_loginNew data fd _ _, rfl⟩

/-- A login under a name of up to 32 bytes leaves it known as the user of the response. -/
theorem identityOf_handleLogin (host : Host) (fd : Fd) {name : Str} (data : ServerData)
    (h : (cut name).length ≤ 32) :
    ∃ x, identityOf (handleLogin host fd name data).data (cut name) = some x ∧
      (handleLogin host fd name data).result.response = loginResponse x := by
  rcases hfind : identityOf data (cut name) with - | x
  · obtain ⟨hafter, hresponse⟩ := handleLogin_new host fd hfind
    refine ⟨_, ?_, hresponse⟩
    rw [identityOf] at hfind
    rw [identityOf, hafter, List.find?_append, hfind, Option.none_or]
    exact List.find?_cons_of_pos (beq_iff_eq.2 (cut_setFixedName h))
  · obtain ⟨hafter, hresponse⟩ := handleLogin_known host fd hfind
    exact ⟨x, identityOf_of_prefix (hafter ▸ List.prefix_refl _) hfind, hresponse⟩

/-- **What a frame does to the identities**: a login under a new name adds one. -/
theorem Serves.identities_cases {host : Host} {fd : Fd} {payload : List UInt8} {data : ServerData}
    {cmd : Option Command} {a : Answer} (h : Serves host fd payload data cmd a) :
    identities a.data = identities data ∨
      cmd = some .login ∧ identityOf data (cut payload) = none ∧
        identities a.data = identities data ++ [(host.newUuid, setFixedName (cut payload))] := by
  cases h with
  | loginKnown _ hafter =>
    subst hafter
    exact .inl (identities_loginKnown data fd _ _)
  | loginNew hfind huser hafter =>
    subst hafter huser
    exact .inr ⟨rfl, by rw [identityOf_eq, hfind, Option.map_none], identities_loginNew data fd _ _⟩
  | logout _ hafter =>
    subst hafter
    exact .inl (identities_logout data fd _)
  | _ => exact .inl rfl

namespace Server

variable {host : ℕ → Host} {s : Server}

theorem frameOutcome_login {env : Host} {fd : Fd} {code : UInt16} {payload : List UInt8}
    {data : ServerData} (hcmd : Command.ofCode? code = some .login) :
    frameOutcome env fd code payload data = handleLogin env fd payload data := by
  obtain rfl := Command.code_of_ofCode? hcmd
  rw [frameOutcome, if_neg (fun h ↦ h.2 rfl), hcmd]
  exact congrArg (fun p ↦ handleLogin env fd p data) (extractSv_whole payload)

/-! ### The law -/

/-- The step condition: the name of a login has at most 32 bytes. -/
def NameFits (a : Action) : Prop := a.request.1 = some .login → (cut a.request.2).length ≤ 32

/-- A step under the condition. -/
def NameFitsStep (host : ℕ → Host) (s s' : Server) : Prop :=
  ∃ a, s.Enabled a ∧ NameFits a ∧ s' = perform host a s

/-- The stored names are distinct. -/
def NamesNodup (data : ServerData) : Prop := ((identities data).map Prod.snd).Nodup

/-- **One step** under the condition keeps the names distinct. -/
theorem NamesNodup.perform (hwf : SessionsWf s.data) (h : NamesNodup s.data) {a : Action}
    (ha : NameFits a) : NamesNodup (perform host a s).data := by
  obtain ⟨answer, hserves, hdata⟩ | ⟨-, hdata⟩ := serves_perform host hwf a
  · rw [hdata, NamesNodup]
    rcases hserves.identities_cases with hsame | ⟨hcmd, hfind, hnew⟩
    · rw [hsame]
      exact h
    · rw [hnew, List.map_append, List.nodup_append]
      refine ⟨h, List.nodup_singleton _, ?_⟩
      rintro name hname name' hname' rfl
      obtain ⟨x, hx, rfl⟩ := List.mem_map.1 hname
      -- a stored name equal to the new one would have been found
      have hmatch : cut x.2.toList = cut a.request.2 := by
        rw [List.mem_singleton.1 hname']
        exact cut_setFixedName (ha hcmd)
      exact List.find?_eq_none.1 hfind x hx (beq_iff_eq.2 hmatch)
  · rw [hdata]
    exact h

/-- A later login with the same payload: it returns the same user, and adds none, exactly when the
name has at most 32 bytes. -/
theorem login_again_iff (h : Reachable host s) {fd fd' : Fd} {payload : List UInt8}
    (ha : s.Enabled (.frame fd Command.login.code payload)) {s' : Server}
    (hs : Steps host (perform host (.frame fd Command.login.code payload) s) s')
    (ha' : s'.Enabled (.frame fd' Command.login.code payload)) :
    (newMessages fd' s' (perform host (.frame fd' Command.login.code payload) s') =
          newMessages fd s (perform host (.frame fd Command.login.code payload) s) ∧
        identities (perform host (.frame fd' Command.login.code payload) s').data =
          identities s'.data) ↔
      (cut payload).length ≤ 32 := by
  have hafter := h.step ha
  have hlogin := Command.ofCode?_code .login
  rw [newMessages_self (hafter.steps hs).sessionsWf ha', newMessages_self h.sessionsWf ha,
    perform_frame_data, frameOutcome_login hlogin, frameOutcome_login hlogin]
  constructor
  · rintro ⟨-, hsame⟩
    by_contra hlong
    have hnone : identityOf s'.data (cut payload) = none := by
      rcases hfind : identityOf s'.data (cut payload) with - | x
      · rfl
      · exact absurd (length_le_of_identityOf hfind) hlong
    rw [(handleLogin_new (host s'.served) fd' hnone).1] at hsame
    simpa using congrArg List.length hsame
  · intro hshort
    obtain ⟨x, hx, hresponse⟩ := identityOf_handleLogin (host s.served) fd s.data hshort
    have hx' : identityOf s'.data (cut payload) = some x := by
      refine identityOf_of_prefix (hafter.grows hs).1 ?_
      rwa [perform_frame_data, frameOutcome_login hlogin]
    obtain ⟨hsame, hresponse'⟩ := handleLogin_known (host s'.served) fd' hx'
    exact ⟨by rw [hresponse, hresponse'], hsame⟩

/-- **When users are stable and unique.** In every run whose logins are all under names of at most
32 bytes, no two users ever have the same stored name. And in any run, a login with the payload of
an earlier one, on any connection and after anything else, returns the same user without adding one
if and only if the name in it has at most 32 bytes. -/
theorem user_identity (host : ℕ → Host) :
    (∀ s, Relation.ReflTransGen (NameFitsStep host) Server.init s → NamesNodup s.data) ∧
    ∀ s, Reachable host s → ∀ fd payload, s.Enabled (.frame fd Command.login.code payload) →
      ∀ s', Steps host (perform host (.frame fd Command.login.code payload) s) s' →
        ∀ fd', s'.Enabled (.frame fd' Command.login.code payload) →
          ((newMessages fd' s' (perform host (.frame fd' Command.login.code payload) s') =
                newMessages fd s (perform host (.frame fd Command.login.code payload) s) ∧
              identities (perform host (.frame fd' Command.login.code payload) s').data =
                identities s'.data) ↔
            (cut payload).length ≤ 32) := by
  refine ⟨fun s hrun ↦ ?_, fun s h fd payload ha s' hs fd' ha' ↦ login_again_iff h ha hs ha'⟩
  have hboth : Reachable host s ∧ NamesNodup s.data := by
    induction hrun with
    | refl => exact ⟨Reachable.init, List.nodup_nil⟩
    | tail _ hstep ih =>
      obtain ⟨a, ha, hfits, rfl⟩ := hstep
      exact ⟨ih.1.step ha, ih.2.perform ih.1.sessionsWf hfits⟩
  exact hboth.2

/-- A run of logins under fitting names. -/
theorem nameFits_execute {as : List Action} (h : Executable host as s)
    (hfits : ∀ a ∈ as, NameFits a) :
    Relation.ReflTransGen (NameFitsStep host) s (execute host as s) :=
  reflTransGen_execute h fun a ha henabled ↦ ⟨a, henabled, hfits a ha, rfl⟩

instance (a : Action) : Decidable (NameFits a) := inferInstanceAs (Decidable (_ → _))

/-- Two connections that have logged in under names of their own. -/
def twoNames : List Action :=
  [.accept 4, .accept 5] ++ request 4 .login [0x61] ++ request 5 .login [0x62]

/-- Two connections, and the first about to log in. -/
def beforeLogin (payload : List UInt8) : List Action :=
  [.accept 4, .accept 5, .receive 4 (makeMessage Command.login.code payload)]

/-- Then the second sends the same login. -/
theorem steps_secondLogin {payload : List UInt8}
    (h : (perform plainHost (.frame 4 Command.login.code payload)
      (execute plainHost (beforeLogin payload) Server.init)).Enabled
        (.receive 5 (makeMessage Command.login.code payload))) :
    Steps plainHost
      (perform plainHost (.frame 4 Command.login.code payload)
        (execute plainHost (beforeLogin payload) Server.init))
      (execute plainHost (beforeLogin payload ++ [.frame 4 Command.login.code payload,
        .receive 5 (makeMessage Command.login.code payload)]) Server.init) := by
  rw [execute_append]
  exact .single ⟨_, h, rfl⟩

/-- Two users with different names; and the name `a` logs in twice as one user. -/
theorem user_identity_secondLogin :
    (identities (execute plainHost twoNames Server.init).data =
        [(plainUuid 0, fill 32 [0x61]), (plainUuid 1, fill 32 [0x62])] ∧
      NamesNodup (execute plainHost twoNames Server.init).data) ∧
    newMessages 5
        (execute plainHost (beforeLogin [0x61] ++ [.frame 4 Command.login.code [0x61],
          .receive 5 (makeMessage Command.login.code [0x61])]) Server.init)
        (perform plainHost (.frame 5 Command.login.code [0x61])
          (execute plainHost (beforeLogin [0x61] ++ [.frame 4 Command.login.code [0x61],
            .receive 5 (makeMessage Command.login.code [0x61])]) Server.init)) =
      newMessages 4 (execute plainHost (beforeLogin [0x61]) Server.init)
        (perform plainHost (.frame 4 Command.login.code [0x61])
          (execute plainHost (beforeLogin [0x61]) Server.init)) := by
  have hexecutable : Executable plainHost (beforeLogin [0x61]) Server.init := by decide +kernel
  have htwo : Executable plainHost twoNames Server.init := by decide +kernel
  obtain ⟨hnames, hagain⟩ := user_identity plainHost
  refine ⟨⟨by decide +kernel, hnames _ (nameFits_execute htwo (by decide +kernel))⟩, ?_⟩
  have hsecond := hagain _ (reachable_execute hexecutable) 4 [0x61] (by decide +kernel) _
    (steps_secondLogin (by decide +kernel)) 5 (by decide +kernel)
  exact (hsecond.2 (by decide)).1

/-- The name of 33 letters `a` becomes two users with one stored name. -/
theorem not_user_identity_longName :
    (¬ ∀ s, Reachable plainHost s → NamesNodup s.data) ∧
      ¬ ∀ s, Reachable plainHost s → ∀ fd payload,
        s.Enabled (.frame fd Command.login.code payload) →
        ∀ s', Steps plainHost (perform plainHost (.frame fd Command.login.code payload) s) s' →
          ∀ fd', s'.Enabled (.frame fd' Command.login.code payload) →
            identities (perform plainHost (.frame fd' Command.login.code payload) s').data =
              identities s'.data := by
  have hexecutable : Executable plainHost (beforeLogin (List.replicate 33 0x61)) Server.init := by
    decide +kernel
  constructor
  · intro hnames
    have hnodup := hnames (execute plainHost (beforeLogin (List.replicate 33 0x61) ++
        [.frame 4 Command.login.code (List.replicate 33 0x61),
          .receive 5 (makeMessage Command.login.code (List.replicate 33 0x61)),
          .frame 5 Command.login.code (List.replicate 33 0x61)]) Server.init)
      (reachable_execute (by decide +kernel))
    revert hnodup
    rw [NamesNodup]
    decide +kernel
  · intro hstable
    have hsame := hstable _ (reachable_execute hexecutable) 4 _ (by decide +kernel) _
      (steps_secondLogin (by decide +kernel)) 5 (by decide +kernel)
    revert hsame
    decide +kernel

end Server

end MyTeams
