import MyTeams.Server.Growth

/-!
# Who wrote what

A channel, thread or reply is written by the frame that makes it appear in the tree of resources.
The context that frame is served in may be old, but `handle_create` looks the team up again and asks
for the membership of the session's user at that moment. So every resource inside a team was written
by a user who was a member of it then, and the creator stored with a thread or a reply is that user.
-/

namespace MyTeams

open FirstMatch Forest ByteField

/-- The creator stored with a resource: threads and replies have one. -/
def Resource.creator : Resource → Option (Bytes 36)
  | thread r => some r.creatorUuid
  | reply r => some r.creatorUuid
  | team _ | channel _ => none

theorem creator_newResource {host : Host} {user payload : Str} {level : UInt8} {c : Bytes 36}
    (h : (newResource host user payload level).creator = some c) : c = fill 36 user := by
  rw [newResource] at h
  split_ifs at h
  · cases h
  · cases h
  · exact (Option.some.inj h).symm
  · exact (Option.some.inj h).symm

theorem getElem?_forest {data : ServerData} {i : ℕ} {x : RoseTree Resource}
    (h : data.forest[i]? = some x) : ∃ t, data.teams[i]? = some t ∧ t.tree = x := by
  rw [ServerData.forest, List.getElem?_map] at h
  exact Option.map_eq_some_iff.1 h

/-- The position of a tree of the forest is that of its team. -/
theorem getElem?_of_findIdx?_forest {data : ServerData} {ctx : ClientContext} {i : ℕ} {t : Team}
    (hidx : (data.forest.findIdx? fun t ↦ t.label.key == ctx.teamUuid.toList) = some i)
    (ht : ctx.team? data = some t) : data.teams[i]? = some t := by
  rw [ServerData.forest, List.findIdx?_map] at hidx
  rw [ClientContext.team?, findTeamByUuid_eq ctx.teamUuid.toList_length] at ht
  exact (find?_of_findIdx? hidx).symm.trans ht

/-- **What appears inside a team** was created by the frame, and its user is a member of the
team. -/
theorem Serves.appears {host : Host} {fd : Fd} {payload : List UInt8} {data : ServerData}
    {cmd : Option Command} {a : Answer} (h : Serves host fd payload data cmd a) {i : ℕ} {q : List ℕ}
    {r : Resource} (hq : q ≠ []) (habsent : labelAt (i :: q) data.forest = none)
    (hpresent : labelAt (i :: q) a.data.forest = some r) :
    cmd = some .create ∧ ∃ user t, data.sessions[fd]? = some user ∧ data.teams[i]? = some t ∧
      user ∈ t.memberUuids ∧ ∀ c ∈ r.creator, c = fill 36 user := by
  rcases h.forest with ⟨hcmd, user, ctx, hcreates⟩ | ⟨hsame, -⟩
  · rw [hcreates.forest] at hpresent
    rcases labelAt_of_insertAt hpresent with hold | ⟨rfl, hnew⟩
    · rw [habsent] at hold
      cases hold
    · have hlevel : ctx.level ≠ useNone := by
        rintro hnone
        have hlength := hnew.length
        rw [path_of_none hnone, List.length_cons, List.length_nil] at hlength
        exact hq (List.length_eq_zero_iff.1 (by omega))
      obtain ⟨t, ht, hmember⟩ := hcreates.member hlevel
      -- the path of the context starts with the uuid of its team
      have hhead : ctx.path.head? = some ctx.teamUuid.toList := by
        have hfour := hcreates.level
        simp only [List.mem_cons, List.not_mem_nil, or_false] at hfour
        rcases hfour with h0 | h1 | h2 | h3
        · exact absurd h0 hlevel
        · rw [path_of_team h1]; rfl
        · rw [path_of_channel h2]; rfl
        · rw [path_of_thread h3]; rfl
      obtain ⟨j, hj, hidx⟩ := hnew.root _ hhead
      obtain rfl : i = j := Option.some.inj hj
      exact ⟨hcmd, user, t, hcreates.session, getElem?_of_findIdx?_forest hidx ht, hmember,
        fun c hc ↦ creator_newResource hc⟩
  · rw [hsame, habsent] at hpresent
    cases hpresent

namespace Server

/-- The action `a` makes the resource `r` appear at the positions `p`. -/
structure Appears (host : ℕ → Host) (s : Server) (a : Action) (p : List ℕ) (r : Resource) :
    Prop where
  reachable : Reachable host s
  enabled : s.Enabled a
  absent : labelAt p s.data.forest = none
  present : labelAt p (perform host a s).data.forest = some r

/-- The action `a` is a `CMD_CREATE` of a session of `user`, who is a member of the `i`-th team,
`team`, and the creator of the resource `r`, if it has one. -/
structure Authored (s : Server) (a : Action) (i : ℕ) (r : Resource) (user : Str) (team : Team) :
    Prop where
  frame : ∃ fd payload, a = .frame fd Command.create.code payload
  session : s.data.sessions[a.fd]? = some user
  place : s.data.teams[i]? = some team
  member : user ∈ team.memberUuids
  creator : ∀ c ∈ r.creator, c.toList = user

variable {host : ℕ → Host} {s : Server}

/-- Everything there is has appeared. -/
theorem Reachable.exists_appears (h : Reachable host s) {p : List ℕ} {r : Resource}
    (hr : labelAt p s.data.forest = some r) :
    ∃ s₀ a, Appears host s₀ a p r ∧ Steps host (perform host a s₀) s := by
  induction h with
  | refl =>
    cases p with
    | nil => cases hr
    | cons i p => cases hr
  | @tail s s' hs hstep ih =>
    obtain ⟨a, ha, rfl⟩ := hstep
    rcases hbefore : labelAt p s.data.forest with - | r'
    · exact ⟨s, a, ⟨hs, ha, hbefore, hr⟩, .refl⟩
    · have hkept := (effect_perform host (Reachable.sessionsWf hs) a).resources p r' hbefore
      obtain rfl : r' = r := Option.some.inj (hkept.symm.trans hr)
      obtain ⟨s₀, a₀, hfirst, hsteps⟩ := ih hbefore
      exact ⟨s₀, a₀, hfirst, hsteps.tail ⟨a, ha, rfl⟩⟩

/-- What appears inside a team is authored. -/
theorem Appears.authored {a : Action} {i : ℕ} {q : List ℕ} {r : Resource} (hq : q ≠ [])
    (h : Appears host s a (i :: q) r) : ∃ user team, Authored s a i r user team := by
  have hwf := h.reachable.sessionsWf
  have hpresent := h.present
  obtain ⟨answer, hserves, hdata⟩ | ⟨-, hdata⟩ := serves_perform host hwf a
  · rw [hdata] at hpresent
    obtain ⟨hcmd, user, t, hs, ht, hmember, hcreator⟩ := hserves.appears hq h.absent hpresent
    refine ⟨user, t, ⟨a.fd, a.request.2, Action.eq_frame_of_request hcmd (by decide)⟩, hs, ht,
      hmember, fun c hc ↦ ?_⟩
    rw [hcreator c hc, toList_fill_of_length (hwf a.fd user hs)]
  · rw [hdata] at hpresent
    exact absurd (h.absent.symm.trans hpresent) (by simp)

/-- The user of a session is an entry of the users, in every later state. -/
theorem Reachable.exists_user (h : Reachable host s) {fd : Fd} {user : Str}
    (hs : s.data.sessions[fd]? = some user) {s' : Server} (hsteps : Steps host s s') :
    ∃ u ∈ s'.data.users, u.uuid.str = user := by
  obtain ⟨uuid, huuid, rfl⟩ := h.registry.session fd user hs
  obtain ⟨v, hv, rfl⟩ := List.mem_map.1 huuid
  have hmem : (v.uuid, v.name) ∈ identities s'.data :=
    (h.grows hsteps).1.subset (List.mem_map_of_mem (f := fun u : User ↦ (u.uuid, u.name)) hv)
  obtain ⟨u, hu, heq⟩ := List.mem_map.1 hmem
  exact ⟨u, hu, congrArg (fun x ↦ x.1.str) heq⟩

/-- A team stays at its place. -/
theorem Reachable.exists_team (h : Reachable host s) {i : ℕ} {t : Team}
    (ht : s.data.teams[i]? = some t) {s' : Server} (hsteps : Steps host s s') :
    ∃ t', s'.data.teams[i]? = some t' ∧ t'.uuid = t.uuid := by
  have hlabel : labelAt [i] s.data.forest = some (.team t.record) :=
    labelAt_cons ((List.getElem?_map ..).trans (congrArg (Option.map Team.tree) ht)) []
  obtain ⟨x, hx, hrecord⟩ := exists_of_labelAt ((h.grows hsteps).2.2 _ _ hlabel)
  obtain ⟨t', ht', rfl⟩ := getElem?_forest hx
  refine ⟨t', ht', ?_⟩
  have hbytes : t'.uuid.bytes = t.uuid.bytes :=
    congrArg DescribedRecord.uuid (Resource.team.inj (Option.some.inj hrecord))
  exact Uuid.str_injective (congrArg List.Vector.toList hbytes)

/-- **Write authorisation and authorship.** Every channel, thread or reply `r` of a reachable state,
in the `i`-th team, has appeared in a step of the run; and whatever step it appeared in was a
`CMD_CREATE` on a connection whose session user was a member of that team then, who is the creator
stored with `r`, and who is one of the users ever after. -/
theorem write_authorisation (h : Reachable host s) {i : ℕ} {q : List ℕ} {r : Resource} (hq : q ≠ [])
    (hr : labelAt (i :: q) s.data.forest = some r) :
    (∃ s₀ a, Appears host s₀ a (i :: q) r ∧ Steps host (perform host a s₀) s) ∧
    ∀ s₀ a, Appears host s₀ a (i :: q) r → Steps host (perform host a s₀) s →
      ∃ user team, Authored s₀ a i r user team ∧
        (∃ t, s.data.teams[i]? = some t ∧ t.uuid = team.uuid) ∧
        ∀ s', Steps host s₀ s' → ∃ u ∈ s'.data.users, u.uuid.str = user := by
  refine ⟨h.exists_appears hr, fun s₀ a happears hsteps ↦ ?_⟩
  obtain ⟨user, team, hauthored⟩ := happears.authored hq
  have hreachable := happears.reachable
  exact ⟨user, team, hauthored,
    hreachable.exists_team hauthored.place (.head ⟨a, happears.enabled, rfl⟩ hsteps),
    fun s' hs' ↦ hreachable.exists_user hauthored.session hs'⟩

/-- The user of `enterTeam` leaves the team, joins it again, and creates a channel in the context
that the connection still has. -/
def rejoinThenCreate : List Action :=
  enterTeam ++ request 4 .unsubscribe (plainUuid 1).str ++ request 4 .subscribe (plainUuid 1).str ++
    request 4 .create (List.replicate 287 0x63)

/-- The channel was written by a member, who is still one of the users. -/
theorem write_authorisation_rejoinThenCreate :
    ∃ r, labelAt [0, 0] (execute plainHost rejoinThenCreate Server.init).data.forest = some r ∧
      ∃ s₀ a user team, Appears plainHost s₀ a [0, 0] r ∧ Authored s₀ a 0 r user team ∧
        ∃ u ∈ (execute plainHost rejoinThenCreate Server.init).data.users, u.uuid.str = user := by
  have hexecutable : Executable plainHost rejoinThenCreate Server.init := by decide +kernel
  have hsome :
      (labelAt [0, 0] (execute plainHost rejoinThenCreate Server.init).data.forest).isSome := by
    decide +kernel
  obtain ⟨r, hr⟩ := Option.isSome_iff_exists.1 hsome
  obtain ⟨⟨s₀, a, happears, hsteps⟩, hall⟩ :=
    write_authorisation (reachable_execute hexecutable) (List.cons_ne_nil 0 []) hr
  obtain ⟨user, team, hauthored, -, husers⟩ := hall s₀ a happears hsteps
  exact ⟨r, hr, s₀, a, user, team, happears, hauthored,
    husers _ (.head ⟨a, happears.enabled, rfl⟩ hsteps)⟩

end Server

end MyTeams
