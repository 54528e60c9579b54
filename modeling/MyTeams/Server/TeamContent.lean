import MyTeams.Server.OneFrame
import MyTeams.Server.Secrets

/-!
# The content of a team

Two runs get the same inputs, but for the payload of one `CMD_CREATE` frame that is processed in a
context inside a team. What they store differs inside that team only, and whatever a step sends to a
connection that has after it no session, or one of an outsider, is the same.

An outsider was never a member (`Outsider`). It gets no event of the team; and what a query shows it
depends on the context of its connection, which is never inside the team (`ContextsOutside`):
`CMD_USE` grants such a context to members only, and neither a login nor a new connection takes over
the context of whoever used the descriptor before.
-/

namespace MyTeams

open Lockstep

/-! ### Contexts of outsiders -/

/-- Members of the team are no outsiders. -/
def MembersInside (Out : Str → Prop) (k : Str) (data : ServerData) : Prop :=
  ∀ t ∈ data.teams, t.uuid.str = k → ∀ u ∈ t.memberUuids, ¬ Out u

/-- **No outsider has a context inside the team.** -/
def ContextsOutside (Out : Str → Prop) (k : Str) (data : ServerData) : Prop :=
  ∀ (d : Fd) u ctx, data.sessions[d]? = some u → Out u → data.clientContexts[d]? = some ctx →
    ctx.level ≠ useNone → ctx.teamUuid.toList ≠ k

section Outside

variable {Out : Str → Prop} {k : Str} {fd : Fd} {payload : List UInt8} {data after : ServerData}
  {cmd : Option Command}

theorem ContextsOutside.change (h : ContextsOutside Out k data)
    (hmembers : MembersInside Out k data) (hchange : Change fd payload data cmd after) :
    ContextsOutside Out k after := by
  cases hchange with
  | login =>
    intro d u ctx hs hu hctx hlevel
    rcases eq_or_ne d fd with rfl | hd
    · -- the context of a login is at level `USE_NONE`
      rw [loginData, IntMap.get_insert_self] at hctx
      exact absurd (Option.some.inj hctx ▸ rfl) hlevel
    · rw [loginData, IntMap.get_insert_of_ne _ hd] at hs hctx
      exact h d u ctx hs hu hctx hlevel
  | logout =>
    intro d u ctx hs hu hctx hlevel
    exact h d u ctx ((IntMap.get_erase_eq_some_iff _).1 hs).2 hu
      ((IntMap.get_erase_eq_some_iff _).1 hctx).2 hlevel
  | @use user ctx' hs hreq hgrant =>
    intro d u ctx hs' hu hctx hlevel hk
    rcases eq_or_ne d fd with rfl | hd
    · obtain rfl := Option.some.inj (hs.symm.trans hs')
      rw [IntMap.get_insert_self] at hctx
      obtain rfl := Option.some.inj hctx
      rcases hgrant.2 with hnone | ⟨t, ht, hmember⟩
      · exact hlevel hnone
      · have huuid : t.uuid.str = k := (str_of_findTeamByUuid ht).trans hk
        exact hmembers t (mem_teams_of_findTeam ht) huuid _ hmember hu
    · rw [IntMap.get_insert_of_ne _ hd] at hctx
      exact h d u ctx hs' hu hctx hlevel hk
  | none | message | addMember | removeMember | addTeam | addChannel | addThread | addReply =>
    exact h

end Outside

namespace Server

variable {host : ℕ → Host} {s : Server} {Out : Str → Prop} {k : Str}

theorem along_contextsOutside {as : List Action} (hs : Reachable host s)
    (hexecutable : Executable host as s) (h : ContextsOutside Out k s.data)
    (hmembers : Along (perform host) (fun s _ ↦ MembersInside Out k s.data) as s) :
    Along (perform host) (fun s _ ↦ ContextsOutside Out k s.data) as s := by
  induction as generalizing s with
  | nil => trivial
  | cons a as ih =>
    exact ⟨h, ih (hs.step hexecutable.1) hexecutable.2
      (h.change hmembers.1 (change_perform hs.sessionsWf a)) hmembers.2⟩

/-- After the step the connection has no session, or one of an outsider. -/
def OutsideAfter (host : ℕ → Host) (Out : Str → Prop) (s : Server) (a : Action) (d : Fd) : Prop :=
  ∀ u, (perform host a s).data.sessions[d]? = some u → Out u

/-- A request that leaves the sessions alone shuts out those who are outside after it. -/
theorem shuts_of_outside (hs : Reachable host s) (hmembers : MembersInside Out k s.data)
    (hcontexts : ContextsOutside Out k s.data) {a : Action} (hlogin : a.request.1 ≠ some .login)
    (hlogout : a.request.1 ≠ some .logout) : Shuts k (OutsideAfter host Out s a) s.data := by
  have hsessions : (perform host a s).data.sessions = s.data.sessions :=
    sessions_of_request (change_perform hs.sessionsWf a) hlogin hlogout
  refine ⟨fun d u hu t ht hk hmember hout ↦ ?_, fun d ctx hctx hlevel hk hout ↦ ?_⟩
  · exact hmembers t ht hk u hmember (hout u (hsessions ▸ hu))
  · have hkey : s.data.sessions.contains d = true :=
      (hs.registry.keys d).trans ((IntMap.contains_iff _).2 ⟨ctx, hctx⟩)
    obtain ⟨u, hu⟩ := (IntMap.contains_iff _).1 hkey
    exact hcontexts d u ctx hu (hout u (hsessions ▸ hu)) hctx hlevel hk

/-- The connection has a context inside the team, at one of the three levels there are. -/
def ContextInside (k : Str) (c : Fd) (data : ServerData) : Prop :=
  ∃ ctx, data.clientContexts[c]? = some ctx ∧ ctx.level ∈ [useTeam, useChannel, useThread] ∧
    ctx.teamUuid.toList = k

/-- What is known at every step: outsiders are outside, and the frame `f`, when its turn comes, is
processed inside. -/
def Guarded (Out : Str → Prop) (k : Str) (c : Fd) (all : List Frame) (f : Frame) (s : Server)
    (a : Action) : Prop :=
  (MembersInside Out k s.data ∧ ContextsOutside Out k s.data) ∧
    (a = .frame c f.1 f.2 → framesOn c s.trace = all → ContextInside k c s.data)

/-- **The handlers keep the content of a team hidden** from outsiders. -/
theorem keeps_teamContent (c : Fd) (all : List Frame) (f : Frame) :
    Keeps host (SameBut k Eq) (OutsideAfter host Out) (Guarded Out k c all f) where
  frame s data fd cmd payload hs hguarded h := by
    obtain ⟨⟨hmembers, hcontexts⟩, -⟩ := hguarded
    refine (frameOutcome_alike h (host s.served) cmd payload
      (@shuts_of_outside host s Out k hs hmembers hcontexts (.frame fd cmd payload))
      (handleSend_alike h (fun heq m ↦ congrArg (· ++ [m]) heq) _) fun _ user ↦ ?_).outcomeAlike
    refine .withSession h fun self _ ↦ .withUuid36 h _ (.withUser h _ _ fun u _ ↦ ?_)
    rw [← h.messages]
    exact .of_result h rfl
  logout := SameBut.logoutAlike

/-- **The frame that differs** is dispatched alike. -/
theorem hides_create {c : Fd} {all : List Frame} {p p' : List UInt8}
    (hlength : p'.length = p.length) :
    Hides host (SameBut k Eq) (OutsideAfter host Out) (Guarded Out k c all (Command.create.code, p))
      c all (Command.create.code, p) (Command.create.code, p') := by
  rintro s hs ⟨⟨hmembers, hcontexts⟩, hmoment⟩ hall
  obtain ⟨ctx, hctx, hlevel, hk⟩ := hmoment rfl hall
  have hrequest : (Action.frame c Command.create.code p).request.1 = some .create := by
    show Command.ofCode? Command.create.code = some .create
    exact Command.ofCode?_code _
  have hshut := @shuts_of_outside host s Out k hs hmembers hcontexts
    (.frame c Command.create.code p) (by rw [hrequest]; simp) (by rw [hrequest]; simp)
  have h : SameBut k Eq s.data s.data := .refl (fun _ ↦ rfl) _
  refine (Outcome.Alike.ite Iff.rfl (fun _ ↦ .error h _ _) fun _ ↦ ?_).outcomeAlike
  dsimp only
  rw [Command.ofCode?_code]
  dsimp only [handle]
  rw [extractSv_whole, extractSv_whole]
  refine handleCreate_alike h hshut _ hlength (.inr fun ctx' hctx' ↦ ⟨fun hnone ↦ ?_, ?_⟩)
  · obtain rfl := Option.some.inj (hctx.symm.trans hctx')
    rw [hnone] at hlevel
    revert hlevel
    decide
  · obtain rfl := Option.some.inj (hctx.symm.trans hctx')
    exact hk

/-- Never a member of the team during the run. -/
def Outsider (host : ℕ → Host) (is : List Input) (k : Str) (u : Str) : Prop :=
  ∀ i, ∀ t ∈ (stateAt host is i).data.teams, t.uuid.str = k → u ∉ t.memberUuids

/-- **Team content.** The inputs of two runs differ in the payload of a `CMD_CREATE` frame that is
processed inside the team `k`: at every point their data differs at most inside that team, and what
is queued to a connection by steps after which it has no session, or one of an outsider, is the
same. -/
theorem team_content (host : ℕ → Host) {k : Str} {c : Fd} {all : List Frame} {p p' : List UInt8}
    {is is' : List Input}
    (hdiffer : DifferInFrame host c all (Command.create.code, p) (Command.create.code, p') is is')
    (hadmissible : Admissible host is Server.init)
    (hlevel : ∀ i, DispatchedAt host c all (Command.create.code, p) is i →
      ContextInside k c (stateAt host is i).data) :
    (actions host is' Server.init).length = (actions host is Server.init).length ∧
      (∀ i, SameBut k Eq (stateAt host is i).data (stateAt host is' i).data) ∧
      ∀ d i j, i ≤ j →
        (∀ m, i ≤ m → m < j → ∀ u, (stateAt host is (m + 1)).data.sessions[d]? = some u →
          Outsider host is k u) →
        newMessages d (stateAt host is' i) (stateAt host is' j) =
          newMessages d (stateAt host is i) (stateAt host is j) := by
  have hmembers : Along (perform host) (fun s _ ↦ MembersInside (Outsider host is k) k s.data)
      (actions host is Server.init) Server.init :=
    along_iff.2 fun i _ _ t ht hk u hu hout ↦ hout i t ht hk hu
  have hnone : ContextsOutside (Outsider host is k) k Server.init.data := by
    intro d u ctx hs
    cases Std.ExtTreeMap.getElem?_empty.symm.trans hs
  -- an outsider never gets a context inside the team
  have hcontexts := along_contextsOutside Reachable.init (executable_allActions hadmissible) hnone
    hmembers
  have hguarded : Along (perform host)
      (Guarded (Outsider host is k) k c all (Command.create.code, p)) (actions host is Server.init)
      Server.init :=
    along_iff.2 fun i a ha ↦ ⟨⟨along_iff.1 hmembers i a ha, along_iff.1 hcontexts i a ha⟩,
      fun hframe hall ↦ hlevel i ⟨hframe ▸ ha, hall⟩⟩
  have hrun := hdiffer.indistinguishable hadmissible (keeps_teamContent c all _)
    (SameBut.refl fun _ ↦ rfl) (hides_create hdiffer.length_eq) hguarded
  refine ⟨hrun.length_eq.symm, hrun.states, fun d i j hij hlow ↦ hrun.newMessages_eq hij
    fun m a him hmj ha u hu ↦ hlow m him hmj u ?_⟩
  rw [stateAt, List.take_add_one, ha, execute_append]
  exact hu

/-- What arrives on 4 and on the other connections: `b` logs in on 5; `a`, on 4, creates a team,
uses it and creates a channel in it. -/
def channeled (p : List UInt8) : List Input :=
  [.client 4 (.read (makeMessage Command.login.code [97])), .accept 5,
    .client 5 (.read (makeMessage Command.login.code [98])),
    .client 4 (.read (makeMessage Command.create.code (List.replicate 287 116))),
    .client 4 (.read (makeMessage Command.use.code (useTeam :: (plainUuid 2).str))),
    .client 4 (.read (makeMessage Command.create.code p))]

/-- The run of `channeled`; after it `b` lists the teams. -/
def channelCreated (p : List UInt8) : List Input :=
  .accept 4 :: (channeled p ++ [.client 5 (.read (makeMessage Command.list.code []))])

/-- What is dispatched on 4 before the channel is created. -/
def beforeChannel : List Frame :=
  [(Command.login.code, [97]), (Command.create.code, List.replicate 287 116),
    (Command.use.code, useTeam :: (plainUuid 2).str)]

/-- Connection 5 is sent the same whatever channel `a` creates. -/
theorem team_content_channelCreated :
    newMessages 5 (stateAt plainHost (channelCreated (List.replicate 287 2)) 0)
        (stateAt plainHost (channelCreated (List.replicate 287 2)) 14) =
      newMessages 5 (stateAt plainHost (channelCreated (List.replicate 287 1)) 0)
        (stateAt plainHost (channelCreated (List.replicate 287 1)) 14) := by
  have hconnection (p : List UInt8) : ∀ i ∈ channeled p, i ≠ .accept 4 := by
    simp [channeled, -List.reduceReplicate]
  have hdiffer : DifferInFrame plainHost 4 beforeChannel
      (Command.create.code, List.replicate 287 1) (Command.create.code, List.replicate 287 2)
      (channelCreated (List.replicate 287 1)) (channelCreated (List.replicate 287 2)) := by
    refine ⟨[], _, _, _, _, rfl, rfl, rfl, ?_, hconnection _,
      ⟨[], by decide +kernel, by decide +kernel⟩, ?_, rfl, by decide +kernel⟩
    · exact .cons (.same _) (.cons (.same _) (.cons (.same _) (.cons (.same _) (.cons (.same _)
        (.cons (.read (by decide +kernel)) .nil)))))
    · decide +kernel
  have hlength : (actions plainHost (channelCreated (List.replicate 287 1)) Server.init).length =
      14 := by
    decide +kernel
  have hlast {i : ℕ} (hi : 14 ≤ i) : stateAt plainHost (channelCreated (List.replicate 287 1)) i =
      stateAt plainHost (channelCreated (List.replicate 287 1)) 14 := by
    rw [stateAt_of_le plainHost (hlength ▸ hi), hlength]
  have hmoments : ∀ i ≤ 14,
      framesOn 4 (stateAt plainHost (channelCreated (List.replicate 287 1)) i).trace =
        beforeChannel →
      (stateAt plainHost (channelCreated (List.replicate 287 1)) i).data.clientContexts[(4 : Fd)]? =
        some { ClientContext.init with level := useTeam, teamUuid := (plainUuid 2).bytes } := by
    decide +kernel
  have houtside : ∀ i ≤ 14,
      ∀ t ∈ (stateAt plainHost (channelCreated (List.replicate 287 1)) i).data.teams,
        (plainUuid 1).str ∉ t.memberUuids := by
    decide +kernel
  have hsessions : ∀ i < 14, ∀ u ∈
      (stateAt plainHost (channelCreated (List.replicate 287 1)) (i + 1)).data.sessions[(5 : Fd)]?,
        u = (plainUuid 1).str := by
    decide +kernel
  have hlevel (i : ℕ) (hi : DispatchedAt plainHost 4 beforeChannel
      (Command.create.code, List.replicate 287 1) (channelCreated (List.replicate 287 1)) i) :
      ContextInside (plainUuid 2).str 4
        (stateAt plainHost (channelCreated (List.replicate 287 1)) i).data := by
    have hall := hi.2
    rcases Nat.le_total i 14 with hle | hle
    · exact ⟨_, hmoments i hle hall, by decide, rfl⟩
    · rw [hlast hle] at hall ⊢
      exact ⟨_, hmoments 14 le_rfl hall, by decide, rfl⟩
  have houtsider : Outsider plainHost (channelCreated (List.replicate 287 1)) (plainUuid 2).str
      (plainUuid 1).str := by
    intro i t ht _
    rcases Nat.le_total i 14 with hle | hle
    · exact houtside i hle t ht
    · exact houtside 14 le_rfl t (hlast hle ▸ ht)
  obtain ⟨-, -, hqueued⟩ := team_content plainHost hdiffer (by decide +kernel) hlevel
  exact hqueued 5 0 14 (by decide) fun i _ hi u hu ↦ hsessions i hi u hu ▸ houtsider

end Server

end MyTeams
