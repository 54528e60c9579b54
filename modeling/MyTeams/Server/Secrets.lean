import MyTeams.Server.Disclosure
import MyTeams.Server.TwoRuns

/-!
# Data that differs in a secret

What two runs may store differently: the content of one team, down to the texts of its channels,
threads and replies (`Team.Alike`), and something about the private messages, which is left open
(`M`). `SameBut k M` says that the data differs in nothing else.

The handlers keep this relation (`handle_alike`). They answer everybody alike who is `Low`, provided
nobody who is `Low` is a member of the team or has a context in it (`Shuts`); to the others they
send messages of the same length.
-/

namespace MyTeams

open ByteField FirstMatch

/-! ### Relations between records -/

/-- Threads with as many replies. -/
structure Thread.Alike (t t' : Thread) : Prop where
  uuid : t'.uuid = t.uuid
  replies : t'.replies.length = t.replies.length

/-- Channels with threads that are alike. -/
structure Channel.Alike (c c' : Channel) : Prop where
  uuid : c'.uuid = c.uuid
  threads : List.Forall₂ Thread.Alike c.threads c'.threads

/-- The same team with channels that are alike; the same channels, if its uuid is not `k`. -/
structure Team.Alike (k : Str) (t t' : Team) : Prop where
  outside : t' = { t with channels := t'.channels }
  channels : List.Forall₂ Channel.Alike t.channels t'.channels
  same : t.uuid.str ≠ k → t'.channels = t.channels

theorem Thread.Alike.refl (t : Thread) : t.Alike t := ⟨rfl, rfl⟩

theorem Channel.Alike.refl (c : Channel) : c.Alike c :=
  ⟨rfl, List.forall₂_same.2 fun t _ ↦ .refl t⟩

theorem Team.Alike.refl (k : Str) (t : Team) : t.Alike k t :=
  ⟨rfl, List.forall₂_same.2 fun c _ ↦ .refl c, fun _ ↦ rfl⟩

section Teams

variable {k : Str} {t t' : Team}

theorem Team.Alike.uuid (h : t.Alike k t') : t'.uuid = t.uuid := by rw [h.outside]

theorem Team.Alike.members (h : t.Alike k t') : t'.memberUuids = t.memberUuids := by rw [h.outside]

theorem Team.Alike.eq (h : t.Alike k t') (ht : t.uuid.str ≠ k) : t' = t := by
  rw [h.outside, h.same ht]

theorem Team.Alike.appendTeam (h : t.Alike k t') (out : List UInt8) :
    MyTeams.appendTeam out t' = MyTeams.appendTeam out t := by
  rw [h.outside]
  rfl

theorem Team.Alike.isSubscribedTo (h : t.Alike k t') (u : Str) :
    MyTeams.isSubscribedTo t' u = MyTeams.isSubscribedTo t u := by
  rw [MyTeams.isSubscribedTo, h.members]
  rfl

/-- The same change of the members. -/
theorem Team.Alike.setMembers (h : t.Alike k t') (f : List Str → List Str) :
    Team.Alike k { t with memberUuids := f t.memberUuids }
      { t' with memberUuids := f t'.memberUuids } where
  outside := by rw [h.outside]
  channels := h.channels
  same := h.same

end Teams

theorem foldl_appendTeam_eq {k : Str} {l l' : List Team} (h : List.Forall₂ (Team.Alike k) l l')
    (out : List UInt8) : l'.foldl appendTeam out = l.foldl appendTeam out := by
  induction h generalizing out with
  | nil => rfl
  | cons ht _ ih => rw [List.foldl_cons, List.foldl_cons, ih, ht.appendTeam]

/-- **The data differs at most** in the content of the team `k`, and in messages related by `M`. -/
structure SameBut (k : Str) (M : List Message → List Message → Prop) (data data' : ServerData) :
    Prop where
  outside : data' = { data with teams := data'.teams, messages := data'.messages }
  teams : List.Forall₂ (Team.Alike k) data.teams data'.teams
  messages : M data.messages data'.messages

section Data

variable {k : Str} {M : List Message → List Message → Prop} {data data' : ServerData}

theorem SameBut.users (h : SameBut k M data data') : data'.users = data.users := by rw [h.outside]

theorem SameBut.sessions (h : SameBut k M data data') : data'.sessions = data.sessions := by
  rw [h.outside]

theorem SameBut.clientContexts (h : SameBut k M data data') :
    data'.clientContexts = data.clientContexts := by
  rw [h.outside]

theorem SameBut.cases (h : SameBut k M data data') :
    ∃ teams messages, data' = { data with teams := teams, messages := messages } ∧
      List.Forall₂ (Team.Alike k) data.teams teams ∧ M data.messages messages :=
  ⟨_, _, h.outside, h.teams, h.messages⟩

theorem SameBut.refl (hM : ∀ l, M l l) (data : ServerData) : SameBut k M data data :=
  ⟨rfl, List.forall₂_same.2 fun t _ ↦ .refl k t, hM _⟩

/-- Without a team that may differ, only the messages do. -/
theorem SameBut.of_nil (h : SameBut [] M data data') :
    data' = { data with messages := data'.messages } := by
  have hteams : data'.teams = data.teams := by
    refine (List.forall₂_eq_eq_eq ▸ (h.teams.imp fun t t' ht ↦ ?_ : List.Forall₂ Eq _ _) :).symm
    exact (ht.eq fun hnil ↦ absurd (congrArg List.length hnil) (by simp)).symm
  rw [h.outside, hteams]

end Data

/-! ### Relations between outcomes -/

/-- Events for the same descriptors, of the same length; the same event, if one of them is low. -/
structure Push.Alike (Low : Fd → Prop) (p p' : Push) : Prop where
  fds : p'.fds = p.fds
  length : p'.packet.bytes.length = p.packet.bytes.length
  low : ∀ d ∈ p.fds, Low d → p'.packet.bytes = p.packet.bytes

/-- Outcomes for `fd` that nobody who is low can tell apart. -/
structure Outcome.Alike (k : Str) (M : List Message → List Message → Prop) (fd : Fd)
    (Low : Fd → Prop) (o o' : Outcome) : Prop where
  data : SameBut k M o.data o'.data
  length : o'.result.response.bytes.length = o.result.response.bytes.length
  low : Low fd → o'.result.response.bytes = o.result.response.bytes
  pushes : List.Forall₂ (Push.Alike Low) o.result.pushes o'.result.pushes

section Outcomes

variable {k : Str} {M : List Message → List Message → Prop} {fd : Fd} {Low : Fd → Prop}
  {data data' : ServerData} {o o' : Outcome}

theorem pushes_alike {ps ps' : List Push} (h : List.Forall₂ (Push.Alike Low) ps ps') (d : Fd) :
    (addressedTo d (deliveries fd ps')).flatten.length =
        (addressedTo d (deliveries fd ps)).flatten.length ∧
      (Low d → addressedTo d (deliveries fd ps') = addressedTo d (deliveries fd ps)) := by
  rw [addressedTo_deliveries, addressedTo_deliveries]
  split_ifs
  · exact ⟨rfl, fun _ ↦ rfl⟩
  induction h with
  | nil => exact ⟨rfl, fun _ ↦ rfl⟩
  | @cons p p' ps ps' hp _ ih =>
    rw [List.flatMap_cons, List.flatMap_cons, hp.fds]
    refine ⟨?_, fun hd ↦ ?_⟩
    · rw [List.flatten_append, List.flatten_append, List.length_append, List.length_append, ih.1]
      simp [List.length_flatten, hp.length]
    · rw [ih.2 hd]
      rcases Nat.eq_zero_or_pos (p.fds.count d) with hzero | hpos
      · rw [hzero]
        rfl
      · rw [hp.low d (List.count_pos_iff.1 hpos) hd]

/-- Outcomes that are alike queue alike. -/
theorem Outcome.Alike.outcomeAlike (h : o.Alike k M fd Low o') :
    OutcomeAlike (SameBut k M) fd Low o o' := by
  have hempty : o'.result.response.bytes.isEmpty = o.result.response.bytes.isEmpty := by
    rw [Bool.eq_iff_iff, List.isEmpty_iff_length_eq_zero, List.isEmpty_iff_length_eq_zero, h.length]
  refine ⟨h.data, fun d ↦ ?_, fun d hd ↦ ?_⟩
  · rw [Result.sends, Result.sends, addressedTo_append, addressedTo_append, List.flatten_append,
      List.flatten_append, List.length_append, List.length_append, (pushes_alike h.pushes d).1,
      hempty]
    congr 1
    split_ifs
    · rfl
    · rw [addressedTo_cons, addressedTo_cons]
      split_ifs
      · simp [h.length]
      · rfl
  · rw [Result.sends, Result.sends, addressedTo_append, addressedTo_append,
      (pushes_alike h.pushes d).2 hd, hempty]
    congr 1
    split_ifs
    · rfl
    · rw [addressedTo_cons, addressedTo_cons]
      split_ifs with heq
      · obtain rfl : fd = d := heq
        rw [h.low hd]
      · rfl

theorem pushes_alike_refl (ps : List Push) : List.Forall₂ (Push.Alike Low) ps ps :=
  List.forall₂_same.2 fun _ _ ↦ ⟨rfl, rfl, fun _ _ _ ↦ rfl⟩

theorem Outcome.Alike.of_result (hdata : SameBut k M o.data o'.data)
    (hresult : o'.result = o.result) :
    o.Alike k M fd Low o' := by
  refine ⟨hdata, by rw [hresult], fun _ ↦ by rw [hresult], ?_⟩
  rw [hresult]
  exact pushes_alike_refl _

theorem Outcome.Alike.error (h : SameBut k M data data') (e : Error) (p : List UInt8) :
    (Outcome.error data e p).Alike k M fd Low (Outcome.error data' e p) :=
  .of_result h rfl

theorem Outcome.Alike.answer (h : SameBut k M data data') (r : Response) {p p' : List UInt8}
    (hlength : p'.length = p.length) (hlow : Low fd → p' = p) :
    (Outcome.answer data r p).Alike k M fd Low (Outcome.answer data' r p') where
  data := h
  length := by
    show (makeMessage _ p').length = (makeMessage _ p).length
    rw [length_makeMessage, length_makeMessage, hlength]
  low hfd := by
    show makeMessage _ p' = makeMessage _ p
    rw [hlow hfd]
  pushes := .nil

/-! ### The guards -/

theorem Outcome.Alike.ite {c c' : Prop} [Decidable c] [Decidable c'] {p p' : Outcome} (hc : c' ↔ c)
    (pos : c → o.Alike k M fd Low o') (neg : ¬ c → p.Alike k M fd Low p') :
    (if c then o else p).Alike k M fd Low (if c' then o' else p') := by
  by_cases h : c
  · rw [if_pos h, if_pos (hc.2 h)]
    exact pos h
  · rw [if_neg h, if_neg fun h' ↦ h (hc.1 h')]
    exact neg h

theorem Outcome.Alike.withSession (h : SameBut k M data data') {f f' : Str → Outcome}
    (hf : ∀ u, data.sessions[fd]? = some u → (f u).Alike k M fd Low (f' u)) :
    (withSession data fd f).Alike k M fd Low (withSession data' fd f') := by
  rw [MyTeams.withSession, MyTeams.withSession, h.sessions]
  rcases hs : data.sessions[fd]? with - | u
  · exact .error h _ _
  · exact hf u hs

theorem Outcome.Alike.withContext (h : SameBut k M data data') {f f' : ClientContext → Outcome}
    (hf : ∀ ctx, data.clientContexts[fd]? = some ctx → (f ctx).Alike k M fd Low (f' ctx)) :
    (withContext data fd f).Alike k M fd Low (withContext data' fd f') := by
  rw [MyTeams.withContext, MyTeams.withContext, h.clientContexts]
  rcases hctx : data.clientContexts[fd]? with - | ctx
  · exact .error h _ _
  · exact hf ctx hctx

theorem Outcome.Alike.withUuid36 (h : SameBut k M data data') (uuid : Str)
    (ho : o.Alike k M fd Low o') :
    (withUuid36 data uuid o).Alike k M fd Low (withUuid36 data' uuid o') := by
  rw [MyTeams.withUuid36, MyTeams.withUuid36]
  split_ifs
  · exact .error h _ _
  · exact ho

theorem Outcome.Alike.withUser (h : SameBut k M data data') (uuid : Str) (p : List UInt8)
    {f f' : User → Outcome}
    (hf : ∀ u, findUserByUuid data uuid = some u → (f u).Alike k M fd Low (f' u)) :
    (withUser data uuid p f).Alike k M fd Low (withUser data' uuid p f') := by
  have hsame : findUserByUuid data' uuid = findUserByUuid data uuid := by
    rw [findUserByUuid, findUserByUuid, h.users]
  rw [MyTeams.withUser, MyTeams.withUser, hsame]
  rcases hu : findUserByUuid data uuid with - | u
  · exact .error h _ _
  · exact hf u hu

theorem Outcome.Alike.withTeam (h : SameBut k M data data') (uuid : Str) (p : List UInt8)
    {f f' : Team → Outcome}
    (hf : ∀ t t', t ∈ data.teams → t.uuid.str = uuid → t.Alike k t' →
      (f t).Alike k M fd Low (f' t')) :
    (withTeam data uuid p f).Alike k M fd Low (withTeam data' uuid p f') := by
  have hfind : Option.Rel (Team.Alike k) (findTeamByUuid data uuid)
      (findTeamByUuid data' uuid) := by
    rw [findTeamByUuid, findTeamByUuid]
    split_ifs
    · exact rel_find? h.teams fun t t' ht ↦ by rw [ht.uuid]
    · exact .none
  rw [MyTeams.withTeam, MyTeams.withTeam]
  generalize hteam : findTeamByUuid data uuid = x at hfind ⊢
  generalize findTeamByUuid data' uuid = x' at hfind ⊢
  cases hfind with
  | none => exact .error h _ _
  | some ht => exact hf _ _ (mem_teams_of_findTeam hteam) (str_of_findTeamByUuid hteam) ht

theorem Outcome.Alike.withSubscription (h : SameBut k M data data') {t t' : Team}
    (ht : t.Alike k t') (u : Str) (ho : u ∈ t.memberUuids → o.Alike k M fd Low o') :
    (withSubscription data t u o).Alike k M fd Low (withSubscription data' t' u o') := by
  rw [MyTeams.withSubscription, MyTeams.withSubscription, ht.isSubscribedTo]
  split_ifs with hsub
  · exact .error h _ _
  · refine ho (isSubscribedTo_iff.1 ?_)
    simpa using hsub

/-- A channel of a team that those who are low do not know, or that is the same. -/
theorem Outcome.Alike.withChannel (h : SameBut k M data data') {t t' : Team} (ht : t.Alike k t')
    (hlow : Low fd → t' = t) (uuid : Str) (p : List UInt8) {f f' : Channel → Outcome}
    (hf : ∀ c c', c.Alike c' → (Low fd → c' = c) → (f c).Alike k M fd Low (f' c')) :
    (withChannel data t uuid p f).Alike k M fd Low (withChannel data' t' uuid p f') := by
  have hfind : Option.Rel Channel.Alike (findChannelByUuid t uuid) (findChannelByUuid t' uuid) := by
    rw [findChannelByUuid, findChannelByUuid]
    split_ifs
    · exact rel_find? ht.channels fun c c' hc ↦ by rw [hc.uuid]
    · exact .none
  have hsame : Low fd → findChannelByUuid t' uuid = findChannelByUuid t uuid :=
    fun hfd ↦ by rw [hlow hfd]
  rw [MyTeams.withChannel, MyTeams.withChannel]
  generalize findChannelByUuid t uuid = x at hfind hsame ⊢
  generalize findChannelByUuid t' uuid = x' at hfind hsame ⊢
  cases hfind with
  | none => exact .error h _ _
  | some hc => exact hf _ _ hc fun hfd ↦ Option.some.inj (hsame hfd)

theorem Outcome.Alike.withThread (h : SameBut k M data data') {c c' : Channel} (hc : c.Alike c')
    (hlow : Low fd → c' = c) (uuid : Str) (p : List UInt8) {f f' : Thread → Outcome}
    (hf : ∀ t t', t.Alike t' → (Low fd → t' = t) → (f t).Alike k M fd Low (f' t')) :
    (withThread data c uuid p f).Alike k M fd Low (withThread data' c' uuid p f') := by
  have hfind : Option.Rel Thread.Alike (findThreadByUuid c uuid) (findThreadByUuid c' uuid) := by
    rw [findThreadByUuid, findThreadByUuid]
    split_ifs
    · exact rel_find? hc.threads fun t t' ht ↦ by rw [ht.uuid]
    · exact .none
  have hsame : Low fd → findThreadByUuid c' uuid = findThreadByUuid c uuid :=
    fun hfd ↦ by rw [hlow hfd]
  rw [MyTeams.withThread, MyTeams.withThread]
  generalize findThreadByUuid c uuid = x at hfind hsame ⊢
  generalize findThreadByUuid c' uuid = x' at hfind hsame ⊢
  cases hfind with
  | none => exact .error h _ _
  | some ht => exact hf _ _ ht fun hfd ↦ Option.some.inj (hsame hfd)

end Outcomes

/-! ### Handlers that look at neither -/

section Handlers

variable {k : Str} {M : List Message → List Message → Prop} {fd : Fd} {Low : Fd → Prop}
  {data data' : ServerData}

theorem handleLogin_alike (h : SameBut k M data data') (host : Host) (name : Str) :
    (handleLogin host fd name data).Alike k M fd Low (handleLogin host fd name data') := by
  obtain ⟨teams, messages, rfl, hteams, hmessages⟩ := h.cases
  simp only [handleLogin, findUserByName]
  split
  · exact .of_result ⟨rfl, hteams, hmessages⟩ rfl
  · exact .of_result ⟨rfl, hteams, hmessages⟩ rfl

theorem handleLogout_alike (h : SameBut k M data data') :
    (handleLogout fd data).Alike k M fd Low (handleLogout fd data') := by
  obtain ⟨teams, messages, rfl, hteams, hmessages⟩ := h.cases
  refine .withSession h fun user _ ↦ ?_
  dsimp only [logoutData, logoutPayload]
  split_ifs
  · exact .of_result ⟨rfl, hteams, hmessages⟩ rfl
  · exact .of_result ⟨rfl, hteams, hmessages⟩ rfl

theorem SameBut.isLoggedIn (h : SameBut k M data data') (fd : Fd) :
    MyTeams.isLoggedIn data' fd = MyTeams.isLoggedIn data fd := by
  rw [MyTeams.isLoggedIn, h.sessions]
  rfl

theorem handleUsers_alike (h : SameBut k M data data') :
    (handleUsers fd data).Alike k M fd Low (handleUsers fd data') := by
  refine .ite (by rw [h.isLoggedIn]) (fun _ ↦ .error h _ _) fun _ ↦ ?_
  obtain ⟨teams, messages, rfl, -⟩ := h.cases
  exact .of_result h rfl

theorem handleUser_alike (h : SameBut k M data data') (userUuid : Str) :
    (handleUser fd userUuid data).Alike k M fd Low (handleUser fd userUuid data') := by
  refine .ite (by rw [h.isLoggedIn]) (fun _ ↦ .error h _ _) fun _ ↦
    .withUuid36 h _ (.withUser h _ _ fun user _ ↦ ?_)
  obtain ⟨teams, messages, rfl, -⟩ := h.cases
  exact .of_result h rfl

/-- The same message stored in both. -/
theorem handleSend_alike (h : SameBut k M data data')
    (hM : ∀ {l l' : List Message}, M l l' → ∀ m, M (l ++ [m]) (l' ++ [m])) (host : Host)
    (receiver body : Str) :
    (handleSend host fd receiver body data).Alike k M fd Low
      (handleSend host fd receiver body data') := by
  refine .withSession h fun user _ ↦ .withUuid36 h _ (.withUser h _ _ fun u _ ↦ ?_)
  obtain ⟨teams, messages, rfl, hteams, hmessages⟩ := h.cases
  exact .of_result ⟨rfl, hteams, hM hmessages _⟩ rfl

/-- The same change of the members of the same team. -/
theorem SameBut.updateMembers (h : SameBut k M data data') (uuid : Str) (f : List Str → List Str) :
    SameBut k M (updateTeam data uuid fun t ↦ { t with memberUuids := f t.memberUuids })
      (updateTeam data' uuid fun t ↦ { t with memberUuids := f t.memberUuids }) where
  outside := by rw [h.outside]; rfl
  teams := rel_updateFirst h.teams (fun t t' ht ↦ by rw [ht.uuid]) fun t t' _ ht ↦ ht.setMembers f
  messages := h.messages

theorem handleSubscribe_alike (h : SameBut k M data data') (uuid : Str) :
    (handleSubscribe fd uuid data).Alike k M fd Low (handleSubscribe fd uuid data') := by
  refine .withSession h fun user _ ↦ .withUuid36 h _ (.withTeam h _ _ fun t t' _ _ ht ↦ ?_)
  rw [ht.isSubscribedTo, ht.uuid]
  split_ifs
  · exact .of_result (h.updateMembers uuid (· ++ [user])) rfl
  · exact .of_result h rfl

theorem handleUnsubscribe_alike (h : SameBut k M data data') (uuid : Str) :
    (handleUnsubscribe fd uuid data).Alike k M fd Low (handleUnsubscribe fd uuid data') := by
  refine .withSession h fun user _ ↦ .withUuid36 h _ (.withTeam h _ _ fun t t' _ _ ht ↦
    .withSubscription h ht _ fun _ ↦ ?_)
  rw [ht.uuid]
  exact .of_result (h.updateMembers uuid (·.erase user)) rfl

theorem handleSubscribedTeams_alike (h : SameBut k M data data') :
    (handleSubscribedTeams fd data).Alike k M fd Low (handleSubscribedTeams fd data') := by
  refine .withSession h fun user _ ↦ ?_
  have hsubscribed : List.Forall₂ (Team.Alike k) (data.teams.filter fun t ↦ isSubscribedTo t user)
      (data'.teams.filter fun t ↦ isSubscribedTo t user) :=
    List.rel_filter (fun t t' ht ↦ by simp only [ht.isSubscribedTo]) h.teams
  dsimp only
  rw [← hsubscribed.length_eq, foldl_appendTeam_eq hsubscribed]
  exact .of_result h rfl

theorem handleSubscribedUsers_alike (h : SameBut k M data data') (uuid : Str) :
    (handleSubscribedUsers fd uuid data).Alike k M fd Low
    (handleSubscribedUsers fd uuid data') := by
  refine .withSession h fun user _ ↦ .withUuid36 h _ (.withTeam h _ _ fun t t' _ _ ht ↦
    .withSubscription h ht _ fun _ ↦ ?_)
  rw [ht.members]
  obtain ⟨teams, messages, rfl, -⟩ := h.cases
  exact .of_result h rfl

end Handlers

/-! ### Handlers that look at the content of a team -/

/-- **Those who are low are shut out** of the team `k`: they are no members of it, and have no
context in it. -/
structure Shuts (k : Str) (Low : Fd → Prop) (data : ServerData) : Prop where
  member : ∀ (d : Fd) u, data.sessions[d]? = some u → ∀ t ∈ data.teams, t.uuid.str = k →
    u ∈ t.memberUuids → ¬ Low d
  context : ∀ (d : Fd) ctx, data.clientContexts[d]? = some ctx → ctx.level ≠ useNone →
    ctx.teamUuid.toList = k → ¬ Low d

/-- The empty string is the uuid of no team. -/
theorem shuts_nil (Low : Fd → Prop) (data : ServerData) : Shuts [] Low data where
  member d u _ t _ ht := absurd (congrArg List.length ht) (by simp)
  context d ctx _ _ ht := absurd (congrArg List.length ht) (by simp)

/-- Records of `n` bytes each. -/
theorem length_foldl_append {α : Type} {f : List UInt8 → α → List UInt8} {n : ℕ}
    (hf : ∀ out a, (f out a).length = out.length + n) (l : List α) (out : List UInt8) :
    (l.foldl f out).length = out.length + n * l.length := by
  induction l generalizing out with
  | nil => rfl
  | cons a l ih =>
    rw [List.foldl_cons, ih, hf, List.length_cons]
    ring

theorem length_appendChannel (out : List UInt8) (c : Channel) :
    (appendChannel out c).length = out.length + 323 := by
  simp [appendChannel]

theorem length_appendThread (out : List UInt8) (t : Thread) :
    (appendThread out t).length = out.length + 624 := by
  simp [appendThread]

theorem length_appendReply (threadUuid : Bytes 36) (out : List UInt8) (r : Reply) :
    (appendReply threadUuid out r).length = out.length + 592 := by
  simp [appendReply]

section Content

variable {k : Str} {M : List Message → List Message → Prop} {fd : Fd} {Low : Fd → Prop}
  {data data' : ServerData}

/-- The same context stored in both. -/
theorem SameBut.store (h : SameBut k M data data') (fd : Fd) (ctx : ClientContext) :
    SameBut k M { data with clientContexts := data.clientContexts.insert fd ctx }
      { data' with clientContexts := data'.clientContexts.insert fd ctx } where
  outside := by rw [h.outside]
  teams := h.teams
  messages := h.messages

/-- The team of a low user is not `k`, so it is the same. -/
theorem Shuts.eq_of_member (hshut : Shuts k Low data) {t t' : Team} (hmem : t ∈ data.teams)
    (ht : t.Alike k t') {u : Str} (hs : data.sessions[fd]? = some u) (hu : u ∈ t.memberUuids)
    (hfd : Low fd) : t' = t :=
  ht.eq fun hk ↦ hshut.member fd u hs t hmem hk hu hfd

theorem Shuts.eq_of_context (hshut : Shuts k Low data) {t t' : Team} {ctx : ClientContext}
    (hctx : data.clientContexts[fd]? = some ctx) (hlevel : ctx.level ≠ useNone)
    (huuid : t.uuid.str = ctx.teamUuid.toList) (ht : t.Alike k t') (hfd : Low fd) : t' = t :=
  ht.eq fun hk ↦ hshut.context fd ctx hctx hlevel (huuid.symm.trans hk) hfd

theorem handleUse_alike (h : SameBut k M data data') (hshut : Shuts k Low data) (payload : Str) :
    (handleUse fd payload data).Alike k M fd Low (handleUse fd payload data') := by
  refine .withSession h fun user hs ↦ ?_
  cases payload.head? with
  | none => exact .error h _ _
  | some level =>
    refine .ite Iff.rfl (fun _ ↦ ?_) fun _ ↦ .ite Iff.rfl (fun _ ↦ ?_) fun _ ↦
      .ite Iff.rfl (fun _ ↦ ?_) fun _ ↦ .ite Iff.rfl (fun _ ↦ ?_) fun _ ↦ .error h _ _
    · obtain ⟨teams, messages, rfl, -⟩ := h.cases
      exact .of_result (h.store fd _) rfl
    · refine .ite Iff.rfl (fun _ ↦ .error h _ _) fun _ ↦ .withTeam h _ _ fun t t' _ _ ht ↦
        .withSubscription h ht _ fun _ ↦ ?_
      rw [ht.appendTeam]
      exact .of_result (h.store fd _) rfl
    · refine .ite Iff.rfl (fun _ ↦ .error h _ _) fun _ ↦ .withTeam h _ _ fun t t' hmem _ ht ↦
        .withSubscription h ht _ fun hu ↦
        .withChannel h ht (hshut.eq_of_member hmem ht hs hu) _ _ fun c c' _ hlow ↦
        .answer (h.store fd _) _ ?_ fun hfd ↦ by rw [hlow hfd]
      rw [length_appendChannel, length_appendChannel]
    · refine .ite Iff.rfl (fun _ ↦ .error h _ _) fun _ ↦ .withTeam h _ _ fun t t' hmem _ ht ↦
        .withSubscription h ht _ fun hu ↦
        .withChannel h ht (hshut.eq_of_member hmem ht hs hu) _ _ fun c c' hc hlow ↦
        .withThread h hc hlow _ _ fun th th' _ hlow ↦ .answer (h.store fd _) _ ?_ fun hfd ↦
          by rw [hlow hfd]
      rw [length_appendThread, length_appendThread]

theorem handleList_alike (h : SameBut k M data data') (hshut : Shuts k Low data) :
    (handleList fd data).Alike k M fd Low (handleList fd data') := by
  refine .withSession h fun user hs ↦ .withContext h fun ctx hctx ↦ ?_
  refine .ite Iff.rfl (fun _ ↦ ?_) fun hnone ↦ .ite Iff.rfl (fun _ ↦ ?_) fun _ ↦
    .ite Iff.rfl (fun _ ↦ ?_) fun _ ↦ .ite Iff.rfl (fun _ ↦ ?_) fun _ ↦ .error h _ _
  · dsimp only
    rw [← h.teams.length_eq, foldl_appendTeam_eq h.teams]
    exact .of_result h rfl
  · refine .withTeam h _ _ fun t t' _ huuid ht ↦ .answer h _ ?_ fun hfd ↦ by
      rw [hshut.eq_of_context hctx hnone huuid ht hfd]
    rw [length_foldl_append length_appendChannel, length_foldl_append length_appendChannel,
      ← ht.channels.length_eq]
  · refine .withTeam h _ _ fun t t' _ huuid ht ↦
      .withChannel h ht (hshut.eq_of_context hctx hnone huuid ht) _ _ fun c c' hc hlow ↦
      .answer h _ ?_ fun hfd ↦ by rw [hlow hfd]
    rw [length_foldl_append length_appendThread, length_foldl_append length_appendThread,
      ← hc.threads.length_eq]
  · refine .withTeam h _ _ fun t t' _ huuid ht ↦
      .withChannel h ht (hshut.eq_of_context hctx hnone huuid ht) _ _ fun c c' hc hlow ↦
      .withThread h hc hlow _ _ fun th th' hth hlow ↦ .answer h _ ?_ fun hfd ↦ by rw [hlow hfd]
    rw [length_foldl_append (length_appendReply _), length_foldl_append (length_appendReply _),
      hth.replies]

theorem handleInfo_alike (h : SameBut k M data data') (hshut : Shuts k Low data) :
    (handleInfo fd data).Alike k M fd Low (handleInfo fd data') := by
  refine .withSession h fun user hs ↦ .withContext h fun ctx hctx ↦ ?_
  refine .ite Iff.rfl (fun _ ↦ ?_) fun hnone ↦ .ite Iff.rfl (fun _ ↦ ?_) fun _ ↦
    .ite Iff.rfl (fun _ ↦ ?_) fun _ ↦ .ite Iff.rfl (fun _ ↦ ?_) fun _ ↦ .error h _ _
  · obtain ⟨teams, messages, rfl, -⟩ := h.cases
    exact .of_result h rfl
  · refine .withTeam h _ _ fun t t' _ _ ht ↦ ?_
    rw [ht.appendTeam]
    exact .of_result h rfl
  · refine .withTeam h _ _ fun t t' _ huuid ht ↦
      .withChannel h ht (hshut.eq_of_context hctx hnone huuid ht) _ _ fun c c' _ hlow ↦
      .answer h _ ?_ fun hfd ↦ by rw [hlow hfd]
    rw [length_appendChannel, length_appendChannel]
  · refine .withTeam h _ _ fun t t' _ huuid ht ↦
      .withChannel h ht (hshut.eq_of_context hctx hnone huuid ht) _ _ fun c c' hc hlow ↦
      .withThread h hc hlow _ _ fun th th' _ hlow ↦ .answer h _ ?_ fun hfd ↦ by rw [hlow hfd]
    rw [length_appendThread, length_appendThread]

/-! ### Creation -/

theorem Outcome.Alike.created {after after' : ServerData} (hdata : SameBut k M after after')
    (r : Response) (evt : Event) {p p' : List UInt8} (fds : List Fd)
    {logged logged' : List ServerLog} (hlength : p'.length = p.length)
    (hlow : ∀ d, Low d → d = fd ∨ d ∈ fds → p' = p) :
    Outcome.Alike k M fd Low ⟨after, Result.created r evt p fds, logged⟩
      ⟨after', Result.created r evt p' fds, logged'⟩ where
  data := hdata
  length := by
    show (makeMessage _ p').length = (makeMessage _ p).length
    rw [length_makeMessage, length_makeMessage, hlength]
  low hfd := by
    show makeMessage _ p' = makeMessage _ p
    rw [hlow fd hfd (.inl rfl)]
  pushes := by
    refine .cons ⟨rfl, ?_, fun d hd hlowd ↦ ?_⟩ .nil
    · show (makeMessage _ p').length = (makeMessage _ p).length
      rw [length_makeMessage, length_makeMessage, hlength]
    · show makeMessage _ p' = makeMessage _ p
      rw [hlow d hlowd (.inr hd)]

/-- Changes of the channels of a team: alike, and the same if the team is not `k`. -/
theorem SameBut.updateChannels (h : SameBut k M data data') {uuid : Str}
    (f f' : List Channel → List Channel)
    (halike : ∀ cs cs', List.Forall₂ Channel.Alike cs cs' →
      List.Forall₂ Channel.Alike (f cs) (f' cs'))
    (hsame : uuid ≠ k → f' = f) :
    SameBut k M (updateTeam data uuid fun t ↦ { t with channels := f t.channels })
      (updateTeam data' uuid fun t ↦ { t with channels := f' t.channels }) where
  outside := by rw [h.outside]; rfl
  teams := by
    refine rel_updateFirst h.teams (fun t t' ht ↦ by rw [ht.uuid]) fun t t' huuid ht ↦ ⟨?_, ?_, ?_⟩
    · rw [ht.outside]
    · exact halike _ _ ht.channels
    · intro hk
      have hne : uuid ≠ k := eq_of_beq huuid ▸ hk
      dsimp only
      rw [hsame hne, ht.same hk]
  messages := h.messages

theorem SameBut.addChannel (h : SameBut k M data data') {ctx : ClientContext} {c c' : Channel}
    (hc : c.Alike c') (hsame : ctx.teamUuid.toList ≠ k → c' = c) :
    SameBut k M (addChannel data ctx c) (addChannel data' ctx c') := by
  refine h.updateChannels (· ++ [c]) (· ++ [c']) (fun cs cs' hcs ↦ ?_) fun hk ↦ by rw [hsame hk]
  exact List.rel_append hcs (.cons hc .nil)

/-- Changes of the threads of a channel. -/
theorem rel_updateThreads {cs cs' : List Channel} (h : List.Forall₂ Channel.Alike cs cs')
    (uuid : Str) (f f' : List Thread → List Thread)
    (halike : ∀ ts ts', List.Forall₂ Thread.Alike ts ts' →
      List.Forall₂ Thread.Alike (f ts) (f' ts')) :
    List.Forall₂ Channel.Alike
      (updateFirst (fun c ↦ c.uuid.str == uuid) (fun c ↦ { c with threads := f c.threads }) cs)
      (updateFirst (fun c ↦ c.uuid.str == uuid) (fun c ↦ { c with threads := f' c.threads }) cs') :=
  rel_updateFirst h (fun c c' hc ↦ by rw [hc.uuid]) fun c c' _ hc ↦ ⟨hc.uuid, halike _ _ hc.threads⟩

theorem SameBut.addThread (h : SameBut k M data data') {ctx : ClientContext} {t t' : Thread}
    (ht : t.Alike t') (hsame : ctx.teamUuid.toList ≠ k → t' = t) :
    SameBut k M (addThread data ctx t) (addThread data' ctx t') := by
  refine h.updateChannels
    (updateFirst (fun c ↦ c.uuid.str == ctx.channelUuid.toList) fun c ↦
      { c with threads := c.threads ++ [t] })
    (updateFirst (fun c ↦ c.uuid.str == ctx.channelUuid.toList) fun c ↦
      { c with threads := c.threads ++ [t'] }) (fun cs cs' hcs ↦ ?_) fun hk ↦ by rw [hsame hk]
  exact rel_updateThreads hcs _ (· ++ [t]) (· ++ [t'])
    fun ts ts' hts ↦ List.rel_append hts (.cons ht .nil)

theorem SameBut.addReply (h : SameBut k M data data') {ctx : ClientContext} {r r' : Reply}
    (hsame : ctx.teamUuid.toList ≠ k → r' = r) :
    SameBut k M (addReply data ctx r) (addReply data' ctx r') := by
  refine h.updateChannels
    (updateFirst (fun c ↦ c.uuid.str == ctx.channelUuid.toList) fun c ↦
      updateThread c ctx.threadUuid.toList fun th ↦ { th with replies := th.replies ++ [r] })
    (updateFirst (fun c ↦ c.uuid.str == ctx.channelUuid.toList) fun c ↦
      updateThread c ctx.threadUuid.toList fun th ↦ { th with replies := th.replies ++ [r'] })
    (fun cs cs' hcs ↦ ?_) fun hk ↦ by rw [hsame hk]
  refine rel_updateThreads hcs _
    (updateFirst (fun th ↦ th.uuid.str == ctx.threadUuid.toList) fun th ↦
      { th with replies := th.replies ++ [r] })
    (updateFirst (fun th ↦ th.uuid.str == ctx.threadUuid.toList) fun th ↦
      { th with replies := th.replies ++ [r'] }) fun ts ts' hts ↦ ?_
  refine rel_updateFirst hts (fun th th' hth ↦ by rw [hth.uuid]) fun th th' _ hth ↦ ⟨hth.uuid, ?_⟩
  rw [List.length_append, List.length_append, hth.replies]
  rfl

theorem SameBut.teamMemberFds (h : SameBut k M data data') {t t' : Team} (ht : t.Alike k t') :
    MyTeams.teamMemberFds data' t' = MyTeams.teamMemberFds data t := by
  rw [MyTeams.teamMemberFds, h.sessions]
  simp only [ht.isSubscribedTo]
  rfl

theorem newChannel_alike (host : Host) (p p' : Str) :
    (newChannel host p).Alike (newChannel host p') :=
  ⟨rfl, .nil⟩

theorem newThread_alike (host : Host) (user p p' : Str) :
    (newThread host user p).Alike (newThread host user p') :=
  ⟨rfl, rfl⟩

/-- The two payloads may differ for a context in the team `k`. -/
theorem handleCreate_alike (h : SameBut k M data data') (hshut : Shuts k Low data) (host : Host)
    {p p' : Str} (hlength : p'.length = p.length)
    (hp : p' = p ∨ ∀ ctx, data.clientContexts[fd]? = some ctx →
      ctx.level ≠ useNone ∧ ctx.teamUuid.toList = k) :
    (handleCreate host fd p data).Alike k M fd Low (handleCreate host fd p' data') := by
  refine .withSession h fun user hs ↦ .withContext h fun ctx hctx ↦ ?_
  have hsame (huuid : ctx.teamUuid.toList ≠ k) : p' = p := by
    rcases hp with hp | hp
    · exact hp
    · exact absurd (hp ctx hctx).2 huuid
  -- whoever hears of it and is low has another team
  have hlow (hlevel : ctx.level ≠ useNone) {t : Team} (hmem : t ∈ data.teams)
      (huuid : t.uuid.str = ctx.teamUuid.toList) (d : Fd) (hd : Low d)
      (hmember : d = fd ∨ d ∈ teamMemberFds data t) : p' = p := by
    refine hsame fun hk ↦ ?_
    rcases hmember with rfl | hmember
    · exact hshut.context d ctx hctx hlevel hk hd
    · obtain ⟨u, hu, hsub⟩ := (IntMap.mem_filter_keys _).1 hmember
      exact hshut.member d u hu t hmem (huuid.trans hk) (isSubscribedTo_iff.1 hsub) hd
  refine .ite Iff.rfl (fun hnone ↦ ?_) fun hlevel ↦ .ite Iff.rfl (fun _ ↦ ?_) fun _ ↦
    .ite Iff.rfl (fun _ ↦ ?_) fun _ ↦ .ite Iff.rfl (fun _ ↦ ?_) fun _ ↦ .error h _ _
  -- a team is created at `USE_NONE`, which is not inside a team
  · obtain rfl : p' = p := by
      rcases hp with hp | hp
      · exact hp
      · exact absurd hnone (hp ctx hctx).1
    refine .ite Iff.rfl (fun _ ↦ .error h _ _) fun _ ↦ ?_
    obtain ⟨teams, messages, rfl, hteams, hmessages⟩ := h.cases
    exact .of_result ⟨rfl, List.rel_append hteams (.cons (.refl k _) .nil), hmessages⟩ rfl
  · refine .ite (by rw [hlength]) (fun _ ↦ .error h _ _) fun _ ↦
      .withTeam h _ _ fun t t' hmem huuid ht ↦ .withSubscription h ht _ fun _ ↦ ?_
    dsimp only
    rw [h.teamMemberFds ht]
    refine .created (h.addChannel (newChannel_alike host p p') fun hk ↦ ?_) _ _ _ ?_
      fun d hd hmember ↦ ?_
    · rw [hsame hk]
    · rw [length_appendChannel, length_appendChannel]
    · rw [hlow hlevel hmem huuid d hd hmember]
  · refine .ite (by rw [hlength]) (fun _ ↦ .error h _ _) fun _ ↦
      .withTeam h _ _ fun t t' hmem huuid ht ↦ .withSubscription h ht _ fun _ ↦
      .withChannel h ht (hshut.eq_of_context hctx hlevel huuid ht) _ _ fun c c' _ _ ↦ ?_
    dsimp only
    rw [h.teamMemberFds ht]
    refine .created (h.addThread (newThread_alike host user p p') fun hk ↦ ?_) _ _ _ ?_
      fun d hd hmember ↦ ?_
    · rw [hsame hk]
    · rw [length_appendThread, length_appendThread]
    · rw [hlow hlevel hmem huuid d hd hmember]
  · refine .ite (by rw [hlength]) (fun _ ↦ .error h _ _) fun _ ↦
      .withTeam h _ _ fun t t' hmem huuid ht ↦ .withSubscription h ht _ fun _ ↦
      .withChannel h ht (hshut.eq_of_context hctx hlevel huuid ht) _ _ fun c c' hc hcsame ↦
      .withThread h hc hcsame _ _ fun th th' _ _ ↦ ?_
    dsimp only
    rw [h.teamMemberFds ht]
    refine .created (h.addReply fun hk ↦ ?_) _ _ _ ?_ fun d hd hmember ↦ ?_
    · rw [hsame hk]
    · rw [length_appendReply, length_appendReply]
    · rw [hlow hlevel hmem huuid d hd hmember]

/-! ### Frames -/

/-- **A frame, dispatched on data that differs in the secret**, when the two handlers of private
messages are known to be alike. -/
theorem frameOutcome_alike (h : SameBut k M data data') (host : Host) (code : UInt16)
    (payload : List UInt8)
    (hshut : Command.ofCode? code ≠ some .login → Command.ofCode? code ≠ some .logout →
      Shuts k Low data)
    (hsend : ∀ receiver body, (handleSend host fd receiver body data).Alike k M fd Low
      (handleSend host fd receiver body data'))
    (hmessages : Command.ofCode? code = some .messages → ∀ user,
      (handleMessages fd user data).Alike k M fd Low (handleMessages fd user data')) :
    (frameOutcome host fd code payload data).Alike k M fd Low
      (frameOutcome host fd code payload data') := by
  refine .ite (by rw [h.sessions]) (fun _ ↦ .error h _ _) fun _ ↦ ?_
  rcases hcode : Command.ofCode? code with - | cmd
  · exact .error h _ _
  rw [hcode] at hshut hmessages
  cases cmd with
  | login => exact handleLogin_alike h host _
  | logout => exact handleLogout_alike h
  | users => exact handleUsers_alike h
  | user => exact handleUser_alike h _
  | send => exact hsend _ _
  | messages => exact hmessages rfl _
  | subscribe => exact handleSubscribe_alike h _
  | subscribed =>
    exact .ite Iff.rfl (fun _ ↦ handleSubscribedUsers_alike h _) fun _ ↦
      handleSubscribedTeams_alike h
  | unsubscribe => exact handleUnsubscribe_alike h _
  | use => exact handleUse_alike h (hshut (by simp) (by simp)) _
  | create => exact handleCreate_alike h (hshut (by simp) (by simp)) host rfl (.inl rfl)
  | list => exact handleList_alike h (hshut (by simp) (by simp))
  | info => exact handleInfo_alike h (hshut (by simp) (by simp))

theorem SameBut.logoutAlike : Server.LogoutAlike (SameBut k M) := by
  intro fd data data' h
  have halike : (handleLogout fd data).Alike k M fd (fun _ ↦ True) (handleLogout fd data') :=
    handleLogout_alike h
  obtain ⟨teams, messages, rfl, -⟩ := h.cases
  refine ⟨halike.data, ?_⟩
  rw [handleLogout, handleLogout, withSession, withSession]
  dsimp only [logoutData, logoutPayload]
  split
  · rfl
  · split_ifs <;> rfl

end Content

end MyTeams
