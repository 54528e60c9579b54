import MyTeams.Net

/-!
# The team of a reply event

`EVT_REPLY_CREATED` carries the thread, the user, the time and the body of a reply, but not the
team. The client passes the team of its own use context, which is whatever its user last typed after
`/use`, whether the server granted it or not. So the team passed is the one that the reply was
posted in exactly when the receiver happens to be there: in the runs in which that is so at each
read, all reply events name the right team, and a read of any other kind spoils it
(`replyTeamsTrue_of_steps`).
-/

namespace MyTeams

open ByteField FirstMatch Server

/-! ### What is announced -/

/-- The team and the thread that a call for a reply event passes. -/
def Callback.reply : Callback → Option (Str × Str)
  | eventThreadReplyReceived team thread _ _ => some (team, thread)
  | _ => none

/-- Reply events are announced for `EVT_REPLY_CREATED` only. -/
theorem Msg.code_of_reply {m : Msg} {c : Client} {k : Callback} (hk : k ∈ m.calls c) {r : Str × Str}
    (hr : k.reply = some r) : m.code = .evt .replyCreated := by
  obtain ⟨code, body⟩ := m
  unfold Msg.calls at hk
  dsimp only at hk
  split at hk
  case h_36 => rfl
  -- the other calls are for something else
  all_goals
    first
    | rw [List.mem_singleton.1 hk] at hr
      cases hr
    | obtain ⟨r, -, rfl⟩ := List.mem_map.1 hk
      cases hr
    | cases hk

/-- The reply was posted in a context which names the team `t` and, in one of its channels, the
thread `th`. -/
structure PostedIn (fd : Fd) (data : ServerData) (t : Team) (th : Thread) : Prop where
  context : ∃ ctx, data.clientContexts[fd]? = some ctx ∧ ctx.team? data = some t ∧
    ctx.thread? data = some th
  team : t ∈ data.teams
  thread : ∃ c ∈ t.channels, th ∈ c.threads

theorem postedIn_of_context {fd : Fd} {data : ServerData} {ctx : ClientContext} {t : Team}
    {th : Thread} (hctx : data.clientContexts[fd]? = some ctx) (hteam : ctx.team? data = some t)
    (hthread : ctx.thread? data = some th) :
    PostedIn fd data t th ∧ th.uuid.str = ctx.threadUuid.toList := by
  obtain ⟨c, hchannel, hfound⟩ := Option.bind_eq_some_iff.1 hthread
  rw [channel?_of_team hteam, findChannelByUuid_eq ctx.channelUuid.toList_length] at hchannel
  rw [findThreadByUuid_eq ctx.threadUuid.toList_length] at hfound
  have hteams := hteam
  rw [ClientContext.team?, findTeamByUuid_eq ctx.teamUuid.toList_length] at hteams
  have hmatch := List.find?_some hfound
  exact ⟨⟨⟨ctx, hctx, hteam, hthread⟩, List.mem_of_find?_eq_some hteams,
    c, List.mem_of_find?_eq_some hchannel, List.mem_of_find?_eq_some hfound⟩, eq_of_beq hmatch⟩

/-- **A reply event comes from a reply**, and shows its thread. -/
theorem Serves.replyCreated {host : Host} {fd : Fd} {payload : List UInt8} {data : ServerData}
    {cmd : Option Command} {a : Answer} (h : Serves host fd payload data cmd a) {e : Msg × List Fd}
    (he : e ∈ a.events) (hcode : e.1.code = .evt .replyCreated) :
    cmd = some .create ∧ ∃ t th r, PostedIn fd data t th ∧ e.1.body = .reply r ∧
      r.threadUuid.toList = th.uuid.str := by
  cases h with
  | loginKnown | loginNew | logout =>
    simp only [presenceEvents] at he
    split_ifs at he
    · cases he
    · rw [List.mem_singleton.1 he] at hcode
      cases hcode
  | send =>
    dsimp only at he
    split_ifs at he
    · cases he
    · rw [List.mem_singleton.1 he] at hcode
      cases hcode
  | createTeam | createChannel | createThread =>
    rw [List.mem_singleton.1 he] at hcode
    cases hcode
  | createReply hs hctx hlevel hlen hteam hsub hthread hnew =>
    obtain ⟨hposted, huuid⟩ := postedIn_of_context hctx hteam hthread
    rw [List.mem_singleton.1 he]
    exact ⟨rfl, _, _, _, hposted, rfl, huuid.symm⟩
  | _ => cases he

namespace Mail

variable {host : ℕ → Host} {fd : Fd} {x : Mail} {m : Msg}

/-- The team of the context in which the action that queued the message was taken. -/
def team? (x : Mail) : Option Team :=
  x.before.data.clientContexts[x.cause.fd]?.bind fun ctx ↦ ctx.team? x.before.data

/-- **What a reply event makes a client call.** -/
theorem Says.replyCreated (h : x.Says host fd m) (hcode : m.code = .evt .replyCreated) :
    ∃ cmd payload t th, x.cause = .frame x.cause.fd cmd payload ∧
      Command.ofCode? cmd = some .create ∧ PostedIn x.cause.fd x.before.data t th ∧
      x.team? = some t ∧ ∀ c : Client, ∃ user body, m.calls c =
        [.eventThreadReplyReceived (cut c.useTeamUuid) th.uuid.str user body] := by
  obtain ⟨a, hserves, hm⟩ := h.answer
  have hevent : ∃ e ∈ a.events, e.1 = m := by
    rw [Answer.messagesTo] at hm
    split_ifs at hm
    -- no response is an event
    · have hpush := hserves.not_push
      rw [← List.mem_singleton.1 hm, (isPush_code m.code).2 ⟨_, hcode⟩] at hpush
      cases hpush
    · obtain ⟨e, he, hme⟩ := List.mem_flatMap.1 hm
      exact ⟨e, he, (List.eq_of_mem_replicate hme).symm⟩
  obtain ⟨e, he, rfl⟩ := hevent
  obtain ⟨hcmd, t, th, r, hposted, hbody, huuid⟩ := hserves.replyCreated he hcode
  refine ⟨_, _, t, th, x.cause.eq_frame_of_request hcmd (by decide), Command.ofCode?_code _,
    hposted, ?_, fun c ↦ ?_⟩
  · obtain ⟨ctx, hctx, hteam, -⟩ := hposted.context
    rw [team?, hctx]
    exact hteam
  · have hthread : cut r.threadUuid.toList = th.uuid.str := by rw [huuid, Uuid.cut_str]
    refine ⟨cut r.creatorUuid.toList, cut r.body.toList, ?_⟩
    rw [Msg.calls, hcode, hbody, ← hthread]
    rfl

end Mail

/-! ### The law -/

/-- The client reads no reply event unless the team it is using, as it was typed, is the one in
which the reply was posted. -/
def Peer.ReadsInTeam (p : Peer) (n : ℕ) : Prop :=
  ∀ x ∈ p.arriving n, headerCode x.bytes = Event.replyCreated.code →
    ∀ t ∈ x.team?, cut p.client.useTeamUuid = t.uuid.str

instance (p : Peer) (n : ℕ) : Decidable (p.ReadsInTeam n) :=
  inferInstanceAs (Decidable (∀ x ∈ p.arriving n, headerCode x.bytes = Event.replyCreated.code →
    ∀ t ∈ x.team?, cut p.client.useTeamUuid = t.uuid.str))

/-- Every reply event that the client has announced was caused by a reply, and names its thread and
the team that contains the thread. -/
def Peer.ReplyTeamsTrue (p : Peer) : Prop :=
  ∀ n k, (n, k) ∈ p.client.made → ∀ team thread, k.reply = some (team, thread) →
    ∃ j x fd cmd payload t th, n = j + 1 ∧ p.mail[j]? = some x ∧
      p.client.handled[j]? = some x.frame ∧ x.cause = .frame fd cmd payload ∧
      Command.ofCode? cmd = some .create ∧ PostedIn fd x.before.data t th ∧
      thread = th.uuid.str ∧ team = t.uuid.str

/-- All clients name the right teams. -/
def Net.ReplyTeamsTrue (N : Net) : Prop := ∀ p ∈ N.peers, p.ReplyTeamsTrue

/-- **What goes wrong**: if a client still names the right teams after a read, it has read reply
events only in their teams. -/
theorem Peer.ReplyTeamsTrue.readsInTeam {host : ℕ → Host} {A : Server → Action → Prop} {s : Server}
    {p : Peer} {n : ℕ} (hlinked : p.Linked host A s)
    (htells : p.client.Tells (fun _ x calls ↦ ∃ m c, x.Says host p.fd m ∧ calls = m.calls c) p.mail)
    (h : (p.read n).ReplyTeamsTrue) : p.ReadsInTeam n := by
  have hread : (p.read n).client.Tells (fun j x calls ↦ ∃ m c, x.Says host p.fd m ∧
      calls = m.calls c ∧ (p.client.handled.length ≤ j → c.useTeamUuid = p.client.useTeamUuid))
      p.mail := by
    refine hlinked.tells_read (htells.imp ?_) fun j _ x _ m hm c hc ↦ ⟨m, c, hm, rfl, fun _ ↦ hc⟩
    rintro j hj x calls ⟨m, c, hm, hcalls⟩
    exact ⟨m, c, hm, hcalls, fun hle ↦ absurd hj (Nat.not_lt.2 hle)⟩
  intro x hx hcode t ht
  obtain ⟨j, hj, hlt, hmail⟩ := exists_of_mem_arriving hx
  obtain ⟨y, calls, hy, -, ⟨m, c, hm, rfl, hc⟩, hcalls⟩ := hread.calls j hlt
  obtain rfl := Option.some.inj (hmail.symm.trans hy)
  have hevt : m.code = .evt .replyCreated := by
    rw [hm.bytes, headerCode_bytes] at hcode
    exact ServerCode.code_injective hcode
  obtain ⟨-, -, t₁, th₁, -, -, -, ht₁, hsingle⟩ := hm.replyCreated hevt
  obtain ⟨user, body, hcall⟩ := hsingle c
  have hmade :
      (j + 1, Callback.eventThreadReplyReceived (cut c.useTeamUuid) th₁.uuid.str user body) ∈
        (p.read n).client.made := by
    refine (hcalls _ fun s hs ↦ by cases hs).2 ?_
    rw [hcall]
    exact List.mem_singleton_self _
  obtain ⟨i, y, fd, cmd, payload, t₂, th₂, hi, hy, -, hcause, -, hposted, -, hteam⟩ :=
    h _ _ hmade _ _ rfl
  obtain rfl := Nat.succ.inj hi
  obtain rfl := Option.some.inj (hmail.symm.trans hy)
  have ht₂ : x.team? = some t₂ := by
    obtain ⟨ctx, hctx, hteam?, -⟩ := hposted.context
    rw [Mail.team?, hcause]
    exact Option.bind_eq_some_iff.2 ⟨ctx, hctx, hteam?⟩
  obtain rfl := Option.some.inj (ht₂.symm.trans ht)
  rw [← hc hj, hteam]

namespace Net

variable {host : ℕ → Host} {io : ℕ → Option ℕ} {N : Net}

/-- What is known of the calls in the runs under the condition: those for a reply event were made in
its team. -/
theorem sound_of_readsInTeam
    (hrun : Steps host io (Allowed Action.ListsFit Peer.ReadsInTeam) start N) :
    N.Sound host Action.ListsFit fun fd x calls ↦ ∃ m c, x.Says host fd m ∧ calls = m.calls c ∧
      (m.code = .evt .replyCreated → ∀ t ∈ x.team?, cut c.useTeamUuid = t.uuid.str) := by
  refine sound_of_steps (fun _ _ h ↦ h) ?_ hrun
  intro p n hreads x hx _ m hm c hc
  refine ⟨m, c, hm, rfl, fun hcode t ht ↦ ?_⟩
  rw [hc]
  refine hreads x hx ?_ t ht
  rw [hm.bytes, headerCode_bytes, hcode]
  rfl

theorem replyTeamsTrue_of_readsInTeam
    (hrun : Steps host io (Allowed Action.ListsFit Peer.ReadsInTeam) start N) :
    N.ReplyTeamsTrue := by
  have hsound := sound_of_readsInTeam hrun
  intro p hp n k hk team thread hreply
  have hprint : ∀ s, k ≠ .output s := by
    rintro s rfl
    cases hreply
  obtain ⟨j, x, calls, rfl, hx, hframe, ⟨m, c, hm, rfl, hteam⟩, hcall⟩ :=
    (hsound.tells p hp).exists_mail hk hprint
  have hcode := Msg.code_of_reply hcall hreply
  obtain ⟨cmd, payload, t, th, hcause, hcreate, hposted, ht, hcalls⟩ := hm.replyCreated hcode
  obtain ⟨user, body, hsingle⟩ := hcalls c
  rw [hsingle, List.mem_singleton] at hcall
  rw [hcall, hteam hcode t ht] at hreply
  obtain ⟨rfl, rfl⟩ := Prod.mk.inj (Option.some.inj hreply)
  exact ⟨j, x, _, cmd, payload, t, th, rfl, hx, hframe, hcause, hcreate, hposted, rfl, rfl⟩

/-- **Reply events name the right team to those who are in it.** In every run in which no request is
for a list of 2^32 bytes or more, and clients read reply events only while they are using the team
in which the reply was posted, all reply events announced name the right team and thread. And in a
state of such a run a read leaves it so only if it is one of these. -/
theorem replyTeamsTrue_of_steps
    (hrun : Steps host io (Allowed Action.ListsFit Peer.ReadsInTeam) start N) :
    N.ReplyTeamsTrue ∧ ∀ i n p, N.peers[i]? = some p →
      ((N.move host io (.read i n)).ReplyTeamsTrue ↔ p.ReadsInTeam n) := by
  refine ⟨replyTeamsTrue_of_readsInTeam hrun, fun i n p hp ↦ ⟨fun h ↦ ?_, fun hreads ↦ ?_⟩⟩
  · have hsound := sound_of_readsInTeam hrun
    have hmem := List.mem_of_getElem? hp
    have hread : (N.peers.modify i (Peer.read n))[i]? = some (p.read n) := by
      rw [List.getElem?_modify_eq, hp]
      rfl
    refine Peer.ReplyTeamsTrue.readsInTeam (hsound.linked p hmem)
      ((hsound.tells p hmem).imp ?_) (h _ (List.mem_of_getElem? hread))
    rintro j - x calls ⟨m, c, hm, hcalls, -⟩
    exact ⟨m, c, hm, hcalls⟩
  · have hallowed : N.Allowed Action.ListsFit Peer.ReadsInTeam (.read i n) := by
      intro q hq
      obtain rfl := Option.some.inj (hp.symm.trans hq)
      exact hreads
    exact replyTeamsTrue_of_readsInTeam (hrun.tail ⟨.read i n, trivial, hallowed, rfl⟩)

/-- A `/use` of the team, channel and thread with these uuids, as it is typed. -/
def useLine (uuids : List Str) : Str := text "/use" ++ uuids.flatMap (text " " ++ ·) ++ text "\n"

/-- The client of `a` creates a team, a channel in it and a thread in that, and enters the thread;
the one of `b` subscribes to the team and enters it. -/
def threadOpened : List NetMove :=
  let team := (plainUuid 1).str
  let channel := (plainUuid 3).str
  let thread := (plainUuid 5).str
  let described := packFixed (packFixed [] (text "b") 32) (text "c") 255
  let titled := packFixed (packFixed [] (text "b") 32) (text "c") 512
  .act (.accept 4) :: command 0 4 (text "/login a\n") .login (packFixed [] (text "a") 32) ++
    command 0 4 (text "/create b c\n") .create described ++
    command 0 4 (useLine [team]) .use (packFixed [useTeam] team 36) ++
    command 0 4 (text "/create b c\n") .create described ++
    command 0 4 (useLine [team, channel]) .use
      (packFixed (packFixed [useChannel] team 36) channel 36) ++
    command 0 4 (text "/create b c\n") .create titled ++
    command 0 4 (useLine [team, channel, thread]) .use
      (packFixed (packFixed (packFixed [useThread] team 36) channel 36) thread 36) ++
    .act (.accept 5) :: command 1 5 (text "/login b\n") .login (packFixed [] (text "b") 32) ++
    command 1 5 (text "/subscribe " ++ team ++ text "\n") .subscribe (packFixed [] team 36) ++
    command 1 5 (useLine [team]) .use (packFixed [useTeam] team 36)

/-- A reply is posted, and `b` reads all there is to read. -/
def replyPosted : List NetMove :=
  command 0 4 (text "/create c\n") .create (packFixed [] (text "c") 512) ++ deliver 1 5 2000

theorem replyTeamsTrue_replyPosted :
    (execute plainHost (fun _ ↦ some 65535) (threadOpened ++ replyPosted) start).ReplyTeamsTrue ∧
      ∃ p ∈ (execute plainHost (fun _ ↦ some 65535) (threadOpened ++ replyPosted) start).peers,
        ((4, .eventThreadReplyReceived (plainUuid 1).str (plainUuid 5).str (plainUuid 0).str
          (text "c")) : ℕ × Callback) ∈ p.client.made := by
  have hrun : Executable plainHost (fun _ ↦ some 65535) (Allowed Action.ListsFit Peer.ReadsInTeam)
      (threadOpened ++ replyPosted) start := by decide +kernel
  exact ⟨(replyTeamsTrue_of_steps (steps_execute hrun)).1, by decide +kernel⟩

/-- The same, after `b` has typed `/use`. -/
def replyPostedElsewhere : List NetMove :=
  threadOpened ++ command 1 5 (text "/use\n") .use [useNone] ++ replyPosted

/-- **A member who is not using the team** is told of a reply in no team at all. -/
theorem not_replyTeamsTrue :
    ¬ ∀ N, Steps plainHost (fun _ ↦ some 65535) (fun _ _ ↦ True) start N → N.ReplyTeamsTrue := by
  intro h
  have hrun : Executable plainHost (fun _ ↦ some 65535) (fun _ _ ↦ True) replyPostedElsewhere
      start := by decide +kernel
  have hcall : ∃ p ∈ (execute plainHost (fun _ ↦ some 65535) replyPostedElsewhere start).peers,
      ((5, .eventThreadReplyReceived [] (plainUuid 5).str (plainUuid 0).str (text "c")) :
        ℕ × Callback) ∈ p.client.made := by decide +kernel
  obtain ⟨p, hp, hk⟩ := hcall
  obtain ⟨-, -, -, -, -, t, -, -, -, -, -, -, -, -, hteam⟩ :=
    h _ (steps_execute hrun) p hp _ _ hk _ _ rfl
  -- every team has a uuid of 36 characters
  have hlength := t.uuid.length_str
  rw [← hteam] at hlength
  cases hlength

end Net

end MyTeams
