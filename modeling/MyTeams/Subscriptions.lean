import MyTeams.Client.Account
import MyTeams.Latency
import MyTeams.Status

/-!
# Reported subscriptions

A client reports a subscription with the account that it thinks it is in (`Client.userUuid`) and the
team that the response names. In the network the account is right: the frames that a client handles
are the first of its mail, and at any time the last login in the mail that was queued before a
message is the one that opened the session which the server met when it queued that message
(`Peer.Identified`). So a reported subscription is one that the server has made, of that user, to
that team (`memberships_reported`), and a client that has handled all its mail is in the account of
its session (`account_of_delivered`).
-/

namespace MyTeams

open ByteField ByteReader FirstMatch FrameStream Server

/-! ### Sessions and logins -/

section Answers

variable {host : Host} {fd : Fd} {payload : List UInt8} {data : ServerData} {cmd : Option Command}
  {a : Answer}

/-- The responses that say who the session's user is and what teams he joins, with their
commands. -/
def accountResponses : List (Response × Command) :=
  [(.loginOk, .login), (.subscribeOk, .subscribe), (.unsubscribeOk, .unsubscribe)]

theorem command_of_mem_responses {level : Option UInt8} {r : Response} {c c' : Command}
    (hr : (r, c') ∈ accountResponses) (h : r ∈ responses level c) : c = c' := by
  have hlevel {f : UInt8 → Response} (hf : ∀ l, (f l, c') ∉ accountResponses) :
      r ∉ level.toList.map f := by
    rintro hmem
    obtain ⟨l, -, rfl⟩ := List.mem_map.1 hmem
    exact hf l hr
  have hcreated (l : UInt8) : (createdResponse l, c') ∉ accountResponses := by
    rw [createdResponse]
    split_ifs <;> simp [accountResponses]
  have hlist (l : UInt8) : (listResponse l, c') ∉ accountResponses := by
    rw [listResponse]
    split_ifs <;> simp [accountResponses]
  have hinfo (l : UInt8) : (infoResponse l, c') ∉ accountResponses := by
    rw [infoResponse]
    split_ifs <;> simp [accountResponses]
  -- the responses to the other commands are the same at every level
  have hplain (c : Command) : ∀ p ∈ accountResponses, p.1 ∈ responses none c → c = p.2 := by
    cases c <;> decide
  cases c with
  | create => exact absurd h (hlevel hcreated)
  | list => exact absurd h (hlevel hlist)
  | info => exact absurd h (hlevel hinfo)
  | _ => exact hplain _ (r, c') hr h

/-- The command that such a response answers. -/
theorem Serves.command_of_code (h : Serves host fd payload data cmd a) {r : Response} {c : Command}
    (hr : (r, c) ∈ accountResponses) (hcode : a.msg.code = .res r) : cmd = some c := by
  have hanswers := h.answers
  rw [hcode] at hanswers
  obtain ⟨c', rfl, hmem⟩ := hanswers
  rw [command_of_mem_responses hr hmem]

/-- **The session of a connection** is the one that the response to a login names, and otherwise it
is as it was, or it has ended. -/
theorem Serves.session_cases (h : Serves host fd payload data cmd a) :
    (∃ uuid name, a.msg = ⟨.res .loginOk, .account uuid name⟩ ∧
        a.data.sessions[fd]? = some (cut uuid.toList)) ∨
      a.msg.code ≠ .res .loginOk ∧
        ∀ user, a.data.sessions[fd]? = some user → data.sessions[fd]? = some user := by
  by_cases hlogin : cmd = some .login
  · left
    have hopened (users : List User) (u : User) :
        (loginData data fd users u).sessions[fd]? = some (cut u.uuid.bytes.toList) := by
      rw [loginData, IntMap.get_insert_self]
      exact congrArg some u.uuid.cut_str.symm
    cases h with
    | loginKnown hfind hafter => exact ⟨_, _, rfl, hafter ▸ hopened _ _⟩
    | loginNew hfind huser hafter => exact ⟨_, _, rfl, hafter ▸ hopened _ _⟩
    | unauthorized hs hcmd => exact absurd hlogin hcmd
    | refused hs hb hquery => exact absurd (Option.some.inj hlogin) hquery.1
    | dangling hs hcmd =>
      rcases hcmd with rfl | rfl | rfl
      · cases hlogin
      · cases hlogin
      · cases hlogin
    | _ => cases hlogin
  · right
    refine ⟨fun hcode ↦ hlogin (h.command_of_code (by decide) hcode), ?_⟩
    · have hchange := h.change
      generalize a.data = after at hchange
      cases hchange with
      | login => exact absurd rfl hlogin
      | logout =>
        intro user hs
        rw [logoutData, IntMap.get_erase_self] at hs
        cases hs
      | _ => exact fun _ hs ↦ hs

/-- Subscriptions are reported for the messages that say so. -/
theorem Msg.eq_of_membership {m : Msg} {c : Client} {k : Callback} (hk : k ∈ m.calls c)
    {user team : Str} {joined : Bool} (hm : k.membership = some (user, team, joined)) :
    ∃ u : Bytes 36, team = cut u.toList ∧
      m = ⟨.res (if joined then .subscribeOk else .unsubscribeOk), .uuid u⟩ := by
  obtain ⟨code, body⟩ := m
  unfold Msg.calls at hk
  dsimp only at hk
  split at hk
  case h_8 u | h_9 u =>
    rw [List.mem_singleton.1 hk] at hm
    obtain ⟨-, hm⟩ := Prod.mk.inj (Option.some.inj hm)
    obtain ⟨rfl, rfl⟩ := Prod.mk.inj hm
    exact ⟨u, rfl, rfl⟩
  all_goals
    first
    | rw [List.mem_singleton.1 hk] at hm
      cases hm
    | obtain ⟨r, -, rfl⟩ := List.mem_map.1 hk
      cases hm
    | cases hk

/-- **A response about a subscription** names the team that was asked for. -/
theorem Serves.subscription (h : Serves host fd payload data cmd a) {u : Bytes 36} {joined : Bool}
    (hmsg : a.msg = ⟨.res (if joined then .subscribeOk else .unsubscribeOk), .uuid u⟩) :
    cmd = some (if joined then .subscribe else .unsubscribe) ∧
      (∃ user, data.sessions[fd]? = some user) ∧
      cut u.toList = Server.extractSv payload 0 36 := by
  have hcmd : cmd = some (if joined then .subscribe else .unsubscribe) := by
    refine h.command_of_code ?_ (congrArg Msg.code hmsg)
    cases joined <;> decide
  refine ⟨hcmd, ?_⟩
  have hfound {t : Team} (ht : findTeamByUuid data (Server.extractSv payload 0 36) = some t)
      (hbody : Body.uuid t.uuid.bytes = .uuid u) : cut u.toList =
        Server.extractSv payload 0 36 := by
    rw [← Body.uuid.inj hbody, ← str_of_findTeamByUuid ht]
    exact t.uuid.cut_str
  cases joined with
  | true =>
    cases h with
    | subscribe hs huuid hteam | resubscribe hs huuid hteam =>
      exact ⟨⟨_, hs⟩, hfound (huuid ▸ hteam) (congrArg Msg.body hmsg)⟩
    | unauthorized | unknown | refused | dangling => cases congrArg Msg.code hmsg
    | _ => cases hcmd
  | false =>
    cases h with
    | unsubscribe hs huuid hteam =>
      exact ⟨⟨_, hs⟩, hfound (huuid ▸ hteam) (congrArg Msg.body hmsg)⟩
    | unauthorized | unknown | refused | dangling => cases congrArg Msg.code hmsg
    | _ => cases hcmd

end Answers

/-! ### Sessions and mail -/

theorem accountAfter_login (u : Str) (uuid : Bytes 36) (name : Bytes 32) :
    accountAfter u (Response.loginOk.code,
      (Msg.bytes ⟨.res .loginOk, .account uuid name⟩).drop headerSize) = cut uuid.toList := by
  have hread := decodes_readFixed uuid [] name.toList false
  rw [List.nil_append] at hread
  have hbody : (Msg.bytes ⟨.res .loginOk, .account uuid name⟩).drop headerSize =
      uuid.toList ++ name.toList := List.drop_left' rfl
  rw [hbody]
  exact (if_pos rfl).trans (congrArg Prod.fst hread)

namespace Server

variable {host : ℕ → Host} {s : Server}

/-- **What an action does to a session** shows in the mail: it is opened by the only message queued,
which names the user, or no login is among the messages, and the session is as it was or has
ended. -/
theorem Reachable.session_of_mail (h : Reachable host s) {a : Action} (ha : s.Enabled a) (d : Fd) :
    (∃ x user, mailOf host s a d = [x] ∧ (∀ uuid, accountAfter uuid x.frame = user) ∧
        (perform host a s).data.sessions[d]? = some user) ∨
      (∀ x ∈ mailOf host s a d, x.frame.1 ≠ Response.loginOk.code) ∧
        ∀ user, (perform host a s).data.sessions[d]? = some user →
          s.data.sessions[d]? = some user := by
  have hcode {x : Mail} {m : Msg} (hx : x.bytes = m.bytes) (hne : m.code ≠ .res .loginOk) :
      x.frame.1 ≠ Response.loginOk.code := by
    intro heq
    rw [Mail.frame, hx, headerCode_bytes] at heq
    exact hne (ServerCode.code_injective heq)
  rcases answer_perform host h.sessionsWf ha with ⟨answer, hserves, hdata, hnew⟩ | ⟨-, hdata, hnew⟩
  · have hmail {x : Mail} (hx : x ∈ mailOf host s a d) : ∃ m ∈ answer.messagesTo a.fd d,
        x.bytes = m.bytes := by
      obtain ⟨b, hb, rfl⟩ := List.mem_map.1 hx
      rw [hnew] at hb
      split_ifs at hb
      · obtain ⟨m, hm, rfl⟩ := List.mem_map.1 hb
        exact ⟨m, hm, rfl⟩
      · cases hb
    rw [hdata]
    rcases eq_or_ne d a.fd with rfl | hd
    · rcases hserves.session_cases with ⟨uuid, name, hmsg, hs⟩ | ⟨hne, hs⟩
      · left
        -- who has a session is a client, so the response is queued
        have hclient : (perform host a s).clients.contains a.fd = true := by
          refine (h.step ha).registry.client a.fd ?_
          rw [hdata]
          exact (IntMap.contains_iff _).2 ⟨_, hs⟩
        refine ⟨⟨answer.msg.bytes, a, s⟩, cut uuid.toList, ?_, fun u ↦ ?_, hs⟩
        · rw [mailOf, hnew, if_pos hclient, Answer.messagesTo, if_pos rfl]
          rfl
        · rw [Mail.frame, headerCode_bytes, hmsg]
          exact accountAfter_login u uuid name
      · refine .inr ⟨fun x hx ↦ ?_, hs⟩
        obtain ⟨m, hm, hbytes⟩ := hmail hx
        rw [Answer.messagesTo, if_pos rfl, List.mem_singleton] at hm
        exact hcode hbytes (hm ▸ hne)
    · refine .inr ⟨fun x hx ↦ ?_, fun user hs ↦ ?_⟩
      · obtain ⟨m, hm, hbytes⟩ := hmail hx
        obtain ⟨evt, hevt⟩ := (isPush_code m.code).1 (hserves.push hd m hm)
        exact hcode hbytes fun heq ↦ by cases hevt.symm.trans heq
      · rwa [hserves.change.sessions_of_ne hd] at hs
  · right
    rw [mailOf, hnew, hdata]
    exact ⟨fun x hx ↦ absurd hx List.not_mem_nil, fun _ ↦ id⟩

/-- The code of a response, read off the mail. -/
theorem Reachable.responseCode_of_mail (h : Reachable host s) {fd : Fd} {code : UInt16}
    {payload : List UInt8} (ha : s.Enabled (.frame fd code payload)) {x : Mail}
    (hx : x ∈ mailOf host s (.frame fd code payload) fd) :
    responseCode host s fd code payload = headerCode x.bytes := by
  obtain ⟨b, hb, rfl⟩ := List.mem_map.1 hx
  obtain ⟨a, -, -, hresult⟩ := exists_serves_frame host h.sessionsWf fd code payload
  rw [newMessages_self h.sessionsWf ha, hresult] at hb
  rw [responseCode, hresult, List.mem_singleton.1 hb]
  exact (headerCode_bytes a.msg).symm

end Server

namespace Peer

/-- **The account of a client**: the last login in its mail opened its session, and at each message
the last login before it opened the session that the server met. -/
structure Identified (host : ℕ → Host) (s : Server) (p : Peer) : Prop where
  session : p.connected = true → ∀ user, s.data.sessions[p.fd]? = some user →
    account (p.mail.map Mail.frame) = user
  mail : ∀ j x, p.mail[j]? = some x → Reachable host x.before ∧ x.before.Enabled x.cause ∧
    x ∈ mailOf host x.before x.cause p.fd ∧ ∀ user, x.before.data.sessions[p.fd]? = some user →
      account ((p.mail.take j).map Mail.frame) = user

variable {host : ℕ → Host} {io : ℕ → Option ℕ} {s : Server} {p : Peer}

theorem identified_start {fd : Fd} (h : Reachable host s) (hfd : s.Enabled (.accept fd)) :
    (start fd).Identified host (perform host (.accept fd) s) := by
  refine ⟨fun _ user hs ↦ ?_, fun j x hx ↦ by cases hx⟩
  have hnone : s.data.sessions[fd]? = none := (h.registry.of_closed hfd).2.1
  have hs : s.data.sessions[fd]? = some user := hs
  rw [hnone] at hs
  cases hs

/-- **One action of the server.** -/
theorem Identified.serve (h : p.Identified host s) (hs : Reachable host s) {a : Action}
    (ha : s.Enabled a) :
    (p.serve host s a).Identified host (perform host a s) := by
  by_cases hconnected : p.connected = true
  swap
  · rw [Peer.serve, if_neg hconnected]
    exact ⟨fun h ↦ absurd h hconnected, h.mail⟩
  have hcause {x : Mail} (hx : x ∈ mailOf host s a p.fd) : x.before = s ∧ x.cause = a := by
    obtain ⟨b, -, rfl⟩ := List.mem_map.1 hx
    exact ⟨rfl, rfl⟩
  -- no login is queued before a message of this action
  have hbefore {j : ℕ} {x : Mail} (hx : (mailOf host s a p.fd)[j]? = some x) {user : Str}
      (huser : s.data.sessions[p.fd]? = some user) :
      account ((p.mail ++ (mailOf host s a p.fd).take j).map Mail.frame) = user := by
    rw [List.map_append]
    rcases hs.session_of_mail ha p.fd with ⟨y, _, hsingle, -⟩ | ⟨hnone, -⟩
    · rw [hsingle] at hx ⊢
      obtain rfl : j = 0 := by
        have hlt := (List.getElem?_eq_some_iff.1 hx).1
        rw [List.length_singleton] at hlt
        omega
      rw [List.take_zero, List.map_nil, List.append_nil]
      exact h.session hconnected user huser
    · rw [account_append_of_ne]
      · exact h.session hconnected user huser
      · intro f hf
        obtain ⟨y, hy, rfl⟩ := List.mem_map.1 hf
        exact hnone y (List.mem_of_mem_take hy)
  rw [Peer.serve, if_pos hconnected]
  refine ⟨fun _ user huser ↦ ?_, fun j x hx ↦ ?_⟩
  · show account ((p.mail ++ mailOf host s a p.fd).map Mail.frame) = user
    rw [List.map_append]
    rcases hs.session_of_mail ha p.fd with ⟨y, user', hsingle, hlogin, hs'⟩ | ⟨hnone, hold⟩
    · rw [hsingle, List.map_singleton, account_concat, hlogin]
      exact Option.some.inj (hs'.symm.trans huser)
    · rw [account_append_of_ne]
      · exact h.session hconnected user (hold user huser)
      · intro f hf
        obtain ⟨y, hy, rfl⟩ := List.mem_map.1 hf
        exact hnone y hy
  · have hx : (p.mail ++ mailOf host s a p.fd)[j]? = some x := hx
    show Reachable host x.before ∧ x.before.Enabled x.cause ∧
      x ∈ mailOf host x.before x.cause p.fd ∧
      ∀ user, x.before.data.sessions[p.fd]? = some user →
        account (((p.mail ++ mailOf host s a p.fd).take j).map Mail.frame) = user
    rcases Nat.lt_or_ge j p.mail.length with hj | hj
    · rw [List.getElem?_append_left hj] at hx
      rw [List.take_append_of_le_length (Nat.le_of_lt hj)]
      exact h.mail j x hx
    · rw [List.getElem?_append_right hj] at hx
      obtain ⟨hbef, hcau⟩ := hcause (List.mem_of_getElem? hx)
      rw [hbef, hcau, List.take_append, List.take_of_length_le hj]
      exact ⟨hs, ha, List.mem_of_getElem? hx, fun user huser ↦ hbefore hx huser⟩

/-- What has been handled up to a message. -/
theorem Linked.handled_take {A : Server → Action → Prop} (h : p.Linked host A s) {j : ℕ} {x : Mail}
    {f : Frame} (hx : p.mail[j]? = some x) (hf : p.client.handled[j]? = some f) :
    p.client.handled.take (j + 1) = (p.mail.take j).map Mail.frame ++ [x.frame] := by
  obtain ⟨buf, hintact, -⟩ := h.down
  obtain ⟨todo, htodo⟩ : p.client.handled <+: p.mail.map Mail.frame := hintact.prefix_queued
  have hj : j + 1 ≤ p.client.handled.length := (List.getElem?_eq_some_iff.1 hf).1
  have htake : p.client.handled.take (j + 1) = (p.mail.map Mail.frame).take (j + 1) := by
    rw [← htodo, List.take_append_of_le_length hj]
  rw [htake, List.take_add_one, List.getElem?_map, hx, List.map_take]
  rfl

/-- What is written and read is handled. -/
theorem Linked.handled_of_delivered {A : Server → Action → Prop} (h : p.Linked host A s)
    (hconnected : p.connected = true) (hsettled : clientCodec.scan p.client.recvBuf = .more)
    (hdown : p.down = []) (hbuf : s.sendBuffer p.fd = []) :
    p.client.handled = p.mail.map Mail.frame := by
  have hintact := (h.intact hconnected).2
  have harrived : (p.downLink s).encoded clientCodec ≤ (p.downLink s).arrived clientCodec := by
    have hwire : (p.downLink s).wire = [] := hdown
    have hsend : (p.downLink s).sendBuf = [] := hbuf
    rw [hintact.encoded_eq, Link.written, hwire, hsend]
    exact Nat.le_refl _
  have hall : p.mail.map Mail.frame <+: p.client.handled :=
    hintact.prefix_handled hsettled (List.prefix_refl _) harrived
  have hfirst : p.client.handled <+: p.mail.map Mail.frame := hintact.prefix_queued
  exact hfirst.eq_of_length_le hall.length_le

end Peer

namespace Net

variable {host : ℕ → Host} {io : ℕ → Option ℕ} {N : Net}

/-- What is known of each client after a run. -/
theorem identified_of_steps {allowed : Net → NetMove → Prop} (h : Steps host io allowed start N) :
    Reachable host N.server ∧ ∀ p ∈ N.peers, p.Identified host N.server ∧ p.client.Knows := by
  induction h with
  | refl => exact ⟨.init, fun p hp ↦ absurd hp List.not_mem_nil⟩
  | tail _ hstep ih =>
    obtain ⟨hreachable, ih⟩ := ih
    obtain ⟨m, hm, -, rfl⟩ := hstep
    cases m with
    | type j buf =>
      refine ⟨hreachable, forall_mem_modify ih fun p hp ↦ ?_⟩
      obtain ⟨hid, hknows⟩ := ih p (List.mem_of_getElem? hp)
      exact ⟨⟨hid.session, hid.mail⟩, hknows.handleStdin buf⟩
    | flush j =>
      refine ⟨hreachable, forall_mem_modify ih fun p hp ↦ ?_⟩
      obtain ⟨hid, hknows⟩ := ih p (List.mem_of_getElem? hp)
      exact ⟨⟨hid.session, hid.mail⟩, hknows.handleServerWrite⟩
    | read j n =>
      refine ⟨hreachable, forall_mem_modify ih fun p hp ↦ ?_⟩
      obtain ⟨hid, hknows⟩ := ih p (List.mem_of_getElem? hp)
      exact ⟨⟨hid.session, hid.mail⟩, hknows.handleServerRead _⟩
    | act a =>
      refine ⟨hreachable.step hm.1, fun p hp ↦ ?_⟩
      rcases List.mem_append.1 hp with hp | hp
      · obtain ⟨q, hq, rfl⟩ := List.mem_map.1 hp
        obtain ⟨hid, hknows⟩ := ih q hq
        exact ⟨hid.serve hreachable hm.1, (Peer.client_serve host _ a q).symm ▸ hknows⟩
      · obtain ⟨fd, rfl, rfl⟩ := mem_accepted.1 hp
        exact ⟨Peer.identified_start hreachable hm.1, Client.knows_init⟩

/-! ### What is reported -/

/-- **A reported subscription is one that the server has made.** In every run of the loops in which
at most `capacity` frames are dispatched, a client that calls `client_print_subscribed` or
`client_print_unsubscribed` is decoding the response to its own `/subscribe` or `/unsubscribe`. The
user that it passes is the one of the session that the server found, the team is the one that was
asked for, and after the request the user was a member of it, or was none. -/
theorem memberships_reported (hrun : Turns host io start N) (hserved : N.server.served ≤ capacity)
    {p : Peer} (hp : p ∈ N.peers) {n : ℕ} {k : Callback} (hk : (n, k) ∈ p.client.made)
    {user team : Str} {joined : Bool} (hm : k.membership = some (user, team, joined)) :
    ∃ j x payload, n = j + 1 ∧ p.mail[j]? = some x ∧ p.client.handled[j]? = some x.frame ∧
      x.cause = .frame p.fd (if joined then Command.subscribe else .unsubscribe).code payload ∧
      x.before.data.sessions[p.fd]? = some user ∧ team = Server.extractSv payload 0 36 ∧
      (IsMember (perform host x.cause x.before).data team user ↔ joined = true) := by
  have hsteps := fitting_of_turns hrun hserved
  have hsound := sound_of_fitting hsteps
  obtain ⟨hid, hknows⟩ := (identified_of_steps hsteps).2 p hp
  have hprint : ∀ s, k ≠ .output s := by
    rintro s rfl
    cases hm
  obtain ⟨j, x, calls, rfl, hx, hframe, ⟨m, c, hmail₀, rfl⟩, hcall⟩ :=
    (hsound.tells p hp).exists_mail hk hprint
  obtain ⟨u, rfl, hmsg⟩ := Msg.eq_of_membership hcall hm
  have hne : m.code ≠ .res .loginOk ∧ ∀ evt, m.code ≠ .evt evt := by
    rw [hmsg]
    cases joined with
    | true => exact ⟨(fun h ↦ by cases h), fun _ h ↦ by cases h⟩
    | false => exact ⟨(fun h ↦ by cases h), fun _ h ↦ by cases h⟩
  -- it is the response to a request of this connection
  obtain ⟨hfd, a, hserves, rfl⟩ := hmail₀.response hne.2
  obtain ⟨hcmd, ⟨user', hs'⟩, huuid⟩ := hserves.subscription hmsg
  have hcause : x.cause =
      .frame p.fd (if joined then Command.subscribe else .unsubscribe).code x.cause.request.2 := by
    rw [← hfd]
    refine Action.eq_frame_of_request hcmd ?_
    cases joined <;> decide
  obtain ⟨hreachable, henabled, hmail, hbefore⟩ := hid.mail j x hx
  -- the account of the client is that of the session
  have huser : user = user' := by
    have hcode : x.frame.1 ≠ Response.loginOk.code := by
      rw [hmail₀.frame]
      exact fun h ↦ hne.1 (ServerCode.code_injective h)
    rw [(hknows.made _ k hk _ _ _ hm).2, (hsound.linked p hp).handled_take hx hframe,
      account_concat, accountAfter_of_ne hcode]
    exact hbefore user' hs'
  subst huser
  have hresponse : responseCode host x.before p.fd
      (if joined then Command.subscribe else .unsubscribe).code x.cause.request.2 =
        (if joined then Response.subscribeOk else .unsubscribeOk).code := by
    rw [hcause] at henabled hmail
    rw [hreachable.responseCode_of_mail henabled hmail, hmail₀.bytes, headerCode_bytes, hmsg]
    rfl
  refine ⟨j, x, x.cause.request.2, rfl, hx, hframe, hcause, hs', huuid, ?_⟩
  rw [hcause, huuid]
  cases joined with
  | true => exact iff_of_true (hreachable.isMember_of_subscribed hs' hresponse) rfl
  | false =>
    have hnot := hreachable.not_isMember_of_unsubscribed hs' hresponse
    exact iff_of_false hnot Bool.false_ne_true

theorem firstPeer_mem (h : N.peers[0]?.isSome) : N.firstPeer ∈ N.peers := by
  obtain ⟨q, hq⟩ := Option.isSome_iff_exists.1 h
  rw [firstPeer, hq, Option.getD_some]
  exact List.mem_of_getElem? hq

/-- A line is typed into the first client. -/
def typedFirst (line : Str) (N : Net) : Net :=
  N.take plainHost (fun _ ↦ some 65535) (.client 0 (some line) false none)

/-- The server reads what the first client has written. -/
def readFirst (N : Net) : Turn := .server none fun _ ↦ ⟨false, some N.firstPeer.up, none⟩

/-- It writes what it has queued, and the client reads it. -/
def answeredFirst (N : Net) : Net :=
  (N.take plainHost (fun _ ↦ some 65535)
    (.server none fun _ ↦ ⟨false, none, some (some 2000)⟩)).take
    plainHost (fun _ ↦ some 65535) (.client 0 none false (some 2000))

/-- A line is typed into the first client, the server dispatches its packet, and the client reads
the answer. -/
def exchange (line : Str) (N : Net) : Net :=
  answeredFirst ((typedFirst line N).take plainHost (fun _ ↦ some 65535)
    (readFirst (typedFirst line N)))

theorem turns_exchange {line : Str} (h : Turns plainHost (fun _ ↦ some 65535) start N)
    (htakes : (typedFirst line N).Takes (readFirst (typedFirst line N))) :
    Turns plainHost (fun _ ↦ some 65535) start (exchange line N) := by
  have hread := (h.tail ⟨.client 0 (some line) false none, trivial, rfl⟩).tail ⟨_, htakes, rfl⟩
  refine .tail (hread.tail ⟨.server none fun _ ↦ ⟨false, none, some (some 2000)⟩, ?_, rfl⟩)
    ⟨.client 0 none false (some 2000), trivial, rfl⟩
  exact ⟨(fun _ hfd ↦ by cases hfd), fun _ _ _ _ htmp ↦ by cases htmp⟩

/-- A client connects, and its user logs in. -/
def loggedInFirst : Net :=
  exchange (text "/login a\n")
    (start.take plainHost (fun _ ↦ some 65535) (.server (some 4) fun _ ↦ ⟨false, none, none⟩))

theorem turns_loggedInFirst : Turns plainHost (fun _ ↦ some 65535) start loggedInFirst :=
  turns_exchange (.single ⟨_, by decide +kernel, rfl⟩) (by decide +kernel)

/-- He creates a team, and leaves it. -/
def teamLeft : Net :=
  exchange (text "/unsubscribe " ++ (plainUuid 1).str ++ text "\n")
    (exchange (text "/create b c\n") loggedInFirst)

theorem memberships_reported_teamLeft :
    ∃ j x payload, 3 = j + 1 ∧ teamLeft.firstPeer.mail[j]? = some x ∧
      teamLeft.firstPeer.client.handled[j]? = some x.frame ∧
      x.cause = .frame 4 Command.unsubscribe.code payload ∧
      x.before.data.sessions[(4 : Fd)]? = some (plainUuid 0).str ∧
      (plainUuid 1).str = Server.extractSv payload 0 36 ∧
      ¬ IsMember (perform plainHost x.cause x.before).data (plainUuid 1).str (plainUuid 0).str := by
  have hturns : Turns plainHost (fun _ ↦ some 65535) start teamLeft :=
    turns_exchange (turns_exchange turns_loggedInFirst (by decide +kernel)) (by decide +kernel)
  have hfd : teamLeft.firstPeer.fd = 4 := by decide +kernel
  have hp : teamLeft.firstPeer ∈ teamLeft.peers := firstPeer_mem (by decide +kernel)
  have hk : (3, .printUnsubscribed (plainUuid 0).str (plainUuid 1).str) ∈
      teamLeft.firstPeer.client.made := by
    decide +kernel
  obtain ⟨j, x, payload, hj, hx, hframe, hcause, hs, hteam, hmember⟩ :=
    memberships_reported hturns (by decide +kernel) hp hk rfl
  rw [hfd] at hcause hs
  exact ⟨j, x, payload, hj, hx, hframe, hcause, hs, hteam, fun h ↦ Bool.false_ne_true (hmember.1 h)⟩

/-- **A client knows whose session it has**, in every run of the loops in which at most `capacity`
frames are dispatched, as soon as nothing is under way to it. -/
theorem account_of_delivered (hrun : Turns host io start N) (hserved : N.server.served ≤ capacity)
    {p : Peer} (hp : p ∈ N.peers) (hconnected : p.connected = true) (hdown : p.down = [])
    (hbuf : N.server.sendBuffer p.fd = []) {user : Str}
    (hs : N.server.data.sessions[p.fd]? = some user) :
    p.client.userUuid = user := by
  have hsteps := fitting_of_turns hrun hserved
  obtain ⟨hid, hknows⟩ := (identified_of_steps hsteps).2 p hp
  have hlinked := (sound_of_fitting hsteps).linked p hp
  rw [hknows.userUuid, hlinked.handled_of_delivered hconnected (settled_of_steps hsteps p hp) hdown
    hbuf]
  exact hid.session hconnected user hs

theorem account_of_delivered_loggedInFirst :
    loggedInFirst.firstPeer.client.userUuid = (plainUuid 0).str := by
  have hp : loggedInFirst.firstPeer ∈ loggedInFirst.peers := firstPeer_mem (by decide +kernel)
  exact account_of_delivered turns_loggedInFirst (by decide +kernel) hp (by decide +kernel)
    (by decide +kernel) (by decide +kernel) (by decide +kernel)

end Net

end MyTeams
