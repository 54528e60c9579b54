import MyTeams.Client.CommandLine
import MyTeams.Client.Typing
import MyTeams.Net
import MyTeams.Server.Identity
import MyTeams.Server.Membership
import MyTeams.Texts

/-!
# Names and accounts

A name on its way from `/login "name"` to a user: the line is parsed, the name packed into a field
of 32 bytes, trimmed, looked up among the stored names, and perhaps stored. Longer names are cut on
the way and not refused, so the account is that of the first 32 bytes (`login_accounts`).

Two things carry the argument. The packet that the server answers is the one that the line sent: the
runs here keep what was typed (`Net.Run`), and each message that the server has queued is traced to
the packet which it answers (`Mail.Traced`). And what a name finds it finds for good, so two logins
can be compared in the last state, whatever came between them.
-/

namespace MyTeams

open ByteField FirstMatch FrameStream Server

/-! ### A login on the server -/

/-- The response to a login. -/
def loginOk (uuid : Bytes 36) (name : Bytes 32) : Msg := ⟨.res .loginOk, .account uuid name⟩

section Login

variable {host : ℕ → Host} {s : Server} {fd : Fd}

/-- **A login is answered** with the account that its name finds from then on. -/
theorem login_answered (h : Reachable host s) {name : Bytes 32}
    (ha : s.Enabled (.frame fd Command.login.code name.toList)) {b : List UInt8}
    (hb : b ∈ newMessages fd s (perform host (.frame fd Command.login.code name.toList) s)) :
    ∃ x : Uuid × Bytes 32, b = (loginOk x.1.bytes x.2).bytes ∧
      identityOf (perform host (.frame fd Command.login.code name.toList) s).data
        (cut name.toList) = some x := by
  have hlogin := Command.ofCode?_code .login
  have hshort : (cut name.toList).length ≤ 32 := length_cut_le name
  obtain ⟨x, hx, hresponse⟩ := identityOf_handleLogin (host s.served) fd s.data hshort
  have hbytes : (loginResponse x).bytes = (loginOk x.1.bytes x.2).bytes := by
    rw [loginResponse, appendUuid36_eq, appendName32_eq]
    rfl
  rw [newMessages_self h.sessionsWf ha, frameOutcome_login hlogin, hresponse, hbytes,
    List.mem_singleton] at hb
  rw [perform_frame_data, frameOutcome_login hlogin]
  exact ⟨x, hb, hx⟩

theorem collectsUuids_identities : CollectsUuids fun data ↦ (identities data).map Prod.fst := by
  refine ⟨rfl, fun h ↦ ?_⟩
  rcases h.identities_cases with hsame | ⟨hcmd, -, hnew⟩
  · exact .inl (congrArg _ hsame)
  · refine .inr ⟨⟨_, hcmd, by decide⟩, ?_⟩
    rw [hnew, List.map_append]
    rfl

theorem cut_of_identityOf {data : ServerData} {name : Str} {x : Uuid × Bytes 32}
    (h : identityOf data name = some x) : cut x.2.toList = name := by
  have hmatch := List.find?_some (p := fun y : Uuid × Bytes 32 ↦ cut y.2.toList == name) h
  exact eq_of_beq hmatch

/-- **An account has one name**: with fresh uuids, two names that find the same uuid are the
same. -/
theorem identityOf_injective (h : Reachable host s) (hfresh : FreshUuids host s.served)
    {a b : Str} {x y : Uuid × Bytes 32} (hx : identityOf s.data a = some x)
    (hy : identityOf s.data b = some y) : x.1.bytes = y.1.bytes ↔ a = b := by
  constructor
  · intro hbytes
    have huuid : x.1 = y.1 := Uuid.str_injective (congrArg List.Vector.toList hbytes)
    have hsame : x = y := List.inj_on_of_nodup_map (collectsUuids_identities.nodup h hfresh)
      (List.mem_of_find?_eq_some hx) (List.mem_of_find?_eq_some hy) huuid
    rw [← cut_of_identityOf hx, ← cut_of_identityOf hy, hsame]
  · rintro rfl
    rw [Option.some.inj (hx.symm.trans hy)]

end Login

/-! ### Runs with what is typed -/

/-- What a move types into the client with index `i`. -/
def NetMove.typedInto (i : ℕ) : NetMove → Str
  | .type j buf => if j = i then buf else []
  | _ => []

namespace Net

/-- What the moves type into it. -/
def typedInto (i : ℕ) (ms : List NetMove) : Str := ms.flatMap (NetMove.typedInto i)

theorem typedInto_concat (i : ℕ) (ms : List NetMove) (m : NetMove) :
    typedInto i (ms ++ [m]) = typedInto i ms ++ m.typedInto i := by
  rw [typedInto, List.flatMap_append, List.flatMap_singleton]
  rfl

/-- What is typed is typed into a client that exists. -/
def Existing (N : Net) : NetMove → Prop
  | .type i _ => i < N.peers.length
  | _ => True

instance (N : Net) (m : NetMove) : Decidable (N.Existing m) :=
  match m with
  | .type i _ => inferInstanceAs (Decidable (i < N.peers.length))
  | .flush _ | .read _ _ | .act _ => instDecidableTrue

/-- A run, with its moves. In each of them `write` does what it likes. -/
inductive Run (host : ℕ → Host) : List NetMove → Net → Prop
  | start : Run host [] start
  | move {ms : List NetMove} {N : Net} {m : NetMove} (h : Run host ms N) (hm : N.Enabled m)
    (hexists : N.Existing m) (io : ℕ → Option ℕ) : Run host (ms ++ [m]) (N.move host io m)

theorem Run.execute {host : ℕ → Host} {io : ℕ → Option ℕ} {ms ms' : List NetMove} {N : Net}
    (h : Run host ms N) (h' : Executable host io Existing ms' N) :
    Run host (ms ++ ms') (execute host io ms' N) := by
  induction ms' generalizing ms N with
  | nil => exact (List.append_nil ms).symm ▸ h
  | cons m ms' ih =>
    have hrun := ih (h.move h'.1 h'.2.1 io) h'.2.2
    rw [List.append_assoc] at hrun
    exact hrun

end Net

/-- **A message that the server has queued** for the client, before the state `s`. If it is the
response to a request of this client, that is the packet with the number which the request had. -/
structure Mail.Traced (host : ℕ → Host) (s : Server) (p : Peer) (x : Mail) : Prop where
  reachable : Reachable host x.before
  enabled : x.before.Enabled x.cause
  queued : x.bytes ∈ newMessages p.fd x.before (perform host x.cause x.before)
  later : Server.Steps host (perform host x.cause x.before) s
  packet : ∀ code payload, x.cause = .frame p.fd code payload →
    p.client.packets[(requestsOn p.fd (sinceAccept p.fd x.before.trace)).length]? =
      some (code, payload)

namespace Mail

variable {host : ℕ → Host} {s : Server} {p p' : Peer} {x : Mail}

/-- The client may go on. -/
theorem Traced.client (h : x.Traced host s p) (hfd : p'.fd = p.fd)
    (hpackets : p.client.packets <+: p'.client.packets) : x.Traced host s p' := by
  refine ⟨h.reachable, h.enabled, by rw [hfd]; exact h.queued, h.later,
    fun code payload hcause ↦ ?_⟩
  rw [hfd] at hcause ⊢
  exact getElem?_of_prefix hpackets (h.packet code payload hcause)

/-- So may the server. -/
theorem Traced.act (h : x.Traced host s p) {a : Action} (ha : s.Enabled a) :
    x.Traced host (perform host a s) p :=
  ⟨h.reachable, h.enabled, h.queued, h.later.tail ⟨a, ha, rfl⟩, h.packet⟩

/-- **What an action queues** is traced, since the frame that the server takes is the next
packet. -/
theorem traced_mailOf (hlinked : System.Linked host p.fd (p.view s))
    (hconnected : p.connected = true) {a : Action} (ha : s.Enabled a)
    (hread : a.readsFrom p.fd <+: p.up) (hx : x ∈ mailOf host s a p.fd) :
    x.Traced host (perform host a s) p := by
  obtain ⟨b, hb, rfl⟩ := List.mem_map.1 hx
  refine ⟨hlinked.reachable, ha, hb, .refl, fun code payload hcause ↦ ?_⟩
  obtain rfl : a = .frame p.fd code payload := hcause
  have hnext := hlinked.next ⟨hconnected, ha, hread⟩
  have hcount : ((p.view s).served p.fd).length =
      (requestsOn p.fd (sinceAccept p.fd s.trace)).length := List.length_map _
  rw [hcount] at hnext
  rw [Client.packets, List.getElem?_map]
  exact congrArg (Option.map Prod.fst) hnext

/-- **All the mail of a client** stays traced when the server acts. -/
theorem traced_serve (hlinked : System.Linked host p.fd (p.view s))
    (h : ∀ x ∈ p.mail, x.Traced host s p) {a : Action} (ha : s.Enabled a)
    (hread : p.connected = true → a.readsFrom p.fd <+: p.up) (hx : x ∈ (p.serve host s a).mail) :
    x.Traced host (perform host a s) (p.serve host s a) := by
  have hsame : p.client.packets <+: (p.serve host s a).client.packets := by
    rw [Peer.client_serve]
  refine Traced.client ?_ (Peer.fd_serve host s a p) hsame
  rw [Peer.serve] at hx
  split_ifs at hx with hconnected
  · rcases List.mem_append.1 hx with hx | hx
    · exact (h x hx).act ha
    · exact traced_mailOf hlinked hconnected ha (hread hconnected) hx
  · exact (h x hx).act ha

end Mail

namespace Net

variable {host : ℕ → Host} {io : ℕ → Option ℕ} {ms : List NetMove} {N : Net}

/-- **What a run keeps**: the clients are linked to the server, their mail is traced, and each has
been typed what the moves say. -/
structure Tracked (host : ℕ → Host) (ms : List NetMove) (N : Net) : Prop where
  reachable : Reachable host N.server
  linked : ∀ p ∈ N.peers, System.Linked host p.fd (p.view N.server)
  mail : ∀ p ∈ N.peers, ∀ x ∈ p.mail, x.Traced host N.server p
  typed : ∀ i, ∀ p ∈ N.peers[i]?, Client.HasTyped Client.init (typedInto i ms) p.client
  absent : ∀ i, N.peers.length ≤ i → typedInto i ms = []

theorem tracked_start : Tracked host [] start :=
  ⟨.init, fun _ hp ↦ absurd hp List.not_mem_nil, fun _ hp ↦ absurd hp List.not_mem_nil,
    fun _ _ hp ↦ (by cases hp), fun _ _ ↦ rfl⟩

/-- **A move of one client.** -/
theorem Tracked.modify (h : N.Tracked host ms) {i : ℕ} {f : Peer → Peer} {m : NetMove}
    (hfd : ∀ p, (f p).fd = p.fd) (hmail : ∀ p, (f p).mail = p.mail)
    (hlinked : ∀ p ∈ N.peers[i]?, System.Linked host (f p).fd ((f p).view N.server))
    (hpackets : ∀ p, p.client.packets <+: (f p).client.packets)
    (htyped : ∀ p s, Client.HasTyped Client.init s p.client →
      Client.HasTyped Client.init (s ++ m.typedInto i) (f p).client)
    (hother : ∀ j, j ≠ i → m.typedInto j = []) (hexists : m.typedInto i ≠ [] → i < N.peers.length) :
    Tracked host (ms ++ [m]) ⟨N.server, N.peers.modify i f⟩ := by
  refine ⟨h.reachable, ?_, ?_, fun j p hp ↦ ?_, fun j hj ↦ ?_⟩
  · exact forall_mem_modify h.linked fun p hp ↦ hlinked p hp
  · refine forall_mem_modify h.mail fun p hp x hx ↦ ?_
    rw [hmail] at hx
    exact (h.mail p (List.mem_of_getElem? hp) x hx).client (hfd p) (hpackets p)
  · have hget : (N.peers.modify i f)[j]? = some p := hp
    rw [List.getElem?_modify] at hget
    obtain ⟨q, hq, rfl⟩ := Option.map_eq_some_iff.1 hget
    rw [typedInto_concat]
    rcases eq_or_ne i j with rfl | hne
    · rw [if_pos rfl]
      exact htyped q _ (h.typed i q hq)
    · rw [if_neg hne, hother j hne.symm, List.append_nil]
      exact h.typed j q hq
  · have hlen : N.peers.length ≤ j := by rwa [List.length_modify] at hj
    rw [typedInto_concat, h.absent j hlen, List.nil_append]
    by_contra hne
    rcases eq_or_ne j i with rfl | hji
    · exact absurd (hexists hne) (Nat.not_lt.2 hlen)
    · exact hne (hother j hji)

/-- **An action of the server.** Nothing is typed, and a client that it accepts is a new one. -/
theorem Tracked.act (h : N.Tracked host ms) {a : Action} (hm : N.Enabled (.act a)) :
    Tracked host (ms ++ [.act a]) (N.move host io (.act a)) := by
  have hnothing (j : ℕ) : typedInto j (ms ++ [.act a]) = typedInto j ms := by
    rw [typedInto_concat]
    exact List.append_nil _
  refine ⟨h.reachable.step hm.1, fun p hp ↦ ?_, fun p hp ↦ ?_, fun j p hp ↦ ?_, fun j hj ↦ ?_⟩
  · rcases List.mem_append.1 hp with hp | hp
    · obtain ⟨q, hq, rfl⟩ := List.mem_map.1 hp
      rw [Peer.fd_serve]
      exact Peer.up_serve (h.linked q hq) hm.1 (hm.2 q hq)
    · obtain ⟨fd, rfl, rfl⟩ := mem_accepted.1 hp
      exact System.linked_start h.reachable hm.1
  · rcases List.mem_append.1 hp with hp | hp
    · obtain ⟨q, hq, rfl⟩ := List.mem_map.1 hp
      exact fun x hx ↦ Mail.traced_serve (h.linked q hq) (h.mail q hq) hm.1 (hm.2 q hq) hx
    · obtain ⟨fd, rfl, rfl⟩ := mem_accepted.1 hp
      exact fun x hx ↦ absurd hx List.not_mem_nil
  · rw [hnothing]
    have hget : (N.peers.map (Peer.serve host N.server a) ++ accepted a)[j]? = some p := hp
    rcases Nat.lt_or_ge j N.peers.length with hj | hj
    · rw [List.getElem?_append_left (by rwa [List.length_map]), List.getElem?_map] at hget
      obtain ⟨q, hq, rfl⟩ := Option.map_eq_some_iff.1 hget
      rw [Peer.client_serve]
      exact h.typed j q hq
    -- a client that has just been accepted
    · rw [List.getElem?_append_right (by rwa [List.length_map])] at hget
      obtain ⟨fd, rfl, rfl⟩ := mem_accepted.1 (List.mem_of_getElem? hget)
      rw [h.absent j hj]
      exact Client.hasTyped_self (c := Client.init) List.not_mem_nil
  · rw [hnothing]
    refine h.absent j (Nat.le_trans ?_ hj)
    show _ ≤ (N.peers.map (Peer.serve host N.server a) ++ accepted a).length
    rw [List.length_append, List.length_map]
    exact Nat.le_add_right _ _

/-- **Every move** keeps it. -/
theorem Tracked.move (h : N.Tracked host ms) {m : NetMove} (hm : N.Enabled m)
    (hexists : N.Existing m) : Tracked host (ms ++ [m]) (N.move host io m) := by
  have hmem {i : ℕ} {p : Peer} (hp : p ∈ N.peers[i]?) : System.Linked host p.fd (p.view N.server) :=
    h.linked p (List.mem_of_getElem? hp)
  cases m with
  | type i buf =>
    have hself : NetMove.typedInto i (.type i buf) = buf := if_pos rfl
    refine h.modify (fun _ ↦ rfl) (fun _ ↦ rfl) (fun p hp ↦ ?_) (fun p ↦ ?_) (fun p s hs ↦ ?_)
      (fun j hj ↦ if_neg hj.symm) fun _ ↦ hexists
    · exact (hmem hp).move (m := .type buf) trivial
    · exact (Client.packed_grows_handleStdin buf p.client).map _
    · rw [hself]
      exact hs.type io buf
  | flush i =>
    refine h.modify (fun _ ↦ rfl) (fun _ ↦ rfl) (fun p hp ↦ ?_) (fun p ↦ ?_) (fun p s hs ↦ ?_)
      (fun _ _ ↦ rfl) fun hne ↦ absurd rfl hne
    · exact (hmem hp).move (m := .flush) trivial
    · show p.client.packed.map _ <+: (p.client.handleServerWrite io).packed.map _
      rw [Client.handleServerWrite_packed]
    · exact (List.append_nil s).symm ▸ hs.flush
  | read i n =>
    refine h.modify (fun _ ↦ rfl) (fun _ ↦ rfl) (fun p hp ↦ ?_) (fun p ↦ ?_) (fun p s hs ↦ ?_)
      (fun _ _ ↦ rfl) fun hne ↦ absurd rfl hne
    · exact (@System.Linked.move host io _ _ (hmem hp) (.read n) trivial)
    · exact (Client.receives_handleServerRead (p.down.take n) p.client).packets.symm ▸
        List.prefix_refl _
    · exact (List.append_nil s).symm ▸ hs.read _
  | act a => exact h.act hm

theorem Run.tracked (h : Run host ms N) : N.Tracked host ms := by
  induction h with
  | start => exact tracked_start
  | move _ hm hexists _ ih => exact ih.move hm hexists

end Net

/-! ### Lines and their answers -/

namespace Client

/-- How many packets the lines send, typed into a new client. -/
def packetCount (lines : List Str) : ℕ :=
  (dispatchAll (fun _ ↦ none) (lines.filterMap lineCommand?) init).packets.length

end Client

/-- The line `/login "name"`. -/
def loginLine (name : Str) : Str := text "/login " ++ quote :: (name ++ [quote])

theorem lineCommand?_loginLine {name : Str} (h : quote ∉ name) :
    Client.lineCommand? (loginLine name) = some ⟨text "login", [name]⟩ := by
  have hline : loginLine name =
      slash :: (text "login" ++ space :: quote :: (name ++ quote :: [])) := by
    have htext : text "/login " = slash :: (text "login" ++ [space]) := by decide +kernel
    rw [loginLine, htext, List.cons_append, List.append_assoc]
    rfl
  have hlogin : space ∉ text "login" := by decide +kernel
  have hparse := parseLine_of_lexed hlogin (Quoting.ends_cons space _) (.blank (.quoted h .nil))
  rw [Client.lineCommand?, hline, hparse]
  rfl

/-- **The packet of a login line** is the name in a field of 32 bytes. -/
theorem packets_loginLine {name : Str} (h : quote ∉ name) (before after : List Str) :
    (Client.dispatchAll (fun _ ↦ none) ((before ++ loginLine name :: after).filterMap
      Client.lineCommand?) Client.init).packets[Client.packetCount before]? =
        some (Command.login.code, (fill 32 name).toList) := by
  rw [List.filterMap_append, List.filterMap_cons_some (lineCommand?_loginLine h),
    Client.dispatchAll_append]
  have hlogin (c : Client) : (Client.dispatch (fun _ ↦ none) ⟨text "login", [name]⟩ c).packets =
      c.packets ++ [(Command.login.code, (fill 32 name).toList)] := by
    rw [dispatch_login, Client.cmdLogin, Client.cmdField, Client.packets, Client.sendPacket_packed,
      packFixed_eq, List.nil_append, List.map_append]
    rfl
  have hafter := (Client.packed_grows_dispatchAll (fun _ ↦ none)
    (after.filterMap Client.lineCommand?) (Client.dispatch (fun _ ↦ none) ⟨text "login", [name]⟩
      (Client.dispatchAll (fun _ ↦ none) (before.filterMap Client.lineCommand?) Client.init))).map
        Prod.fst
  refine getElem?_of_prefix hafter ?_
  rw [← Client.packets, hlogin]
  exact List.getElem?_concat_length

/-- The message is the response to a line typed into the client, which sends a packet: the request
that it answers has the number of that packet. -/
def Mail.AnswersLine (typed : Str) (p : Peer) (line : Str) (x : Mail) : Prop :=
  ∃ before after, Client.typedLines typed = before ++ line :: after ∧ x ∈ p.mail ∧
    (∃ code payload, x.cause = .frame p.fd code payload) ∧
    (requestsOn p.fd (sinceAccept p.fd x.before.trace)).length = Client.packetCount before

/-- A name that can be typed between quotes, and does not end early on the server. -/
structure UserName where
  bytes : Str
  no_nul : (0 : UInt8) ∉ bytes
  no_quote : quote ∉ bytes

/-! ### The law -/

namespace Net

variable {host : ℕ → Host} {ms : List NetMove} {N : Net}

/-- The response to a login is the account which the first 32 bytes of the name find in the end. -/
theorem Tracked.login_found (h : N.Tracked host ms) {i : ℕ} {p : Peer} (hp : N.peers[i]? = some p)
    {n : UserName} {x : Mail} (hx : x.AnswersLine (typedInto i ms) p (loginLine n.bytes)) :
    ∃ z : Uuid × Bytes 32, x.bytes = (loginOk z.1.bytes z.2).bytes ∧
      identityOf N.server.data (n.bytes.take 32) = some z := by
  obtain ⟨before, after, hlines, hmem, ⟨code, payload, hcause⟩, hcount⟩ := hx
  have htraced := h.mail p (List.mem_of_getElem? hp) x hmem
  have hpackets : p.client.packets = (Client.dispatchAll (fun _ ↦ none)
      ((before ++ loginLine n.bytes :: after).filterMap Client.lineCommand?)
        Client.init).packets := by
    have htyped := congrArg Client.Outcome.packed (h.typed i p hp).outcome
    rw [Client.typedCommands, hlines] at htyped
    exact congrArg (List.map Prod.fst) htyped
  -- the request that was answered is the packet of the line
  have hpacket := htraced.packet code payload hcause
  rw [hcount, hpackets, packets_loginLine n.no_quote] at hpacket
  obtain ⟨rfl, rfl⟩ := Prod.mk.inj (Option.some.inj hpacket)
  have henabled := htraced.enabled
  have hqueued := htraced.queued
  have hlater := htraced.later
  have hafter := htraced.reachable.step henabled
  rw [hcause] at henabled hqueued hlater hafter
  obtain ⟨z, hbytes, hfound⟩ := login_answered htraced.reachable henabled hqueued
  rw [cut_fill_of_not_mem n.no_nul] at hfound
  exact ⟨z, hbytes, identityOf_of_prefix (hafter.grows hlater).1 hfound⟩

/-- **Names and accounts.** In any run, with fresh uuids, take two lines `/login "name"` typed into
any of the clients and the responses to them. Both are `RES_LOGIN_OK`, with one uuid exactly when
the names agree in their first 32 bytes, and the name that is returned is that part of what was
typed. -/
theorem login_accounts (hrun : Run host ms N) (hfresh : FreshUuids host N.server.served)
    {i j : ℕ} {p q : Peer} (hp : N.peers[i]? = some p) (hq : N.peers[j]? = some q) (n m : UserName)
    {x y : Mail} (hx : x.AnswersLine (typedInto i ms) p (loginLine n.bytes))
    (hy : y.AnswersLine (typedInto j ms) q (loginLine m.bytes)) :
    ∃ (u v : Bytes 36) (a b : Bytes 32),
      x.bytes = (loginOk u a).bytes ∧ y.bytes = (loginOk v b).bytes ∧
      (u = v ↔ n.bytes.take 32 = m.bytes.take 32) ∧
      cut a.toList = n.bytes.take 32 ∧ cut b.toList = m.bytes.take 32 := by
  obtain ⟨z, hxbytes, hz⟩ := hrun.tracked.login_found hp hx
  obtain ⟨w, hybytes, hw⟩ := hrun.tracked.login_found hq hy
  exact ⟨z.1.bytes, w.1.bytes, z.2, w.2, hxbytes, hybytes,
    identityOf_injective hrun.tracked.reachable hfresh hz hw, cut_of_identityOf hz,
    cut_of_identityOf hw⟩

/-! ### Two clients log in -/

/-- Two clients, of which each logs in with a name. -/
def twoLogins (n m : Str) : List NetMove :=
  [.act (.accept 4), .act (.accept 5)] ++
    command 0 4 (loginLine n ++ [Client.newline]) .login (packFixed [] n 32) ++
    command 1 5 (loginLine m ++ [Client.newline]) .login (packFixed [] m 32)

/-- The network then. -/
def loggedIn (n m : Str) : Net := execute plainHost (fun _ ↦ some 65535) (twoLogins n m) start

/-- The first message for a client may be the response to its login. -/
theorem exists_answersLine {N : Net} {typed line : Str} (i : ℕ) (bytes : List UInt8)
    (hlines : Client.typedLines typed = [line])
    (h : ∃ p ∈ N.peers[i]?, ∃ x ∈ p.mail[0]?, x.cause.fd = p.fd ∧
      x.cause.request.1 = some .login ∧
      (requestsOn p.fd (sinceAccept p.fd x.before.trace)).length = 0 ∧ x.bytes = bytes) :
    ∃ (p : Peer) (x : Mail), N.peers[i]? = some p ∧ x.AnswersLine typed p line ∧
      x.bytes = bytes := by
  obtain ⟨p, hp, x, hx, hfd, hlogin, hfirst, hbytes⟩ := h
  have hcause := Action.eq_frame_of_request hlogin (by decide)
  rw [hfd] at hcause
  exact ⟨p, x, hp, ⟨[], [], hlines, List.mem_of_getElem? hx, ⟨_, _, hcause⟩, hfirst⟩, hbytes⟩

/-- Two logins get two uuids. -/
theorem freshUuids_two : FreshUuids plainHost 2 := by
  have htwo : ∀ i < 2, ∀ j < 2, (plainHost i).newUuid = (plainHost j).newUuid → i = j := by
    decide +kernel
  exact fun i j hi hj ↦ htwo i hi j hj

theorem login_accounts_ab : ∃ (p q : Peer) (x y : Mail) (u v : Bytes 36) (a b : Bytes 32),
    (loggedIn (text "a") (text "b")).peers[0]? = some p ∧ x ∈ p.mail ∧
      (loggedIn (text "a") (text "b")).peers[1]? = some q ∧ y ∈ q.mail ∧
      x.bytes = (loginOk u a).bytes ∧ y.bytes = (loginOk v b).bytes ∧ u ≠ v ∧
      cut a.toList = text "a" ∧ cut b.toList = text "b" := by
  have hrun : Run plainHost (twoLogins (text "a") (text "b")) (loggedIn (text "a") (text "b")) :=
    Run.start.execute (by decide +kernel)
  have hserved : (loggedIn (text "a") (text "b")).server.served = 2 := by decide +kernel
  have hlines : Client.typedLines (typedInto 0 (twoLogins (text "a") (text "b"))) =
      [loginLine (text "a")] := by decide +kernel
  have hlines' : Client.typedLines (typedInto 1 (twoLogins (text "a") (text "b"))) =
      [loginLine (text "b")] := by decide +kernel
  obtain ⟨p, x, hp, hx, -⟩ := exists_answersLine (N := loggedIn (text "a") (text "b")) 0
    (loginOk (plainUuid 0).bytes (fill 32 (text "a"))).bytes hlines (by decide +kernel)
  obtain ⟨q, y, hq, hy, -⟩ := exists_answersLine (N := loggedIn (text "a") (text "b")) 1
    (loginOk (plainUuid 1).bytes (fill 32 (text "b"))).bytes hlines' (by decide +kernel)
  obtain ⟨u, v, a, b, hxok, hyok, hsame, ha, hb⟩ := login_accounts hrun
    (by rw [hserved]; exact freshUuids_two) hp hq ⟨text "a", by decide +kernel, by decide +kernel⟩
    ⟨text "b", by decide +kernel, by decide +kernel⟩ hx hy
  obtain ⟨-, -, -, hxmem, -⟩ := hx
  obtain ⟨-, -, -, hymem, -⟩ := hy
  have hdiffer : (text "a").take 32 ≠ (text "b").take 32 := by decide +kernel
  exact ⟨p, q, x, y, u, v, a, b, hp, hxmem, hq, hymem, hxok, hyok, fun h ↦ hdiffer (hsame.1 h),
    ha.trans (by decide +kernel), hb.trans (by decide +kernel)⟩

/-- 32 letters `a`, and one that the field has no room for. -/
def longName (last : UInt8) : Str := List.replicate 32 0x61 ++ [last]

/-- **One account for two names**: both logins are accepted, and the second client is the user of
the first. -/
theorem not_login_accounts : ¬ ∀ ms N, Run plainHost ms N → FreshUuids plainHost N.server.served →
    ∀ (i j : ℕ) (p q : Peer), N.peers[i]? = some p → N.peers[j]? = some q →
      ∀ (n m : UserName) (x y : Mail), x.AnswersLine (typedInto i ms) p (loginLine n.bytes) →
        y.AnswersLine (typedInto j ms) q (loginLine m.bytes) →
        ∀ (u v : Bytes 36) (a b : Bytes 32), x.bytes = (loginOk u a).bytes →
          y.bytes = (loginOk v b).bytes → n.bytes ≠ m.bytes → u ≠ v := by
  intro h
  have hrun : Run plainHost (twoLogins (longName 0x61) (longName 0x62))
      (loggedIn (longName 0x61) (longName 0x62)) := Run.start.execute (by decide +kernel)
  have hserved : (loggedIn (longName 0x61) (longName 0x62)).server.served = 2 := by decide +kernel
  have hlines : Client.typedLines (typedInto 0 (twoLogins (longName 0x61) (longName 0x62))) =
      [loginLine (longName 0x61)] := by decide +kernel
  have hlines' : Client.typedLines (typedInto 1 (twoLogins (longName 0x61) (longName 0x62))) =
      [loginLine (longName 0x62)] := by decide +kernel
  obtain ⟨p, x, hp, hx, hxok⟩ :=
    exists_answersLine (N := loggedIn (longName 0x61) (longName 0x62)) 0
    (loginOk (plainUuid 0).bytes (fill 32 (longName 0x61))).bytes hlines (by decide +kernel)
  obtain ⟨q, y, hq, hy, hyok⟩ :=
    exists_answersLine (N := loggedIn (longName 0x61) (longName 0x62)) 1
    (loginOk (plainUuid 0).bytes (fill 32 (longName 0x61))).bytes hlines' (by decide +kernel)
  exact h _ _ hrun (by rw [hserved]; exact freshUuids_two) 0 1 p q hp hq
    ⟨longName 0x61, by decide +kernel, by decide +kernel⟩
    ⟨longName 0x62, by decide +kernel, by decide +kernel⟩ x y hx hy _ _ _ _ hxok hyok
    (by decide +kernel) rfl

end Net

end MyTeams
