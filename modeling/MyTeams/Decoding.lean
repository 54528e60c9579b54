import MyTeams.Client.Response
import MyTeams.Server.Answers

/-!
# Decoding undoes encoding

What the client reads off a payload is what the server meant by it. `Msg.calls` says, message by
message, what the client has to tell its user: the records of the body, in order, each text cut at
its first zero byte. `Msg.Fits.decodes` shows that `_handle_response` reads exactly this off the
bytes of any message whose body has the shape its code calls for, and `Serves.fits` that the server
sends no other message: the one that would not fit, an error of an unknown team, channel or thread
without its uuid, is ruled out since contexts never dangle.
-/

namespace MyTeams

open ByteOrder ByteField ByteReader

/-! ### What a message says -/

/-- The texts of an account. -/
def accountCall (f : Str → Str → Callback) (uuid : Bytes 36) (name : Bytes 32) : Callback :=
  f (cut uuid.toList) (cut name.toList)

def UserRecord.call (f : Str → Str → Int → Callback) (r : UserRecord) : Callback :=
  f (cut r.uuid.toList) (cut r.name.toList) r.status.toNat

def DescribedRecord.call (f : Str → Str → Str → Callback) (r : DescribedRecord) : Callback :=
  f (cut r.uuid.toList) (cut r.name.toList) (cut r.description.toList)

def ThreadRecord.call (f : Str → Str → Int64 → Str → Str → Callback) (r : ThreadRecord) :
    Callback :=
  f (cut r.uuid.toList) (cut r.creatorUuid.toList) r.timestamp (cut r.title.toList)
    (cut r.body.toList)

def ReplyRecord.call (f : Str → Str → Int64 → Str → Callback) (r : ReplyRecord) : Callback :=
  f (cut r.threadUuid.toList) (cut r.creatorUuid.toList) r.timestamp (cut r.body.toList)

def MessageRecord.call (f : Str → Str → Int64 → Str → Callback) (r : MessageRecord) : Callback :=
  f (cut r.senderUuid.toList) (cut r.receiverUuid.toList) r.timestamp (cut r.body.toList)

/-- **What the client has to tell its user** about a message. -/
def Msg.calls (c : Client) (m : Msg) : List Callback :=
  match m.code, m.body with
  | .res .loginOk, .account u n => [accountCall .eventLoggedIn u n]
  | .res .logoutOk, .account u n => [accountCall .eventLoggedOut u n]
  | .res .userDetails, .account u n => [accountCall (fun u n ↦ .printUser u n (-1)) u n]
  | .res .usersList, .users l => l.map (UserRecord.call .printUsers)
  | .res .subscribedUsers, .users l => l.map (UserRecord.call .printUsers)
  | .res .userInfo, .user r => [r.call .printUser]
  | .res .messagesList, .messages l =>
    l.map (MessageRecord.call fun sender _ ts body ↦ .privateMessagePrintMessages sender ts body)
  | .res .subscribeOk, .uuid u => [.printSubscribed c.userUuid (cut u.toList)]
  | .res .unsubscribeOk, .uuid u => [.printUnsubscribed c.userUuid (cut u.toList)]
  | .res .listTeams, .describeds l => l.map (DescribedRecord.call .printTeams)
  | .res .subscribedTeams, .describeds l => l.map (DescribedRecord.call .printTeams)
  | .res .listChannels, .describeds l => l.map (DescribedRecord.call .teamPrintChannels)
  | .res .listThreads, .threads l => l.map (ThreadRecord.call .channelPrintThreads)
  | .res .listReplies, .replies l => l.map (ReplyRecord.call .threadPrintReplies)
  | .res .teamCreated, .described r => [r.call .printTeamCreated]
  | .res .teamInfo, .described r => [r.call .printTeam]
  | .res .channelCreated, .described r => [r.call .printChannelCreated]
  | .res .channelInfo, .described r => [r.call .printChannel]
  | .res .threadCreated, .thread r => [r.call .printThreadCreated]
  | .res .threadInfo, .thread r => [r.call .printThread]
  | .res .replyCreated, .reply r => [r.call .printReplyCreated]
  | .err .unauthorized, .empty => [.errorUnauthorized]
  | .err .notSubscribed, .empty => [.errorUnauthorized]
  | .err .alreadyExists, .empty => [.errorAlreadyExist]
  | .err .invalidCommand, .empty => [.output (text "invalid command\n")]
  | .err .unknownTeam, .uuid u => [.errorUnknownTeam (cut u.toList)]
  | .err .unknownChannel, .uuid u => [.errorUnknownChannel (cut u.toList)]
  | .err .unknownThread, .uuid u => [.errorUnknownThread (cut u.toList)]
  | .err .unknownUser, .uuid u => [.errorUnknownUser (cut u.toList)]
  | .evt .userLoggedIn, .account u n => [accountCall .eventLoggedIn u n]
  | .evt .userLoggedOut, .account u n => [accountCall .eventLoggedOut u n]
  | .evt .messageReceived, .received s b =>
    [.eventPrivateMessageReceived (cut s.toList) (cut b.toList)]
  | .evt .teamCreated, .described r => [r.call .eventTeamCreated]
  | .evt .channelCreated, .described r => [r.call .eventChannelCreated]
  | .evt .threadCreated, .thread r => [r.call .eventThreadCreated]
  | .evt .replyCreated, .reply r =>
    [r.call fun thread user _ body ↦
      .eventThreadReplyReceived (cut c.useTeamUuid) thread user body]
  | _, _ => []

/-! ### Records -/

section Records

theorem decodes_readAccount (f : Str → Str → Callback) (u : Bytes 36) (n : Bytes 32) :
    Decodes (readAccount f) (u.toList ++ n.toList) (accountCall f u n) :=
  (decodes_readFixed u).bind (decodes_readFixed n).bind_pure

theorem decodes_readStatus (f : Str → Str → Int → Callback) (r : UserRecord) :
    Decodes (readStatus f) r.bytes (r.call f) := by
  rw [UserRecord.bytes, List.append_assoc]
  exact (decodes_readFixed r.uuid).bind
    ((decodes_readFixed r.name).bind (decodes_readU8 r.status).bind_pure)

theorem decodes_readDescribed (f : Str → Str → Str → Callback) (r : DescribedRecord) :
    Decodes (readDescribed f) r.bytes (r.call f) := by
  rw [DescribedRecord.bytes, List.append_assoc]
  exact (decodes_readFixed r.uuid).bind
    ((decodes_readFixed r.name).bind (decodes_readFixed r.description).bind_pure)

theorem decodes_readThread (f : Str → Str → Int64 → Str → Str → Callback) (r : ThreadRecord) :
    Decodes (readThread f) r.bytes (r.call f) := by
  rw [ThreadRecord.bytes, List.append_assoc, List.append_assoc, List.append_assoc]
  exact (decodes_readFixed r.uuid).bind ((decodes_readFixed r.creatorUuid).bind
    ((decodes_readI64 r.timestamp).bind ((decodes_readFixed r.title).bind
      (decodes_readFixed r.body).bind_pure)))

/-- Replies and private messages have the same fields. -/
theorem decodes_readReply (f : Str → Str → Int64 → Str → Callback) (u v : Bytes 36) (ts : Int64)
    (b : Bytes 512) :
    Decodes (readReply f) (u.toList ++ v.toList ++ be64 ts ++ b.toList)
      (f (cut u.toList) (cut v.toList) ts (cut b.toList)) := by
  rw [List.append_assoc, List.append_assoc]
  exact (decodes_readFixed u).bind ((decodes_readFixed v).bind
    ((decodes_readI64 ts).bind (decodes_readFixed b).bind_pure))

theorem decodes_readUuid (f : Str → Callback) (u : Bytes 36) :
    Decodes (readUuid f) u.toList (f (cut u.toList)) :=
  (decodes_readFixed u).bind_pure

/-- **Lists**: a count below 2^32 brings all records back, in order. -/
theorem decodes_readList {ρ : Type} {record : Reader Callback} {bytes : ρ → List UInt8}
    {call : ρ → Callback} (h : ∀ x, Decodes record (bytes x) (call x)) {l : List ρ}
    (hl : l.length < 2 ^ 32) : Decodes (readList record) (listBytes bytes l) (l.map call) := by
  have htimes := Decodes.times h l
  rw [← UInt32.toNat_ofNat_of_lt' hl] at htimes
  exact (decodes_readU32 _).bind htimes

theorem decodes_singleton {r : Reader Callback} {l : List UInt8} {call : Callback}
    (h : Decodes r l call) : Decodes (List.singleton <$> r) l [call] :=
  h.map

end Records

/-! ### Shapes -/

/-- The bodies that have a layout. Replies and messages have the same widths. -/
def Layout.Shape (b : Body) : Layout → Prop
  | .fixed [] => b = .empty
  | .fixed [36] => ∃ u, b = .uuid u
  | .fixed [36, 32] => ∃ u n, b = .account u n
  | .fixed [36, 32, 1] => ∃ r, b = .user r
  | .fixed [36, 32, 255] => ∃ r, b = .described r
  | .fixed [36, 36, 8, 32, 512] => ∃ r, b = .thread r
  | .fixed [36, 36, 8, 512] => ∃ r, b = .reply r
  | .fixed [36, 512] => ∃ s t, b = .received s t
  | .list [36, 32, 1] => ∃ l, b = .users l
  | .list [36, 32, 255] => ∃ l, b = .describeds l
  | .list [36, 36, 8, 32, 512] => ∃ l, b = .threads l
  | .list [36, 36, 8, 512] => (∃ l, b = .replies l) ∨ ∃ l, b = .messages l
  | _ => False

theorem Body.shape (b : Body) : b.layout.Shape b := by
  cases b with
  | empty => rfl
  | uuid u => exact ⟨u, rfl⟩
  | account u n => exact ⟨u, n, rfl⟩
  | user r => exact ⟨r, rfl⟩
  | described r => exact ⟨r, rfl⟩
  | thread r => exact ⟨r, rfl⟩
  | reply r => exact ⟨r, rfl⟩
  | received s t => exact ⟨s, t, rfl⟩
  | users l => exact ⟨l, rfl⟩
  | describeds l => exact ⟨l, rfl⟩
  | threads l => exact ⟨l, rfl⟩
  | replies l => exact .inl ⟨l, rfl⟩
  | messages l => exact .inr ⟨l, rfl⟩

/-- **The body of a message that fits** is read off its code. -/
theorem Msg.Fits.shape {m : Msg} (h : m.Fits) : (layout m.code).Shape m.body :=
  h.1 ▸ m.body.shape

/-! ### Whole messages -/

section Messages

variable {c : Client} {m : Msg}

/-- **Decoding a message** of the right shape: all its bytes are read, none is missing, and the
calls are those the message stands for. -/
theorem Msg.Fits.decodes (h : m.Fits) (hcount : m.body.count < 2 ^ 32) :
    Decodes (responseCalls c m.code) m.body.bytes (m.calls c) := by
  obtain ⟨code, body⟩ := m
  have hshape := h.shape
  have hkind := h.2
  rcases code with r | e | evt
  · cases r with
    | loginOk | logoutOk | userDetails =>
      obtain ⟨u, n, rfl⟩ := hshape
      exact decodes_singleton (decodes_readAccount _ u n)
    | usersList | subscribedUsers =>
      obtain ⟨l, rfl⟩ := hshape
      exact decodes_readList (decodes_readStatus _) hcount
    | userInfo =>
      obtain ⟨r, rfl⟩ := hshape
      exact decodes_singleton (decodes_readStatus _ r)
    | sendOk =>
      obtain rfl := hshape
      exact decodes_pure []
    | messagesList =>
      rcases hshape with ⟨l, rfl⟩ | ⟨l, rfl⟩
      · cases hkind
      · exact decodes_readList (fun r : MessageRecord ↦ decodes_readReply _ _ _ _ _) hcount
    | subscribeOk | unsubscribeOk =>
      obtain ⟨u, rfl⟩ := hshape
      exact decodes_singleton (decodes_readUuid _ u)
    | subscribedTeams | listTeams | listChannels =>
      obtain ⟨l, rfl⟩ := hshape
      exact decodes_readList (decodes_readDescribed _) hcount
    | teamCreated | teamInfo | channelCreated | channelInfo =>
      obtain ⟨r, rfl⟩ := hshape
      exact decodes_singleton (decodes_readDescribed _ r)
    | threadCreated | threadInfo =>
      obtain ⟨r, rfl⟩ := hshape
      exact decodes_singleton (decodes_readThread _ r)
    | replyCreated =>
      obtain ⟨r, rfl⟩ := hshape
      exact decodes_singleton (decodes_readReply _ _ _ _ _)
    | listThreads =>
      obtain ⟨l, rfl⟩ := hshape
      exact decodes_readList (decodes_readThread _) hcount
    | listReplies =>
      rcases hshape with ⟨l, rfl⟩ | ⟨l, rfl⟩
      · exact decodes_readList (fun r : ReplyRecord ↦ decodes_readReply _ _ _ _ _) hcount
      · cases hkind
  · cases e with
    | unauthorized | alreadyExists | notSubscribed | invalidCommand =>
      obtain rfl := hshape
      exact decodes_pure _
    | unknownTeam | unknownChannel | unknownThread | unknownUser =>
      obtain ⟨u, rfl⟩ := hshape
      exact decodes_singleton (decodes_readUuid _ u)
  · cases evt with
    | userLoggedIn | userLoggedOut =>
      obtain ⟨u, n, rfl⟩ := hshape
      exact decodes_singleton (decodes_readAccount _ u n)
    | messageReceived =>
      obtain ⟨s, b, rfl⟩ := hshape
      exact (decodes_readFixed s).bind (decodes_readFixed b).bind_pure
    | teamCreated | channelCreated =>
      obtain ⟨r, rfl⟩ := hshape
      exact decodes_singleton (decodes_readDescribed _ r)
    | threadCreated =>
      obtain ⟨r, rfl⟩ := hshape
      exact decodes_singleton (decodes_readThread _ r)
    | replyCreated =>
      obtain ⟨r, rfl⟩ := hshape
      exact decodes_singleton (decodes_readReply _ _ _ _ _)

/-- A list below 2^32 bytes has fewer than 2^32 records. -/
theorem Body.count_lt (b : Body) (h : b.bytes.length < 2 ^ 32) : b.count < 2 ^ 32 := by
  rw [Body.length_bytes] at h
  cases b <;> simp [Body.layout, Layout.length, Body.count] at h ⊢ <;> omega

theorem applyResponse_history (k : ServerCode) (calls : List Callback) (c : Client) :
    (c.applyResponse k calls).history = c.history := by
  unfold Client.applyResponse
  split <;> rfl

/-- `_handle_response` on such a message makes exactly these calls. -/
theorem Msg.Fits.handleResponse (h : m.Fits) (hcount : m.body.count < 2 ^ 32) (c : Client) :
    (c.handleResponse m.code.code m.body.bytes).history =
      c.history ++ .handled m.code.code m.body.bytes :: (m.calls c).map .called := by
  have hread := (h.decodes (c := c.record (.handled m.code.code m.body.bytes)) hcount).read
  rw [Client.handleResponse, ServerCode.ofCode?_code]
  dsimp only
  rw [hread, foldl_call]
  dsimp only
  rw [applyResponse_history]
  show (c.history ++ [_]) ++ _ = _
  rw [List.append_assoc]
  rfl

end Messages

/-! ### What the server sends -/

section Fits

variable {data : ServerData} {user : Str} {ctx : ClientContext} {m : Msg}

theorem ErrorBody.fits {e : Error} {b : Body} (h : ErrorBody e b) : Msg.Fits ⟨.err e, b⟩ := by
  cases h <;> exact ⟨rfl, trivial⟩

theorem accountBody_layout (data : ServerData) (user : Str) :
    ∃ u n, accountBody data user = .account u n := by
  rw [accountBody]
  split <;> exact ⟨_, _, rfl⟩

theorem fits_of_contextInfo (h : contextInfo data user ctx = some m) : m.Fits := by
  rw [contextInfo] at h
  split_ifs at h
  · obtain ⟨u, n, hbody⟩ := accountBody_layout data user
    rw [hbody] at h
    obtain rfl := Option.some.inj h
    exact ⟨rfl, trivial⟩
  all_goals
    obtain ⟨x, -, rfl⟩ := Option.map_eq_some_iff.1 h
    exact ⟨rfl, trivial⟩

theorem fits_of_contextList (h : contextList data ctx = some m) : m.Fits := by
  rw [contextList] at h
  split_ifs at h
  · obtain rfl := Option.some.inj h
    exact ⟨rfl, trivial⟩
  · obtain ⟨x, -, rfl⟩ := Option.map_eq_some_iff.1 h
    exact ⟨rfl, trivial⟩
  · obtain ⟨x, -, rfl⟩ := Option.map_eq_some_iff.1 h
    exact ⟨rfl, trivial⟩
  · obtain ⟨x, -, rfl⟩ := Option.map_eq_some_iff.1 h
    exact ⟨rfl, rfl⟩

end Fits

namespace Server

variable {host : ℕ → Host} {s : Server}

theorem fits_presence {evt : Event} (hevt : evt = .userLoggedIn ∨ evt = .userLoggedOut)
    {online : Prop} [Decidable online] {u : Bytes 36} {n : Bytes 32} {fds : List Fd} :
    ∀ e ∈ presenceEvents evt online (.account u n) fds, e.1.Fits := by
  intro e he
  rw [presenceEvents] at he
  split_ifs at he
  · cases he
  · rw [List.mem_singleton.1 he]
    rcases hevt with rfl | rfl <;> exact ⟨rfl, trivial⟩

/-- **Every answer in a reachable state fits**, the response and the events. -/
theorem Reachable.fits (h : Reachable host s) {env : Host} {fd : Fd} {payload : List UInt8}
    {cmd : Option Command} {a : Answer} (ha : Serves env fd payload s.data cmd a) :
    a.msg.Fits ∧ ∀ e ∈ a.events, e.1.Fits := by
  have hno {m : Msg} {data : ServerData} (hm : m.Fits) :
      (Answer.only data m).msg.Fits ∧ ∀ e ∈ (Answer.only data m).events, e.1.Fits :=
    ⟨hm, fun e he ↦ by cases he⟩
  cases ha with
  | refused hs hb => exact hno hb.fits
  | dangling hs hcmd hctx => exact absurd hctx (h.not_dangling hs)
  | use hs hreq hgrant hinfo => exact hno (fits_of_contextInfo hinfo)
  | list hs hctx hlist => exact hno (fits_of_contextList hlist)
  | info hs hctx hinfo => exact hno (fits_of_contextInfo hinfo)
  | loginKnown => exact ⟨⟨rfl, trivial⟩, fits_presence (.inl rfl)⟩
  | loginNew => exact ⟨⟨rfl, trivial⟩, fits_presence (.inl rfl)⟩
  | @logout user hs =>
    obtain ⟨name, hbody⟩ : ∃ name, logoutBody s.data user = .account (fill 36 user) name := by
      rw [logoutBody]
      split <;> exact ⟨_, rfl⟩
    rw [hbody]
    exact ⟨⟨rfl, trivial⟩, fits_presence (.inr rfl)⟩
  | send =>
    refine ⟨⟨rfl, trivial⟩, fun e he ↦ ?_⟩
    dsimp only at he
    split_ifs at he
    · cases he
    · rw [List.mem_singleton.1 he]
      exact ⟨rfl, trivial⟩
  | messages => exact hno ⟨rfl, rfl⟩
  | createTeam | createChannel | createThread | createReply =>
    refine ⟨⟨rfl, trivial⟩, fun e he ↦ ?_⟩
    rw [List.mem_singleton.1 he]
    exact ⟨rfl, trivial⟩
  | _ => exact hno ⟨rfl, trivial⟩

/-- All messages of an answer in a reachable state fit. -/
theorem Reachable.fits_of_mem_msgs (h : Reachable host s) {env : Host} {fd : Fd}
    {payload : List UInt8} {cmd : Option Command} {a : Answer}
    (ha : Serves env fd payload s.data cmd a) {m : Msg} (hm : m ∈ a.msgs) : m.Fits := by
  obtain ⟨hmsg, hevents⟩ := h.fits ha
  rcases List.mem_cons.1 hm with rfl | hm
  · exact hmsg
  · obtain ⟨e, he, rfl⟩ := List.mem_map.1 hm
    exact hevents e he

/-- **Decoding undoes encoding.** Every message that an action of a reachable state queues to a
connection is one of the answer that this state gives to its request, and all that it queues there
is of that answer. The payload has the length of the RFC's layout for its code; and as long as that
is below 2^32, the client reads all of it, never comes across a missing byte, and makes exactly the
calls that the message stands for. -/
theorem decoding_undoes_encoding (h : Reachable host s) {a : Action} (ha : s.Enabled a) {d : Fd}
    {b : List UInt8} (hb : b ∈ newMessages d s (perform host a s)) :
    ∃ (answer : Answer) (m : Msg),
      Serves (host s.served) a.fd a.request.2 s.data a.request.1 answer ∧
      (perform host a s).data = answer.data ∧
      newMessages d s (perform host a s) = (answer.messagesTo a.fd d).map Msg.bytes ∧
      m ∈ answer.messagesTo a.fd d ∧ b = Frame.bytes (m.code.code, m.body.bytes) ∧
      m.body.bytes.length = (layout m.code).length m.body.count ∧
      (m.body.bytes.length < 2 ^ 32 →
        headerPayloadSize b = m.body.bytes.length ∧
        ∀ c : Client,
          (responseCalls c m.code).read m.body.bytes = (m.calls c, ⟨m.body.bytes.length, false⟩) ∧
          (c.handleResponse m.code.code m.body.bytes).history =
            c.history ++ .handled m.code.code m.body.bytes :: (m.calls c).map .called) := by
  obtain ⟨answer, hserves, hdata, hnew⟩ | ⟨-, -, hnew⟩ := answer_perform host h.sessionsWf ha
  · have hsent := hnew d
    split_ifs at hsent
    · rw [hsent] at hb
      obtain ⟨m, hm, rfl⟩ := List.mem_map.1 hb
      have hfits : m.Fits := h.fits_of_mem_msgs hserves (mem_msgs_of_mem_messagesTo hm)
      refine ⟨answer, m, hserves, hdata, hsent, hm, m.bytes_eq, ?_, fun hlen ↦ ⟨?_, fun c ↦ ?_⟩⟩
      · rw [Body.length_bytes, hfits.1]
      · rw [m.bytes_eq, headerPayloadSize_bytes]
        exact Nat.mod_eq_of_lt hlen
      · have hcount := m.body.count_lt hlen
        exact ⟨(hfits.decodes hcount).read, hfits.handleResponse hcount c⟩
    · rw [hsent] at hb
      cases hb
  · rw [hnew] at hb
    cases hb

/-- Two users, of whom the second is gone when the first asks for all of them. -/
def usersAsked : List Action :=
  .accept 4 :: request 4 .login [0x61] ++ .accept 5 :: request 5 .login [0x62] ++
    [.disconnect 5, .receive 4 (makeMessage Command.users.code [])]

/-- The list that answers: one user is there, the other is not. -/
def usersPayload : List UInt8 :=
  be32 2 ++ ((plainUuid 0).str ++ (fill 32 [0x61]).toList ++ [0x01]) ++
    ((plainUuid 1).str ++ (fill 32 [0x62]).toList ++ [0x00])

/-- The client reads the 142 bytes and reports both users. -/
theorem decoding_undoes_encoding_users :
    let s := execute plainHost usersAsked Server.init
    ∃ (answer : Answer) (m : Msg),
      Serves (plainHost s.served) 4 [] s.data (some .users) answer ∧
      m ∈ answer.messagesTo 4 4 ∧
      Frame.bytes (Response.usersList.code, usersPayload) =
        Frame.bytes (m.code.code, m.body.bytes) ∧
      usersPayload.length = (layout m.code).length m.body.count ∧
      ∀ c : Client,
        (responseCalls c m.code).read usersPayload =
          ([.printUsers (plainUuid 0).str [0x61] 1, .printUsers (plainUuid 1).str [0x62] 0],
            ⟨142, false⟩) ∧
        (c.handleResponse Response.usersList.code usersPayload).history =
          c.history ++ [.handled Response.usersList.code usersPayload,
            .called (.printUsers (plainUuid 0).str [0x61] 1),
            .called (.printUsers (plainUuid 1).str [0x62] 0)] := by
  intro s
  have hreachable : Reachable plainHost s := reachable_execute (by decide +kernel)
  have hqueued : Frame.bytes (Response.usersList.code, usersPayload) ∈
      newMessages 4 s (perform plainHost (.frame 4 Command.users.code []) s) := by
    decide +kernel
  obtain ⟨answer, m, hserves, -, -, hm, hbytes, hlen, hread⟩ :=
    decoding_undoes_encoding hreachable (by decide +kernel) hqueued
  obtain ⟨hcode, hbody⟩ := Prod.mk.inj (Frame.bytes_injective hbytes)
  obtain ⟨-, hread⟩ := hread (by rw [← hbody]; decide +kernel)
  have hres : m.code = .res .usersList := ServerCode.code_injective hcode.symm
  have hcalls (c : Client) : m.calls c =
      [.printUsers (plainUuid 0).str [0x61] 1, .printUsers (plainUuid 1).str [0x62] 0] := by
    have hfirst := congrArg Prod.fst (hread c).1
    rw [hres, ← hbody] at hfirst
    refine hfirst.symm.trans ?_
    show ((readList (readStatus .printUsers)).read usersPayload).1 = _
    decide +kernel
  refine ⟨answer, m, hserves, hm, hbytes, hbody ▸ hlen, fun c ↦ ?_⟩
  have hc := hread c
  rw [hcalls c, ← hbody, ← hcode] at hc
  exact hc

end Server

end MyTeams
