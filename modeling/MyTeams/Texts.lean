import MyTeams.Client.Stream
import MyTeams.Decoding
import MyTeams.Server.Places

/-!
# Texts, end to end

A text on its way from one command line to the callbacks of all clients: `pack_fixed` puts it into a
field, the handlers copy the field or trim it and pad it again, and `read_fixed` reads it up to the
first zero byte. A text without zero bytes loses what does not fit, once, and nothing afterwards
(`text_survives`).
-/

namespace MyTeams

open ByteField ByteReader Server

/-! ### What is typed -/

/-- **The text fields of a command line**, for a client at the given level: what the command sends,
and each text with the width of its field. -/
inductive Typed (level : UInt8) : ParsedCommand → Command → List (Str × ℕ) → Prop
  | login (name : Str) : Typed level ⟨text "login", [name]⟩ .login [(name, 32)]
  | send (uuid body : Str) : Typed level ⟨text "send", [uuid, body]⟩ .send [(body, 512)]
  | team (hlevel : level = useNone) (name description : Str) :
    Typed level ⟨text "create", [name, description]⟩ .create [(name, 32), (description, 255)]
  | channel (hlevel : level = useTeam) (name description : Str) :
    Typed level ⟨text "create", [name, description]⟩ .create [(name, 32), (description, 255)]
  | thread (hlevel : level = useChannel) (title body : Str) :
    Typed level ⟨text "create", [title, body]⟩ .create [(title, 32), (body, 512)]
  | reply (hlevel : level = useThread) (body : Str) :
    Typed level ⟨text "create", [body]⟩ .create [(body, 512)]

/-- The bytes of the fields. -/
def fieldBytes (fields : List (Str × ℕ)) : List UInt8 :=
  fields.flatMap fun x ↦ (fill x.2 x.1).toList

section Typed

variable {io : ℕ → Option ℕ} {c : Client} {cmd : ParsedCommand} {k : Command}
  {fields : List (Str × ℕ)}

/-! The commands with texts are told apart from those before them by their names. -/

theorem dispatch_login (args : List Str) :
    Client.dispatch io ⟨text "login", args⟩ c = Client.cmdLogin io args c := by
  have hne : text "login" ≠ text "help" := by decide +kernel
  rw [Client.dispatch, if_neg hne, if_pos rfl]

theorem dispatch_send (args : List Str) :
    Client.dispatch io ⟨text "send", args⟩ c = Client.cmdSend io args c := by
  have hne : ∀ s ∈ ["help", "login", "logout", "users", "user"], text "send" ≠ text s := by
    decide +kernel
  simp only [List.forall_mem_cons] at hne
  simp [Client.dispatch, hne]

theorem dispatch_create (args : List Str) :
    Client.dispatch io ⟨text "create", args⟩ c = Client.cmdCreate io args c := by
  have hne : ∀ s ∈ ["help", "login", "logout", "users", "user", "send", "messages", "subscribe",
      "subscribed", "unsubscribe", "use"], text "create" ≠ text s := by decide +kernel
  simp only [List.forall_mem_cons] at hne
  simp [Client.dispatch, hne]

/-- **The packet of a command line** ends in the fields; only `/send` puts a uuid before them. -/
theorem Typed.dispatch (h : Typed c.useLevel cmd k fields) :
    ∃ before, (k = .send → before.length = 36) ∧ (k ≠ .send → before = []) ∧
      Client.dispatch io cmd c = Client.sendPacket io k (before ++ fieldBytes fields) c := by
  cases h with
  | login name =>
    refine ⟨[], by simp, by simp, ?_⟩
    rw [dispatch_login]
    simp [Client.cmdLogin, Client.cmdField, fieldBytes]
  | send uuid body =>
    refine ⟨(fill 36 uuid).toList, by simp, by simp, ?_⟩
    rw [dispatch_send]
    simp [Client.cmdSend, fieldBytes]
  | team hlevel name description =>
    refine ⟨[], by simp, by simp, ?_⟩
    rw [dispatch_create]
    simp [Client.cmdCreate, hlevel, Client.cmdCreatePair, fieldBytes]
  | channel hlevel name description =>
    refine ⟨[], by simp, by simp, ?_⟩
    rw [dispatch_create]
    simp [Client.cmdCreate, hlevel, Client.cmdCreatePair, fieldBytes, useNone, useTeam]
  | thread hlevel title body =>
    refine ⟨[], by simp, by simp, ?_⟩
    rw [dispatch_create]
    simp [Client.cmdCreate, hlevel, Client.cmdCreatePair, fieldBytes, useNone, useTeam, useChannel]
  | reply hlevel body =>
    refine ⟨[], by simp, by simp, ?_⟩
    rw [dispatch_create]
    simp [Client.cmdCreate, hlevel, Client.cmdField, fieldBytes, useNone, useTeam, useChannel,
      useThread]

/-- A command line that parses is dispatched. -/
theorem handleLine_of_parseLine {line : Str} (h : parseLine line = .ok cmd) :
    Client.handleLine io line c = Client.dispatch io cmd c := by
  have hne : line.isEmpty = false := by
    cases line with
    | nil => cases h
    | cons b rest => rfl
  rw [Client.handleLine, hne, if_neg Bool.false_ne_true, h]

end Typed

/-! ### What the server keeps -/

/-- The message that shows what a request has written: the response, or for `CMD_SEND` the event. -/
def announcement (k : Command) (level : UInt8) : ServerCode :=
  match k with
  | .login => .res .loginOk
  | .send => .evt .messageReceived
  | _ => .res (createdResponse level)

/-- The texts of the fields, as they are read. -/
def fieldTexts (fields : List (Str × ℕ)) : List Str := fields.map fun x ↦ cut (fill x.2 x.1).toList

/-- Texts without zero bytes lose what does not fit, and nothing else. -/
theorem fieldTexts_of_not_mem {fields : List (Str × ℕ)} (h : ∀ x ∈ fields, (0 : UInt8) ∉ x.1) :
    fieldTexts fields = fields.map fun x ↦ x.1.take x.2 :=
  List.map_congr_left fun x hx ↦ cut_fill_of_not_mem (h x hx)

/-- A field that is trimmed and padded again is read as before. -/
theorem cut_fill_cut {n : ℕ} (b : Bytes n) : cut (fill n (cut b.toList)).toList = cut b.toList := by
  rw [cut_fill_of_not_mem (not_mem_cut _), List.take_of_length_le (length_cut_le b)]

/-- A `memcpy` takes a field out of a payload as it was packed. -/
theorem payloadField_append {before : List UInt8} {offset n : ℕ} (h : before.length = offset)
    (b : Bytes n) (rest : List UInt8) :
    payloadField (before ++ (b.toList ++ rest)) offset n = b := by
  refine List.Vector.eq _ _ ?_
  rw [payloadField, List.drop_left' h,
    toList_fill_of_le (by rw [List.length_append, b.toList_length]; omega),
    List.take_left' b.toList_length]

section Written

variable {host : Host} {fd : Fd} {payload : List UInt8} {data : ServerData} {a : Answer}

/-- A login keeps the name of its payload, in a new user or in the one that has it. -/
theorem Serves.login_written {name : Bytes 32}
    (h : Serves host fd name.toList data (some .login) a)
    (hshows : ∀ m ∈ a.msgs, Shows fd name.toList data a.data m) :
    ∃ p, shown fd name.toList data a.data (.res .loginOk) = [p] ∧
      a.data.texts p = some [cut name.toList] := by
  have hkept {user : User} {after : ServerData} {events : List (Msg × List Fd)}
      (ha : a = ⟨after, ⟨.res .loginOk, .account user.uuid.bytes user.name⟩, events⟩)
      (hname : cut user.name.toList = cut name.toList) :
      ∃ p, shown fd name.toList data a.data (.res .loginOk) = [p] ∧
        a.data.texts p = some [cut name.toList] := by
    have hmsg := hshows a.msg List.mem_cons_self
    rw [ha] at hmsg ⊢
    refine ⟨_, rfl, (List.head_eq_of_cons_eq hmsg).trans ?_⟩
    rw [hname]
  cases h with
  | unauthorized _ hcmd => exact absurd rfl hcmd
  | refused _ _ hquery => exact absurd rfl hquery.1
  | dangling _ hcmd => simp at hcmd
  | loginKnown hfind =>
    refine hkept rfl ?_
    have hmatch := List.find?_some hfind
    exact eq_of_beq hmatch
  | loginNew hfind huser =>
    refine hkept rfl ?_
    rw [huser]
    exact cut_fill_cut name

/-- A message keeps its body. -/
theorem Serves.send_written {before : List UInt8} {body : Bytes 512} (hbefore : before.length = 36)
    (h : Serves host fd (before ++ body.toList) data (some .send) a)
    (haccepted : ∃ r, a.msg.code = .res r) :
    ∃ p, shown fd (before ++ body.toList) data a.data (.evt .messageReceived) = [p] ∧
      a.data.texts p = some [cut body.toList] := by
  obtain ⟨r, hr⟩ := haccepted
  refine ⟨.message data.messages.length, rfl, ?_⟩
  cases h with
  | @send user receiverUuid receiver msg hs huuid hreceiver hmsg =>
    have hbody : extractSv (before ++ body.toList) 36 512 = body.toList := by
      rw [extractSv, if_neg (by rw [List.length_append, hbefore, body.toList_length]; omega),
        List.drop_left' hbefore, take_toList]
    rw [ServerData.texts, List.getElem?_append_right (Nat.le_refl _), Nat.sub_self, hmsg, hbody]
    exact congrArg (fun t ↦ some [t]) (cut_fill_cut body)
  | _ => cases hr

/-- A creation keeps a new resource. -/
theorem Serves.create_written (h : Serves host fd payload data (some .create) a)
    (haccepted : ∃ r, a.msg.code = .res r) :
    ∃ ctx user p, data.clientContexts[fd]? = some ctx ∧
      shown fd payload data a.data (.res (createdResponse ctx.level)) = [p] ∧
      a.data.texts p = some (newResource host user payload ctx.level).texts := by
  obtain ⟨r, hr⟩ := haccepted
  rcases h.forest with ⟨-, user, ctx, hnew⟩ | ⟨-, hnot⟩
  · obtain ⟨p, hp, htexts⟩ := List.map_eq_singleton_iff.1 hnew.map_nextPlaces
    exact ⟨ctx, user, p, hnew.context, (shown_createdResponse _).trans hp, htexts⟩
  -- a success that is no creation is not an answer to `CMD_CREATE`
  · obtain ⟨c, hc, hmem⟩ : ∃ c, some Command.create = some c ∧
        r ∈ responses (data.clientContexts[fd]?.map ClientContext.level) c := by
      have hanswers := h.answers
      rwa [hr] at hanswers
    obtain rfl := Option.some.inj hc
    obtain ⟨level, -, rfl⟩ := List.mem_map.1 hmem
    exact absurd hr (hnot _ (createdResponse_mem level))

/-- The new resource has the texts that were typed. -/
theorem Typed.texts_newResource {level : UInt8} {cmd : ParsedCommand} {fields : List (Str × ℕ)}
    (h : Typed level cmd .create fields) (host : Host) (user : Str) :
    (newResource host user (fieldBytes fields) level).texts = fieldTexts fields := by
  have hfirst (m n : ℕ) (s t : Str) :
      payloadField (fieldBytes [(s, m), (t, n)]) 0 m = fill m s :=
    payloadField_append List.length_nil (fill m s) _
  have hsecond (m n : ℕ) (s t : Str) :
      payloadField (fieldBytes [(s, m), (t, n)]) m n = fill n t :=
    payloadField_append (fill m s).toList_length (fill n t) []
  have honly (n : ℕ) (s : Str) : payloadField (fieldBytes [(s, n)]) 0 n = fill n s :=
    payloadField_append List.length_nil (fill n s) []
  cases h with
  | team hlevel name description =>
    rw [hlevel]
    show [cut (payloadField _ 0 32).toList, cut (payloadField _ 32 255).toList] = _
    rw [hfirst, hsecond]
    rfl
  | channel hlevel name description =>
    rw [hlevel]
    show [cut (payloadField _ 0 32).toList, cut (payloadField _ 32 255).toList] = _
    rw [hfirst, hsecond]
    rfl
  | thread hlevel title body =>
    rw [hlevel]
    show [cut (payloadField _ 0 32).toList, cut (payloadField _ 32 512).toList] = _
    rw [hfirst, hsecond]
    rfl
  | reply hlevel body =>
    rw [hlevel]
    show [cut (payloadField _ 0 512).toList] = _
    rw [honly]
    rfl

/-- **What an accepted command line keeps**: the texts of its fields, at the place that its
announcement shows. For `/create` the stored level has to be the one that the payload was packed
for. -/
theorem Typed.written {level : UInt8} {cmd : ParsedCommand} {k : Command} {fields : List (Str × ℕ)}
    (htyped : Typed level cmd k fields) {before : List UInt8}
    (hsend : k = .send → before.length = 36) (hother : k ≠ .send → before = [])
    (hlevel : k = .create → ∀ ctx, data.clientContexts[fd]? = some ctx → ctx.level = level)
    (h : Serves host fd (before ++ fieldBytes fields) data (some k) a)
    (hshows : ∀ m ∈ a.msgs, Shows fd (before ++ fieldBytes fields) data a.data m)
    (haccepted : ∃ r, a.msg.code = .res r) :
    ∃ p, shown fd (before ++ fieldBytes fields) data a.data (announcement k level) = [p] ∧
      a.data.texts p = some (fieldTexts fields) := by
  -- the four kinds of `/create` differ in their fields only
  have hcreate (hk : k = .create) :
      ∃ p, shown fd (before ++ fieldBytes fields) data a.data (announcement k level) = [p] ∧
        a.data.texts p = some (fieldTexts fields) := by
    subst hk
    obtain rfl := hother (by decide)
    obtain ⟨ctx, user, p, hctx, hp, htexts⟩ := h.create_written haccepted
    obtain rfl := hlevel rfl ctx hctx
    exact ⟨p, hp, htexts.trans (congrArg some (htyped.texts_newResource host user))⟩
  cases htyped with
  | login name =>
    obtain rfl := hother (by decide)
    rw [fieldBytes, List.flatMap_singleton, List.nil_append] at h hshows ⊢
    exact h.login_written hshows
  | send uuid body =>
    rw [fieldBytes, List.flatMap_singleton] at h ⊢
    exact h.send_written (hsend rfl) haccepted
  | team | channel | thread | reply => exact hcreate rfl

end Written

/-! ### What a client passes on -/

/-- The texts that a call passes to the logging library, if it is one that passes texts. -/
def Callback.texts : Callback → Option (List Str)
  | eventLoggedIn _ name | eventLoggedOut _ name | printUsers _ name _ | printUser _ name _ =>
    some [name]
  | eventTeamCreated _ name description | eventChannelCreated _ name description
  | printTeams _ name description | teamPrintChannels _ name description
  | printTeam _ name description | printChannel _ name description
  | printTeamCreated _ name description | printChannelCreated _ name description =>
    some [name, description]
  | eventThreadCreated _ _ _ title body | channelPrintThreads _ _ _ title body
  | printThread _ _ _ title body | printThreadCreated _ _ _ title body => some [title, body]
  | eventPrivateMessageReceived _ body | eventThreadReplyReceived _ _ _ body
  | threadPrintReplies _ _ _ body | privateMessagePrintMessages _ _ body
  | printReplyCreated _ _ _ body => some [body]
  | errorUnknownTeam _ | errorUnknownChannel _ | errorUnknownThread _ | errorUnknownUser _
  | errorUnauthorized | errorAlreadyExist | printSubscribed _ _ | printUnsubscribed _ _
  | output _ => none

/-- The texts of a list of records. -/
theorem filterMap_texts {ρ : Type} {call : ρ → Callback} {texts : ρ → List Str}
    (h : ∀ r, (call r).texts = some (texts r)) (l : List ρ) :
    (l.map call).filterMap Callback.texts = l.map texts := by
  induction l with
  | nil => rfl
  | cons r l ih => rw [List.map_cons, List.filterMap_cons_some (h r), ih, List.map_cons]

/-- **The calls for a message pass its texts**, record by record. -/
theorem Msg.Fits.filterMap_calls {m : Msg} (h : m.Fits) (c : Client) :
    (m.calls c).filterMap Callback.texts = m.body.texts := by
  obtain ⟨code, body⟩ := m
  have hshape := h.shape
  have hkind := h.2
  rcases code with r | e | evt
  · cases r with
    | sendOk =>
      obtain rfl := hshape
      rfl
    | loginOk | logoutOk | userDetails =>
      obtain ⟨u, n, rfl⟩ := hshape
      rfl
    | usersList | subscribedUsers | subscribedTeams | listTeams | listChannels | listThreads =>
      obtain ⟨l, rfl⟩ := hshape
      exact filterMap_texts (fun _ ↦ rfl) l
    | listReplies =>
      rcases hshape with ⟨l, rfl⟩ | ⟨l, rfl⟩
      · exact filterMap_texts (fun _ ↦ rfl) l
      · cases hkind
    | messagesList =>
      rcases hshape with ⟨l, rfl⟩ | ⟨l, rfl⟩
      · cases hkind
      · exact filterMap_texts (fun _ ↦ rfl) l
    -- the bodies of one field or one record
    | _ =>
      obtain ⟨x, rfl⟩ := hshape
      rfl
  · cases e with
    | unauthorized | alreadyExists | notSubscribed | invalidCommand =>
      obtain rfl := hshape
      rfl
    | unknownTeam | unknownChannel | unknownThread | unknownUser =>
      obtain ⟨u, rfl⟩ := hshape
      rfl
  · cases evt with
    | userLoggedIn | userLoggedOut | messageReceived =>
      obtain ⟨u, x, rfl⟩ := hshape
      rfl
    | teamCreated | channelCreated | threadCreated | replyCreated =>
      obtain ⟨r, rfl⟩ := hshape
      rfl

/-- The receive loop only adds to the history. -/
theorem exists_history_processRecvLoop (n : ℕ) (c : Client) :
    ∃ later, (c.processRecvLoop n).history = c.history ++ later := by
  induction n generalizing c with
  | zero => exact ⟨[], (List.append_nil _).symm⟩
  | succ n ih =>
    rw [Client.processRecvLoop_succ]
    rcases clientCodec.scan c.recvBuf with - | - | ⟨f, rest⟩
    · exact ⟨[], (List.append_nil _).symm⟩
    · exact ⟨[], (List.append_nil _).symm⟩
    · obtain ⟨running, uuid, calls, heq⟩ :=
        Client.handleResponse_eq f.1 f.2 { c with recvBuf := rest }
      obtain ⟨later, hlater⟩ := ih (Client.handleResponse f.1 f.2 { c with recvBuf := rest })
      refine ⟨.handled f.1 f.2 :: calls.map .called ++ later, ?_⟩
      dsimp only
      rw [hlater, heq, List.append_assoc]

/-- **A client that takes a message off its buffer** hands it to `_handle_response`, which makes the
calls for it before the loop goes on. -/
theorem Msg.Fits.processRecvLoop {m : Msg} (h : m.Fits) {c : Client} {f : Frame} {rest : List UInt8}
    (hscan : clientCodec.scan c.recvBuf = .frame f rest) (hf : f.bytes = m.bytes) (n : ℕ) :
    ∃ (calls : List Callback) (later : List ClientEvent), (c.processRecvLoop (n + 1)).history =
        c.history ++ .handled f.1 f.2 :: calls.map .called ++ later ∧
      calls.filterMap Callback.texts = m.body.texts := by
  obtain rfl : f = (m.code.code, m.body.bytes) := Frame.bytes_injective (hf.trans m.bytes_eq)
  have hlen : m.body.bytes.length < 2 ^ 32 :=
    Nat.lt_succ_of_le (clientCodec.enc_of_scan hscan).1
  have hhandled := h.handleResponse (m.body.count_lt hlen) { c with recvBuf := rest }
  obtain ⟨later, hlater⟩ := exists_history_processRecvLoop n
    (Client.handleResponse m.code.code m.body.bytes { c with recvBuf := rest })
  refine ⟨_, later, ?_, h.filterMap_calls { c with recvBuf := rest }⟩
  rw [Client.processRecvLoop_succ, hscan]
  dsimp only
  rw [hlater, hhandled]

/-! ### The law -/

namespace Server

variable {host : ℕ → Host} {s : Server}

/-- The step `a₁` from `s₁` is the step `a` from `s`, or a later one. -/
def Since (host : ℕ → Host) (s : Server) (a : Action) (s₁ : Server) (a₁ : Action) : Prop :=
  s₁ = s ∧ a₁ = a ∨ Steps host (perform host a s) s₁ ∧ s₁.Enabled a₁

/-- What an action has written is kept from then on. -/
theorem Since.texts {a : Action} {s₁ : Server} {a₁ : Action} (hsince : Since host s a s₁ a₁)
    (h : Reachable host s) (ha : s.Enabled a) {p : Place} {ts : List Str}
    (hp : (perform host a s).data.texts p = some ts) :
    (Reachable host s₁ ∧ s₁.Enabled a₁) ∧ (perform host a₁ s₁).data.texts p = some ts := by
  rcases hsince with ⟨rfl, rfl⟩ | ⟨hsteps, ha₁⟩
  · exact ⟨⟨h, ha⟩, hp⟩
  · have h₁ := (h.step ha).steps hsteps
    exact ⟨⟨h₁, ha₁⟩, h₁.texts_steps (.single ⟨a₁, ha₁, rfl⟩) ((h.step ha).texts_steps hsteps hp)⟩

/-- **Text survives end to end.** A line is typed into a client and packed, with texts without zero
bytes in its fields; the server takes the packet and accepts it, for `/create` at the level that the
client packed it for. Then there is a place, the one that its announcement shows, such that whatever
is queued to whomever from this step on, a client that takes it off its buffer makes one call with
texts for each place shown, and where that place is shown the call passes the typed texts, each cut
to the width of its field. -/
theorem text_survives (h : Reachable host s) {fd : Fd} {k : Command} {payload : List UInt8}
    (ha : s.Enabled (.frame fd k.code payload)) {io : ℕ → Option ℕ} {c : Client} {line : Str}
    {cmd : ParsedCommand} {fields : List (Str × ℕ)} (hline : parseLine line = .ok cmd)
    (htyped : Typed c.useLevel cmd k fields)
    (hpacket : (Client.handleLine io line c).packets = c.packets ++ [(k.code, payload)])
    (hnul : ∀ x ∈ fields, (0 : UInt8) ∉ x.1)
    (hlevel : k = .create →
      ∀ ctx, s.data.clientContexts[fd]? = some ctx → ctx.level = c.useLevel)
    (haccepted : ∃ r : Response,
      (frameOutcome (host s.served) fd k.code payload s.data).result.response.code = r.code) :
    ∃ p, (Action.frame fd k.code payload).shown host s (announcement k c.useLevel) = [p] ∧
      ∀ (s₁ : Server) (a₁ : Action), Since host s (.frame fd k.code payload) s₁ a₁ →
        ∀ d, ∀ b ∈ newMessages d s₁ (perform host a₁ s₁),
          ∃ code : ServerCode, headerCode b = code.code ∧
            ∀ (c₁ : Client) (f : Frame) (rest : List UInt8) (n : ℕ),
              clientCodec.scan c₁.recvBuf = .frame f rest → f.bytes = b →
              ∃ (calls : List Callback) (later : List ClientEvent),
                (c₁.processRecvLoop (n + 1)).history =
                  c₁.history ++ .handled f.1 f.2 :: calls.map .called ++ later ∧
                (calls.filterMap Callback.texts).length = (a₁.shown host s₁ code).length ∧
                ∀ j : ℕ, (a₁.shown host s₁ code)[j]? = some p →
                  (calls.filterMap Callback.texts)[j]? =
                    some (fields.map fun x ↦ x.1.take x.2) := by
  obtain ⟨before, hsend, hother, hdispatch⟩ := @Typed.dispatch io _ _ _ _ htyped
  -- the payload is what the command has packed
  obtain rfl : before ++ fieldBytes fields = payload := by
    rw [handleLine_of_parseLine hline, hdispatch, Client.packets, Client.sendPacket_packed,
      List.map_append] at hpacket
    exact congrArg Prod.snd (List.head_eq_of_cons_eq (List.append_cancel_left hpacket))
  -- what the server keeps of it, and where
  obtain ⟨answer, ⟨hserves, hshows⟩, hdata, hresult⟩ :=
    @frameOutcome_shows (host s.served) fd (before ++ fieldBytes fields) s.data
      h.registry.toDataRegistry h.membersKnown k.code
  rw [Command.ofCode?_code] at hserves
  have hok : ∃ r, answer.msg.code = .res r := by
    obtain ⟨r, hr⟩ := haccepted
    rw [hresult] at hr
    exact ⟨r, ServerCode.code_injective hr⟩
  obtain ⟨p, hp, htexts⟩ := htyped.written hsend hother hlevel hserves hshows hok
  rw [fieldTexts_of_not_mem hnul] at htexts
  rw [← hdata, ← perform_frame_data] at htexts hp
  refine ⟨p, hp, fun s₁ a₁ hsince d b hb ↦ ?_⟩
  -- there it stays, and is copied into every message that shows the place
  obtain ⟨⟨h₁, ha₁⟩, hkept⟩ := hsince.texts h ha htexts
  obtain ⟨cmd₁, answer₁, m, hserves₁, hm, rfl, hshown⟩ := h₁.shows ha₁ hb
  refine ⟨m.code, headerCode_bytes m, fun c₁ f rest n hscan hf ↦ ?_⟩
  obtain ⟨calls, later, hhistory, hcalls⟩ :=
    (h₁.fits_of_mem_msgs hserves₁ hm).processRecvLoop hscan hf n
  refine ⟨calls, later, hhistory, ?_, fun j hj ↦ ?_⟩
  · rw [hcalls]
    have hlength := congrArg List.length hshown
    rw [List.length_map, List.length_map] at hlength
    exact hlength.symm
  · have hat : ((a₁.shown host s₁ m.code).map (perform host a₁ s₁).data.texts)[j]? =
        (m.body.texts.map some)[j]? := congrArg (fun l : List (Option (List Str)) ↦ l[j]?) hshown
    rw [List.getElem?_map, List.getElem?_map, hj, Option.map_some, hkept] at hat
    obtain ⟨ts, hts, heq⟩ := Option.map_eq_some_iff.1 hat.symm
    rw [hcalls, hts, heq]

/-- The packet of `/login al` has arrived. -/
def beforeAl : List Action :=
  [.accept 4, .receive 4 (makeMessage Command.login.code (fill 32 (text "al")).toList)]

/-- The answer to it. -/
def alLoggedIn : Frame := (Response.loginOk.code, (plainUuid 0).str ++ (fill 32 (text "al")).toList)

/-- A client that takes the answer off its buffer makes a call that passes the name typed. -/
theorem text_survives_login :
    ∃ (calls : List Callback) (later : List ClientEvent),
      (Client.processRecvLoop 1 { Client.init with recvBuf := alLoggedIn.bytes }).history =
        .handled alLoggedIn.1 alLoggedIn.2 :: calls.map .called ++ later ∧
      (calls.filterMap Callback.texts)[0]? = some [text "al"] := by
  have hreachable : Reachable plainHost (execute plainHost beforeAl Server.init) :=
    reachable_execute (by decide +kernel)
  have hframe : (execute plainHost beforeAl Server.init).Enabled
      (.frame 4 Command.login.code (fill 32 (text "al")).toList) := by decide +kernel
  have hline : parseLine (text "/login al") = .ok ⟨text "login", [text "al"]⟩ := by decide +kernel
  have hpacket : (Client.handleLine (fun _ ↦ none) (text "/login al") Client.init).packets =
      Client.init.packets ++ [(Command.login.code, (fill 32 (text "al")).toList)] := by
    decide +kernel
  have hnul : ∀ x ∈ [(text "al", 32)], (0 : UInt8) ∉ x.1 := by decide +kernel
  have haccepted : (frameOutcome (plainHost (execute plainHost beforeAl Server.init).served) 4
      Command.login.code (fill 32 (text "al")).toList
      (execute plainHost beforeAl Server.init).data).result.response.code =
        Response.loginOk.code := by decide +kernel
  have hqueued : alLoggedIn.bytes ∈ newMessages 4 (execute plainHost beforeAl Server.init)
      (perform plainHost (.frame 4 Command.login.code (fill 32 (text "al")).toList)
        (execute plainHost beforeAl Server.init)) := by decide +kernel
  have hshort : alLoggedIn.2.length ≤ (0xFFFFFFFF : UInt32).toNat := by decide +kernel
  have hscan : clientCodec.scan (alLoggedIn.bytes ++ []) = .frame alLoggedIn [] :=
    clientCodec.scan_enc [] hshort
  rw [List.append_nil] at hscan
  obtain ⟨p, hp, hall⟩ := text_survives hreachable hframe hline (.login (text "al")) hpacket hnul
    (fun hk ↦ by cases hk) ⟨_, haccepted⟩
  obtain ⟨code, hcode, hclient⟩ := hall _ _ (.inl ⟨rfl, rfl⟩) 4 _ hqueued
  have hlogin : headerCode alLoggedIn.bytes = (ServerCode.res .loginOk).code := by decide +kernel
  obtain rfl := ServerCode.code_injective (hcode.symm.trans hlogin)
  obtain ⟨calls, later, hhistory, -, htexts⟩ :=
    hclient { Client.init with recvBuf := alLoggedIn.bytes } _ _ 0 hscan rfl
  have htext : [(text "al", 32)].map (fun x ↦ x.1.take x.2) = [text "al"] := by decide +kernel
  refine ⟨calls, later, hhistory, (htexts 0 ?_).trans (congrArg some htext)⟩
  exact congrArg (fun l : List Place ↦ l[0]?) hp

end Server

end MyTeams
