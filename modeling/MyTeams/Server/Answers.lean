import MyTeams.Server.Contexts

/-!
# One response per request

A connection receives its own responses and the events of others through one send buffer. Removing
the events leaves one message for each frame dispatched, in order: `one_response_per_request`. The
message that answers a frame is the response that `_dispatch` computes from the data the frame met,
and its code is an error code or one of the codes of the protocol's tables (`responses`).

The header of a message holds the payload size in 32 bits. Nothing bounds a list response, so the
size is right modulo 2^32 only; `not_size_eq_length` is a run that gets there.
-/

namespace MyTeams

open ByteField FrameStream

/-! ### Codes -/

/-- The codes of the push events. -/
def isPush (code : UInt16) : Bool := 0xF0 ≤ code && code ≤ 0xF6

/-- The push codes are those of the events, among everything the server sends. -/
theorem isPush_code (k : ServerCode) : isPush k.code = true ↔ ∃ evt, k = .evt evt := by
  rcases k with r | e | evt
  · have hcode : isPush (ServerCode.res r).code = false := by cases r <;> rfl
    simp [hcode]
  · have hcode : isPush (ServerCode.err e).code = false := by cases e <;> rfl
    simp [hcode]
  · have hcode : isPush (ServerCode.evt evt).code = true := by cases evt <;> rfl
    simp [hcode]

theorem Msg.bytes_eq (m : Msg) : m.bytes = Frame.bytes (m.code.code, m.body.bytes) := rfl

@[simp] theorem headerCode_bytes (m : Msg) : headerCode m.bytes = m.code.code := by
  have hcode := headerCode_frame (m.code.code, m.body.bytes) []
  rwa [List.append_nil] at hcode

/-- The success responses that RFC sections 3 and 7 to 10 allow for a command, on a connection whose
context has the given level. -/
def responses (level : Option UInt8) : Command → List Response
  | .login => [.loginOk]
  | .logout => [.logoutOk]
  | .users => [.usersList]
  | .user => [.userInfo]
  | .send => [.sendOk]
  | .messages => [.messagesList]
  | .subscribe => [.subscribeOk]
  | .subscribed => [.subscribedTeams, .subscribedUsers]
  | .unsubscribe => [.unsubscribeOk]
  | .use => [.userDetails, .teamInfo, .channelInfo, .threadInfo]
  | .create => level.toList.map createdResponse
  | .list => level.toList.map listResponse
  | .info => level.toList.map infoResponse

/-- A code that may answer a command: an error, or a success response of the tables. -/
def Answers (level : Option UInt8) (cmd : Option Command) : ServerCode → Prop
  | .err _ => True
  | .res r => ∃ c, cmd = some c ∧ r ∈ responses level c
  | .evt _ => False

theorem infoResponse_mem (level : UInt8) (l : Option UInt8) :
    infoResponse level ∈ responses l .use := by
  rw [infoResponse]
  split_ifs <;> simp [responses]

/-- Every answer carries an error code, or a success code for its command and the stored level. -/
theorem Serves.answers {host : Host} {fd : Fd} {payload : List UInt8} {data : ServerData}
    {cmd : Option Command} {a : Answer} (h : Serves host fd payload data cmd a) :
    Answers (data.clientContexts[fd]?.map ClientContext.level) cmd a.msg.code := by
  have hlevel {ctx : ClientContext} {c : Command} {r : Response}
      (hctx : data.clientContexts[fd]? = some ctx) (hr : r ∈ responses (some ctx.level) c) :
      Answers (data.clientContexts[fd]?.map ClientContext.level) (some c) (.res r) := by
    rw [hctx]
    exact ⟨c, rfl, hr⟩
  cases h with
  | unauthorized => trivial
  | unknown => trivial
  | refused => trivial
  | dangling => trivial
  | @use user ctx m hs hreq hgrant hinfo =>
    show Answers _ _ m.code
    rw [contextInfo_code hinfo]
    exact ⟨.use, rfl, infoResponse_mem _ _⟩
  | @list user ctx m hs hctx hlist =>
    show Answers _ _ m.code
    rw [contextList_code hlist]
    exact hlevel hctx (List.mem_singleton_self _)
  | @info user ctx m hs hctx hinfo =>
    show Answers _ _ m.code
    rw [contextInfo_code hinfo]
    exact hlevel hctx (List.mem_singleton_self _)
  | createTeam hs hctx hnone =>
    refine hlevel hctx ?_
    simp [responses, createdResponse, hnone]
  | createChannel hs hctx hteam =>
    refine hlevel hctx ?_
    simp [responses, createdResponse, hteam, useNone, useTeam]
  | createThread hs hctx hchannel =>
    refine hlevel hctx ?_
    simp [responses, createdResponse, hchannel, useNone, useTeam, useChannel]
  | createReply hs hctx hthread =>
    refine hlevel hctx ?_
    simp [responses, createdResponse, hthread, useNone, useTeam, useChannel, useThread]
  | _ => exact ⟨_, rfl, by simp [responses]⟩

/-- No answer is an event. -/
theorem Serves.not_push {host : Host} {fd : Fd} {payload : List UInt8} {data : ServerData}
    {cmd : Option Command} {a : Answer} (h : Serves host fd payload data cmd a) :
    isPush a.msg.code.code = false := by
  refine Bool.eq_false_iff.2 fun hpush ↦ ?_
  obtain ⟨evt, hevt⟩ := (isPush_code a.msg.code).1 hpush
  have hanswers := h.answers
  rw [hevt] at hanswers
  exact hanswers

/-- What an answer has for the others are events. -/
theorem Serves.push {host : Host} {fd : Fd} {payload : List UInt8} {data : ServerData}
    {cmd : Option Command} {a : Answer} (h : Serves host fd payload data cmd a) {d : Fd}
    (hd : d ≠ fd) : ∀ m ∈ a.messagesTo fd d, isPush m.code.code = true := by
  have hevents : ∀ e ∈ a.events, ∃ evt, e.1.code = .evt evt := by
    intro e he
    cases h with
    | loginKnown | loginNew | logout =>
      simp only [presenceEvents] at he
      split_ifs at he
      · cases he
      · exact ⟨_, congrArg (fun e ↦ e.1.code) (List.mem_singleton.1 he)⟩
    | send =>
      dsimp only at he
      split_ifs at he
      · cases he
      · exact ⟨_, congrArg (fun e ↦ e.1.code) (List.mem_singleton.1 he)⟩
    | createTeam | createChannel | createThread | createReply =>
      exact ⟨_, congrArg (fun e ↦ e.1.code) (List.mem_singleton.1 he)⟩
    | _ => cases he
  intro m hm
  rw [Answer.messagesTo, if_neg hd] at hm
  obtain ⟨e, he, hme⟩ := List.mem_flatMap.1 hm
  rw [List.eq_of_mem_replicate hme]
  exact (isPush_code _).2 (hevents e he)

namespace Server

variable {host : ℕ → Host} {s : Server}

/-! ### Requests and answers of a connection -/

/-- The frames dispatched for a connection, oldest first, each with the data it met. -/
def requestsOn (d : Fd) (trace : List Observation) : List (Frame × ServerData) :=
  trace.filterMap fun
    | .dispatched fd cmd payload data => if fd = d then some ((cmd, payload), data) else none
    | _ => none

/-- The messages queued to a connection that are no events, oldest first. -/
def answersOn (d : Fd) (trace : List Observation) : List (List UInt8) :=
  (queuedOn d trace).filter fun m ↦ !isPush (headerCode m)

/-- The message is the answer to the frame, on the data that the frame met. -/
structure AnswersFrame (host : ℕ → Host) (fd : Fd) (q : Frame × ServerData) (m : List UInt8) :
    Prop where
  /-- It is the response that the dispatcher computes. -/
  response : ∃ n, m = (frameOutcome (host n) fd q.1.1 q.1.2 q.2).result.response.bytes
  /-- Its code is allowed for the command and the stored context. -/
  code : ∃ k : ServerCode, headerCode m = k.code ∧
    Answers (q.2.clientContexts[fd]?.map ClientContext.level) (Command.ofCode? q.1.1) k

@[simp] theorem requestsOn_append (d : Fd) (t t' : List Observation) :
    requestsOn d (t ++ t') = requestsOn d t ++ requestsOn d t' :=
  List.filterMap_append

@[simp] theorem answersOn_append (d : Fd) (t t' : List Observation) :
    answersOn d (t ++ t') = answersOn d t ++ answersOn d t' := by
  rw [answersOn, queuedOn_append, List.filter_append]
  rfl

theorem requestsOn_queued (d : Fd) (l : List (Fd × List UInt8)) :
    requestsOn d (l.map fun x ↦ Observation.queued x.1 x.2) = [] := by
  rw [requestsOn, List.filterMap_map]
  exact List.filterMap_eq_nil_iff.2 fun _ _ ↦ rfl

/-- The frame that an action dispatches for a connection. -/
def Action.requestOn (d : Fd) (data : ServerData) : Action → List (Frame × ServerData)
  | .frame fd cmd payload => if fd = d then [((cmd, payload), data)] else []
  | _ => []

variable (host s) in
/-- What an action adds to the history: it accepts only if it is an acceptance, and dispatches only
if it is a frame. -/
theorem trace_perform (a : Action) :
    ∃ t, (perform host a s).trace = s.trace ++ t ∧
      (∀ d, a ≠ .accept d → ∀ o ∈ t, o ≠ .accepted d) ∧
      ∀ d, requestsOn d t = a.requestOn d s.data := by
  cases a with
  | accept fd =>
    refine ⟨[.accepted fd], rfl, fun d hd o ho ↦ ?_, fun d ↦ rfl⟩
    rw [List.mem_singleton.1 ho]
    rintro ⟨⟩
    exact hd rfl
  | receive fd tmp => exact ⟨[], (List.append_nil _).symm, by simp, fun d ↦ rfl⟩
  | write fd n => exact ⟨_, rfl, by simp, fun d ↦ rfl⟩
  | frame fd cmd payload =>
    refine ⟨_, by rw [perform_frame_eq, queueAll_trace, List.append_assoc], fun d _ o ho ↦ ?_,
      fun d ↦ ?_⟩
    · rcases List.mem_append.1 ho with ho | ho
      · rw [List.mem_singleton.1 ho]
        exact Observation.noConfusion
      · exact ne_accepted_of_queued d o ho
    · rw [requestsOn_append, requestsOn_queued, List.append_nil, Action.requestOn]
      rcases eq_or_ne fd d with rfl | hd
      · simp [requestsOn]
      · simp [requestsOn, hd]
  | disconnect fd =>
    obtain ⟨queued, htrace⟩ := trace_disconnect host s fd
    refine ⟨_, by rw [htrace, List.append_assoc], fun d _ o ho ↦ ?_, fun d ↦ ?_⟩
    · rcases List.mem_append.1 ho with ho | ho
      · exact ne_accepted_of_queued d o ho
      · rw [List.mem_singleton.1 ho]
        exact Observation.noConfusion
    · rw [requestsOn_append, requestsOn_queued]
      rfl

variable (host) in
/-- The messages queued to a connection are those that each action queues. -/
theorem queuedOn_perform (d : Fd) (s : Server) (a : Action) :
    queuedOn d (perform host a s).trace =
      queuedOn d s.trace ++ newMessages d s (perform host a s) := by
  obtain ⟨t, ht, -⟩ := trace_perform host s a
  have hqueued : queuedOn d (perform host a s).trace = queuedOn d s.trace ++ queuedOn d t := by
    rw [ht, queuedOn_append]
  rw [newMessages_of_append hqueued, hqueued]

variable (host) in
theorem newMessages_perform (d : Fd) (s₀ : Server) {s : Server} (a : Action)
    (h : queuedOn d s₀.trace <+: queuedOn d s.trace) :
    queuedOn d s₀.trace <+: queuedOn d (perform host a s).trace ∧
      newMessages d s₀ (perform host a s) =
        newMessages d s₀ s ++ newMessages d s (perform host a s) := by
  obtain ⟨l, hl⟩ := h
  have hqueued : queuedOn d (perform host a s).trace =
      queuedOn d s₀.trace ++ (l ++ newMessages d s (perform host a s)) := by
    rw [queuedOn_perform, ← hl, List.append_assoc]
  refine ⟨⟨_, hqueued.symm⟩, ?_⟩
  rw [newMessages_of_append hl.symm, newMessages_of_append hqueued]

/-- What is queued for another connection is no answer. -/
theorem answers_of_pushes {env : Host} {fd d : Fd} {payload : List UInt8} {data : ServerData}
    {cmd : Option Command} {a : Answer} (h : Serves env fd payload data cmd a) (hd : d ≠ fd)
    (p : Prop) [Decidable p] :
    ((if p then (a.messagesTo fd d).map Msg.bytes else []).filter fun m ↦ !isPush (headerCode m)) =
      [] := by
  refine List.filter_eq_nil_iff.2 fun b hb ↦ ?_
  split_ifs at hb
  · obtain ⟨m, hm, rfl⟩ := List.mem_map.1 hb
    rw [headerCode_bytes, h.push hd m hm]
    exact Bool.false_ne_true
  · cases hb

/-- A frame has one answer, for the connection that sent it. -/
theorem answersOn_frame (hwf : SessionsWf s.data) {fd : Fd} (hfd : s.clients.contains fd = true)
    (cmd : UInt16) (payload : List UInt8) (d : Fd) :
    answersOn d (perform host (.frame fd cmd payload) s).trace = answersOn d s.trace ++
      if fd = d then [(frameOutcome (host s.served) fd cmd payload s.data).result.response.bytes]
      else [] := by
  obtain ⟨answer, hserves, -, hresult⟩ := exists_serves_frame host hwf fd cmd payload
  rw [answersOn, queuedOn_frame hfd hresult, List.filter_append, ← answersOn]
  congr 1
  rcases eq_or_ne fd d with rfl | hd
  · rw [if_pos rfl, if_pos hfd, Answer.messagesTo, if_pos rfl, List.map_singleton,
      List.filter_singleton, headerCode_bytes, hserves.not_push, hresult]
    rfl
  · rw [if_neg hd, answers_of_pushes hserves (Ne.symm hd)]

/-- What a frame queues to its own connection is the response. -/
theorem newMessages_self (hwf : SessionsWf s.data) {fd : Fd} {cmd : UInt16} {payload : List UInt8}
    (ha : s.Enabled (.frame fd cmd payload)) :
    newMessages fd s (perform host (.frame fd cmd payload) s) =
      [(frameOutcome (host s.served) fd cmd payload s.data).result.response.bytes] := by
  obtain ⟨c, rest, hc, -⟩ := ha
  have hfd : s.clients.contains fd = true := (IntMap.contains_iff _).2 ⟨c, hc⟩
  obtain ⟨answer, -, -, hresult⟩ := exists_serves_frame host hwf fd cmd payload
  rw [newMessages_of_append (queuedOn_frame hfd hresult fd), if_pos hfd, Answer.messagesTo,
    if_pos rfl, hresult]
  rfl

/-- The other actions answer nothing. -/
theorem answersOn_quiet (hwf : SessionsWf s.data) {a : Action}
    (hframe : ∀ fd cmd payload, a ≠ .frame fd cmd payload) (d : Fd) :
    answersOn d (perform host a s).trace = answersOn d s.trace := by
  cases a with
  | frame fd cmd payload => exact absurd rfl (hframe fd cmd payload)
  | disconnect fd =>
    obtain ⟨answer, hserves, -, hqueue⟩ := exists_answer_disconnect host hwf fd
    rw [answersOn, hqueue, List.filter_append, ← answersOn]
    rcases eq_or_ne d fd with hd | hd
    · rw [if_neg fun h ↦ h.2 hd]
      exact List.append_nil _
    · rw [answers_of_pushes hserves hd, List.append_nil]
  | _ => rw [answersOn, queuedOn_quiet (by simp) (by simp), ← answersOn]

/-- An action queues one answer to the connection whose frame it dispatches, and events to
others. -/
theorem answers_perform (hwf : SessionsWf s.data) {a : Action} (ha : s.Enabled a) {d : Fd}
    {t : List Observation} (ht : (perform host a s).trace = s.trace ++ t) :
    List.Forall₂ (AnswersFrame host d) (a.requestOn d s.data) (answersOn d t) := by
  have hanswers {l : List (List UInt8)}
      (h : answersOn d (perform host a s).trace = answersOn d s.trace ++ l) :
      answersOn d t = l := by
    rw [ht, answersOn_append] at h
    exact List.append_cancel_left h
  cases a with
  | frame fd cmd payload =>
    obtain ⟨c, rest, hc, -⟩ := ha
    rw [hanswers (answersOn_frame hwf ((IntMap.contains_iff _).2 ⟨c, hc⟩) cmd payload d),
      Action.requestOn]
    rcases eq_or_ne fd d with rfl | hd
    · obtain ⟨answer, hserves, -, hresult⟩ := exists_serves_frame host hwf fd cmd payload
      rw [if_pos rfl, if_pos rfl]
      refine .cons ⟨⟨s.served, rfl⟩, ⟨answer.msg.code, ?_, hserves.answers⟩⟩ .nil
      rw [hresult]
      exact headerCode_bytes answer.msg
    · rw [if_neg hd, if_neg hd]
      exact .nil
  | _ =>
    rw [hanswers ((answersOn_quiet hwf (by simp) d).trans (List.append_nil _).symm)]
    exact .nil

/-- **Along a run**: the answers of a connection are those of its frames, in order. -/
theorem Reachable.answered (h : Reachable host s) (d : Fd) :
    List.Forall₂ (AnswersFrame host d) (requestsOn d (sinceAccept d s.trace))
      (answersOn d (sinceAccept d s.trace)) := by
  refine h.induction (P := fun s ↦ List.Forall₂ (AnswersFrame host d)
    (requestsOn d (sinceAccept d s.trace)) (answersOn d (sinceAccept d s.trace))) .nil
    fun {s a} hs ih ha ↦ ?_
  obtain ⟨t, ht, hfresh, hrequests⟩ := trace_perform host s a
  have hanswers := answers_perform hs.sessionsWf ha (d := d) ht
  cases a with
  | accept fd =>
    show List.Forall₂ _ (requestsOn d (sinceAccept d (s.trace ++ [.accepted fd])))
      (answersOn d (sinceAccept d (s.trace ++ [.accepted fd])))
    rw [sinceAccept_append_accepted]
    split_ifs with hd
    · exact .nil
    · rw [requestsOn_append, answersOn_append]
      exact List.rel_append ih .nil
  | _ =>
    rw [ht, sinceAccept_append (hfresh d (by simp)), requestsOn_append, answersOn_append, hrequests]
    exact List.rel_append ih hanswers

/-- Every message of a run's send buffers belongs to an answer given in a reachable state. -/
theorem Reachable.answer_of_queued (h : Reachable host s) {d : Fd} {b : List UInt8}
    (hb : b ∈ queuedOn d s.trace) :
    ∃ (s' : Server) (fd : Fd) (payload : List UInt8) (cmd : Option Command) (a : Answer) (m : Msg),
      Reachable host s' ∧ Serves (host s'.served) fd payload s'.data cmd a ∧
        m ∈ a.messagesTo fd d ∧ b = m.bytes := by
  revert hb
  refine h.induction (P := fun s ↦ b ∈ queuedOn d s.trace → _) (fun hb ↦ by cases hb)
    fun {s a} hs ih ha hb ↦ ?_
  rw [queuedOn_perform, List.mem_append] at hb
  refine hb.elim ih fun hb ↦ ?_
  obtain ⟨answer, hserves, m, hm, rfl⟩ := exists_answer_of_newMessages hs.sessionsWf ha hb
  exact ⟨s, a.fd, a.request.2, _, answer, m, hs, hserves, hm, rfl⟩

/-! ### The law -/

/-- **One response per request, in order.** On every connection the messages that are no events
answer the dispatched frames one by one; every message queued is one frame, whose header has the
payload length modulo 2^32. -/
theorem one_response_per_request (h : Reachable host s) (fd : Fd) :
    List.Forall₂ (AnswersFrame host fd) (requestsOn fd (sinceAccept fd s.trace))
        (answersOn fd (sinceAccept fd s.trace)) ∧
      ∀ m ∈ queuedOn fd s.trace, ∃ f : Frame, m = f.bytes ∧
        headerPayloadSize m = f.2.length % 2 ^ 32 := by
  refine ⟨h.answered fd, fun b hb ↦ ?_⟩
  obtain ⟨-, -, -, -, -, m, -, -, -, rfl⟩ := h.answer_of_queued hb
  refine ⟨(m.code.code, m.body.bytes), m.bytes_eq, ?_⟩
  rw [m.bytes_eq, headerPayloadSize_bytes]

/-- A list that is refused, then a login. -/
def listThenLogin : List Action := .accept 4 :: request 4 .list [] ++ request 4 .login []

/-- Two answers, the second to a login. -/
theorem one_response_per_request_login :
    List.Forall₂ (AnswersFrame plainHost 4)
        (requestsOn 4 (sinceAccept 4 (execute plainHost listThenLogin Server.init).trace))
        (answersOn 4 (sinceAccept 4 (execute plainHost listThenLogin Server.init).trace)) ∧
      ∀ m ∈ queuedOn 4 (execute plainHost listThenLogin Server.init).trace,
        ∃ f : Frame, m = f.bytes ∧ headerPayloadSize m = f.2.length % 2 ^ 32 :=
  one_response_per_request (reachable_execute (by decide +kernel)) 4

/-! ### A list that outgrows its header -/

variable (host) in
/-- A request on a connection with an empty receive buffer is dispatched as it is. -/
theorem executable_request {fd : Fd} {c : ClientState} (hc : s.clients[fd]? = some c)
    (hbuf : c.recvBuffer = []) (cmd : Command) (payload : List UInt8)
    (hlen : payload.length ≤ 65535) :
    Executable host (request fd cmd payload) s ∧
      ∃ c', (execute host (request fd cmd payload) s).clients[fd]? = some c' ∧
        c'.recvBuffer = [] := by
  have hcontains : s.clients.contains fd = true := (IntMap.contains_iff _).2 ⟨c, hc⟩
  have hreceived : (perform host (.receive fd (makeMessage cmd.code payload)) s).clients[fd]? =
      some { c with recvBuffer := makeMessage cmd.code payload } := by
    rw [perform, get_modifyClient_self hc, hbuf]
    rfl
  have hscan : serverCodec.scan (makeMessage cmd.code payload) =
      .frame (cmd.code, payload) [] := by
    have hscan := serverCodec.scan_enc (f := (cmd.code, payload)) [] hlen
    rwa [List.append_nil] at hscan
  refine ⟨⟨⟨hcontains, fun h ↦ ?_⟩, ⟨_, [], hreceived, hscan⟩, trivial⟩, ?_⟩
  · have hpos := length_makeMessage cmd.code payload
    rw [h, headerSize, List.length_nil] at hpos
    omega
  · rw [request, execute, List.foldl_cons, List.foldl_cons, List.foldl_nil, clients_frame hreceived,
      hreceived]
    refine ⟨_, rfl, ?_⟩
    dsimp only
    rw [if_pos rfl]
    exact List.drop_eq_nil_of_le (length_makeMessage _ _).le

/-- The connection 4 has logged in, is in no team, and there are `n` teams. -/
structure HasTeams (n : ℕ) (s : Server) : Prop where
  reachable : Reachable plainHost s
  client : ∃ c, s.clients[(4 : Fd)]? = some c ∧ c.recvBuffer = []
  session : ∃ u, s.data.sessions[(4 : Fd)]? = some u
  context : s.data.clientContexts[(4 : Fd)]? = some ClientContext.init
  teams : s.data.teams.length = n

theorem HasTeams.create {n : ℕ} (h : HasTeams n s) {payload : List UInt8}
    (hlen : payload.length = 287) :
    Executable plainHost (request 4 .create payload) s ∧
      HasTeams (n + 1) (execute plainHost (request 4 .create payload) s) := by
  obtain ⟨c, hc, hbuf⟩ := h.client
  obtain ⟨u, hu⟩ := h.session
  obtain ⟨hexec, hclient⟩ :=
    executable_request plainHost hc hbuf .create payload (by omega)
  have hdata : (execute plainHost (request 4 .create payload) s).data =
      addTeam s.data (newTeam (plainHost s.served) u payload) := by
    have hcreate : (handleCreate (plainHost s.served) 4 payload s.data).data =
        addTeam s.data (newTeam (plainHost s.served) u payload) := by
      rw [handleCreate, withSession_of_some hu, withContext_of_some h.context]
      dsimp only
      rw [if_pos (show ClientContext.init.level = useNone from rfl), if_neg (by omega)]
    have hsession : ¬ (s.data.sessions[(4 : Fd)]? = none ∧
        Command.create.code ≠ Command.login.code) :=
      fun hnone ↦ by simp [hu] at hnone
    rw [request, execute, List.foldl_cons, List.foldl_cons, List.foldl_nil, perform_frame_data]
    show (frameOutcome (plainHost s.served) 4 Command.create.code payload s.data).data = _
    rw [frameOutcome, if_neg hsession, Command.ofCode?_code]
    show (handleCreate _ 4 (extractSv payload 0 payload.length) s.data).data = _
    rw [extractSv_whole, hcreate]
  refine ⟨hexec, h.reachable.trans (steps_execute hexec), hclient, ?_, ?_, ?_⟩
  · rw [hdata]
    exact ⟨u, hu⟩
  · rw [hdata]
    exact h.context
  · rw [hdata, addTeam, List.length_append, h.teams]
    rfl

/-- A login and `n` teams. -/
def createTeams (payload : List UInt8) (n : ℕ) : List Action :=
  (.accept 4 :: request 4 .login []) ++ (List.replicate n (request 4 .create payload)).flatten

theorem hasTeams_login :
    Executable plainHost (.accept 4 :: request 4 .login []) Server.init ∧
      HasTeams 0 (execute plainHost (.accept 4 :: request 4 .login []) Server.init) := by
  have hexec : Executable plainHost (.accept 4 :: request 4 .login []) Server.init := by
    decide +kernel
  refine ⟨hexec, reachable_execute hexec, ?_, ?_, by decide +kernel, by decide +kernel⟩
  · exact Option.map_eq_some_iff.1 (show Option.map ClientState.recvBuffer _ = some [] by
      decide +kernel)
  · exact (IntMap.contains_iff _).1 (by decide +kernel)

theorem hasTeams_createTeams {payload : List UInt8} (hlen : payload.length = 287) (n : ℕ) :
    Executable plainHost (createTeams payload n) Server.init ∧
      HasTeams n (execute plainHost (createTeams payload n) Server.init) := by
  induction n with
  | zero =>
    rw [createTeams, List.replicate_zero, List.flatten_nil, List.append_nil]
    exact hasTeams_login
  | succ n ih =>
    have hsucc : createTeams payload (n + 1) =
        createTeams payload n ++ request 4 .create payload := by
      rw [createTeams, List.replicate_succ', List.flatten_concat, ← List.append_assoc]
      rfl
    obtain ⟨hexec, hteams⟩ := ih.2.create hlen
    rw [hsucc, execute_append]
    exact ⟨executable_append.2 ⟨ih.1, hexec⟩, hteams⟩

/-- Listing `n` teams queues a message of `4 + n * 323` payload bytes. -/
theorem HasTeams.list {n : ℕ} (h : HasTeams n s) :
    Executable plainHost (request 4 .list []) s ∧
      ∃ m : Msg, m.bytes ∈ queuedOn 4 (execute plainHost (request 4 .list []) s).trace ∧
        m.body.bytes.length = 4 + n * 323 := by
  obtain ⟨c, hc, hbuf⟩ := h.client
  obtain ⟨u, hu⟩ := h.session
  obtain ⟨hexec, -⟩ :=
    executable_request plainHost hc hbuf .list [] (Nat.zero_le _)
  refine ⟨hexec, ?_⟩
  have hcontains : (perform plainHost (.receive 4 (makeMessage Command.list.code []))
    s).clients.contains
      4 = true := by
    rw [perform, contains_modifyClient ((IntMap.contains_iff _).2 ⟨c, hc⟩)]
    exact (IntMap.contains_iff _).2 ⟨c, hc⟩
  obtain ⟨a, hserves, -, hqueue⟩ :=
    @exists_answer_frame plainHost (perform plainHost (.receive 4 _) s) h.reachable.sessionsWf 4
      hcontains Command.list.code []
  rw [Command.ofCode?_code] at hserves
  refine ⟨a.msg, ?_, ?_⟩
  · rw [request, execute, List.foldl_cons, List.foldl_cons, List.foldl_nil, hqueue, hcontains,
      Answer.messagesTo, if_pos rfl, if_pos rfl]
    exact List.mem_append_right _ (List.mem_singleton_self _)
  · cases hserves with
    | unauthorized hs =>
      have hsome : s.data.sessions[(4 : Fd)]? = none := hs
      rw [hu] at hsome
      cases hsome
    | refused hs hb hquery => exact absurd rfl hquery.2.2.1
    | dangling hs hcmd hctx =>
      have hnone := hctx _ h.context
      rw [contextInfo_of_none rfl] at hnone
      cases hnone
    | list hs hctx hlist =>
      obtain rfl := Option.some.inj (h.context.symm.trans hctx)
      rw [contextList_of_none rfl] at hlist
      obtain rfl := Option.some.inj hlist
      show (Body.describeds _).bytes.length = _
      rw [Body.length_bytes]
      show 4 + (s.data.teams.map Team.record).length * 323 = _
      rw [List.length_map, h.teams]

/-- With 13297157 teams the payload of `RES_LIST_TEAMS` is longer than its header says. -/
theorem not_size_eq_length :
    ∃ as : List Action, Executable plainHost as Server.init ∧
      ∃ m ∈ queuedOn 4 (execute plainHost as Server.init).trace,
        headerPayloadSize m ≠ m.length - headerSize := by
  obtain ⟨hexec, hteams⟩ :=
    hasTeams_createTeams (List.length_replicate (n := 287) (a := 0)) 13297157
  obtain ⟨hlist, m, hm, hlen⟩ := hteams.list
  refine ⟨_, executable_append.2 ⟨hexec, hlist⟩, m.bytes, by rwa [execute_append], ?_⟩
  rw [m.bytes_eq, headerPayloadSize_bytes, Frame.bytes, length_makeMessage, Nat.add_sub_cancel_left,
    hlen]
  omega

end Server

end MyTeams
