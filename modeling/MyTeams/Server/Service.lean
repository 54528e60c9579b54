import MyTeams.Lib.AtomicService
import MyTeams.Server.History
import MyTeams.Server.Refusals

/-!
# The server as an atomic service

What the server is for, without its loop, its buffers and its bytes: connections are accepted, make
requests and are lost, one after the other, and each request is handled at once (`Server.rules`).
The server does exactly that: its data and what it has queued to each connection are those of the
service after the same history (`Reachable.runs`), however the bytes of the requests were cut into
reads, how much of the answers was written, and in which order the poll loop did all this.
-/

namespace MyTeams

open AtomicService FrameStream

/-- What an outcome on the connection `fd` does at once. -/
def Outcome.effect (fd : Fd) (o : Outcome) : Effect Fd ServerData (List UInt8) :=
  ⟨o.data, fun d ↦ addressedTo d (o.result.sends fd)⟩

theorem Outcome.tells_effect {o : Outcome} {a : Answer} (h : o.result = a.result) (fd d : Fd) :
    (o.effect fd).tells d = (a.messagesTo fd d).map Msg.bytes := by
  rw [← addressedTo_sends, ← h]
  rfl

/-- What happens to the service when an entry is made in the history. -/
def Observation.happening : Observation → Option (Happening Fd Frame)
  | .accepted fd => some (.connect fd)
  | .dispatched fd cmd payload _ => some (.request fd (cmd, payload))
  | .closed fd => some (.hangup fd)
  | _ => none

namespace Server

/-- **The rules of the service**: the `n`-th request is handled by what `_dispatch` calls, which
answers it as the protocol says, and refuses it for the first check that it fails; losing a
connection is a logout. -/
def rules (host : ℕ → Host) : Rules Fd Frame ServerData (List UInt8) where
  init := ServerData.init
  serves n fd f data e :=
    e = (frameOutcome (host n) fd f.1 f.2 data).effect fd ∧
      Realizes (Serves (host n) fd f.2 data (Command.ofCode? f.1))
        (frameOutcome (host n) fd f.1 f.2 data) ∧
      (frameOutcome (host n) fd f.1 f.2 data).Refuses (refusal fd f.2 data (Command.ofCode? f.1))
  leaves n fd data e :=
    e = (handleLogout fd data).effect fd ∧
      Realizes (Serves (host n) fd [] data (some .logout)) (handleLogout fd data)

/-- What has happened so far. -/
def happenings (s : Server) : List (Happening Fd Frame) := s.trace.filterMap Observation.happening

/-- The server as the service sees it: what a connection has been told is what was queued to it
since it was accepted. -/
def asService (s : Server) : State Fd ServerData (List UInt8) where
  data := s.data
  asked := s.served
  told d := if s.clients.contains d then some (queuedOn d (sinceAccept d s.trace)) else none

variable {host : ℕ → Host} {s : Server}

theorem asService_told (s : Server) (d : Fd) :
    s.asService.told d =
      if s.clients.contains d then some (queuedOn d (sinceAccept d s.trace)) else none := rfl

theorem told_asService {d : Fd} (hd : s.clients.contains d = true) :
    s.asService.told d = some (queuedOn d (sinceAccept d s.trace)) := if_pos hd

theorem asService_eq {data : ServerData} {n : ℕ} {told : Fd → Option (List (List UInt8))}
    (hdata : s.data = data) (hserved : s.served = n) (htold : s.asService.told = told) :
    s.asService = ⟨data, n, told⟩ := by
  rw [← hdata, ← hserved, ← htold]
  rfl

/-! ### One action -/

/-- What happens to the service by an action. -/
def Action.happening : Action → Option (Happening Fd Frame)
  | .accept fd => some (.connect fd)
  | .frame fd cmd payload => some (.request fd (cmd, payload))
  | .disconnect fd => some (.hangup fd)
  | _ => none

theorem happening_queued (l : List (Fd × List UInt8)) :
    (l.map fun x ↦ Observation.queued x.1 x.2).filterMap Observation.happening = [] := by
  rw [List.filterMap_map]
  exact List.filterMap_eq_nil_iff.2 fun _ _ ↦ rfl

variable (host s) in
theorem happenings_perform (a : Action) :
    (perform host a s).happenings = s.happenings ++ a.happening.toList := by
  have hentries {t : List Observation} (ht : (perform host a s).trace = s.trace ++ t) :
      (perform host a s).happenings = s.happenings ++ t.filterMap Observation.happening := by
    rw [happenings, ht, List.filterMap_append]
    rfl
  cases a with
  | accept fd => exact @hentries [.accepted fd] rfl
  | receive fd tmp => exact hentries (List.append_nil _).symm
  | write fd n => exact @hentries [.sent fd _] rfl
  | frame fd cmd payload =>
    obtain ⟨queued, htrace⟩ := trace_frame host s fd cmd payload
    rw [hentries htrace, ← List.singleton_append, List.filterMap_append, happening_queued]
    rfl
  | disconnect fd =>
    obtain ⟨queued, htrace⟩ := trace_disconnect host s fd
    rw [hentries (htrace.trans (List.append_assoc _ _ _)), List.filterMap_append, happening_queued]
    rfl

variable (host s) in
/-- What a connection has been told after an action by which it was not accepted. -/
theorem queuedSince_perform {a : Action} {d : Fd} (ha : a ≠ .accept d) :
    queuedOn d (sinceAccept d (perform host a s).trace) =
      queuedOn d (sinceAccept d s.trace) ++ newMessages d s (perform host a s) := by
  obtain ⟨t, ht, hfresh, -⟩ := trace_perform host s a
  have hnew : newMessages d s (perform host a s) = queuedOn d t :=
    newMessages_of_append (by rw [ht, queuedOn_append])
  rw [hnew, ht, sinceAccept_append (hfresh d ha), queuedOn_append]

/-- An action that leaves a connection what it is tells it what it queues to it. -/
theorem told_perform {a : Action} {d : Fd} (ha : a ≠ .accept d)
    (hcontains : (perform host a s).clients.contains d = s.clients.contains d) :
    (perform host a s).asService.told d =
      (s.asService.told d).map (· ++ newMessages d s (perform host a s)) := by
  rw [asService_told, asService_told, hcontains, queuedSince_perform host s ha]
  split_ifs
  · rfl
  · rfl

/-- What it queues is the effect of the action. -/
theorem told_of_effect {a : Action} {d : Fd} (ha : a ≠ .accept d)
    (hcontains : (perform host a s).clients.contains d = s.clients.contains d)
    {e : Effect Fd ServerData (List UInt8)}
    (he : s.clients.contains d = true → newMessages d s (perform host a s) = e.tells d) :
    (perform host a s).asService.told d = s.asService.hears e d := by
  rw [told_perform ha hcontains, State.hears]
  cases hd : s.clients.contains d with
  | true => rw [he hd]
  | false =>
    rw [asService_told, hd, if_neg Bool.false_ne_true]
    rfl

/-- What it queues is nothing. -/
theorem told_of_quiet {a : Action} {d : Fd} (ha : a ≠ .accept d)
    (hcontains : (perform host a s).clients.contains d = s.clients.contains d)
    (hnew : newMessages d s (perform host a s) = []) :
    (perform host a s).asService.told d = s.asService.told d := by
  rw [told_perform ha hcontains, hnew]
  simp only [List.append_nil, Option.map_id']

/-- **A connection is accepted.** -/
theorem Reachable.atomic_accept (h : Reachable host s) {fd : Fd} (ha : s.Enabled (.accept fd)) :
    AtomicService.Step (rules host) s.asService (.connect fd)
      (perform host (.accept fd) s).asService := by
  have hnone : s.asService.told fd = none :=
    if_neg (Bool.eq_false_iff.1 ((IntMap.contains_eq_false_iff _).2 (h.registry.of_closed ha).1))
  have htold : (perform host (.accept fd) s).asService.told =
      Function.update s.asService.told fd (some []) := by
    funext d
    rcases eq_or_ne d fd with rfl | hne
    · have hcontains : (perform host (.accept d) s).clients.contains d = true := by
        show (s.clients.insert d _).contains d = true
        rw [IntMap.contains_insert, beq_self_eq_true, Bool.true_or]
      have hsince : sinceAccept d (perform host (.accept d) s).trace = [] :=
        (sinceAccept_append_accepted d d s.trace).trans (if_pos rfl)
      rw [Function.update_self, told_asService hcontains, hsince]
      rfl
    · have hcontains : (perform host (.accept fd) s).clients.contains d = s.clients.contains d := by
        show (s.clients.insert fd _).contains d = _
        rw [IntMap.contains_insert, beq_false_of_ne hne.symm, Bool.false_or]
      rw [Function.update_of_ne hne]
      exact told_of_quiet (fun h ↦ hne (Action.accept.inj h).symm) hcontains
        (newMessages_quiet (by simp) (by simp) d)
  rw [asService_eq rfl rfl htold]
  exact .connect hnone

/-- **A frame is dispatched.** -/
theorem Reachable.atomic_frame (h : Reachable host s) {fd : Fd} {cmd : UInt16}
    {payload : List UInt8} (ha : s.Enabled (.frame fd cmd payload)) :
    AtomicService.Step (rules host) s.asService (.request fd (cmd, payload))
      (perform host (.frame fd cmd payload) s).asService := by
  obtain ⟨c, rest, hc, -⟩ := ha
  have hfd : s.clients.contains fd = true := (IntMap.contains_iff _).2 ⟨c, hc⟩
  have hrealizes : Realizes (Serves (host s.served) fd payload s.data (Command.ofCode? cmd))
      (frameOutcome (host s.served) fd cmd payload s.data) := frameOutcome_realizes h.sessionsWf
  have htold : (perform host (.frame fd cmd payload) s).asService.told =
      s.asService.hears ((frameOutcome (host s.served) fd cmd payload s.data).effect fd) := by
    obtain ⟨answer, -, -, hresult⟩ := hrealizes
    refine funext fun d ↦ told_of_effect (by simp) (contains_frame hfd cmd payload d) fun hd ↦ ?_
    rw [newMessages_of_append (queuedOn_frame hfd hresult d), if_pos hd,
      Outcome.tells_effect hresult]
  have hserves : (rules host).serves s.served fd (cmd, payload) s.data
      ((frameOutcome (host s.served) fd cmd payload s.data).effect fd) :=
    ⟨rfl, hrealizes, h.frameOutcome_refuses cmd⟩
  rw [asService_eq (perform_frame_data fd cmd payload) (served_perform _) htold]
  exact .request (Option.isSome_of_eq_some (told_asService hfd)) hserves

/-- **A connection is lost.** -/
theorem Reachable.atomic_disconnect (h : Reachable host s) {fd : Fd}
    (ha : s.Enabled (.disconnect fd)) :
    AtomicService.Step (rules host) s.asService (.hangup fd)
      (perform host (.disconnect fd) s).asService := by
  have hrealizes : Realizes (Serves (host s.served) fd [] s.data (some .logout))
      (handleLogout fd s.data) :=
    handleLogout_realizes h.sessionsWf
  have htold : (perform host (.disconnect fd) s).asService.told =
      Function.update (s.asService.hears ((handleLogout fd s.data).effect fd)) fd none := by
    obtain ⟨answer, -, -, hresult⟩ := hrealizes
    funext d
    rcases eq_or_ne d fd with rfl | hne
    · rw [Function.update_self, asService_told, contains_disconnect, bne_self_eq_false,
        Bool.false_and]
      rfl
    · have hcontains : (perform host (.disconnect fd) s).clients.contains d =
          s.clients.contains d := by
        rw [contains_disconnect, bne_iff_ne.2 hne.symm, Bool.true_and]
      rw [Function.update_of_ne hne]
      refine told_of_effect (by simp) hcontains fun hd ↦ ?_
      rw [newMessages_of_append (queuedOn_disconnect hresult d), if_pos ⟨hd, hne⟩,
        Outcome.tells_effect hresult]
  have hleaves : (rules host).leaves s.served fd s.data ((handleLogout fd s.data).effect fd) :=
    ⟨rfl, hrealizes⟩
  rw [asService_eq (perform_disconnect_data fd) (served_perform _) htold]
  exact .hangup (Option.isSome_of_eq_some (told_asService ha)) hleaves

/-- The other actions are none of the service. -/
theorem asService_quiet {a : Action} (ha : s.Enabled a) (hquiet : a.happening = none) :
    (perform host a s).asService = s.asService := by
  cases a with
  | receive fd tmp =>
    exact asService_eq rfl rfl <| funext fun d ↦
      told_of_quiet (by simp) (contains_modifyClient ha.1 _ d)
        (newMessages_quiet (by simp) (by simp) d)
  | write fd n =>
    exact asService_eq rfl rfl <| funext fun d ↦
      told_of_quiet (by simp) (contains_write ha n d) (newMessages_quiet (by simp) (by simp) d)
  | _ => cases hquiet

/-! ### Runs -/

/-- **The server is an atomic service**: its data and what it has queued to each connection are
those of the service after the same history. -/
theorem Reachable.runs (h : Reachable host s) : Runs (rules host) s.happenings s.asService := by
  refine @runs_of_reachable _ _ _ _ _ (rules host) _ (Server.Step host) happenings asService _ _
    ⟨rfl, rfl⟩ (fun s s' hs hstep ↦ ?_) h
  obtain ⟨a, ha, rfl⟩ := hstep
  have hs : Reachable host s := hs
  rw [happenings_perform]
  cases a with
  | accept fd => exact .inr ⟨_, rfl, hs.atomic_accept ha⟩
  | frame fd cmd payload => exact .inr ⟨_, rfl, hs.atomic_frame ha⟩
  | disconnect fd => exact .inr ⟨_, rfl, hs.atomic_disconnect ha⟩
  | receive fd tmp => exact .inl ⟨List.append_nil _, asService_quiet ha rfl⟩
  | write fd n => exact .inl ⟨List.append_nil _, asService_quiet ha rfl⟩

theorem functional_rules (host : ℕ → Host) : (rules host).Functional :=
  ⟨fun h h' ↦ h.1.trans h'.1.symm, fun h h' ↦ h.1.trans h'.1.symm⟩

/-- A message that is no event. -/
def isReply (b : List UInt8) : Bool := !isPush (headerCode b)

/-- The message has a code that answers the frame, in some context. -/
def Replies (f : Frame) (b : List UInt8) : Prop :=
  ∃ (level : Option UInt8) (code : ServerCode), headerCode b = code.code ∧
    Answers level (Command.ofCode? f.1) code

theorem replies_rules (host : ℕ → Host) : (rules host).Replies isReply Replies where
  own {n fd f data e} h := by
    obtain ⟨rfl, ⟨answer, hserves, -, hresult⟩, -⟩ := h
    refine ⟨answer.msg.bytes, ?_, _, answer.msg.code, headerCode_bytes _, hserves.answers⟩
    rw [Outcome.tells_effect hresult, Answer.messagesTo, if_pos rfl, List.map_singleton,
      List.filter_singleton, isReply, headerCode_bytes, hserves.not_push]
    rfl
  others {n fd f data e d} h hd := by
    obtain ⟨rfl, ⟨answer, hserves, -, hresult⟩, -⟩ := h
    rw [Outcome.tells_effect hresult]
    exact answers_of_pushes hserves hd True
  leaves {n fd data e d} h hd := by
    obtain ⟨rfl, answer, hserves, -, hresult⟩ := h
    rw [Outcome.tells_effect hresult]
    exact answers_of_pushes hserves hd True

/-- The requests of a connection in the history are the frames dispatched for it. -/
theorem requestsSince_happenings (d : Fd) (s : Server) :
    requestsSince d s.happenings = (requestsOn d (sinceAccept d s.trace)).map Prod.fst := by
  rw [happenings]
  induction s.trace using List.reverseRecOn with
  | nil => rfl
  | append_singleton t o ih =>
    rw [List.filterMap_append]
    have hnext (ho : o ≠ .accepted d) :
        (requestsOn d (sinceAccept d (t ++ [o]))).map Prod.fst =
          (requestsOn d (sinceAccept d t)).map Prod.fst ++ (requestsOn d [o]).map Prod.fst := by
      rw [sinceAccept_append (by simpa using ho), requestsOn_append, List.map_append]
    cases o with
    | accepted fd =>
      show requestsSince d (_ ++ [.connect fd]) = _
      rw [requestsSince_concat, sinceAccept_append_accepted]
      dsimp only
      split_ifs with hfd
      · rfl
      · rw [ih, requestsOn_append, List.map_append]
        exact (List.append_nil _).symm
    | dispatched fd cmd payload data =>
      show requestsSince d (_ ++ [.request fd (cmd, payload)]) = _
      rw [requestsSince_concat, hnext (by simp), ih]
      dsimp only
      split_ifs with hfd
      · simp [requestsOn, hfd]
      · simp [requestsOn, hfd]
    | closed fd =>
      show requestsSince d (_ ++ [.hangup fd]) = _
      rw [requestsSince_concat, hnext (by simp)]
      exact ih.trans (List.append_nil _).symm
    | _ =>
      show requestsSince d (_ ++ []) = _
      rw [List.append_nil, hnext (by simp)]
      exact ih.trans (List.append_nil _).symm

end Server

end MyTeams
