import MyTeams.Server.Answers

/-!
# The history as a list of dispatches

The history of a server holds the frames that were dispatched with the data they met. Together with
what the environment supplied to each (`Dispatch`) it determines everything the server has answered
(`answersOn_eq`), and shared data that only frames add to is the log of what they added
(`Reachable.log`).
-/

namespace MyTeams

/-- A frame that was dispatched: what the environment supplied to its handler, the frame, and the
data it met. -/
structure Dispatch where
  host : Host
  fd : Fd
  cmd : UInt16
  payload : List UInt8
  data : ServerData

namespace Dispatch

/-- What the handler computed. -/
def outcome (d : Dispatch) : Outcome := frameOutcome d.host d.fd d.cmd d.payload d.data

/-- The response. -/
def response (d : Dispatch) : Packet := d.outcome.result.response

/-- What the handler computed is the packet form of an answer. -/
theorem realizes {d : Dispatch} (h : SessionsWf d.data) :
    Realizes (Serves d.host d.fd d.payload d.data (Command.ofCode? d.cmd)) d.outcome :=
  frameOutcome_realizes h

end Dispatch

/-- The frames of a history, oldest first. -/
def dispatchedFrames (trace : List Observation) : List (Fd × UInt16 × List UInt8 × ServerData) :=
  trace.filterMap fun
    | .dispatched fd cmd payload data => some (fd, cmd, payload, data)
    | _ => none

/-- The dispatches of a history, oldest first: the `n`-th frame is handled under `host n`. -/
def dispatches (host : ℕ → Host) (trace : List Observation) : List Dispatch :=
  (dispatchedFrames trace).mapIdx fun n f ↦ ⟨host n, f.1, f.2.1, f.2.2.1, f.2.2.2⟩

@[simp] theorem dispatchedFrames_append (t t' : List Observation) :
    dispatchedFrames (t ++ t') = dispatchedFrames t ++ dispatchedFrames t' :=
  List.filterMap_append

theorem dispatchedFrames_queued (l : List (Fd × List UInt8)) :
    dispatchedFrames (l.map fun x ↦ Observation.queued x.1 x.2) = [] := by
  rw [dispatchedFrames, List.filterMap_map]
  exact List.filterMap_eq_nil_iff.2 fun _ _ ↦ rfl

theorem dispatches_append_nil (host : ℕ → Host) {t t' : List Observation}
    (h : dispatchedFrames t' = []) : dispatches host (t ++ t') = dispatches host t := by
  rw [dispatches, dispatchedFrames_append, h, List.append_nil, ← dispatches]

theorem dispatches_append_frame (host : ℕ → Host) {t t' : List Observation}
    {f : Fd × UInt16 × List UInt8 × ServerData} (h : dispatchedFrames t' = [f]) :
    dispatches host (t ++ t') =
      dispatches host t ++
        [⟨host (dispatchedFrames t).length, f.1, f.2.1, f.2.2.1, f.2.2.2⟩] := by
  rw [dispatches, dispatchedFrames_append, h, List.mapIdx_concat, ← dispatches]

namespace Server

variable {host : ℕ → Host} {s : Server}

variable (host s) in
/-- What an action dispatches. -/
def Action.dispatches : Action → List Dispatch
  | .frame fd cmd payload => [⟨host s.served, fd, cmd, payload, s.data⟩]
  | _ => []

variable (host s) in
theorem trace_frame (fd : Fd) (cmd : UInt16) (payload : List UInt8) :
    ∃ queued : List (Fd × List UInt8), (perform host (.frame fd cmd payload) s).trace =
      s.trace ++ (.dispatched fd cmd payload s.data ::
        queued.map fun x ↦ Observation.queued x.1 x.2) := by
  rw [perform_frame_eq, queueAll_trace, List.append_assoc]
  exact ⟨_, rfl⟩

variable (host s) in
/-- The frames that an action adds to the history are those it dispatches. -/
theorem dispatchedFrames_perform (a : Action) :
    ∃ t, (perform host a s).trace = s.trace ++ t ∧
      dispatchedFrames t =
        (a.dispatches host s).map fun d ↦ (d.fd, d.cmd, d.payload, d.data) := by
  cases a with
  | frame fd cmd payload =>
    obtain ⟨queued, htrace⟩ := trace_frame host s fd cmd payload
    refine ⟨_, htrace, ?_⟩
    rw [← List.singleton_append, dispatchedFrames_append, dispatchedFrames_queued, List.append_nil]
    rfl
  | disconnect fd =>
    obtain ⟨queued, htrace⟩ := trace_disconnect host s fd
    refine ⟨_, htrace.trans (List.append_assoc _ _ _), ?_⟩
    rw [dispatchedFrames_append, dispatchedFrames_queued]
    rfl
  | receive fd tmp => exact ⟨[], (List.append_nil _).symm, rfl⟩
  | accept fd => exact ⟨_, rfl, rfl⟩
  | write fd n => exact ⟨_, rfl, rfl⟩

theorem served_perform (a : Action) :
    (perform host a s).served = s.served + (a.dispatches host s).length := by
  cases a with
  | frame fd cmd payload =>
    rw [perform_frame_eq, queueAll_served]
    rfl
  | disconnect fd =>
    rw [perform, handleClientDisconnect_eq]
    exact queueAll_served _ _
  | _ => rfl

/-- `served` counts the frames of the history. -/
theorem Reachable.length_dispatchedFrames (h : Reachable host s) :
    (dispatchedFrames s.trace).length = s.served := by
  refine h.induction (P := fun s ↦ (dispatchedFrames s.trace).length = s.served) rfl
    fun {s a} _ ih _ ↦ ?_
  obtain ⟨t, ht, hframes⟩ := dispatchedFrames_perform host s a
  rw [served_perform, ht, dispatchedFrames_append, List.length_append, ih, hframes, List.length_map]

/-- **One step of the history.** -/
theorem Reachable.dispatches_perform (h : Reachable host s) (a : Action) :
    dispatches host (perform host a s).trace = dispatches host s.trace ++ a.dispatches host s := by
  obtain ⟨t, ht, hframes⟩ := dispatchedFrames_perform host s a
  rw [ht]
  cases a with
  | frame fd cmd payload =>
    rw [dispatches_append_frame host hframes, h.length_dispatchedFrames]
    rfl
  | _ => rw [dispatches_append_nil host hframes]; exact (List.append_nil _).symm

/-- Every dispatch of a run happened in a state of the run. -/
theorem Reachable.exists_of_dispatch (h : Reachable host s) {d : Dispatch}
    (hd : d ∈ dispatches host s.trace) :
    ∃ s' fd cmd payload, Reachable host s' ∧ d = ⟨host s'.served, fd, cmd, payload, s'.data⟩ := by
  revert hd
  refine h.induction (P := fun s ↦ d ∈ dispatches host s.trace → _) (fun hd ↦ by cases hd)
    fun {s a} hs ih _ hd ↦ ?_
  rw [hs.dispatches_perform, List.mem_append] at hd
  refine hd.elim ih fun hd ↦ ?_
  cases a with
  | frame fd cmd payload => exact ⟨s, fd, cmd, payload, hs, List.mem_singleton.1 hd⟩
  | _ => cases hd

/-- **Log rule**: a reading of the shared data that starts empty, that logouts leave alone, and to
which a frame adds `f` of its dispatch if `p` holds of it and nothing otherwise, is the log of what
the dispatches added. -/
theorem Reachable.log {β : Type} {g : ServerData → List β} {p : Dispatch → Prop} [DecidablePred p]
    {f : Dispatch → β} (init : g ServerData.init = [])
    (logout : ∀ data fd u, g (logoutData data fd u) = g data)
    (frame : ∀ {s : Server} (fd : Fd) (cmd : UInt16) (payload : List UInt8), Reachable host s →
      let d : Dispatch := ⟨host s.served, fd, cmd, payload, s.data⟩
      g d.outcome.data = g s.data ++ if p d then [f d] else [])
    (h : Reachable host s) : g s.data = ((dispatches host s.trace).filter p).map f := by
  refine h.induction (P := fun s ↦ g s.data = ((dispatches host s.trace).filter p).map f) init
    fun {s a} hs ih _ ↦ ?_
  rw [hs.dispatches_perform, List.filter_append, List.map_append, ← ih]
  cases a with
  | frame fd cmd payload =>
    rw [perform_frame_data]
    refine (frame fd cmd payload hs).trans ?_
    rw [Action.dispatches, List.filter_singleton, Bool.cond_decide]
    split_ifs <;> rfl
  | disconnect fd =>
    rw [perform_disconnect_data]
    refine Eq.trans ?_ (List.append_nil _).symm
    rcases hsession : s.data.sessions[fd]? with - | u
    · rw [handleLogout_data_of_none hsession]
    · rw [handleLogout_data_of_some hsession, logout]
  | _ => exact (List.append_nil _).symm

/-- **Everything answered**: the messages queued to a connection that are no events are the
responses of its dispatches, in order. -/
theorem Reachable.answersOn_eq (h : Reachable host s) (d : Fd) :
    answersOn d s.trace =
      ((dispatches host s.trace).filter fun x ↦ x.fd = d).map fun x ↦ x.response.bytes := by
  refine h.induction (P := fun s ↦ answersOn d s.trace =
    ((dispatches host s.trace).filter fun x ↦ x.fd = d).map fun x ↦ x.response.bytes) rfl
      fun {s a} hs ih ha ↦ ?_
  rw [hs.dispatches_perform, List.filter_append, List.map_append, ← ih]
  cases a with
  | frame fd cmd payload =>
    obtain ⟨c, rest, hc, -⟩ := ha
    rw [answersOn_frame hs.sessionsWf ((IntMap.contains_iff _).2 ⟨c, hc⟩), Action.dispatches,
      List.filter_singleton]
    rcases eq_or_ne fd d with rfl | hd
    · simp [Dispatch.response, Dispatch.outcome]
    · simp [hd]
  | _ =>
    rw [answersOn_quiet hs.sessionsWf (by simp)]
    exact (List.append_nil _).symm

end Server

end MyTeams
