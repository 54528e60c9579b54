import MyTeams.Lib.Lockstep
import MyTeams.Server.Registry

/-!
# Runs on inputs

Everything that reaches the server from outside comes through `accept` and `poll`: an `Input` is a
descriptor that `accept` returned, or what `poll` reported of one descriptor with what the system
calls returned. A poll round is a list of inputs (`pollRound_eq`), and so is a run.

`actions` lists what the server does with a list of inputs, one action after the other. It is
computed from the run itself, so it depends on nothing but the state and the inputs; statements
about all the points of a run are about the prefixes of this list.
-/

namespace MyTeams

open FrameStream

/-- What the poll loop is given next. -/
inductive Input
  /-- `accept` returned a descriptor. -/
  | accept (fd : Fd)
  /-- `poll` reported a descriptor. -/
  | client (fd : Fd) (ev : Revents)

/-- The descriptor an input is about. -/
def Input.fd : Input → Fd
  | .accept fd | .client fd _ => fd

namespace Server

variable (host : ℕ → Host)

/-- The loop given one input. -/
def feed (i : Input) (s : Server) : Server :=
  match i with
  | .accept fd => handleNewConnection fd s
  | .client fd ev => serveClient host fd ev s

/-- The loop given a list of inputs. -/
def feedAll (is : List Input) (s : Server) : Server := is.foldl (fun s i ↦ feed host i s) s

/-- **A poll round is a list of inputs.** -/
theorem pollRound_eq (accepted : Option Fd) (ready : List (Fd × Revents)) (s : Server) :
    pollRound host accepted ready s =
      feedAll host (accepted.toList.map Input.accept ++ ready.map fun e ↦ .client e.1 e.2) s := by
  rw [feedAll, List.foldl_append, List.foldl_map]
  cases accepted <;> rfl

/-- `accept` never returns a descriptor that is open. -/
def Admissible : List Input → Server → Prop
  | [], _ => True
  | i :: is, s => (∀ fd, i = .accept fd → isOpen fd s.trace = false) ∧ Admissible is (feed host i s)

instance : ∀ (is : List Input) (s : Server), Decidable (Admissible host is s)
  | [], _ => instDecidableTrue
  | .accept fd :: is, s =>
    have := instDecidableAdmissible is (feed host (.accept fd) s)
    decidable_of_iff
      (isOpen fd s.trace = false ∧ Admissible host is (feed host (.accept fd) s)) <| by
      simp [Admissible]
  | .client fd ev :: is, s =>
    have := instDecidableAdmissible is (feed host (.client fd ev) s)
    decidable_of_iff (Admissible host is (feed host (.client fd ev) s)) <| by simp [Admissible]

/-! ### The actions of a run -/

/-- What a connection has received and not consumed. -/
def received? (fd : Fd) (s : Server) : List UInt8 := (s.clients[fd]?.getD default).recvBuffer

/-- What is queued to a connection and not sent. -/
def unsent (fd : Fd) (s : Server) : List UInt8 := (s.clients[fd]?.getD default).sendBuffer

/-- The actions of the receive loop, with at most `n` rounds. -/
def loopActions (fd : Fd) : ℕ → Server → List Action
  | 0, _ => []
  | n + 1, s =>
    match serverCodec.scan (received? fd s) with
    | .more => []
    | .refuse => [.disconnect fd]
    | .frame f _ => .frame fd f.1 f.2 :: loopActions fd n (perform host (.frame fd f.1 f.2) s)

/-- The actions of `_handle_client_read`. -/
def readActions (fd : Fd) (tmp : List UInt8) (s : Server) : List Action :=
  if tmp.isEmpty then [.disconnect fd]
  else
    .receive fd tmp ::
      loopActions host fd ((received? fd s ++ tmp).length + 1) (perform host (.receive fd tmp) s)

/-- The actions of `_handle_client_write`. -/
def writeActions (fd : Fd) (written : Option ℕ) (s : Server) : List Action :=
  if (unsent fd s).isEmpty then []
  else
    match written with
    | none => [.disconnect fd]
    | some n => [.write fd n]

/-- The actions of the `POLLIN` branch. -/
def inputActions (fd : Fd) (input : Option (List UInt8)) (s : Server) : List Action :=
  match input with
  | some tmp => readActions host fd tmp s
  | none => []

/-- The actions of the `POLLOUT` branch. -/
def outputActions (fd : Fd) (output : Option (Option ℕ)) (s : Server) : List Action :=
  match output with
  | some written => writeActions fd written s
  | none => []

/-- The actions of the body of the loop over `pollfds`. -/
def clientActions (fd : Fd) (ev : Revents) (s : Server) : List Action :=
  if !s.clients.contains fd then []
  else if ev.error then [.disconnect fd]
  else
    let as := inputActions host fd ev.input s
    let s := execute host as s
    as ++ if !s.clients.contains fd then [] else outputActions fd ev.output s

/-- The actions of one input. -/
def actionsOf (i : Input) (s : Server) : List Action :=
  match i with
  | .accept fd => [.accept fd]
  | .client fd ev => clientActions host fd ev s

/-- The actions of a list of inputs. -/
def actions : List Input → Server → List Action
  | [], _ => []
  | i :: is, s => actionsOf host i s ++ actions is (feed host i s)

/-- The server after the first `k` actions of a run on inputs. -/
def stateAt (is : List Input) (k : ℕ) : Server :=
  execute host ((actions host is Server.init).take k) Server.init

/-- Nothing happens after the last action. -/
theorem stateAt_of_le {is : List Input} {k : ℕ} (h : (actions host is Server.init).length ≤ k) :
    stateAt host is k = stateAt host is (actions host is Server.init).length := by
  rw [stateAt, stateAt, List.take_of_length_le h, List.take_length]

variable {host} in
theorem actions_append (is js : List Input) (s : Server) :
    actions host (is ++ js) s = actions host is s ++ actions host js (feedAll host is s) := by
  induction is generalizing s with
  | nil => rfl
  | cons i is ih =>
    rw [List.cons_append, actions, actions, ih, List.append_assoc]
    rfl

variable {host} in
theorem admissible_append {is js : List Input} {s : Server} :
    Admissible host (is ++ js) s ↔ Admissible host is s ∧
      Admissible host js (feedAll host is s) := by
  induction is generalizing s with
  | nil => exact (true_and _).symm.to_iff
  | cons i is ih =>
    rw [List.cons_append, Admissible, Admissible, ih, and_assoc]
    rfl

section Subjects

variable {host} {fd : Fd} {s : Server} {a : Action}

theorem fd_of_mem_loopActions {n : ℕ} (h : a ∈ loopActions host fd n s) : a.fd = fd := by
  induction n generalizing s with
  | zero => cases h
  | succ n ih =>
    rw [loopActions] at h
    rcases hscan : serverCodec.scan (received? fd s) with - | - | ⟨f, rest⟩ <;> rw [hscan] at h
    · cases h
    · rw [List.mem_singleton.1 h]
      rfl
    · rcases List.mem_cons.1 h with rfl | h
      · rfl
      · exact ih h

theorem fd_of_mem_inputActions {input : Option (List UInt8)}
    (h : a ∈ inputActions host fd input s) :
    a.fd = fd := by
  rcases input with - | tmp
  · cases h
  · rw [inputActions, readActions] at h
    split_ifs at h
    · rw [List.mem_singleton.1 h]
      rfl
    · rcases List.mem_cons.1 h with rfl | h
      · rfl
      · exact fd_of_mem_loopActions h

theorem fd_of_mem_outputActions {output : Option (Option ℕ)} (h : a ∈ outputActions fd output s) :
    a.fd = fd := by
  rcases output with - | written
  · cases h
  · rw [outputActions, writeActions.eq_def] at h
    split_ifs at h
    · cases h
    · cases written with
      | none => rw [List.mem_singleton.1 h]; rfl
      | some n => rw [List.mem_singleton.1 h]; rfl

/-- What is done with an input is about its descriptor. -/
theorem fd_of_mem_clientActions {ev : Revents} (h : a ∈ clientActions host fd ev s) :
    a.fd = fd := by
  rw [clientActions] at h
  split_ifs at h
  · cases h
  · rw [List.mem_singleton.1 h]
    rfl
  · rcases List.mem_append.1 h with h | h
    · exact fd_of_mem_inputActions h
    · split_ifs at h
      · cases h
      · exact fd_of_mem_outputActions h

theorem fd_of_mem_actionsOf {i : Input} (h : a ∈ actionsOf host i s) : a.fd = i.fd := by
  rcases i with fd | ⟨fd, ev⟩
  · rw [List.mem_singleton.1 h]
    rfl
  · exact fd_of_mem_clientActions h

end Subjects

section Execution

variable {host} {fd : Fd} {s : Server}

theorem execute_loopActions {n : ℕ} (h : s.clients.contains fd = true) :
    execute host (loopActions host fd n s) s = processRecvLoop host fd n s ∧
      Executable host (loopActions host fd n s) s := by
  induction n generalizing s with
  | zero => exact ⟨rfl, trivial⟩
  | succ n ih =>
    obtain ⟨c, hc⟩ := (IntMap.contains_iff _).1 h
    have hbuf : received? fd s = c.recvBuffer := by rw [received?, hc, Option.getD_some]
    rw [processRecvLoop_succ hc, loopActions, hbuf]
    rcases hscan : serverCodec.scan c.recvBuffer with - | - | ⟨f, rest⟩
    · exact ⟨rfl, trivial⟩
    · exact ⟨rfl, h, trivial⟩
    · obtain ⟨hexecute, hexecutable⟩ := ih ((contains_frame h f.1 f.2 fd).trans h)
      exact ⟨hexecute, ⟨c, rest, hc, hscan⟩, hexecutable⟩

theorem received_receive (h : s.clients.contains fd = true) (tmp : List UInt8) :
    received? fd (perform host (.receive fd tmp) s) = received? fd s ++ tmp := by
  obtain ⟨c, hc⟩ := (IntMap.contains_iff _).1 h
  rw [perform, received?, get_modifyClient_self hc, received?, hc]
  rfl

theorem execute_inputActions {input : Option (List UInt8)} (h : s.clients.contains fd = true) :
    execute host (inputActions host fd input s) s = serveInput host fd input s ∧
      Executable host (inputActions host fd input s) s := by
  cases input with
  | none => exact ⟨rfl, trivial⟩
  | some tmp =>
    rw [inputActions, readActions, serveInput, handleClientRead]
    split_ifs with htmp
    · exact ⟨rfl, h, trivial⟩
    · have hreceive := contains_modifyClient h
        (fun c ↦ { c with recvBuffer := c.recvBuffer ++ tmp }) fd
      have hbuf := @received_receive host fd s h tmp
      obtain ⟨hexecute, hexecutable⟩ := @execute_loopActions host fd
        (perform host (.receive fd tmp) s) ((received? fd s ++ tmp).length + 1) (hreceive.trans h)
      refine ⟨?_, ⟨h, by simpa using htmp⟩, hexecutable⟩
      rw [processRecvBuffer, modifyClient_id (hreceive.trans h)]
      exact hexecute.trans (by rw [← hbuf]; rfl)

theorem execute_outputActions {output : Option (Option ℕ)} (h : s.clients.contains fd = true) :
    execute host (outputActions fd output s) s = serveOutput fd output s ∧
      Executable host (outputActions fd output s) s := by
  rcases output with - | written
  · exact ⟨rfl, trivial⟩
  · have hserve : serveOutput fd (some written) s =
        if (unsent fd s).isEmpty then s
        else
          match written with
          | none => handleClientDisconnect fd s
          | some n => perform host (.write fd n) s := by
      simp only [serveOutput, handleClientWrite, modifyClient_id h]
      rfl
    rw [hserve, outputActions, writeActions.eq_def]
    by_cases hempty : (unsent fd s).isEmpty = true
    · rw [if_pos hempty, if_pos hempty]
      exact ⟨rfl, trivial⟩
    · rw [if_neg hempty, if_neg hempty]
      cases written with
      | none => exact ⟨rfl, h, trivial⟩
      | some n => exact ⟨rfl, h, trivial⟩

theorem execute_clientActions (fd : Fd) (ev : Revents) (s : Server) :
    execute host (clientActions host fd ev s) s = serveClient host fd ev s ∧
      Executable host (clientActions host fd ev s) s := by
  rw [clientActions, serveClient]
  cases h : s.clients.contains fd with
  | false => exact ⟨rfl, trivial⟩
  | true =>
    obtain ⟨hinput, hexecutable⟩ := @execute_inputActions host fd s ev.input h
    simp only [Bool.not_true, Bool.false_eq_true, if_false, hinput]
    split_ifs with herror hgone
    · exact ⟨rfl, h, trivial⟩
    · rw [List.append_nil]
      exact ⟨hinput, hexecutable⟩
    · have hstill : (serveInput host fd ev.input s).clients.contains fd = true := by
        simpa using hgone
      obtain ⟨houtput, hexecutable'⟩ := @execute_outputActions host fd _ ev.output hstill
      rw [execute_append, executable_append, hinput]
      exact ⟨houtput, hexecutable, hexecutable'⟩

theorem execute_actions (i : Input) (s : Server) :
    execute host (actionsOf host i s) s = feed host i s := by
  cases i with
  | accept fd => rfl
  | client fd ev => exact (execute_clientActions fd ev s).1

theorem executable_actions {i : Input} {s : Server}
    (h : ∀ fd, i = .accept fd → isOpen fd s.trace = false) :
    Executable host (actionsOf host i s) s := by
  cases i with
  | accept fd => exact ⟨h fd rfl, trivial⟩
  | client fd ev => exact (execute_clientActions fd ev s).2

/-- **A run on inputs is the run of its actions.** -/
theorem execute_allActions (is : List Input) (s : Server) :
    execute host (actions host is s) s = feedAll host is s := by
  induction is generalizing s with
  | nil => rfl
  | cons i is ih =>
    rw [actions, execute_append, execute_actions, ih]
    rfl

theorem run_actions (is : List Input) (s : Server) :
    Lockstep.run (perform host) (actions host is s) s = feedAll host is s :=
  execute_allActions is s

theorem executable_allActions {is : List Input} {s : Server} (h : Admissible host is s) :
    Executable host (actions host is s) s := by
  induction is generalizing s with
  | nil => trivial
  | cons i is ih =>
    rw [actions, executable_append, execute_actions]
    exact ⟨executable_actions h.1, ih h.2⟩

theorem Reachable.feed {s : Server} (hs : Reachable host s) {i : Input}
    (h : ∀ fd, i = .accept fd → isOpen fd s.trace = false) : Reachable host (feed host i s) := by
  rw [← execute_actions]
  exact hs.steps (steps_execute (executable_actions h))

theorem Reachable.feedAll {s : Server} (hs : Reachable host s) {is : List Input}
    (h : Admissible host is s) : Reachable host (feedAll host is s) := by
  rw [← execute_allActions]
  exact hs.steps (steps_execute (executable_allActions h))

theorem reachable_feedAll {is : List Input} (h : Admissible host is Server.init) :
    Reachable host (feedAll host is Server.init) :=
  Reachable.init.feedAll h

end Execution

end Server

end MyTeams
