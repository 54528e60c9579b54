import MyTeams.Server.Delivery
import MyTeams.Wire
import Mathlib.Logic.Relation

/-!
# Runs of the server

The poll loop taken apart into **actions**: accepting a connection, appending received bytes to a
buffer, taking one frame off a buffer and dispatching it, losing a connection, writing part of a
send buffer. `pollRound_steps` shows that a poll round is a sequence of enabled actions, so whatever
holds of every `Reachable` state holds between any two actions of every round.

The one assumption on the environment is in `Enabled`: `accept` returns a descriptor that is not
open.
-/

namespace MyTeams

open FrameStream

/-! ### Open descriptors and incarnations -/

/-- A descriptor is open when it was accepted and not closed since. -/
def isOpen (fd : Fd) (trace : List Observation) : Bool :=
  trace.foldl
    (fun isOpen o ↦
      match o with
      | .accepted d => isOpen || d == fd
      | .closed d => isOpen && d != fd
      | _ => isOpen)
    false

/-- The history of a descriptor since it was accepted last. -/
def sinceAccept (fd : Fd) (trace : List Observation) : List Observation :=
  trace.foldl
    (fun since o ↦
      match o with
      | .accepted d => if d = fd then [] else since ++ [o]
      | _ => since ++ [o])
    []

/-- An entry that neither opens nor closes a descriptor. -/
def Observation.Neutral : Observation → Prop
  | .accepted _ | .closed _ => False
  | _ => True

theorem isOpen_append_neutral {fd : Fd} {t t' : List Observation} (h : ∀ o ∈ t', o.Neutral) :
    isOpen fd (t ++ t') = isOpen fd t := by
  rw [isOpen, List.foldl_append, ← isOpen]
  induction t' with
  | nil => rfl
  | cons o t' ih =>
    obtain ⟨ho, ht⟩ := List.forall_mem_cons.1 h
    cases o with
    | accepted d => exact ho.elim
    | closed d => exact ho.elim
    | _ => exact ih ht

@[simp] theorem isOpen_append_accepted (fd d : Fd) (t : List Observation) :
    isOpen fd (t ++ [.accepted d]) = (isOpen fd t || d == fd) := by
  rw [isOpen, List.foldl_append]
  rfl

@[simp] theorem isOpen_append_closed (fd d : Fd) (t : List Observation) :
    isOpen fd (t ++ [.closed d]) = (isOpen fd t && d != fd) := by
  rw [isOpen, List.foldl_append]
  rfl

theorem sinceAccept_append_accepted (fd d : Fd) (t : List Observation) :
    sinceAccept fd (t ++ [.accepted d]) =
      if d = fd then [] else sinceAccept fd t ++ [.accepted d] := by
  rw [sinceAccept, List.foldl_append]
  rfl

theorem sinceAccept_append {fd : Fd} {t t' : List Observation}
    (h : ∀ o ∈ t', o ≠ .accepted fd) : sinceAccept fd (t ++ t') = sinceAccept fd t ++ t' := by
  induction t' using List.reverseRecOn with
  | nil => rw [List.append_nil, List.append_nil]
  | append_singleton t' o ih =>
    have ho := h o (List.mem_append_right _ (List.mem_singleton_self o))
    rw [← List.append_assoc, sinceAccept, List.foldl_append, ← sinceAccept,
      ih fun o' ho' ↦ h o' (List.mem_append_left _ ho')]
    cases o with
    | accepted d =>
      have hd : d ≠ fd := fun hd ↦ ho (hd ▸ rfl)
      simp [hd]
    | _ => simp

namespace Server

variable (host : ℕ → Host)

/-! ### Actions -/

/-- What the server can do next. -/
inductive Action
  /-- `accept` returns a descriptor. -/
  | accept (fd : Fd)
  /-- Bytes arrive in a receive buffer. -/
  | receive (fd : Fd) (tmp : List UInt8)
  /-- A frame is taken off a receive buffer and dispatched. -/
  | frame (fd : Fd) (cmd : UInt16) (payload : List UInt8)
  /-- A connection is lost: end of file, a poll or write error, an oversized frame. -/
  | disconnect (fd : Fd)
  /-- `write` takes bytes from a send buffer. -/
  | write (fd : Fd) (n : ℕ)

/-- The connection an action is about. -/
def Action.fd : Action → Fd
  | .accept fd | .receive fd _ | .frame fd _ _ | .disconnect fd | .write fd _ => fd

/-- The effect of an action. -/
def perform (a : Action) (s : Server) : Server :=
  match a with
  | .accept fd => handleNewConnection fd s
  | .receive fd tmp => s.modifyClient fd fun c ↦ { c with recvBuffer := c.recvBuffer ++ tmp }
  | .frame fd cmd payload =>
    dispatch host fd cmd payload
      (s.modifyClient fd fun c ↦
        { c with recvBuffer := c.recvBuffer.drop (headerSize + payload.length) })
  | .disconnect fd => handleClientDisconnect fd s
  | .write fd n =>
    record (.sent fd ((s.clients[fd]?.getD default).sendBuffer.take n))
      (s.modifyClient fd fun c ↦ { c with sendBuffer := c.sendBuffer.drop n })

/-- When an action can happen. -/
def Enabled (s : Server) : Action → Prop
  | .accept fd => isOpen fd s.trace = false
  | .receive fd tmp => s.clients.contains fd ∧ tmp ≠ []
  | .frame fd cmd payload =>
    ∃ c rest, s.clients[fd]? = some c ∧
      serverCodec.scan c.recvBuffer = .frame (cmd, payload) rest
  | .disconnect fd => s.clients.contains fd
  | .write fd _ => s.clients.contains fd

/-- One action. -/
def Step (s s' : Server) : Prop := ∃ a, s.Enabled a ∧ s' = perform host a s

/-- One action about the connection `fd`. -/
def StepOn (fd : Fd) (s s' : Server) : Prop := ∃ a, a.fd = fd ∧ s.Enabled a ∧ s' = perform host a s

/-- Actions about the connection `fd`, one after the other. -/
abbrev StepsOn (fd : Fd) : Server → Server → Prop := Relation.ReflTransGen (StepOn host fd)

/-- A run. -/
abbrev Steps : Server → Server → Prop := Relation.ReflTransGen (Step host)

/-- The states of all runs from the empty server. -/
def Reachable (s : Server) : Prop := Steps host Server.init s

variable {host}

theorem Reachable.init : Reachable host Server.init := Relation.ReflTransGen.refl

theorem Reachable.step {s : Server} (h : Reachable host s) {a : Action} (ha : s.Enabled a) :
    Reachable host (perform host a s) :=
  Relation.ReflTransGen.tail h ⟨a, ha, rfl⟩

theorem Reachable.steps {s s' : Server} (h : Reachable host s) (hs : Steps host s s') :
    Reachable host s' :=
  Relation.ReflTransGen.trans h hs

/-- **Invariant rule**: what holds of the empty server and is kept by every enabled action of a
reachable state holds of every reachable state. -/
theorem Reachable.induction {P : Server → Prop} (init : P Server.init)
    (step : ∀ {s a}, Reachable host s → P s → s.Enabled a → P (perform host a s)) {s : Server}
    (h : Reachable host s) : P s := by
  induction h with
  | refl => exact init
  | tail hs h ih =>
    obtain ⟨a, ha, rfl⟩ := h
    exact step hs ih ha

theorem StepsOn.steps {fd : Fd} {s s' : Server} (h : StepsOn host fd s s') : Steps host s s' :=
  Relation.ReflTransGen.mono (fun _ _ ⟨a, _, ha, hs⟩ ↦ ⟨a, ha, hs⟩) _ _ h

/-! ### Concrete runs -/

/-- Whether a buffer starts with the given frame. -/
def startsWithFrame (buf : List UInt8) (f : Frame) : Bool :=
  match serverCodec.scan buf with
  | .frame f' _ => f' == f
  | _ => false

theorem startsWithFrame_iff {buf : List UInt8} {f : Frame} :
    startsWithFrame buf f = true ↔ ∃ rest, serverCodec.scan buf = .frame f rest := by
  rw [startsWithFrame]
  cases serverCodec.scan buf with
  | frame f' rest => simp
  | _ => simp

instance (s : Server) (a : Action) : Decidable (s.Enabled a) :=
  match a with
  | .accept fd => inferInstanceAs (Decidable (isOpen fd s.trace = false))
  | .receive fd tmp => inferInstanceAs (Decidable (s.clients.contains fd ∧ tmp ≠ []))
  | .frame fd cmd payload =>
    decidable_of_iff (∃ c ∈ s.clients[fd]?, startsWithFrame c.recvBuffer (cmd, payload)) <| by
      simp only [startsWithFrame_iff, Enabled, Option.mem_def, exists_and_left]
  | .disconnect fd => inferInstanceAs (Decidable (s.clients.contains fd = true))
  | .write fd _ => inferInstanceAs (Decidable (s.clients.contains fd = true))

/-- The state after a list of actions. -/
def execute (host : ℕ → Host) (as : List Action) (s : Server) : Server :=
  as.foldl (fun s a ↦ perform host a s) s

/-- Each action of a list is enabled when its turn comes. -/
def Executable (host : ℕ → Host) : List Action → Server → Prop
  | [], _ => True
  | a :: as, s => s.Enabled a ∧ Executable host as (perform host a s)

instance (host : ℕ → Host) : ∀ (as : List Action) (s : Server), Decidable (Executable host as s)
  | [], _ => instDecidableTrue
  | a :: as, s =>
    have := instDecidableExecutable host as (perform host a s)
    inferInstanceAs (Decidable (s.Enabled a ∧ Executable host as (perform host a s)))

/-- A list of actions is a run of any relation that holds of each of its steps. -/
theorem reflTransGen_execute {R : Server → Server → Prop} {as : List Action} {s : Server}
    (h : Executable host as s)
    (step : ∀ {s : Server}, ∀ a ∈ as, s.Enabled a → R s (perform host a s)) :
    Relation.ReflTransGen R s (execute host as s) := by
  induction as generalizing s with
  | nil => exact .refl
  | cons a as ih =>
    exact .head (step a List.mem_cons_self h.1)
      (ih h.2 fun b hb ↦ step b (List.mem_cons_of_mem a hb))

theorem steps_execute {as : List Action} {s : Server} (h : Executable host as s) :
    Steps host s (execute host as s) :=
  reflTransGen_execute h fun a _ ha ↦ ⟨a, ha, rfl⟩

theorem reachable_execute {as : List Action} (h : Executable host as Server.init) :
    Reachable host (execute host as Server.init) :=
  steps_execute h

theorem execute_append (as bs : List Action) (s : Server) :
    execute host (as ++ bs) s = execute host bs (execute host as s) :=
  List.foldl_append

theorem executable_append {as bs : List Action} {s : Server} :
    Executable host (as ++ bs) s ↔ Executable host as s ∧
      Executable host bs (execute host as s) := by
  induction as generalizing s with
  | nil => exact ⟨fun h ↦ ⟨trivial, h⟩, fun h ↦ h.2⟩
  | cons a as ih =>
    rw [List.cons_append, Executable, Executable, ih, and_assoc]
    rfl

/-- The actions that bring a frame in and dispatch it. -/
def request (fd : Fd) (cmd : Command) (payload : List UInt8) : List Action :=
  [.receive fd (makeMessage cmd.code payload), .frame fd cmd.code payload]

/-- A uuid of one repeated character. -/
def plainUuid (n : ℕ) : Uuid where
  bytes := List.Vector.replicate 36 (UInt8.ofNat (n % 255 + 1))
  nonzero h := by
    have hzero : 0 = UInt8.ofNat (n % 255 + 1) := List.eq_of_mem_replicate h
    have hnat := congrArg UInt8.toNat hzero
    rw [UInt8.toNat_ofNat_of_lt' (by have : UInt8.size = 256 := rfl; omega)] at hnat
    cases hnat

/-- An environment whose uuids differ for the first 255 frames, and whose clock stands still. -/
def plainHost (n : ℕ) : Host := ⟨plainUuid n, 0⟩

/-! ### Which clients there are -/

theorem dispatch_eq_queueAll (fd : Fd) (cmd : UInt16) (payload : List UInt8) (s : Server) :
    dispatch host fd cmd payload s =
      queueAll ((frameOutcome (host s.served) fd cmd payload s.data).result.sends fd)
        { s with
          data := (frameOutcome (host s.served) fd cmd payload s.data).data
          served := s.served + 1
          trace := s.trace ++ [.dispatched fd cmd payload s.data] } := by
  rw [dispatch_eq, sendResult_eq]

theorem contains_dispatch (fd : Fd) (cmd : UInt16) (payload : List UInt8) (s : Server) (d : Fd) :
    (dispatch host fd cmd payload s).clients.contains d = s.clients.contains d := by
  rw [dispatch_eq_queueAll, contains_queueAll]

theorem contains_frame {fd : Fd} {s : Server} (h : s.clients.contains fd = true) (cmd : UInt16)
    (payload : List UInt8) (d : Fd) :
    (perform host (.frame fd cmd payload) s).clients.contains d = s.clients.contains d := by
  rw [perform, contains_dispatch, contains_modifyClient h]

/-! ### The receive loop -/

/-- One round of the receive loop looks at the front of the buffer once. -/
theorem processRecvLoop_succ {fd : Fd} {n : ℕ} {s : Server} {c : ClientState}
    (h : s.clients[fd]? = some c) :
    processRecvLoop host fd (n + 1) s =
      match serverCodec.scan c.recvBuffer with
      | .more => s
      | .refuse => handleClientDisconnect fd s
      | .frame f _ => processRecvLoop host fd n (perform host (.frame fd f.1 f.2) s) := by
  have hmem : s.clients.contains fd = true := (IntMap.contains_iff _).2 ⟨c, h⟩
  have hlimit : (65535 : UInt32).toNat = 65535 := rfl
  show _ = match scanHeader 65535 c.recvBuffer with
    | .more => s
    | .refuse => handleClientDisconnect fd s
    | .frame f _ => processRecvLoop host fd n (perform host (.frame fd f.1 f.2) s)
  rw [processRecvLoop, h, Option.getD_some, scanHeader, hlimit]
  -- the three tests of the loop are those of `scanHeader`, in the same order
  by_cases hheader : c.recvBuffer.length < headerSize
  · rw [if_pos hheader, if_pos hheader]
  rw [if_neg hheader, if_neg hheader]
  by_cases hbig : headerPayloadSize c.recvBuffer > 65535
  · rw [if_pos hbig]
    exact if_pos hbig
  rw [if_neg hbig]
  by_cases hpart : c.recvBuffer.length < headerSize + headerPayloadSize c.recvBuffer
  · rw [if_pos hpart]
    exact (if_neg hbig).trans (if_pos hpart)
  rw [if_neg hpart]
  have hpayload : ((c.recvBuffer.drop headerSize).take (headerPayloadSize c.recvBuffer)).length =
      headerPayloadSize c.recvBuffer := by
    rw [List.length_take, List.length_drop]
    omega
  have hframe : (perform host (.frame fd (headerCode c.recvBuffer)
      ((c.recvBuffer.drop headerSize).take (headerPayloadSize c.recvBuffer)))
        s).clients.contains fd = s.clients.contains fd :=
    contains_frame hmem _ _ fd
  rw [hmem, perform, hpayload] at hframe
  dsimp only
  rw [perform, hpayload]
  exact (if_neg hbig).trans ((if_neg hpart).trans (if_pos hframe))

/-- The receive loop is a sequence of frames, possibly ended by a disconnection. -/
theorem processRecvLoop_steps {fd : Fd} {n : ℕ} {s : Server} (h : s.clients.contains fd = true) :
    StepsOn host fd s (processRecvLoop host fd n s) := by
  induction n generalizing s with
  | zero => exact .refl
  | succ n ih =>
    obtain ⟨c, hc⟩ := (IntMap.contains_iff _).1 h
    rw [processRecvLoop_succ hc]
    rcases hscan : serverCodec.scan c.recvBuffer with - | - | ⟨f, rest⟩
    · exact .refl
    · exact .single ⟨.disconnect fd, rfl, h, rfl⟩
    · exact .head ⟨.frame fd f.1 f.2, rfl, ⟨c, rest, hc, hscan⟩, rfl⟩
        (ih ((contains_frame h _ _ _).trans h))

/-! ### The poll loop -/

theorem handleClientRead_steps {fd : Fd} {tmp : List UInt8} {s : Server}
    (h : s.clients.contains fd = true) : StepsOn host fd s (handleClientRead host fd tmp s) := by
  rw [handleClientRead]
  split_ifs with htmp
  · exact .single ⟨.disconnect fd, rfl, h, rfl⟩
  · have hreceive := contains_modifyClient h
      (fun c ↦ { c with recvBuffer := c.recvBuffer ++ tmp }) fd
    rw [processRecvBuffer, modifyClient_id (hreceive.trans h)]
    exact .head ⟨.receive fd tmp, rfl, ⟨h, by simpa using htmp⟩, rfl⟩
      (processRecvLoop_steps (hreceive.trans h))

theorem handleClientWrite_steps {fd : Fd} {written : Option ℕ} {s : Server}
    (h : s.clients.contains fd = true) : StepsOn host fd s (handleClientWrite fd written s) := by
  simp only [handleClientWrite, modifyClient_id h]
  split_ifs
  · exact .refl
  · cases written with
    | none => exact .single ⟨.disconnect fd, rfl, h, rfl⟩
    | some n => exact .single ⟨.write fd n, rfl, h, rfl⟩

theorem serveClient_steps {fd : Fd} {ev : Revents} {s : Server} :
    StepsOn host fd s (serveClient host fd ev s) := by
  rw [serveClient]
  cases hmem : s.clients.contains fd with
  | false => exact .refl
  | true =>
    have hread : StepsOn host fd s (serveInput host fd ev.input s) := by
      cases ev.input with
      | none => exact .refl
      | some tmp => exact handleClientRead_steps hmem
    simp only [Bool.not_true, Bool.false_eq_true, if_false]
    split_ifs with herror hgone
    · exact .single ⟨.disconnect fd, rfl, hmem, rfl⟩
    · exact hread
    · cases ev.output with
      | none => exact hread
      | some written => exact hread.trans (handleClientWrite_steps (by simpa using hgone))

/-- **A poll round is a sequence of actions.** -/
theorem pollRound_steps {accepted : Option Fd} {ready : List (Fd × Revents)} {s : Server}
    (haccept : ∀ fd, accepted = some fd → isOpen fd s.trace = false) :
    Steps host s (pollRound host accepted ready s) := by
  have hready (s : Server) :
      Steps host s (ready.foldl (fun s e ↦ serveClient host e.1 e.2 s) s) := by
    induction ready generalizing s with
    | nil => exact .refl
    | cons e ready ih => exact serveClient_steps.steps.trans (ih _)
  cases accepted with
  | none => exact hready s
  | some fd => exact .head ⟨.accept fd, haccept fd rfl, rfl⟩ (hready _)

/-- The states between the rounds of `Server::run`. -/
inductive RoundReachable (host : ℕ → Host) : Server → Prop
  | init : RoundReachable host Server.init
  | round {s : Server} {accepted : Option Fd} {ready : List (Fd × Revents)}
    (hs : RoundReachable host s) (haccept : ∀ fd, accepted = some fd → isOpen fd s.trace = false) :
    RoundReachable host (pollRound host accepted ready s)

theorem RoundReachable.reachable {s : Server} (h : RoundReachable host s) : Reachable host s := by
  induction h with
  | init => exact Reachable.init
  | round _ haccept ih => exact Relation.ReflTransGen.trans ih (pollRound_steps haccept)

end Server

end MyTeams
