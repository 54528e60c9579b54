import MyTeams.Client.Loop
import MyTeams.Net
import MyTeams.Server.Capacity
import MyTeams.Server.Loop

/-!
# The loops together

The network whose server and clients run their loops: a `Turn` is one turn of the loop of a client,
or one round of the server. A turn is a list of moves of the network (`Turn.moves`), each of which
can happen when its turn comes (`executable_moves`), so what holds along the runs of the network
holds along those of the loops. And as long as the server has dispatched at most `capacity` frames
every list fits (`steps_of_served_le`), so for a run of the loops nothing has to be assumed about
sizes on the way.

These runs are more than the real ones: a client may take a turn although its `_running` is false,
so it goes on where `run` has returned, and it closes its socket only as far as a turn of the server
finds the connection broken. What is proved of all of them holds of the real ones.
-/

namespace MyTeams

open FirstMatch FrameStream Server

/-- A turn of a loop that `poll` has woken up. -/
inductive Turn
  /-- Of the client with index `i`, also when its `run` has returned: it is typed `stdin`, if
  anything, and reads up to `n` bytes, if anything. -/
  | client (i : ℕ) (stdin : Option Str) (output : Bool) (n : Option ℕ)
  /-- Of the server. -/
  | server (accepted : Option Fd) (revents : Fd → Revents)

namespace Net

variable (host : ℕ → Host) (io : ℕ → Option ℕ)

/-- What happens in a turn, step by step. -/
def moves (N : Net) : Turn → List NetMove
  | .client i stdin output n =>
    stdin.toList.map (.type i) ++ (if output then [.flush i] else []) ++ n.toList.map (.read i)
  | .server accepted revents =>
    (actions host (roundInputs accepted revents N.server) N.server).map .act

/-- What holds of the outside when a turn is taken: `accept` returns no open descriptor, and what
the server reads from a connection is the front of its channel. -/
def Takes (N : Net) : Turn → Prop
  | .client _ _ _ _ => True
  | .server accepted revents =>
    (∀ fd ∈ accepted, isOpen fd N.server.trace = false) ∧
      ∀ p ∈ N.peers, p.connected → ∀ tmp ∈ (revents p.fd).input, tmp <+: p.up

instance (N : Net) (t : Turn) : Decidable (N.Takes t) :=
  match t with
  | .client _ _ _ _ => instDecidableTrue
  | .server accepted revents => inferInstanceAs (Decidable
      ((∀ fd ∈ accepted, isOpen fd N.server.trace = false) ∧
        ∀ p ∈ N.peers, p.connected → ∀ tmp ∈ (revents p.fd).input, tmp <+: p.up))

/-- The effect of a turn. There is no guard on `_running`. -/
def take (t : Turn) (N : Net) : Net := N.execute host io (N.moves host t)

variable {host io} {N : Net}

/-! ### What the server reads in a round -/

theorem readsFrom_of_mem_loopActions {fd : Fd} {n : ℕ} {s : Server} {a : Action}
    (h : a ∈ loopActions host fd n s) (d : Fd) : a.readsFrom d = [] := by
  induction n generalizing s with
  | zero => cases h
  | succ n ih =>
    rw [loopActions] at h
    rcases hscan : serverCodec.scan (received? fd s) with - | - | ⟨f, rest⟩ <;> rw [hscan] at h
    · cases h
    · rw [List.mem_singleton.1 h]
      rfl
    · rcases List.mem_cons.1 h with rfl | h
      · rfl
      · exact ih h

theorem readsFrom_of_mem_outputActions {fd : Fd} {output : Option (Option ℕ)} {s : Server}
    {a : Action} (h : a ∈ outputActions fd output s) (d : Fd) : a.readsFrom d = [] := by
  rcases output with - | written
  · cases h
  · rw [outputActions, writeActions.eq_def] at h
    split_ifs at h
    · cases h
    · cases written with
      | none => rw [List.mem_singleton.1 h]; rfl
      | some n => rw [List.mem_singleton.1 h]; rfl

/-- None of the actions reads. -/
def Reads.Nothing (as : List Action) : Prop := ∀ a ∈ as, ∀ d, a.readsFrom d = []

variable (host) in
/-- Of the actions of an input, the first at most reads, and it reads what `read` delivered. -/
theorem clientActions_cases (fd : Fd) (ev : Revents) (s : Server) :
    Reads.Nothing (clientActions host fd ev s) ∨
      ∃ tmp rest, tmp ∈ ev.input ∧ clientActions host fd ev s = .receive fd tmp :: rest ∧
        Reads.Nothing rest := by
  have hdisconnect : Reads.Nothing [.disconnect fd] := fun a ha _ ↦ by
    rw [List.mem_singleton.1 ha]
    rfl
  have houtput {s s' : Server} :
      Reads.Nothing (if !s.clients.contains fd then [] else outputActions fd ev.output s') := by
    intro a ha
    split_ifs at ha
    · cases ha
    · exact readsFrom_of_mem_outputActions ha
  have happend {as bs : List Action} (has : Reads.Nothing as) (hbs : Reads.Nothing bs) :
      Reads.Nothing (as ++ bs) := fun a ha ↦ (List.mem_append.1 ha).elim (has a) (hbs a)
  by_cases hmem : (!s.clients.contains fd) = true
  · rw [clientActions, if_pos hmem]
    exact .inl fun a ha ↦ absurd ha List.not_mem_nil
  by_cases herror : ev.error = true
  · rw [clientActions, if_neg hmem, if_pos herror]
    exact .inl hdisconnect
  obtain ⟨tail, htail, heq⟩ : ∃ tail, Reads.Nothing tail ∧
      clientActions host fd ev s = inputActions host fd ev.input s ++ tail :=
    ⟨_, houtput, by rw [clientActions, if_neg hmem, if_neg herror]⟩
  rw [heq]
  cases hinput : ev.input with
  | none => exact .inl htail
  | some tmp =>
    rw [inputActions, readActions]
    split_ifs with hempty
    · exact .inl (happend hdisconnect htail)
    · refine .inr ⟨tmp, _, rfl, List.cons_append, happend ?_ htail⟩
      exact fun a ha ↦ readsFrom_of_mem_loopActions ha

/-! ### Actions one after the other -/

theorem executable_append {allowed : Net → NetMove → Prop} {ms ms' : List NetMove} :
    Executable host io allowed (ms ++ ms') N ↔
      Executable host io allowed ms N ∧ Executable host io allowed ms' (N.execute host io ms) := by
  induction ms generalizing N with
  | nil => exact (true_and _).symm.to_iff
  | cons m ms ih =>
    rw [List.cons_append, Executable, Executable, ih, and_assoc, and_assoc]
    rfl

theorem server_execute (as : List Action) :
    (N.execute host io (as.map .act)).server = Server.execute host as N.server := by
  induction as generalizing N with
  | nil => rfl
  | cons a as ih => exact ih

/-- Actions that read nothing. -/
theorem executable_acts {as : List Action} (h : Server.Executable host as N.server)
    (hreads : Reads.Nothing as) :
    Executable host io (fun _ _ ↦ True) (as.map .act) N := by
  induction as generalizing N with
  | nil => trivial
  | cons a as ih =>
    refine ⟨⟨h.1, fun p _ _ ↦ ?_⟩, trivial, ih h.2 fun b hb ↦ hreads b (List.mem_cons_of_mem a hb)⟩
    rw [hreads a List.mem_cons_self]
    exact List.nil_prefix

/-- What an action does not concern stays as it is. -/
theorem peer_of_act {a : Action} {q : Peer} (hq : q ∈ (N.move host io (.act a)).peers)
    (hne : a.fd ≠ q.fd) :
    ∃ p ∈ N.peers, p.fd = q.fd ∧ (q.connected = true → p.connected = true) ∧ q.up = p.up := by
  rcases List.mem_append.1 hq with hq | hq
  · obtain ⟨p, hp, rfl⟩ := List.mem_map.1 hq
    rw [Peer.fd_serve] at hne
    refine ⟨p, hp, (Peer.fd_serve host N.server a p).symm, ?_⟩
    rw [Peer.serve]
    split_ifs with hconnected
    · refine ⟨fun _ ↦ hconnected, ?_⟩
      rw [(System.quiet_of_ne hne N.server.data).1]
      rfl
    · exact ⟨id, rfl⟩
  · obtain ⟨fd, rfl, rfl⟩ := mem_accepted.1 hq
    exact absurd rfl hne

theorem peer_of_acts {as : List Action} {q : Peer}
    (hq : q ∈ (N.execute host io (as.map .act)).peers) (hne : ∀ a ∈ as, a.fd ≠ q.fd) :
    ∃ p ∈ N.peers, p.fd = q.fd ∧ (q.connected = true → p.connected = true) ∧ q.up = p.up := by
  induction as generalizing N with
  | nil => exact ⟨q, hq, rfl, id, rfl⟩
  | cons a as ih =>
    obtain ⟨p', hp', hfd', hconnected', hup'⟩ :=
      @ih (N.move host io (.act a)) hq fun b hb ↦ hne b (List.mem_cons_of_mem a hb)
    obtain ⟨p, hp, hfd, hconnected, hup⟩ := peer_of_act hp' (hfd'.symm ▸ hne a List.mem_cons_self)
    exact ⟨p, hp, hfd.trans hfd', fun h ↦ hconnected (hconnected' h), hup'.trans hup⟩

/-! ### A round -/

/-- What the inputs deliver is the front of the channels. -/
def Delivers (N : Net) (is : List Input) : Prop :=
  ∀ fd ev, Input.client fd ev ∈ is → ∀ p ∈ N.peers, p.connected = true → p.fd = fd →
    ∀ tmp ∈ ev.input, tmp <+: p.up

theorem executable_input {i : Input}
    (hadmissible : ∀ fd, i = .accept fd → isOpen fd N.server.trace = false)
    (hdelivers : N.Delivers [i]) :
    Executable host io (fun _ _ ↦ True) ((actionsOf host i N.server).map .act) N := by
  have hexec := @executable_actions host i N.server hadmissible
  cases i with
  | accept fd =>
    refine executable_acts hexec fun a ha _ ↦ ?_
    rw [List.mem_singleton.1 ha]
    rfl
  | client fd ev =>
    show Executable host io (fun _ _ ↦ True) ((clientActions host fd ev N.server).map .act) N
    have hexec : Server.Executable host (clientActions host fd ev N.server) N.server := hexec
    obtain hnothing | ⟨tmp, rest, htmp, heq, hnothing⟩ := clientActions_cases host fd ev N.server
    · exact executable_acts hexec hnothing
    · rw [heq] at hexec ⊢
      refine ⟨⟨hexec.1, fun p hp hconnected ↦ ?_⟩, trivial, executable_acts hexec.2 hnothing⟩
      show (if fd = p.fd then tmp else []) <+: p.up
      split_ifs with hfd
      · exact hdelivers fd ev (List.mem_singleton_self _) p hp hconnected hfd.symm tmp htmp
      · exact List.nil_prefix

theorem executable_inputs {is : List Input} (hadmissible : Admissible host is N.server)
    (hnodup : (is.map Input.fd).Nodup) (hdelivers : N.Delivers is) :
    Executable host io (fun _ _ ↦ True) ((actions host is N.server).map .act) N := by
  induction is generalizing N with
  | nil => trivial
  | cons i is ih =>
    obtain ⟨hnew, hnodup⟩ := List.nodup_cons.1 hnodup
    rw [actions, List.map_append, executable_append]
    have hserver : (N.execute host io ((actionsOf host i N.server).map .act)).server =
        feed host i N.server := (server_execute _).trans (execute_actions i N.server)
    refine ⟨executable_input hadmissible.1 fun fd ev hi ↦ ?_, ?_⟩
    · exact hdelivers fd ev (List.mem_singleton.1 hi ▸ List.mem_cons_self)
    · rw [← hserver]
      refine ih (hserver.symm ▸ hadmissible.2) hnodup fun fd ev hi q hq hconnected hfd tmp htmp ↦ ?_
      -- what was done for `i` concerns no channel of a later input
      have hne : i.fd ≠ q.fd := fun h ↦ hnew (List.mem_map.2 ⟨_, hi, hfd.symm.trans h.symm⟩)
      obtain ⟨p, hp, hpfd, hpconnected, hup⟩ :=
        peer_of_acts hq fun a ha ↦ fd_of_mem_actionsOf ha ▸ hne
      rw [hup]
      exact hdelivers fd ev (List.mem_cons_of_mem i hi) p hp (hpconnected hconnected)
        (hpfd.trans hfd) tmp htmp

/-- **Each move of a turn** can happen when its turn comes. -/
theorem executable_moves (hreachable : Reachable host N.server) {t : Turn} (h : N.Takes t) :
    Executable host io (fun _ _ ↦ True) (N.moves host t) N := by
  cases t with
  | client i stdin output n =>
    rw [moves, executable_append, executable_append]
    refine ⟨⟨?_, ?_⟩, ?_⟩
    · cases stdin with
      | none => trivial
      | some buf => exact ⟨trivial, trivial, trivial⟩
    · cases output with
      | false => trivial
      | true => exact ⟨trivial, trivial, trivial⟩
    · cases n with
      | none => trivial
      | some n => exact ⟨trivial, trivial, trivial⟩
  | server accepted revents =>
    refine executable_inputs (admissible_roundInputs revents h.1)
      (nodup_roundInputs hreachable revents h.1) fun fd ev hi p hp hconnected hfd tmp htmp ↦ ?_
    rcases List.mem_append.1 hi with hi | hi
    · obtain ⟨d, -, heq⟩ := List.mem_map.1 hi
      cases heq
    · obtain ⟨q, -, heq⟩ := List.mem_map.1 hi
      obtain ⟨rfl, rfl⟩ := Input.client.inj heq
      rw [← hfd] at htmp
      exact h.2 p hp hconnected tmp htmp

/-! ### The turns are those of the loops -/

/-- **A round of the server** is the body of its loop. -/
theorem server_take (accepted : Option Fd) (revents : Fd → Revents) :
    (N.take host io (.server accepted revents)).server = round host accepted revents N.server := by
  rw [take, moves, server_execute, execute_allActions, round_eq]

/-- **A turn of a client** is the body of its loop. -/
theorem client_take {i : ℕ} {p : Peer} (hp : N.peers[i]? = some p) (stdin : Option Str)
    (output : Bool) (n : Option ℕ) :
    ∃ p', (N.take host io (.client i stdin output n)).peers[i]? = some p' ∧
      p'.client = p.client.turn io stdin output (n.map fun n ↦ p.down.take n) false := by
  cases stdin <;> cases output <;> cases n <;>
    simp [take, moves, execute, move, hp, Client.turn, Peer.type, Peer.flush, Peer.read]

/-! ### Runs -/

variable (host io) in
/-- Any number of turns. -/
abbrev Turns : Net → Net → Prop :=
  Relation.ReflTransGen fun N N' ↦ ∃ t, N.Takes t ∧ N' = N.take host io t

/-- **A run of the loops is a run of the network**, in which the server is between two rounds. -/
theorem steps_of_turns {N' : Net} (h : Turns host io N N') (hpolling : Polling host N.server) :
    Polling host N'.server ∧ Steps host io (fun _ _ ↦ True) N N' := by
  induction h with
  | refl => exact ⟨hpolling, .refl⟩
  | @tail N₁ _ _ hturn ih =>
    obtain ⟨t, htakes, rfl⟩ := hturn
    have hsteps := steps_execute (@executable_moves host io _ ih.1.reachable t htakes)
    refine ⟨?_, ih.2.trans hsteps⟩
    cases t with
    | client i stdin output n =>
      have hserver : (N₁.take host io (.client i stdin output n)).server = N₁.server := by
        cases stdin <;> cases output <;> cases n <;> rfl
      exact hserver.symm ▸ ih.1
    | server accepted revents =>
      rw [server_take]
      exact ih.1.round revents htakes.1

/-! ### Sizes -/

theorem served_le_move (m : NetMove) : N.server.served ≤ (N.move host io m).server.served := by
  cases m with
  | act a => exact served_le_perform a
  | _ => exact Nat.le_refl _

theorem reachable_of_steps {allowed : Net → NetMove → Prop} {N' : Net}
    (h : Steps host io allowed N N') (hN : Reachable host N.server) : Reachable host N'.server := by
  induction h with
  | refl => exact hN
  | tail _ hstep ih =>
    obtain ⟨m, hm, -, rfl⟩ := hstep
    cases m with
    | act a => exact ih.step hm.1
    | _ => exact ih

/-- **Every list fits** in a run at whose end at most `capacity` frames have been dispatched. -/
theorem steps_of_served_le {N' : Net} (h : Steps host io (fun _ _ ↦ True) N N')
    (hN : Reachable host N.server) (hserved : N'.server.served ≤ capacity) :
    Steps host io (Allowed (fun s a ↦ a.ListsFit s) fun _ _ ↦ True) N N' := by
  induction h with
  | refl => exact .refl
  | @tail N₁ _ hsteps hstep ih =>
    obtain ⟨m, hm, -, rfl⟩ := hstep
    have hbefore : N₁.server.served ≤ capacity := (served_le_move m).trans hserved
    refine (ih hbefore).tail ⟨m, hm, ?_, rfl⟩
    cases m with
    | act a => exact (reachable_of_steps hsteps hN).listsFit hbefore a.fd a.request.2 a.request.1
    | read i n => exact fun _ _ ↦ trivial
    | _ => trivial

end Net

end MyTeams
