import MyTeams.Server.Answers
import MyTeams.Server.Inputs

/-!
# Two runs of the server

The runs of `Inputs`, walked side by side. Two servers are `Alike` when their shared data is related
by `R`, and their clients hold as much to send and receive buffers related by `B`: that is all the
control flow of the loop depends on. If the handlers keep `R` and give the observers that `Low`
allows the same messages (`Keeps`), then so do the runs on the same inputs (`Alike.feedAll`).

That is all there is to say while the inputs are the same. Runs whose inputs differ in one frame are
walked in `OneFrame`, which uses the laws here before and after that frame.
-/

namespace MyTeams

open FrameStream Lockstep

/-! ### Outcomes -/

/-- The outcomes of two handlers serving a frame of `fd`: the data is related, everybody is sent as
much, and those that `Low` allows are sent the same messages. -/
structure OutcomeAlike (R : ServerData → ServerData → Prop) (fd : Fd) (Low : Fd → Prop)
    (o o' : Outcome) : Prop where
  data : R o.data o'.data
  length : ∀ d, (addressedTo d (o'.result.sends fd)).flatten.length =
    (addressedTo d (o.result.sends fd)).flatten.length
  low : ∀ d, Low d → addressedTo d (o'.result.sends fd) = addressedTo d (o.result.sends fd)

/-- Outcomes with the same messages. -/
theorem OutcomeAlike.of_result_eq {R : ServerData → ServerData → Prop} {fd : Fd} {Low : Fd → Prop}
    {o o' : Outcome} (hdata : R o.data o'.data) (hresult : o'.result = o.result) :
    OutcomeAlike R fd Low o o' where
  data := hdata
  length _ := by rw [hresult]
  low _ _ := by rw [hresult]

namespace Server

variable {host : ℕ → Host} {s s' : Server}

/-! ### What an action queues -/

theorem newMessages_frame {fd : Fd} (hfd : s.clients.contains fd = true) (cmd : UInt16)
    (payload : List UInt8) (d : Fd) :
    newMessages d s (perform host (.frame fd cmd payload) s) =
      if s.clients.contains d then
        addressedTo d ((frameOutcome (host s.served) fd cmd payload s.data).result.sends fd)
      else [] := by
  refine newMessages_of_append ?_
  rw [perform_frame_eq, queuedOn_queueAll, queuedOn_append]
  have hcontains := contains_modifyClient hfd
    (fun c ↦ { c with recvBuffer := c.recvBuffer.drop (headerSize + payload.length) }) d
  dsimp only
  rw [hcontains]
  exact congrArg (· ++ _) (List.append_nil _)

theorem newMessages_disconnect (fd d : Fd) :
    newMessages d s (perform host (.disconnect fd) s) =
      if s.clients.contains d then
        addressedTo d (deliveries fd (handleLogout fd s.data).result.pushes)
      else [] := by
  refine newMessages_of_append ?_
  rw [perform, handleClientDisconnect_eq, record, loseSession, queuedOn_append]
  dsimp only
  rw [queuedOn_queueAll]
  exact List.append_nil _

/-! ### Servers that look alike to the loop -/

/-- Clients with related receive buffers and as much to send. -/
structure ClientAlike (B : List UInt8 → List UInt8 → Prop) (c c' : ClientState) : Prop where
  recv : B c.recvBuffer c'.recvBuffer
  send : c'.sendBuffer.length = c.sendBuffer.length

/-- Servers whose data is related by `R`, with the same clients, their receive buffers related by
`B`. -/
structure Alike (R : ServerData → ServerData → Prop) (B : Fd → List UInt8 → List UInt8 → Prop)
    (s s' : Server) : Prop where
  data : R s.data s'.data
  clients : ∀ fd : Fd, Option.Rel (ClientAlike (B fd)) s.clients[fd]? s'.clients[fd]?
  served : s'.served = s.served

/-- The same receive buffers. -/
def Same (_ : Fd) (b b' : List UInt8) : Prop := b' = b

section Alike

variable {R R' : ServerData → ServerData → Prop} {B B' : Fd → List UInt8 → List UInt8 → Prop}
  {fd : Fd}

/-- Related optional clients, after a change of both. -/
theorem rel_map {α β γ δ : Type} {r : α → β → Prop} {q : γ → δ → Prop} {f : α → γ} {g : β → δ}
    {x : Option α} {y : Option β} (h : Option.Rel r x y) (hf : ∀ a b, r a b → q (f a) (g b)) :
    Option.Rel q (x.map f) (y.map g) := by
  cases h with
  | some hab => exact .some (hf _ _ hab)
  | none => exact .none

theorem rel_mono {α β : Type} {r q : α → β → Prop} {x : Option α} {y : Option β}
    (h : Option.Rel r x y) (hr : ∀ a b, r a b → q a b) : Option.Rel q x y := by
  cases h with
  | some hab => exact .some (hr _ _ hab)
  | none => exact .none

theorem isSome_of_rel {α β : Type} {r : α → β → Prop} {x : Option α} {y : Option β}
    (h : Option.Rel r x y) : y.isSome = x.isSome := by
  cases h <;> rfl

theorem exists_of_rel {α β : Type} {r : α → β → Prop} {x : Option α} {y : Option β} {a : α}
    (h : Option.Rel r x y) (ha : x = some a) : ∃ b, y = some b ∧ r a b := by
  cases h with
  | some hab => exact ⟨_, rfl, Option.some.inj ha ▸ hab⟩
  | none => cases ha

theorem Alike.contains (h : Alike R B s s') (fd : Fd) :
    s'.clients.contains fd = s.clients.contains fd := by
  rw [Std.ExtTreeMap.contains_eq_isSome_getElem?, Std.ExtTreeMap.contains_eq_isSome_getElem?]
  exact isSome_of_rel (h.clients fd)

theorem Alike.exists_clients (h : Alike R B s s') (hfd : s.clients.contains fd = true) :
    ∃ c c', s.clients[fd]? = some c ∧ s'.clients[fd]? = some c' ∧ ClientAlike (B fd) c c' := by
  obtain ⟨c, hc⟩ := (IntMap.contains_iff _).1 hfd
  obtain ⟨c', hc', hcc⟩ := exists_of_rel (h.clients fd) hc
  exact ⟨c, c', hc, hc', hcc⟩

/-- The relation between buffers matters for clients only. -/
theorem Alike.mono (h : Alike R B s s')
    (hB : ∀ d, s.clients.contains d = true → ∀ b b', B d b b' → B' d b b') : Alike R B' s s' where
  data := h.data
  clients d := by
    have hrel := h.clients d
    have hd : (s.clients[d]?).isSome → ∀ b b', B d b b' → B' d b b' := fun hsome ↦
      hB d (by rwa [Std.ExtTreeMap.contains_eq_isSome_getElem?])
    generalize s.clients[d]? = x at hrel hd
    generalize s'.clients[d]? = y at hrel
    cases hrel with
    | some hcc => exact .some ⟨hd rfl _ _ hcc.recv, hcc.send⟩
    | none => exact .none
  served := h.served

/-! ### Actions -/

/-- A frame of `fd` in both servers. -/
theorem Alike.frame (h : Alike R B s s') (hfd : s.clients.contains fd = true) {Low : Fd → Prop}
    {cmd : UInt16} {p p' : List UInt8}
    (ho : OutcomeAlike R' fd Low (frameOutcome (host s.served) fd cmd p s.data)
      (frameOutcome (host s.served) fd cmd p' s'.data))
    (hself : ∀ c c', s.clients[fd]? = some c → s'.clients[fd]? = some c' →
      B fd c.recvBuffer c'.recvBuffer → B' fd (c.recvBuffer.drop (headerSize + p.length))
      (c'.recvBuffer.drop (headerSize + p'.length)))
    (hother : ∀ d, d ≠ fd → ∀ b b', B d b b' → B' d b b') :
    Alike R' B' (perform host (.frame fd cmd p) s) (perform host (.frame fd cmd p') s') ∧
      ∀ d, Low d → newMessages d s' (perform host (.frame fd cmd p') s') =
        newMessages d s (perform host (.frame fd cmd p) s) := by
  obtain ⟨c, c', hc, hc', hcc⟩ := h.exists_clients hfd
  have hfd' : s'.clients.contains fd = true := (h.contains fd).trans hfd
  have hsend (d : Fd) (c c' : ClientState) (hcc : ClientAlike (B d) c c') :
      (c'.sendBuffer ++ (addressedTo d
          ((frameOutcome (host s'.served) fd cmd p' s'.data).result.sends fd)).flatten).length =
        (c.sendBuffer ++ (addressedTo d
          ((frameOutcome (host s.served) fd cmd p s.data).result.sends fd)).flatten).length := by
    rw [List.length_append, List.length_append, hcc.send, h.served, ho.length d]
  constructor
  · refine ⟨?_, fun d ↦ ?_, ?_⟩
    · rw [perform_frame_data, perform_frame_data, h.served]
      exact ho.data
    · rw [clients_frame hc, clients_frame hc']
      rcases eq_or_ne fd d with rfl | hd
      · rw [hc, hc']
        simp only [if_true]
        exact .some ⟨hself c c' hc hc' hcc.recv, hsend fd c c' hcc⟩
      · simp only [if_neg hd]
        exact rel_map (h.clients d) fun c c' hcc ↦
          ⟨hother d (Ne.symm hd) _ _ hcc.recv, hsend d c c' hcc⟩
    · rw [perform_frame_eq, perform_frame_eq, queueAll_served, queueAll_served, h.served]
  · intro d hd
    rw [newMessages_frame hfd', newMessages_frame hfd, h.contains d, h.served, ho.low d hd]

/-- What the handler of `CMD_LOGOUT` does alike. -/
def LogoutAlike (R : ServerData → ServerData → Prop) : Prop :=
  ∀ fd data data', R data data' → R (handleLogout fd data).data (handleLogout fd data').data ∧
    (handleLogout fd data').result = (handleLogout fd data).result

theorem clients_disconnect (fd d : Fd) : (perform host (.disconnect fd) s).clients[d]? =
    if d = fd then none
    else s.clients[d]?.map fun c ↦
      { c with sendBuffer := c.sendBuffer ++
        (addressedTo d (deliveries fd (handleLogout fd s.data).result.pushes)).flatten } := by
  rcases eq_or_ne d fd with rfl | hd
  · rw [if_pos rfl, clients_disconnect_self]
  · rw [if_neg hd, perform, handleClientDisconnect_eq, record, IntMap.get_erase_of_ne _ hd,
      loseSession, queueAll_clients]

theorem served_disconnect (fd : Fd) : (perform host (.disconnect fd) s).served = s.served := by
  rw [perform, handleClientDisconnect_eq]
  exact queueAll_served _ _

/-- A disconnection in both servers. -/
theorem Alike.disconnect (h : Alike R B s s') (hlogout : LogoutAlike R) (fd : Fd) :
    Alike R B (perform host (.disconnect fd) s) (perform host (.disconnect fd) s') ∧
      ∀ d, newMessages d s' (perform host (.disconnect fd) s') =
        newMessages d s (perform host (.disconnect fd) s) := by
  obtain ⟨hdata, hresult⟩ := hlogout fd s.data s'.data h.data
  constructor
  · refine ⟨?_, fun d ↦ ?_, ?_⟩
    · rw [perform_disconnect_data, perform_disconnect_data]
      exact hdata
    · rw [clients_disconnect, clients_disconnect, hresult]
      split_ifs
      · exact .none
      · refine rel_map (h.clients d) fun c c' hcc ↦ ⟨hcc.recv, ?_⟩
        rw [List.length_append, List.length_append, hcc.send]
    · exact (served_disconnect fd).trans (h.served.trans (served_disconnect fd).symm)
  · intro d
    rw [newMessages_disconnect, newMessages_disconnect, h.contains d, hresult]

/-- A descriptor accepted in both servers. -/
theorem Alike.accept (h : Alike R B s s') (hB : B fd [] []) :
    Alike R B (perform host (.accept fd) s) (perform host (.accept fd) s') where
  data := h.data
  clients d := by
    have hclients (s : Server) : (perform host (.accept fd) s).clients[d]? =
        if d = fd then some ⟨fd, [], []⟩ else s.clients[d]? := by
      show (s.clients.insert fd _)[d]? = _
      rw [IntMap.get_insert]
      exact if_congr eq_comm rfl rfl
    rw [hclients, hclients]
    split_ifs with hd
    · exact .some ⟨hd ▸ hB, rfl⟩
    · exact h.clients d
  served := h.served

/-- A client changed in both servers. -/
theorem Alike.modifyClient (h : Alike R B s s') (hfd : s.clients.contains fd = true)
    (f f' : ClientState → ClientState)
    (hself : ∀ c c', ClientAlike (B fd) c c' → ClientAlike (B' fd) (f c) (f' c'))
    (hother : ∀ d, d ≠ fd → ∀ b b', B d b b' → B' d b b') :
    Alike R B' (s.modifyClient fd f) (s'.modifyClient fd f') where
  data := h.data
  clients d := by
    obtain ⟨c, c', hc, hc', hcc⟩ := h.exists_clients hfd
    rcases eq_or_ne d fd with rfl | hd
    · rw [get_modifyClient_self hc, get_modifyClient_self hc']
      exact .some (hself c c' hcc)
    · rw [get_modifyClient_of_ne hd, get_modifyClient_of_ne hd]
      exact rel_mono (h.clients d) fun c c' hcc ↦ ⟨hother d hd _ _ hcc.recv, hcc.send⟩
  served := h.served

/-- Bytes received by `fd` in both servers. -/
theorem Alike.receive (h : Alike R B s s') (hfd : s.clients.contains fd = true)
    {tmp tmp' : List UInt8} (hself : ∀ b b', B fd b b' → B' fd (b ++ tmp) (b' ++ tmp'))
    (hother : ∀ d, d ≠ fd → ∀ b b', B d b b' → B' d b b') :
    Alike R B' (perform host (.receive fd tmp) s) (perform host (.receive fd tmp') s') :=
  h.modifyClient hfd (fun c ↦ { c with recvBuffer := c.recvBuffer ++ tmp })
    (fun c ↦ { c with recvBuffer := c.recvBuffer ++ tmp' })
    (fun _ _ hcc ↦ ⟨hself _ _ hcc.recv, hcc.send⟩) hother

/-- Bytes written by both servers. -/
theorem Alike.write (h : Alike R B s s') (hfd : s.clients.contains fd = true) (n : ℕ) :
    Alike R B (perform host (.write fd n) s) (perform host (.write fd n) s') := by
  have hclients : Alike R B _ _ := h.modifyClient hfd
    (fun c ↦ { c with sendBuffer := c.sendBuffer.drop n })
    (fun c ↦ { c with sendBuffer := c.sendBuffer.drop n })
    (fun c c' hcc ↦ ⟨hcc.recv, by rw [List.length_drop, List.length_drop, hcc.send]⟩)
    fun _ _ _ _ ↦ id
  exact ⟨hclients.data, hclients.clients, hclients.served⟩

end Alike

/-! ### The same inputs -/

/-- The steps of two servers give those that `Low` allows the same messages. -/
def Observed (host : ℕ → Host) (Low : Server → Action → Fd → Prop) (s : Server) (a : Action)
    (s' : Server) (a' : Action) : Prop :=
  ∀ d, Low s a d → newMessages d s' (perform host a' s') = newMessages d s (perform host a s)

/-- **Two runs that `Low` cannot tell apart**, with data related by `R` at every point. -/
abbrev Indistinguishable (host : ℕ → Host) (R : ServerData → ServerData → Prop)
    (Low : Server → Action → Fd → Prop) : List Action → Server → List Action → Server → Prop :=
  SideBySide (perform host) (fun s s' ↦ R s.data s'.data) (Observed host Low)

theorem Indistinguishable.refl {R : ServerData → ServerData → Prop}
    {Low : Server → Action → Fd → Prop} (hR : ∀ data, R data data) (as : List Action) (s : Server) :
    Indistinguishable host R Low as s as s :=
  SideBySide.refl (fun s ↦ hR s.data) (fun _ _ _ _ ↦ rfl) as s

/-- What is queued between two points of the run, to somebody who is low at every step between
them. -/
theorem Indistinguishable.newMessages_eq {R : ServerData → ServerData → Prop}
    {Low : Server → Action → Fd → Prop} {as as' : List Action}
    (h : Indistinguishable host R Low as s as' s') {d : Fd} {j k : ℕ} (hjk : j ≤ k)
    (hlow : ∀ i a, j ≤ i → i < k → as[i]? = some a → Low (execute host (as.take i) s) a d) :
    newMessages d (execute host (as'.take j) s') (execute host (as'.take k) s') =
      newMessages d (execute host (as.take j) s) (execute host (as.take k) s) := by
  -- what was queued before has to be known as a prefix, for the subtraction
  suffices hboth : queuedOn d (execute host (as.take j) s).trace <+:
        queuedOn d (execute host (as.take k) s).trace ∧
      queuedOn d (execute host (as'.take j) s').trace <+:
        queuedOn d (execute host (as'.take k) s').trace ∧
      newMessages d (execute host (as'.take j) s') (execute host (as'.take k) s') =
        newMessages d (execute host (as.take j) s) (execute host (as.take k) s) from hboth.2.2
  induction k, hjk using Nat.le_induction with
  | base =>
    refine ⟨List.prefix_rfl, List.prefix_rfl, ?_⟩
    rw [newMessages_of_append (List.append_nil _).symm,
      newMessages_of_append (List.append_nil _).symm]
  | succ k hjk ih =>
    obtain ⟨hqueued, hqueued', hsame⟩ := ih fun i a hji hik ha ↦
      hlow i a hji (hik.trans k.lt_succ_self) ha
    rw [List.take_add_one, List.take_add_one, execute_append, execute_append]
    rcases hk : as[k]? with - | a
    · have hk' : as'[k]? = none :=
        List.getElem?_eq_none (h.length_eq ▸ List.getElem?_eq_none_iff.1 hk)
      rw [hk']
      exact ⟨hqueued, hqueued', hsame⟩
    · obtain ⟨a', ha', hobserved⟩ := h.steps hk
      rw [ha']
      obtain ⟨hnext, hnew⟩ := newMessages_perform host d (execute host (as.take j) s) a hqueued
      obtain ⟨hnext', hnew'⟩ := newMessages_perform host d (execute host (as'.take j) s') a'
        hqueued'
      refine ⟨hnext, hnext', hnew'.trans (Eq.trans ?_ hnew.symm)⟩
      rw [hsame]
      exact congrArg _ (hobserved d (hlow k a hjk k.lt_succ_self hk))

/-- Where `P` holds, the handlers keep `R` and give those that `Low` allows the same messages. -/
structure Keeps (host : ℕ → Host) (R : ServerData → ServerData → Prop)
    (Low : Server → Action → Fd → Prop) (P : Server → Action → Prop) : Prop where
  frame : ∀ s data fd cmd payload, Reachable host s → P s (.frame fd cmd payload) → R s.data data →
    OutcomeAlike R fd (Low s (.frame fd cmd payload))
      (frameOutcome (host s.served) fd cmd payload s.data)
      (frameOutcome (host s.served) fd cmd payload data)
  logout : LogoutAlike R

/-- Handlers keep equality. -/
theorem keeps_eq (Low : Server → Action → Fd → Prop) (P : Server → Action → Prop) :
    Keeps host Eq Low P where
  frame _ _ _ _ _ _ _ heq := heq ▸ .of_result_eq rfl rfl
  logout _ _ _ heq := heq ▸ ⟨rfl, rfl⟩

/-- The action looks at a receive buffer, or makes one. -/
def Action.Reads : Action → Prop
  | .accept _ | .receive _ _ | .frame _ _ _ => True
  | .disconnect _ | .write _ _ => False

section Same

variable {R : ServerData → ServerData → Prop} {B : Fd → List UInt8 → List UInt8 → Prop}
  {Low : Server → Action → Fd → Prop} {P : Server → Action → Prop} {fd : Fd}

/-- **One step of both servers.** -/
theorem Alike.step (h : Alike R B s s') (K : Keeps host R Low P) (hs : Reachable host s)
    {a : Action} (ha : s.Enabled a) (hP : P s a) (hB : a.Reads → ∀ b b', B a.fd b b' ↔ b' = b) :
    Alike R B (perform host a s) (perform host a s') ∧ Observed host Low s a s' a := by
  cases a with
  | accept fd =>
    exact ⟨h.accept ((hB trivial [] []).2 rfl), fun d _ ↦ by
      rw [newMessages_quiet (by simp) (by simp), newMessages_quiet (by simp) (by simp)]⟩
  | receive fd tmp =>
    refine ⟨h.receive ha.1 (fun b b' hb ↦ ?_) fun _ _ _ _ ↦ id, fun d _ ↦ by
      rw [newMessages_quiet (by simp) (by simp), newMessages_quiet (by simp) (by simp)]⟩
    rw [(hB trivial b b').1 hb]
    exact (hB trivial _ _).2 rfl
  | write fd n =>
    exact ⟨h.write ha n, fun d _ ↦ by
      rw [newMessages_quiet (by simp) (by simp), newMessages_quiet (by simp) (by simp)]⟩
  | disconnect fd =>
    obtain ⟨halike, hmessages⟩ := h.disconnect K.logout fd
    exact ⟨halike, fun d _ ↦ hmessages d⟩
  | frame fd cmd payload =>
    obtain ⟨c, rest, hc, -⟩ := ha
    refine h.frame ((IntMap.contains_iff _).2 ⟨c, hc⟩)
      (K.frame s s'.data fd cmd payload hs hP h.data) (fun c c' _ _ hcc ↦ ?_) fun _ _ _ _ ↦ id
    rw [(hB trivial _ _).1 hcc]
    exact (hB trivial _ _).2 rfl

/-- **The same actions of both servers.** -/
theorem Alike.run (h : Alike R B s s') (K : Keeps host R Low P) (hs : Reachable host s)
    {as : List Action} (hexecutable : Executable host as s) (hP : Along (perform host) P as s)
    (hB : ∀ a ∈ as, a.Reads → ∀ b b', B a.fd b b' ↔ b' = b) :
    Indistinguishable host R Low as s as s' ∧
      Alike R B (execute host as s) (execute host as s') := by
  induction as generalizing s s' with
  | nil => exact ⟨.nil h.data, h⟩
  | cons a as ih =>
    obtain ⟨halike, hobserved⟩ := h.step K hs hexecutable.1 hP.1 (hB a List.mem_cons_self)
    obtain ⟨hrest, hend⟩ := ih halike (hs.step hexecutable.1) hexecutable.2 hP.2
      fun b hb ↦ hB b (List.mem_cons_of_mem a hb)
    exact ⟨.cons h.data hobserved hrest, hend⟩

theorem Alike.received_eq (h : Alike R B s s') (hfd : s.clients.contains fd = true)
    (hB : ∀ b b', B fd b b' ↔ b' = b) : received? fd s' = received? fd s := by
  obtain ⟨c, c', hc, hc', hcc⟩ := h.exists_clients hfd
  rw [received?, received?, hc, hc']
  exact (hB _ _).1 hcc.recv

theorem Alike.length_unsent (h : Alike R B s s') (hfd : s.clients.contains fd = true) :
    (unsent fd s').length = (unsent fd s).length := by
  obtain ⟨c, c', hc, hc', hcc⟩ := h.exists_clients hfd
  rw [unsent, unsent, hc, hc']
  exact hcc.send

/-- The same loop. -/
theorem Alike.loopActions_eq {n : ℕ} (h : Alike R B s s') (K : Keeps host R Low P)
    (hs : Reachable host s) (hfd : s.clients.contains fd = true)
    (hP : Along (perform host) P (loopActions host fd n s) s) (hB : ∀ b b', B fd b b' ↔ b' = b) :
    loopActions host fd n s' = loopActions host fd n s := by
  induction n generalizing s s' with
  | zero => rfl
  | succ n ih =>
    rw [loopActions] at hP
    rw [loopActions, loopActions, h.received_eq hfd hB]
    rcases hscan : serverCodec.scan (received? fd s) with - | - | ⟨f, rest⟩
    · rfl
    · rfl
    · rw [hscan] at hP
      have hframe : s.Enabled (.frame fd f.1 f.2) := by
        obtain ⟨c, hc⟩ := (IntMap.contains_iff _).1 hfd
        refine ⟨c, rest, hc, ?_⟩
        rwa [received?, hc] at hscan
      obtain ⟨halike, -⟩ := h.step K hs hframe hP.1 fun _ ↦ hB
      exact congrArg (_ :: ·)
        (ih halike (hs.step hframe) ((contains_frame hfd f.1 f.2 fd).trans hfd) hP.2)

theorem Alike.outputActions_eq (h : Alike R B s s') (hfd : s.clients.contains fd = true)
    (output : Option (Option ℕ)) : outputActions fd output s' = outputActions fd output s := by
  rcases output with - | written
  · rfl
  · have hempty : (unsent fd s').isEmpty = (unsent fd s).isEmpty := by
      rw [Bool.eq_iff_iff, List.isEmpty_iff_length_eq_zero, List.isEmpty_iff_length_eq_zero,
        h.length_unsent hfd]
    rw [outputActions, outputActions, writeActions.eq_def, writeActions.eq_def, hempty]

theorem Alike.inputActions_eq (h : Alike R B s s') (K : Keeps host R Low P) (hs : Reachable host s)
    (hfd : s.clients.contains fd = true) {input : Option (List UInt8)}
    (hP : Along (perform host) P (inputActions host fd input s) s)
    (hB : ∀ b b', B fd b b' ↔ b' = b) :
    inputActions host fd input s' = inputActions host fd input s := by
  rcases input with - | tmp
  · rfl
  · rw [inputActions, readActions] at hP
    rw [inputActions, inputActions, readActions, readActions, h.received_eq hfd hB]
    split_ifs at hP ⊢ with htmp
    · rfl
    · have hreceive : s.Enabled (.receive fd tmp) := ⟨hfd, by simpa using htmp⟩
      obtain ⟨halike, -⟩ := h.step K hs hreceive hP.1 fun _ ↦ hB
      exact congrArg (_ :: ·) (halike.loopActions_eq K (hs.step hreceive)
        ((contains_modifyClient hfd _ fd).trans hfd) hP.2 hB)

/-- The same actions for the same input. -/
theorem Alike.actionsOf_eq (h : Alike R B s s') (K : Keeps host R Low P) (hs : Reachable host s)
    {i : Input} (hP : Along (perform host) P (actionsOf host i s) s)
    (hB : ∀ fd ev, i = .client fd ev → ∀ b b', B fd b b' ↔ b' = b) :
    actionsOf host i s' = actionsOf host i s := by
  rcases i with fd | ⟨fd, ev⟩
  · rfl
  · rw [actionsOf, clientActions] at hP
    rw [actionsOf, actionsOf, clientActions, clientActions, h.contains fd]
    cases hfd : s.clients.contains fd with
    | false => rfl
    | true =>
      rw [hfd] at hP
      simp only [Bool.not_true, Bool.false_eq_true, if_false] at hP ⊢
      by_cases herror : ev.error = true
      · rw [if_pos herror, if_pos herror]
      · have hbuf := hB fd ev rfl
        rw [if_neg herror, along_append] at hP
        rw [if_neg herror, if_neg herror]
        have hinput := h.inputActions_eq K hs hfd hP.1 hbuf
        obtain ⟨-, hexecutable⟩ := @execute_inputActions host fd s ev.input hfd
        obtain ⟨-, hend⟩ := h.run K hs hexecutable hP.1 fun a ha _ ↦ by
          rw [fd_of_mem_inputActions ha]
          exact hbuf
        rw [hinput, hend.contains fd]
        cases hstill : (execute host (inputActions host fd ev.input s) s).clients.contains fd with
        | false => rfl
        | true =>
          simp only [Bool.not_true, Bool.false_eq_true, if_false]
          rw [hend.outputActions_eq hstill]

/-- **The same input to both servers.** -/
theorem Alike.feed (h : Alike R B s s') (K : Keeps host R Low P) (hs : Reachable host s) {i : Input}
    (hopen : ∀ fd, i = .accept fd → isOpen fd s.trace = false)
    (hP : Along (perform host) P (actionsOf host i s) s) (hB : ∀ b b', B i.fd b b' ↔ b' = b) :
    Indistinguishable host R Low (actionsOf host i s) s (actionsOf host i s') s' ∧
      Alike R B (feed host i s) (feed host i s') := by
  have hsame := h.actionsOf_eq K hs hP fun fd ev heq ↦ by
    rw [heq] at hB
    exact hB
  have hrun := h.run K hs (executable_actions hopen) hP fun a ha _ ↦ by
    rw [fd_of_mem_actionsOf ha]
    exact hB
  rwa [← execute_actions, ← execute_actions, hsame]

/-- **The same inputs to both servers.** -/
theorem Alike.feedAll (h : Alike R Same s s') (K : Keeps host R Low P) (hs : Reachable host s)
    {is : List Input} (hadmissible : Admissible host is s)
    (hP : Along (perform host) P (actions host is s) s) :
    Indistinguishable host R Low (actions host is s) s (actions host is s') s' ∧
      Alike R Same (feedAll host is s) (feedAll host is s') := by
  induction is generalizing s s' with
  | nil => exact ⟨.nil h.data, h⟩
  | cons i is ih =>
    rw [actions, along_append] at hP
    have hnext (s : Server) :
        Lockstep.run (perform host) (actionsOf host i s) s = Server.feed host i s :=
          execute_actions i s
    obtain ⟨hfirst, halike⟩ := h.feed K hs hadmissible.1 hP.1 fun _ _ ↦ Iff.rfl
    obtain ⟨hrest, hend⟩ := ih halike (hs.feed hadmissible.1) hadmissible.2 (hnext s ▸ hP.2)
    exact ⟨hfirst.append (by rw [hnext, hnext]; exact hrest), hend⟩

end Same

end Server

end MyTeams
