import MyTeams.Server.TwoRuns

/-!
# Two runs that differ in one frame

Two runs get the same inputs, but for the payload of one frame of a connection `c`. How the stream
of `c` is cut into reads is the same, so reads may differ only in the bytes of that payload.

Until the frame is complete the runs do the same, and the receive buffers of `c` hold the same
frames to come (`Pending`); when it is dispatched, the data the handler leaves is related by `R`;
and from then on the inputs are the same.
-/

namespace MyTeams

open FrameStream Lockstep

/-! ### Inputs -/

/-- The bytes that a list of inputs delivers to a connection. -/
def delivered (c : Fd) (is : List Input) : List UInt8 :=
  is.flatMap fun
    | .accept _ => []
    | .client fd ev => if fd = c then ev.input.getD [] else []

/-- Inputs that differ at most in which bytes, not how many, are read from `c`. -/
inductive SameShape (c : Fd) : Input → Input → Prop
  | same (i : Input) : SameShape c i i
  | read {error : Bool} {tmp tmp' : List UInt8} {output : Option (Option ℕ)}
    (h : tmp'.length = tmp.length) :
    SameShape c (.client c ⟨error, some tmp, output⟩) (.client c ⟨error, some tmp', output⟩)

/-- **Inputs that differ in one frame**: what `c` delivers are the frames `before`, then `f` or
`f'`, then the same. The two frames have the same code and payloads of the same length. -/
structure Varies (c : Fd) (before : List Frame) (f f' : Frame) (is is' : List Input) : Prop where
  shape : List.Forall₂ (SameShape c) is is'
  connection : ∀ i ∈ is, i ≠ .accept c
  stream : ∃ rest,
    delivered c is = (before.map Frame.bytes).flatten ++ (f.bytes ++ rest) ∧
      delivered c is' = (before.map Frame.bytes).flatten ++ (f'.bytes ++ rest)
  valid : ∀ g ∈ before ++ [f], g.2.length ≤ 65535
  code : f'.1 = f.1
  length : f'.2.length = f.2.length

theorem delivered_cons (c : Fd) (i : Input) (is : List Input) :
    delivered c (i :: is) = delivered c [i] ++ delivered c is := by
  rw [delivered, List.flatMap_cons, delivered, List.flatMap_cons, List.flatMap_nil, List.append_nil]
  rfl

theorem delivered_client (c : Fd) (ev : Revents) :
    delivered c [.client c ev] = ev.input.getD [] := by
  simp [delivered]

theorem delivered_of_ne {c : Fd} {i : Input} (h : i.fd ≠ c) : delivered c [i] = [] := by
  cases i with
  | accept fd => rfl
  | client fd ev =>
    change fd ≠ c at h
    simp [delivered, h]

theorem SameShape.length_delivered {c : Fd} {i i' : Input} (h : SameShape c i i') :
    (delivered c [i']).length = (delivered c [i]).length := by
  cases h with
  | same => rfl
  | read h => simpa [delivered] using h

/-- Inputs of the same shape that deliver the same bytes are the same. -/
theorem eq_of_delivered_eq {c : Fd} {is is' : List Input} (h : List.Forall₂ (SameShape c) is is')
    (hd : delivered c is' = delivered c is) : is' = is := by
  induction h with
  | nil => rfl
  | @cons i i' is is' hi _ ih =>
    rw [delivered_cons, delivered_cons c i] at hd
    obtain ⟨hfirst, hrest⟩ := List.append_inj hd hi.length_delivered
    rw [ih hrest]
    cases hi with
    | same => rfl
    | read => simpa [delivered] using hfirst

namespace Server

variable {host : ℕ → Host} {s s' : Server}

/-! ### Waiting for the frame -/

/-- Receive buffers with `more` and `more'` to come: first the frames `todo`, then `f` and `f'`. -/
structure Awaits (f f' : Frame) (rest : List UInt8) (todo : List Frame) (more more' : List UInt8)
    (b b' : List UInt8) : Prop where
  length : b'.length = b.length
  left : b ++ more = (todo.map Frame.bytes).flatten ++ (f.bytes ++ rest)
  right : b' ++ more' = (todo.map Frame.bytes).flatten ++ (f'.bytes ++ rest)

/-- The buffers of `c` are related by `X`, all others are the same. -/
def Only (c : Fd) (X : List UInt8 → List UInt8 → Prop) (d : Fd) (b b' : List UInt8) : Prop :=
  (d = c → X b b') ∧ (d ≠ c → b' = b)

/-- The two servers wait for the frame that differs: the data is the same, and of the frames `all`
that `c` dispatches before it those in `todo` are still to come. -/
structure Pending (c : Fd) (f f' : Frame) (rest : List UInt8) (all todo : List Frame)
    (more more' : List UInt8) (s s' : Server) : Prop where
  alike : Alike Eq (Only c (Awaits f f' rest todo more more')) s s'
  frames : framesOn c s.trace ++ todo = all
  valid : ∀ g ∈ todo, serverCodec.Valid g

/-- The frame that differs is dispatched alike. -/
def Hides (host : ℕ → Host) (R : ServerData → ServerData → Prop) (Low : Server → Action → Fd → Prop)
    (P : Server → Action → Prop) (c : Fd) (all : List Frame) (f f' : Frame) : Prop :=
  ∀ s, Reachable host s → P s (.frame c f.1 f.2) → framesOn c s.trace = all →
    OutcomeAlike R c (Low s (.frame c f.1 f.2)) (frameOutcome (host s.served) c f.1 f.2 s.data)
      (frameOutcome (host s.served) c f'.1 f'.2 s.data)

/-- **`R` covers the difference** between the frames `f` and `f'` of `c`: they have the same code
and payloads of the same length, are dispatched alike, and the handlers keep `R`. -/
structure Covers (host : ℕ → Host) (R : ServerData → ServerData → Prop)
    (Low : Server → Action → Fd → Prop) (P : Server → Action → Prop) (c : Fd) (all : List Frame)
    (f f' : Frame) : Prop where
  keeps : Keeps host R Low P
  refl : ∀ data, R data data
  hides : Hides host R Low P c all f f'
  valid : f.2.length ≤ 65535
  code : f'.1 = f.1
  length : f'.2.length = f.2.length

/-- **Two lists of inputs that differ in one frame** of a connection on `c`: up to and including its
`accept` they are the same, then they vary in that frame, and then they are the same again. `all`
are the frames dispatched for `c` before it, by earlier connections on the descriptor as well. -/
def DifferInFrame (host : ℕ → Host) (c : Fd) (all : List Frame) (f f' : Frame)
    (is is' : List Input) : Prop :=
  ∃ pre middle middle' post before,
    is = pre ++ .accept c :: (middle ++ post) ∧ is' = pre ++ .accept c :: (middle' ++ post) ∧
      all = framesOn c (feedAll host pre Server.init).trace ++ before ∧
      Varies c before f f' middle middle'

theorem DifferInFrame.length_eq {c : Fd} {all : List Frame} {f f' : Frame} {is is' : List Input}
    (h : DifferInFrame host c all f f' is is') : f'.2.length = f.2.length := by
  obtain ⟨_, _, _, _, _, -, -, -, hv⟩ := h
  exact hv.length

/-- The frame `f` is dispatched for `c`, after the frames `all`, by action `k` of a run. -/
def DispatchedAt (host : ℕ → Host) (c : Fd) (all : List Frame) (f : Frame) (is : List Input)
    (k : ℕ) : Prop :=
  (actions host is Server.init)[k]? = some (.frame c f.1 f.2) ∧
    framesOn c (stateAt host is k).trace = all

section Loop

variable {c : Fd} {f f' : Frame} {rest : List UInt8} {all todo : List Frame}
  {more more' : List UInt8}

theorem Awaits.drop {g : Frame} {b b' r r' : List UInt8}
    (h : Awaits f f' rest (g :: todo) more more' b b') (hb : b = g.bytes ++ r)
    (hb' : b' = g.bytes ++ r') :
    Awaits f f' rest todo more more' r r' where
  length := by
    have hlength := h.length
    rw [hb, hb', List.length_append, List.length_append] at hlength
    omega
  left := by
    have hleft := h.left
    rw [hb, List.map_cons, List.flatten_cons, List.append_assoc, List.append_assoc] at hleft
    exact List.append_cancel_left hleft
  right := by
    have hright := h.right
    rw [hb', List.map_cons, List.flatten_cons, List.append_assoc, List.append_assoc] at hright
    exact List.append_cancel_left hright

/-- Both buffers wait, or both hold the next frame. -/
theorem scan_awaits {g g' : Frame} {b b' tail tail' : List UInt8} (hg : serverCodec.Valid g)
    (hg' : serverCodec.Valid g') (hlength : g'.2.length = g.2.length) (hb : b'.length = b.length)
    (hleft : b ++ more = g.bytes ++ tail) (hright : b' ++ more' = g'.bytes ++ tail') :
    serverCodec.scan b = .more ∧ serverCodec.scan b' = .more ∨
      ∃ r r', serverCodec.scan b = .frame g r ∧ b = g.bytes ++ r ∧ r ++ more = tail ∧
        serverCodec.scan b' = .frame g' r' ∧ b' = g'.bytes ++ r' ∧ r' ++ more' = tail' := by
  have hbytes : g'.bytes.length = g.bytes.length := by
    rw [Frame.bytes, Frame.bytes, length_makeMessage, length_makeMessage, hlength]
  rcases serverCodec.scan_of_prefix hg hleft with ⟨hscan, hlt⟩ | ⟨r, hscan, rfl, hr⟩ <;>
    rcases serverCodec.scan_of_prefix hg' hright with ⟨hscan', hlt'⟩ | ⟨r', hscan', rfl, hr'⟩
  · exact .inl ⟨hscan, hscan'⟩
  · have hlt₁ : b.length < g.bytes.length := hlt
    have hle : (g'.bytes ++ r').length = b.length := hb
    rw [List.length_append] at hle
    omega
  · have hlt₁ : b'.length < g'.bytes.length := hlt'
    have hle : b'.length = (g.bytes ++ r).length := hb
    rw [List.length_append] at hle
    omega
  · exact .inr ⟨r, r', hscan, rfl, hr, hscan', rfl, hr'⟩

theorem drop_frame (g : Frame) (r : List UInt8) :
    (g.bytes ++ r).drop (headerSize + g.2.length) = r := by
  rw [List.drop_left' (by rw [Frame.bytes, length_makeMessage])]

variable {R : ServerData → ServerData → Prop} {Low : Server → Action → Fd → Prop}
  {P : Server → Action → Prop}

/-- Where the two servers are: still waiting for the frame that differs, with no complete frame left
in the buffer of `c`, or past it, with the same to come. -/
def Phase (R : ServerData → ServerData → Prop) (c : Fd) (f f' : Frame) (rest : List UInt8)
    (all : List Frame) (more more' : List UInt8) (s s' : Server) : Prop :=
  (∃ todo, Pending c f f' rest all todo more more' s s' ∧
    (s.clients.contains c = true → serverCodec.scan (received? c s) = .more)) ∨
  more' = more ∧ Alike R Same s s'

/-- **One frame of the ones to come**, dispatched by both servers. -/
theorem Pending.frame {g : Frame} (h : Pending c f f' rest all (g :: todo) more more' s s')
    (hfd : s.clients.contains c = true) {r r' : List UInt8} (hb : received? c s = g.bytes ++ r)
    (hb' : received? c s' = g.bytes ++ r') :
    Pending c f f' rest all todo more more' (perform host (.frame c g.1 g.2) s)
        (perform host (.frame c g.1 g.2) s') ∧
      Observed host Low s (.frame c g.1 g.2) s' (.frame c g.1 g.2) := by
  have houtcome : OutcomeAlike Eq c (Low s (.frame c g.1 g.2))
      (frameOutcome (host s.served) c g.1 g.2 s.data)
      (frameOutcome (host s.served) c g.1 g.2 s'.data) := by
    rw [h.alike.data]
    exact .of_result_eq rfl rfl
  have hself (cs cs' : ClientState) (hcs : s.clients[c]? = some cs)
    (hcs' : s'.clients[c]? = some cs')
      (hawaits : Only c (Awaits f f' rest (g :: todo) more more') c cs.recvBuffer cs'.recvBuffer) :
      Only c (Awaits f f' rest todo more more') c (cs.recvBuffer.drop (headerSize + g.2.length))
        (cs'.recvBuffer.drop (headerSize + g.2.length)) := by
    rw [received?, hcs] at hb
    rw [received?, hcs'] at hb'
    refine ⟨fun _ ↦ ?_, fun hne ↦ absurd rfl hne⟩
    rw [show cs.recvBuffer = _ from hb, show cs'.recvBuffer = _ from hb', drop_frame, drop_frame]
    exact (hawaits.1 rfl).drop hb hb'
  obtain ⟨halike, hobserved⟩ := h.alike.frame hfd houtcome hself
    fun d hd b b' hbb ↦ ⟨fun heq ↦ absurd heq hd, hbb.2⟩
  refine ⟨⟨halike, ?_, fun x hx ↦ h.valid x (List.mem_cons_of_mem g hx)⟩, hobserved⟩
  rw [framesOn_frame, if_pos rfl, List.append_assoc]
  exact h.frames

/-- **The frame that differs**, dispatched by both servers. -/
theorem Pending.differ (h : Pending c f f' rest all [] more more' s s') (hs : Reachable host s)
    (hfd : s.clients.contains c = true) (C : Covers host R Low P c all f f')
    (hP : P s (.frame c f.1 f.2)) {r r' : List UInt8} (hb : received? c s = f.bytes ++ r)
    (hr : r ++ more = rest) (hb' : received? c s' = f'.bytes ++ r') (hr' : r' ++ more' = rest) :
    more' = more ∧ Alike R Same (perform host (.frame c f.1 f.2) s)
      (perform host (.frame c f'.1 f'.2) s') ∧
      Observed host Low s (.frame c f.1 f.2) s' (.frame c f'.1 f'.2) := by
  obtain ⟨cs, cs', hcs, hcs', hcc⟩ := h.alike.exists_clients hfd
  rw [received?, hcs] at hb
  rw [received?, hcs'] at hb'
  have hbytes : f'.bytes.length = f.bytes.length := by
    rw [Frame.bytes, Frame.bytes, length_makeMessage, length_makeMessage, C.length]
  -- what follows the frame in the buffers is as long, and the start of the same stream
  have hsplit : r' = r ∧ more' = more := by
    refine List.append_inj (hr'.trans hr.symm) ?_
    have hlengths := (hcc.recv.1 rfl).length
    rw [show cs.recvBuffer = _ from hb, show cs'.recvBuffer = _ from hb', List.length_append,
      List.length_append, hbytes] at hlengths
    omega
  have houtcome := C.hides s hs hP (by rw [← h.frames, List.append_nil])
  rw [C.code] at houtcome ⊢
  have hdata : s'.data = s.data := h.alike.data.symm
  rw [← hdata] at houtcome
  refine ⟨hsplit.2, h.alike.frame hfd (hdata ▸ houtcome) (fun x x' hx hx' _ ↦ ?_)
    fun d hd b b' hbb ↦ hbb.2 hd⟩
  obtain rfl := Option.some.inj (hcs.symm.trans hx)
  obtain rfl := Option.some.inj (hcs'.symm.trans hx')
  rw [Same, show cs.recvBuffer = _ from hb, show cs'.recvBuffer = _ from hb', drop_frame,
    drop_frame, hsplit.1]

/-- A frame that is dispatched leaves what is behind it. -/
theorem received?_frame {cs : ClientState} {g : Frame} {r : List UInt8}
    (hcs : s.clients[c]? = some cs) (hr : cs.recvBuffer = g.bytes ++ r) :
    received? c (perform host (.frame c g.1 g.2) s) = r := by
  rw [received?, clients_frame hcs, hcs]
  simp only [Option.map_some, Option.getD_some, if_true]
  rw [hr, drop_frame]

/-- **The receive loop** of `c`: the two servers are indistinguishable in it, and after it still
wait, or are past the frame. -/
theorem Pending.loop {n : ℕ} (h : Pending c f f' rest all todo more more' s s')
    (C : Covers host R Low P c all f f') (hs : Reachable host s) (hfd : s.clients.contains c = true)
    (hfuel : (received? c s).length < n) (hP : Along (perform host) P (loopActions host c n s) s) :
    Indistinguishable host R Low (loopActions host c n s) s (loopActions host c n s') s' ∧
      Phase R c f f' rest all more more' (execute host (loopActions host c n s) s)
        (execute host (loopActions host c n s') s') := by
  induction n generalizing s s' todo with
  | zero => omega
  | succ n ih =>
    obtain ⟨cs, cs', hcs, hcs', hcc⟩ := h.alike.exists_clients hfd
    have hb : received? c s = cs.recvBuffer := by rw [received?, hcs]; rfl
    have hb' : received? c s' = cs'.recvBuffer := by rw [received?, hcs']; rfl
    have hawaits := hcc.recv.1 rfl
    have hdata : R s.data s'.data := h.alike.data ▸ C.refl s.data
    have hvalid' : f'.2.length ≤ 65535 := C.length ▸ C.valid
    rw [loopActions, hb] at hP
    rw [loopActions, loopActions, hb, hb']
    -- is the frame that differs the next one, or is there another before it?
    cases todo with
    | nil =>
      rcases @scan_awaits more more' f f' _ _ rest rest C.valid hvalid' C.length hawaits.length
        hawaits.left hawaits.right with
        ⟨hscan, hscan'⟩ | ⟨r, r', hscan, hr, hrest, hscan', hr', hrest'⟩
      · rw [hscan, hscan']
        exact ⟨.nil hdata, .inl ⟨[], h, fun _ ↦ hb ▸ hscan⟩⟩
      · rw [hscan] at hP
        rw [hscan, hscan']
        obtain ⟨hmore, halike, hobserved⟩ := h.differ hs hfd C hP.1 (hb.trans hr) hrest
          (hb'.trans hr') hrest'
        have hframe : s.Enabled (.frame c f.1 f.2) := ⟨cs, r, hcs, hscan⟩
        have hstill : (perform host (.frame c f.1 f.2) s).clients.contains c = true :=
          (contains_frame hfd f.1 f.2 c).trans hfd
        -- from here on the buffers are the same, so the loop goes on alike
        have hsame := halike.loopActions_eq (n := n) C.keeps (hs.step hframe) hstill hP.2
          fun _ _ ↦ Iff.rfl
        obtain ⟨hrun, hend⟩ := halike.run C.keeps (hs.step hframe) (execute_loopActions hstill).2
          hP.2 fun _ _ _ _ _ ↦ Iff.rfl
        dsimp only
        rw [hsame]
        exact ⟨.cons hdata hobserved hrun, .inr ⟨hmore, hend⟩⟩
    | cons g todo =>
      have hg := h.valid g List.mem_cons_self
      have hleft := hawaits.left
      have hright := hawaits.right
      rw [List.map_cons, List.flatten_cons, List.append_assoc] at hleft hright
      rcases scan_awaits hg hg rfl hawaits.length hleft hright with
        ⟨hscan, hscan'⟩ | ⟨r, r', hscan, hr, -, hscan', hr', -⟩
      · rw [hscan, hscan']
        exact ⟨.nil hdata, .inl ⟨g :: todo, h, fun _ ↦ hb ▸ hscan⟩⟩
      · rw [hscan] at hP
        rw [hscan, hscan']
        obtain ⟨hnext, hobserved⟩ :=
          @Pending.frame host s s' c f f' rest all todo more more' Low g h
          hfd r r' (hb.trans hr) (hb'.trans hr')
        have hframe : s.Enabled (.frame c g.1 g.2) := ⟨cs, r, hcs, hscan⟩
        have hstill : (perform host (.frame c g.1 g.2) s).clients.contains c = true :=
          (contains_frame hfd g.1 g.2 c).trans hfd
        have hshort : (received? c (perform host (.frame c g.1 g.2) s)).length < n := by
          rw [received?_frame hcs hr]
          rw [hb, hr, List.length_append, Frame.bytes, length_makeMessage, headerSize] at hfuel
          omega
        obtain ⟨hrun, hphase⟩ := ih hnext (hs.step hframe) hstill hshort hP.2
        exact ⟨.cons hdata hobserved hrun, hphase⟩

/-! ### One input -/

theorem execute_of_ne {as : List Action} {d : Fd} (h : Executable host as s)
    (hd : ∀ a ∈ as, a.fd ≠ d) :
    framesOn d (execute host as s).trace = framesOn d s.trace ∧
      (execute host as s).clients[d]?.map ClientState.recvBuffer =
        s.clients[d]?.map ClientState.recvBuffer := by
  induction as generalizing s with
  | nil => exact ⟨rfl, rfl⟩
  | cons a as ih =>
    obtain ⟨hframes, hrecv⟩ := ih h.2 fun b hb ↦ hd b (List.mem_cons_of_mem a hb)
    have ha := hd a List.mem_cons_self
    exact ⟨hframes.trans (framesOn_of_ne ha), hrecv.trans (recvBuffer_of_ne h.1 ha)⟩

theorem received_eq_of_map {d : Fd} {t : Server}
    (h : t.clients[d]?.map ClientState.recvBuffer = s.clients[d]?.map ClientState.recvBuffer) :
    t.clients.contains d = s.clients.contains d ∧ received? d t = received? d s := by
  rw [Std.ExtTreeMap.contains_eq_isSome_getElem?, Std.ExtTreeMap.contains_eq_isSome_getElem?,
    received?, received?]
  rcases hs : s.clients[d]? with - | cs <;> rcases ht : t.clients[d]? with - | ct <;>
    rw [hs, ht] at h
  · exact ⟨rfl, rfl⟩
  · cases h
  · cases h
  · exact ⟨rfl, Option.some.inj h⟩

/-- An input of another connection. -/
theorem Pending.elsewhere (h : Pending c f f' rest all todo more more' s s')
    (hscan : s.clients.contains c = true → serverCodec.scan (received? c s) = .more)
    (hR : ∀ data, R data data) (hs : Reachable host s) {i : Input}
    (hopen : ∀ fd, i = .accept fd → isOpen fd s.trace = false) (hi : i.fd ≠ c) :
    Indistinguishable host R Low (actionsOf host i s) s (actionsOf host i s') s' ∧
      Phase R c f f' rest all more more' (feed host i s) (feed host i s') := by
  have hnothing : Along (perform host) (fun _ _ ↦ True) (actionsOf host i s) s :=
    along_iff.2 fun _ _ _ ↦ trivial
  obtain ⟨hrun, halike⟩ := h.alike.feed (keeps_eq Low fun _ _ ↦ True) hs hopen hnothing
    fun b b' ↦ ⟨fun hbb ↦ hbb.2 hi, fun hbb ↦ ⟨fun heq ↦ absurd heq hi, fun _ ↦ hbb⟩⟩
  have hfd : ∀ a ∈ actionsOf host i s, a.fd ≠ c := by
    intro a ha
    rwa [fd_of_mem_actionsOf ha]
  obtain ⟨hframes, hrecv⟩ := execute_of_ne (executable_actions hopen) hfd
  rw [execute_actions] at hframes hrecv
  obtain ⟨hcontains, hreceived⟩ := received_eq_of_map hrecv
  refine ⟨hrun.mono fun _ _ heq ↦ heq ▸ hR _, .inl ⟨todo, ⟨halike, ?_, h.valid⟩, ?_⟩⟩
  · rw [hframes]
    exact h.frames
  · rw [hcontains, hreceived]
    exact hscan

/-- Without a connection, nothing is waited for. -/
theorem Pending.gone {more₁ more₁' : List UInt8} (h : Pending c f f' rest all todo more more' s s')
    (hfd : s.clients.contains c = false) : Phase R c f f' rest all more₁ more₁' s s' := by
  refine .inl ⟨todo, ⟨h.alike.mono fun d hd b b' hbb ↦ ⟨fun heq ↦ ?_, hbb.2⟩, h.frames, h.valid⟩,
    fun htrue ↦ ?_⟩
  · rw [heq, hfd] at hd
    cases hd
  · rw [hfd] at htrue
    cases htrue

/-- The connection is lost before the frame is complete. -/
theorem Pending.disconnect {more₁ more₁' : List UInt8}
    (h : Pending c f f' rest all todo more more' s s') (hR : ∀ data, R data data) :
    Indistinguishable host R Low [.disconnect c] s [.disconnect c] s' ∧
      Phase R c f f' rest all more₁ more₁' (perform host (.disconnect c) s)
        (perform host (.disconnect c) s') := by
  have K : Keeps host Eq Low fun _ _ ↦ True := keeps_eq Low _
  obtain ⟨halike, hmessages⟩ := @Alike.disconnect host s s' Eq _ h.alike K.logout c
  have hnext : Pending c f f' rest all todo more more' (perform host (.disconnect c) s)
      (perform host (.disconnect c) s') :=
    ⟨halike, (congrArg (· ++ todo) (framesOn_disconnect c c)).trans h.frames, h.valid⟩
  refine ⟨.cons (h.alike.data ▸ hR _) (fun d _ ↦ hmessages d) (.nil (halike.data ▸ hR _)),
    hnext.gone ?_⟩
  rw [contains_disconnect, bne_self_eq_false, Bool.false_and]

theorem Awaits.receive {tmp tmp' b b' : List UInt8}
    (h : Awaits f f' rest todo (tmp ++ more) (tmp' ++ more') b b')
    (htmp : tmp'.length = tmp.length) :
    Awaits f f' rest todo more more' (b ++ tmp) (b' ++ tmp') where
  length := by rw [List.length_append, List.length_append, h.length, htmp]
  left := by rw [List.append_assoc, h.left]
  right := by rw [List.append_assoc, h.right]

/-- What `c` sends up to the end of the frame. -/
theorem Pending.input {input input' : Option (List UInt8)}
    (h : Pending c f f' rest all todo (input.getD [] ++ more) (input'.getD [] ++ more') s s')
    (hinput : Option.Rel (fun tmp tmp' ↦ tmp'.length = tmp.length) input input')
    (hscan : serverCodec.scan (received? c s) = .more) (C : Covers host R Low P c all f f')
    (hs : Reachable host s) (hfd : s.clients.contains c = true)
    (hP : Along (perform host) P (inputActions host c input s) s) :
    Indistinguishable host R Low (inputActions host c input s) s
        (inputActions host c input' s') s' ∧
      Phase R c f f' rest all more more' (execute host (inputActions host c input s) s)
        (execute host (inputActions host c input' s') s') := by
  have hdata : R s.data s'.data := h.alike.data ▸ C.refl s.data
  cases hinput with
  | none => exact ⟨.nil hdata, .inl ⟨todo, h, fun _ ↦ hscan⟩⟩
  | @some tmp tmp' htmp =>
    have hempty : tmp'.isEmpty = tmp.isEmpty := by
      rw [Bool.eq_iff_iff, List.isEmpty_iff_length_eq_zero, List.isEmpty_iff_length_eq_zero, htmp]
    rw [inputActions, readActions] at hP
    rw [inputActions, inputActions, readActions, readActions, hempty]
    split_ifs at hP ⊢ with hnone
    · exact h.disconnect C.refl
    · have hreceive : s.Enabled (.receive c tmp) := ⟨hfd, by simpa using hnone⟩
      have hstill : (perform host (.receive c tmp) s).clients.contains c = true :=
        (contains_modifyClient hfd _ c).trans hfd
      have halike : Alike Eq (Only c (Awaits f f' rest todo more more'))
          (perform host (.receive c tmp) s) (perform host (.receive c tmp') s') :=
        h.alike.receive hfd
          (fun b b' hbb ↦ ⟨fun _ ↦ (hbb.1 rfl).receive htmp, fun hne ↦ absurd rfl hne⟩)
          fun d hd b b' hbb ↦ ⟨fun heq ↦ absurd heq hd, hbb.2⟩
      have hnext : Pending c f f' rest all todo more more' (perform host (.receive c tmp) s)
          (perform host (.receive c tmp') s') := ⟨halike, h.frames, h.valid⟩
      have hbuf := @received_receive host c s hfd tmp
      have hlengths : (received? c s' ++ tmp').length = (received? c s ++ tmp).length := by
        obtain ⟨cs, cs', hcs, hcs', hcc⟩ := h.alike.exists_clients hfd
        rw [received?, received?, hcs, hcs', List.length_append, List.length_append, htmp]
        exact congrArg (· + tmp.length) (hcc.recv.1 rfl).length
      obtain ⟨hrun, hphase⟩ := hnext.loop C (hs.step hreceive) hstill
        (hbuf ▸ Nat.lt_succ_self (received? c s ++ tmp).length) hP.2
      rw [hlengths]
      refine ⟨.cons hdata (fun d _ ↦ ?_) hrun, hphase⟩
      rw [newMessages_quiet (by simp) (by simp), newMessages_quiet (by simp) (by simp)]

theorem framesOn_write (fd : Fd) (n : ℕ) (d : Fd) :
    framesOn d (perform host (.write fd n) s).trace = framesOn d s.trace :=
  (framesOn_append d s.trace _).trans (List.append_nil _)

/-- Bytes are written to `c`, or it is lost doing so. -/
theorem Phase.output (h : Phase R c f f' rest all more more' s s')
    (C : Covers host R Low P c all f f') (hs : Reachable host s) (hfd : s.clients.contains c = true)
    (output : Option (Option ℕ)) (hP : Along (perform host) P (outputActions c output s) s) :
    Indistinguishable host R Low (outputActions c output s) s (outputActions c output s') s' ∧
      Phase R c f f' rest all more more' (execute host (outputActions c output s) s)
        (execute host (outputActions c output s') s') := by
  rcases h with ⟨todo, h, hscan⟩ | ⟨hmore, h⟩
  · rw [h.alike.outputActions_eq hfd]
    have hdata : R s.data s'.data := h.alike.data ▸ C.refl s.data
    -- the writes are the same in both, and leave the receive buffers alone
    have hstay : Indistinguishable host R Low [] s [] s' ∧
        Phase R c f f' rest all more more' s s' :=
      ⟨.nil hdata, .inl ⟨todo, h, hscan⟩⟩
    rcases output with - | written
    · exact hstay
    · rw [outputActions, writeActions.eq_def]
      split_ifs
      · exact hstay
      · cases written with
        | none => exact h.disconnect C.refl
        | some n =>
          have halike : Alike Eq (Only c (Awaits f f' rest todo more more'))
              (perform host (.write c n) s) (perform host (.write c n) s') := h.alike.write hfd n
          have hframes : framesOn c (perform host (.write c n) s).trace = framesOn c s.trace :=
            framesOn_write c n c
          obtain ⟨cs, hcs⟩ := (IntMap.contains_iff _).1 hfd
          have hreceived : received? c (perform host (.write c n) s) = received? c s := by
            rw [received?, perform, record]
            dsimp only
            rw [get_modifyClient_self hcs, received?, hcs]
            rfl
          refine ⟨.cons hdata (fun d _ ↦ ?_) (.nil (halike.data ▸ C.refl _)),
            .inl ⟨todo, ⟨halike, ?_, h.valid⟩, fun _ ↦ ?_⟩⟩
          · rw [newMessages_quiet (by simp) (by simp), newMessages_quiet (by simp) (by simp)]
          · exact (congrArg (· ++ todo) hframes).trans h.frames
          · exact (congrArg _ hreceived).trans (hscan hfd)
  · obtain ⟨-, hexecutable⟩ := @execute_outputActions host c s output hfd
    obtain ⟨hrun, hend⟩ := h.run C.keeps hs hexecutable hP fun _ _ _ _ _ ↦ Iff.rfl
    rw [h.outputActions_eq hfd]
    exact ⟨hrun, .inr ⟨hmore, hend⟩⟩

theorem Phase.contains (h : Phase R c f f' rest all more more' s s') (d : Fd) :
    s'.clients.contains d = s.clients.contains d := by
  rcases h with ⟨_, h, -⟩ | ⟨-, h⟩
  · exact h.alike.contains d
  · exact h.contains d

/-- **What `poll` reports of `c`**, in both servers. -/
theorem Pending.client {error : Bool} {input input' : Option (List UInt8)}
    (output : Option (Option ℕ))
    (h : Pending c f f' rest all todo (input.getD [] ++ more) (input'.getD [] ++ more') s s')
    (hinput : Option.Rel (fun tmp tmp' ↦ tmp'.length = tmp.length) input input')
    (hscan : s.clients.contains c = true → serverCodec.scan (received? c s) = .more)
    (C : Covers host R Low P c all f f') (hs : Reachable host s)
    (hP : Along (perform host) P (clientActions host c ⟨error, input, output⟩ s) s) :
    Indistinguishable host R Low (clientActions host c ⟨error, input, output⟩ s) s
        (clientActions host c ⟨error, input', output⟩ s') s' ∧
      Phase R c f f' rest all more more'
        (execute host (clientActions host c ⟨error, input, output⟩ s) s)
        (execute host (clientActions host c ⟨error, input', output⟩ s') s') := by
  have hdata : R s.data s'.data := h.alike.data ▸ C.refl s.data
  rw [clientActions] at hP
  rw [clientActions, clientActions, h.alike.contains c]
  cases hfd : s.clients.contains c with
  | false => exact ⟨.nil hdata, h.gone hfd⟩
  | true =>
    rw [hfd] at hP
    simp only [Bool.not_true, Bool.false_eq_true, if_false] at hP ⊢
    cases error with
    | true => exact h.disconnect C.refl
    | false =>
      simp only [Bool.false_eq_true, if_false] at hP ⊢
      rw [along_append] at hP
      obtain ⟨hrun, hphase⟩ := h.input hinput (hscan hfd) C hs hfd hP.1
      obtain ⟨-, hexecutable⟩ := @execute_inputActions host c s input hfd
      have hmid : Reachable host (execute host (inputActions host c input s) s) :=
        hs.steps (steps_execute hexecutable)
      rw [hphase.contains c, execute_append, execute_append]
      cases hstill : (execute host (inputActions host c input s) s).clients.contains c with
      | false =>
        simp only [Bool.not_false, if_true, List.append_nil]
        exact ⟨hrun, hphase⟩
      | true =>
        have hP₂ := hP.2
        rw [hstill] at hP₂
        simp only [Bool.not_true, Bool.false_eq_true, if_false] at hP₂ ⊢
        obtain ⟨hrun', hphase'⟩ := hphase.output C hmid hstill output hP₂
        exact ⟨hrun.append hrun', hphase'⟩

/-! ### All inputs -/

/-- **One input.** -/
theorem Phase.feed {i i' : Input} (hi : SameShape c i i') (hne : i ≠ .accept c)
    (h : Phase R c f f' rest all (delivered c [i] ++ more) (delivered c [i'] ++ more') s s')
    (C : Covers host R Low P c all f f') (hs : Reachable host s)
    (hopen : ∀ fd, i = .accept fd → isOpen fd s.trace = false)
    (hP : Along (perform host) P (actionsOf host i s) s) :
    Indistinguishable host R Low (actionsOf host i s) s (actionsOf host i' s') s' ∧
      Phase R c f f' rest all more more' (Server.feed host i s) (Server.feed host i' s') := by
  rcases h with ⟨todo, h, hscan⟩ | ⟨hmore, h⟩
  · by_cases hfd : i.fd = c
    · rcases i with fd | ⟨fd, error, input, output⟩
      · exact absurd (congrArg Input.accept hfd) hne
      · obtain rfl : fd = c := hfd
        rw [← execute_actions, ← execute_actions]
        cases hi with
        | same =>
          rw [delivered_client] at h
          refine h.client output ?_ hscan C hs hP
          rcases input with - | tmp
          · exact .none
          · exact .some rfl
        | read htmp =>
          rw [delivered_client, delivered_client] at h
          exact h.client output (.some htmp) hscan C hs hP
    · obtain rfl : i' = i := by
        cases hi with
        | same => rfl
        | read => exact absurd rfl hfd
      rw [delivered_of_ne hfd] at h
      exact h.elsewhere hscan C.refl hs hopen hfd
  · obtain ⟨hfirst, hlater⟩ := List.append_inj hmore hi.length_delivered
    obtain rfl : i' = i := List.head_eq_of_cons_eq (eq_of_delivered_eq (.cons hi .nil) hfirst)
    obtain ⟨hrun, halike⟩ := h.feed C.keeps hs hopen hP fun _ _ ↦ Iff.rfl
    exact ⟨hrun, .inr ⟨hlater, halike⟩⟩

/-- **All inputs up to the next life of the descriptor.** -/
theorem Phase.feedAll {is is' : List Input} (hshape : List.Forall₂ (SameShape c) is is')
    (hne : ∀ i ∈ is, i ≠ .accept c)
    (h : Phase R c f f' rest all (delivered c is) (delivered c is') s s')
    (C : Covers host R Low P c all f f') (hs : Reachable host s)
    (hadmissible : Admissible host is s) (hP : Along (perform host) P (actions host is s) s) :
    Indistinguishable host R Low (actions host is s) s (actions host is' s') s' ∧
      Phase R c f f' rest all [] [] (Server.feedAll host is s) (Server.feedAll host is' s') := by
  induction hshape generalizing s s' with
  | nil =>
    refine ⟨.nil ?_, h⟩
    rcases h with ⟨_, h, -⟩ | ⟨-, h⟩
    · exact h.alike.data ▸ C.refl _
    · exact h.data
  | @cons i i' is is' hi _ ih =>
    rw [actions, along_append] at hP
    have hnext (i : Input) (s : Server) :
        Lockstep.run (perform host) (actionsOf host i s) s = Server.feed host i s :=
          execute_actions i s
    rw [delivered_cons, delivered_cons c i'] at h
    obtain ⟨hfirst, hphase⟩ := h.feed hi (hne i List.mem_cons_self) C hs hadmissible.1 hP.1
    obtain ⟨hrest, hend⟩ := ih (fun j hj ↦ hne j (List.mem_cons_of_mem i hj)) hphase
      (hs.feed hadmissible.1) hadmissible.2 (hnext i s ▸ hP.2)
    exact ⟨hfirst.append (by rw [hnext, hnext]; exact hrest), hend⟩

/-- With nothing more to come, nobody waits. -/
theorem Phase.past (h : Phase R c f f' rest all [] [] s s') (C : Covers host R Low P c all f f') :
    Alike R Same s s' := by
  rcases h with ⟨todo, h, hscan⟩ | ⟨-, h⟩
  · have hgone : s.clients.contains c = false := by
      -- a connection that waits has a complete frame in its buffer
      by_contra hfd
      rw [Bool.not_eq_false] at hfd
      obtain ⟨cs, cs', hcs, -, hcc⟩ := h.alike.exists_clients hfd
      have hleft := (hcc.recv.1 rfl).left
      have hmore := hscan hfd
      rw [received?, hcs] at hmore
      rw [List.append_nil] at hleft
      obtain ⟨g, tail, hg, hb⟩ : ∃ g tail, serverCodec.Valid g ∧
          cs.recvBuffer = g.bytes ++ tail := by
        cases todo with
        | nil => exact ⟨f, rest, C.valid, hleft⟩
        | cons g todo =>
          rw [List.map_cons, List.flatten_cons, List.append_assoc] at hleft
          exact ⟨g, _, h.valid g List.mem_cons_self, hleft⟩
      rw [show (some cs).getD default = cs from rfl, hb] at hmore
      cases hmore.symm.trans (serverCodec.scan_enc tail hg)
    have hsame : Alike Eq Same s s' := h.alike.mono fun d hd b b' hbb ↦
      hbb.2 fun heq ↦ Bool.false_ne_true (hgone.symm.trans (heq ▸ hd))
    exact ⟨hsame.data ▸ C.refl _, hsame.clients, hsame.served⟩
  · exact h

/-- A connection just accepted waits for everything. -/
theorem exists_pending {before : List Frame} {is is' : List Input}
    (hv : Varies c before f f' is is') (t : Server) :
    ∃ rest, Pending c f f' rest (framesOn c t.trace ++ before) before (delivered c is)
      (delivered c is') (perform host (.accept c) t) (perform host (.accept c) t) := by
  obtain ⟨rest, hleft, hright⟩ := hv.stream
  refine ⟨rest, ⟨rfl, fun d ↦ ?_, rfl⟩, ?_, fun g hg ↦ hv.valid g (List.mem_append_left _ hg)⟩
  · show Option.Rel _ (t.clients.insert c ⟨c, [], []⟩)[d]? (t.clients.insert c ⟨c, [], []⟩)[d]?
    rw [IntMap.get_insert]
    split_ifs with hd
    · exact .some ⟨⟨fun _ ↦ ⟨rfl, hleft, hright⟩, fun hne ↦ absurd hd.symm hne⟩, rfl⟩
    · cases t.clients[d]? with
      | none => exact .none
      | some cs => exact .some ⟨⟨fun heq ↦ absurd heq.symm hd, fun _ ↦ rfl⟩, rfl⟩
  · exact congrArg (· ++ before) ((framesOn_append c t.trace _).trans (List.append_nil _))

/-- **Two runs that differ in one frame** are related by a relation that covers the difference, and
those that `Low` allows see the same. -/
theorem DifferInFrame.indistinguishable {is is' : List Input}
    (h : DifferInFrame host c all f f' is is') (hadmissible : Admissible host is Server.init)
    (K : Keeps host R Low P) (hR : ∀ data, R data data) (hides : Hides host R Low P c all f f')
    (hP : Along (perform host) P (actions host is Server.init) Server.init) :
    Indistinguishable host R Low (actions host is Server.init) Server.init
      (actions host is' Server.init) Server.init := by
  obtain ⟨pre, middle, middle', post, before, rfl, rfl, rfl, hv⟩ := h
  have C : Covers host R Low P c (framesOn c (feedAll host pre Server.init).trace ++ before) f f' :=
    ⟨K, hR, hides, hv.valid f (List.mem_append_right _ (List.mem_singleton_self f)), hv.code,
      hv.length⟩
  -- up to `accept` the inputs are the same
  obtain ⟨hpre, haccept, hrest⟩ := admissible_append.1 hadmissible
  have hreachable : Reachable host (feedAll host pre Server.init) := reachable_feedAll hpre
  rw [actions_append, along_append, run_actions] at hP
  rw [actions_append, actions_append]
  refine (Indistinguishable.refl hR _ _).append ?_
  rw [run_actions]
  generalize feedAll host pre Server.init = t at *
  have hs : Reachable host (perform host (.accept c) t) := hreachable.step (haccept c rfl)
  have hnext : Along (perform host) P (actions host (middle ++ post) (perform host (.accept c) t))
      (perform host (.accept c) t) := hP.2.2
  have hadmissible' : Admissible host (middle ++ post) (perform host (.accept c) t) := hrest
  -- the life of the connection that carries the frame, and what comes after it
  rw [actions_append, along_append, run_actions] at hnext
  obtain ⟨hfirst, hlast⟩ := admissible_append.1 hadmissible'
  obtain ⟨rest, hpending⟩ := @exists_pending host c f f' before middle middle' hv t
  have hnone : serverCodec.scan (received? c (perform host (.accept c) t)) = .more := by
    have hclient : (perform host (.accept c) t).clients[c]? = some ⟨c, [], []⟩ :=
      IntMap.get_insert_self _ _ _
    rw [received?, hclient]
    exact serverCodec.scan_nil
  obtain ⟨hrun, hphase⟩ := Phase.feedAll hv.shape hv.connection
    (.inl ⟨before, hpending, fun _ ↦ hnone⟩) C hs hfirst hnext.1
  obtain ⟨hrun', -⟩ := (hphase.past C).feedAll K (hs.feedAll hfirst) hlast hnext.2
  refine .cons (hR _) (fun _ _ ↦ rfl) ?_
  show Indistinguishable host R Low (actions host (middle ++ post) (perform host (.accept c) t)) _
    (actions host (middle' ++ post) (perform host (.accept c) t)) _
  rw [actions_append, actions_append]
  refine hrun.append ?_
  rw [run_actions, run_actions]
  exact hrun'

end Loop

/-! ### The moment of the frame -/

section Moment

variable {c : Fd} {f : Frame} {all : List Frame}

theorem length_framesOn_perform (a : Action) (d : Fd) :
    (framesOn d s.trace).length ≤ (framesOn d (perform host a s).trace).length := by
  obtain ⟨t, ht, -⟩ := trace_perform host s a
  rw [ht, framesOn_append, List.length_append]
  exact Nat.le_add_right _ _

theorem along_of_passed {as : List Action} (h : all.length < (framesOn c s.trace).length) :
    Along (perform host) (fun s _ ↦ framesOn c s.trace ≠ all) as s := by
  induction as generalizing s with
  | nil => trivial
  | cons a as ih =>
    exact ⟨fun heq ↦ (heq ▸ h).ne rfl, ih (h.trans_le (length_framesOn_perform a c))⟩

/-- **The frame is dispatched at one moment**, so what the state is then can be given a name. -/
theorem exists_at_moment {α : Type} [Inhabited α] (value : Server → α) (as : List Action)
    (s : Server) : ∃ v, Along (perform host)
      (fun s a ↦ a = .frame c f.1 f.2 → framesOn c s.trace = all → value s = v) as s := by
  induction as generalizing s with
  | nil => exact ⟨default, trivial⟩
  | cons a as ih =>
    by_cases hnow : a = .frame c f.1 f.2 ∧ framesOn c s.trace = all
    · refine ⟨value s, fun _ _ ↦ rfl, along_iff.2 fun k b hb _ heq ↦ ?_⟩
      -- it has been dispatched, and is not dispatched again
      have hpassed : all.length < (framesOn c (perform host a s).trace).length := by
        rw [hnow.1, framesOn_frame, if_pos rfl, hnow.2, List.length_append]
        exact Nat.lt_succ_self _
      exact absurd heq (along_iff.1 (along_of_passed hpassed) k b hb)
    · obtain ⟨v, hv⟩ := ih (perform host a s)
      exact ⟨v, fun ha heq ↦ absurd ⟨ha, heq⟩ hnow, hv⟩

end Moment

end Server

end MyTeams
