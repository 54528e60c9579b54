import MyTeams.Client.Calls
import MyTeams.Client.Typing

/-!
# The loop of the client

`Client::run`: `poll` on the standard input and on the socket, and the three handlers, in that
order.

The loop depends on what comes from outside in three ways only, and on none of them through the cuts
that `read` makes or the order in which the two descriptors become ready (`run_spec`): what is typed
decides what is sent, what the server says decides what is handled, and the loop is left in the
first turn with which it has been told to end.
-/

namespace MyTeams

open ByteField FrameStream

namespace Client

/-- What a call of `poll` comes back with, and the reads that follow it. -/
inductive Polled
  /-- `EINTR`. -/
  | interrupted
  /-- Another error, with its text. -/
  | failed (error : Str)
  /-- What is ready. `stdin` and `input` are what `read` returns for the standard input and for the
  socket, when they are ready; `output` and `hangup` are `POLLOUT`, and `POLLHUP` or `POLLERR`. -/
  | ready (stdin : Option Str) (output : Bool) (input : Option (List UInt8)) (hangup : Bool)

section Loop

variable (io : ℕ → Option ℕ)

/-- The body of the loop of `run`, when `poll` reports what is ready. -/
def turn (stdin : Option Str) (output : Bool) (input : Option (List UInt8)) (hangup : Bool)
    (c : Client) : Client :=
  let c := stdin.elim c fun buf ↦ handleStdin io buf c
  let c := if output then handleServerWrite io c else c
  let c := input.elim c fun tmp ↦ handleServerRead tmp c
  if hangup then { c.print (text "Server disconnected.\n") with running := false } else c

/-- `run`, once `_running` is set, and whether the loop was left. With no turn left it waits in
`poll`. -/
def run : List Polled → Client → Client × Bool
  | [], c => (c, !c.running)
  | polled :: turns, c =>
    if !c.running then (c, true)
    else
      match polled with
      | .interrupted => run turns c
      | .failed error => (c.print (text "poll: " ++ error ++ text "\n"), true)
      | .ready stdin output input hangup => run turns (turn io stdin output input hangup c)

end Loop

/-! ### What comes from outside -/

/-- What is typed in a turn. -/
def Polled.typed : Polled → Str
  | .ready stdin _ _ _ => stdin.getD []
  | _ => []

/-- What is received in a turn. -/
def Polled.received : Polled → List UInt8
  | .ready _ _ input _ => input.getD []
  | _ => []

/-- Whether a turn ends the loop by itself: `poll` fails or reports a hangup, or a read finds the
end of its stream. -/
def Polled.ends : Polled → Bool
  | .interrupted => false
  | .failed _ => true
  | .ready stdin _ input hangup => stdin == some [] || input == some [] || hangup

/-- Whether there is a response to a logout in what is received. -/
def loggedOut (r : List UInt8) : Bool :=
  (clientCodec.parse r).frames.any fun f ↦ f.1 == (ServerCode.res .logoutOk).code

/-- Whether the loop has been told to end: by a turn, or by a response to a logout. -/
def ended (turns : List Polled) : Bool :=
  turns.any Polled.ends || loggedOut (turns.flatMap Polled.received)

/-! ### Who clears `_running` -/

variable {io : ℕ → Option ℕ} {c : Client}

variable (io c) in
theorem running_handleServerWrite : (handleServerWrite io c).running = c.running := by
  obtain h | h | ⟨n, h⟩ := handleServerWrite_cases io c
  · rw [h]
  · rw [h]
  · rw [h]
    rfl

theorem running_handleLine (line : Str) : (handleLine io line c).running = c.running := by
  rw [handleLine]
  split_ifs
  · rfl
  · cases hparse : parseLine line with
    | error e => rfl
    | ok cmd =>
      obtain ⟨a, ha⟩ := determined_dispatch c.useLevel cmd
      show (dispatch io cmd c).running = c.running
      rw [show dispatch io cmd c = a.perform io c from ha io c rfl]
      cases a with
      | print s => rfl
      | send cmd payload => exact running_handleServerWrite io _
      | use payload => exact running_handleServerWrite io _

/-- Only the end of the input. -/
theorem running_handleStdin (buf : Str) :
    (handleStdin io buf c).running = (c.running && !buf.isEmpty) := by
  have hloop (n : ℕ) (c : Client) : (stdinLoop io n c).running = c.running := by
    induction n generalizing c with
    | zero => rfl
    | succ n ih =>
      rw [stdinLoop]
      split
      · rfl
      · exact (ih _).trans (running_handleLine _)
  rw [handleStdin]
  split_ifs with hbuf
  · rw [hbuf, Bool.not_true, Bool.and_false]
  · rw [Bool.not_eq_true] at hbuf
    rw [hbuf, Bool.not_false, Bool.and_true]
    exact hloop _ _

/-- Only the response to a logout. -/
theorem running_handleResponse (code : UInt16) (p : List UInt8) :
    (c.handleResponse code p).running =
      (c.running && code != (ServerCode.res .logoutOk).code) := by
  rw [handleResponse]
  cases hcode : ServerCode.ofCode? code with
  | none =>
    have hne : code ≠ (ServerCode.res .logoutOk).code := by
      rintro rfl
      rw [ServerCode.ofCode?_code] at hcode
      cases hcode
    rw [bne_iff_ne.2 hne, Bool.and_true]
    rfl
  | some k =>
    have hk : k.code = code := ServerCode.code_of_ofCode? hcode
    dsimp only
    rw [foldl_call]
    by_cases hlogout : k = .res .logoutOk
    · rw [← hk, hlogout, bne_self_eq_false, Bool.and_false]
      rfl
    · have hne : code ≠ (ServerCode.res .logoutOk).code := fun h ↦
        hlogout (ServerCode.code_injective (hk.trans h))
      rw [bne_iff_ne.2 hne, Bool.and_true]
      show (applyResponse k _ (c.record (.handled code p))).running = c.running
      unfold applyResponse
      split
      · rfl
      · exact absurd rfl hlogout
      · rfl

theorem running_processRecvLoop {n : ℕ} (hn : c.recvBuf.length < n) :
    (processRecvLoop n c).running = (c.running && !loggedOut c.recvBuf) := by
  induction n generalizing c with
  | zero => omega
  | succ n ih =>
    rw [processRecvLoop_succ]
    rcases hscan : clientCodec.scan c.recvBuf with - | - | ⟨f, rest⟩
    · rw [loggedOut, clientCodec.parse_of_more hscan]
      exact (Bool.and_true _).symm
    · exact absurd hscan (clientCodec_scan_ne_refuse _)
    · have hshort := clientCodec.rest_lt_of_scan hscan
      have hbuf := (handled_handleResponse f.1 f.2 { c with recvBuf := rest }).2
      dsimp only
      rw [ih (by rw [hbuf]; dsimp only; omega), hbuf, running_handleResponse, loggedOut, loggedOut,
        clientCodec.parse_of_frame hscan, List.any_cons, Bool.not_or, Bool.and_assoc]
      rfl

/-- The end of the stream, and the response to a logout. -/
theorem running_handleServerRead (tmp : List UInt8) :
    (handleServerRead tmp c).running =
      (c.running && !tmp.isEmpty && !loggedOut (c.recvBuf ++ tmp)) := by
  rw [handleServerRead]
  split_ifs with htmp
  · rw [htmp, Bool.not_true, Bool.and_false, Bool.false_and]
  · rw [Bool.not_eq_true] at htmp
    rw [htmp, Bool.not_false, Bool.and_true]
    exact running_processRecvLoop (c := { c with recvBuf := c.recvBuf ++ tmp }) (Nat.lt_succ_self _)

/-! ### The run -/

/-- The client has taken in what is typed in `s` and received in `r`. -/
structure Took (s : Str) (r : List UInt8) (c : Client) : Prop where
  /-- The commands typed were dispatched, and what comes after the last newline is kept. -/
  typed : HasTyped init s c
  /-- The frames received were handled. -/
  handled : c.handled = (clientCodec.parse r).frames
  /-- What comes after the last whole frame is kept. -/
  recvBuf : (clientCodec.parse r).rest = some c.recvBuf

section Took

variable {s : Str} {r : List UInt8}

theorem took_init : Took [] [] init := ⟨hasTyped_self (by decide), rfl, rfl⟩

/-- What leaves the two buffers and the history alone, but for prints. -/
theorem Took.quiet {c' : Client} (h : Took s r c) (htyped : HasTyped init s c')
    (hquiet : Quiet c c') :
    Took s r c' :=
  ⟨htyped, hquiet.handled.trans h.handled, hquiet.recvBuf ▸ h.recvBuf⟩

theorem Took.type (h : Took s r c) (buf : Str) : Took (s ++ buf) r (handleStdin io buf c) := by
  have hquiet : Quiet c (handleStdin io buf c) := quiet_handleStdin buf c
  exact ⟨h.typed.type io buf, hquiet.handled.trans h.handled, hquiet.recvBuf ▸ h.recvBuf⟩

theorem Took.flush (h : Took s r c) : Took s r (handleServerWrite io c) :=
  h.quiet h.typed.flush (quiet_handleServerWrite c)

/-- The bytes that the receive buffer holds are continued by those that come next. -/
theorem Took.parse_append (h : Took s r c) (tmp : List UInt8) :
    clientCodec.parse (r ++ tmp) =
      ⟨c.handled ++ (clientCodec.parse (c.recvBuf ++ tmp)).frames,
        (clientCodec.parse (c.recvBuf ++ tmp)).rest⟩ := by
  rw [clientCodec.parse_append, FrameCodec.absorb, h.recvBuf, h.handled]

/-- The receive buffer holds no whole frame. -/
theorem Took.parse_recvBuf (h : Took s r c) :
    clientCodec.parse c.recvBuf = ⟨[], some c.recvBuf⟩ := by
  obtain ⟨-, tail, -, htail⟩ := clientCodec.parse_spec r
  rw [h.recvBuf] at htail
  obtain ⟨rfl, hmore⟩ := htail
  exact clientCodec.parse_of_more hmore

theorem Took.read (h : Took s r c) (tmp : List UInt8) :
    Took s (r ++ tmp) (handleServerRead tmp c) := by
  rcases eq_or_ne tmp [] with rfl | htmp
  · rw [List.append_nil]
    have hprint := quiet_print (text "Server disconnected.\n") c
    exact h.quiet (h.typed.read []) (hprint.trans (.of_eq rfl rfl))
  · obtain ⟨hhandled, hrest, -⟩ := handleServerRead_eq htmp c
    have hparse := h.parse_append tmp
    exact ⟨h.typed.read tmp, hhandled.trans (congrArg Parsed.frames hparse).symm,
      (congrArg Parsed.rest hparse).trans hrest.symm⟩

theorem Took.loggedOut_append (h : Took s r c) (tmp : List UInt8) :
    loggedOut (r ++ tmp) = (loggedOut r || loggedOut (c.recvBuf ++ tmp)) := by
  rw [loggedOut, h.parse_append, List.any_append, h.handled]
  rfl

theorem Took.loggedOut_recvBuf (h : Took s r c) : loggedOut c.recvBuf = false := by
  rw [loggedOut, h.parse_recvBuf]
  rfl

theorem Took.recvBuf_eq {s' : Str} {c' : Client} (h : Took s r c) (h' : Took s' r c') :
    c'.recvBuf = c.recvBuf :=
  Option.some.inj (h'.recvBuf.symm.trans h.recvBuf)

variable (io) in
/-- **One turn** takes in what is typed and received in it, and the loop goes on unless it is told
to end. -/
theorem Took.next (h : Took s r c) (stdin : Option Str) (output : Bool)
    (input : Option (List UInt8)) (hangup : Bool) :
    Took (s ++ stdin.getD []) (r ++ input.getD []) (turn io stdin output input hangup c) ∧
      (turn io stdin output input hangup c).running = (c.running &&
        !(stdin == some [] || input == some [] || hangup) &&
          !loggedOut (c.recvBuf ++ input.getD [])) := by
  -- the three handlers, in the order of the source
  obtain ⟨c₁, hc₁⟩ : ∃ c₁, c₁ = stdin.elim c fun buf ↦ handleStdin io buf c := ⟨_, rfl⟩
  have htyped : Took (s ++ stdin.getD []) r c₁ ∧
      c₁.running = (c.running && !(stdin == some [])) := by
    subst hc₁
    cases stdin with
    | none =>
      rw [Option.getD_none, List.append_nil]
      exact ⟨h, (Bool.and_true _).symm⟩
    | some buf =>
      refine ⟨h.type buf, (running_handleStdin buf).trans ?_⟩
      cases buf <;> rfl
  obtain ⟨c₂, hc₂⟩ : ∃ c₂, c₂ = if output then handleServerWrite io c₁ else c₁ := ⟨_, rfl⟩
  have hflushed : Took (s ++ stdin.getD []) r c₂ ∧ c₂.running = c₁.running := by
    subst hc₂
    cases output with
    | false => exact ⟨htyped.1, rfl⟩
    | true => exact ⟨htyped.1.flush, running_handleServerWrite io c₁⟩
  obtain ⟨c₃, hc₃⟩ : ∃ c₃, c₃ = input.elim c₂ fun tmp ↦ handleServerRead tmp c₂ := ⟨_, rfl⟩
  have hread : Took (s ++ stdin.getD []) (r ++ input.getD []) c₃ ∧ c₃.running =
      (c₂.running && !(input == some []) && !loggedOut (c₂.recvBuf ++ input.getD [])) := by
    subst hc₃
    cases input with
    | none =>
      rw [Option.getD_none, List.append_nil, List.append_nil, hflushed.1.loggedOut_recvBuf]
      exact ⟨hflushed.1, by rw [Bool.not_false, Bool.and_true]; exact (Bool.and_true _).symm⟩
    | some tmp =>
      refine ⟨hflushed.1.read tmp, (running_handleServerRead tmp).trans ?_⟩
      cases tmp <;> rfl
  have hturn : turn io stdin output input hangup c =
      if hangup then { c₃.print (text "Server disconnected.\n") with running := false } else
        c₃ := by
    rw [hc₃, hc₂, hc₁]
    rfl
  have hrunning : c₃.running = (c.running && !(stdin == some [] || input == some []) &&
      !loggedOut (c.recvBuf ++ input.getD [])) := by
    rw [hread.2, hflushed.2, htyped.2, h.recvBuf_eq hflushed.1, Bool.not_or,
      Bool.and_assoc c.running]
  rw [hturn]
  cases hangup with
  | false => exact ⟨hread.1, by rw [Bool.or_false]; exact hrunning⟩
  | true =>
    have hprint := quiet_print (text "Server disconnected.\n") c₃
    refine ⟨hread.1.quiet (hread.1.typed.of_eq (outcome_print _) rfl)
      (hprint.trans (.of_eq rfl rfl)), ?_⟩
    rw [Bool.or_true, Bool.not_true, Bool.and_false, Bool.false_and]
    rfl

/-- Being told to end, in the last turn or before. -/
theorem Took.ended_append {turns : List Polled} (h : Took s (turns.flatMap Polled.received) c)
    (q : Polled) :
    ended (turns ++ [q]) = (ended turns || (q.ends || loggedOut (c.recvBuf ++ q.received))) := by
  rw [ended, List.any_append, List.flatMap_append, List.flatMap_cons, List.flatMap_nil,
    List.append_nil, h.loggedOut_append, List.any_cons, List.any_nil, Bool.or_false, ended]
  cases turns.any Polled.ends <;> cases loggedOut (turns.flatMap Polled.received) <;>
    cases q.ends <;> rfl

end Took

variable (io) in
/-- Between two turns, whatever is still to come. -/
theorem run_from {done : List Polled} (turns : List Polled)
    (htook : Took (done.flatMap Polled.typed) (done.flatMap Polled.received) c)
    (hrunning : c.running = !ended done) (hfirst : ∀ q, q <+: done → q ≠ done → ended q = false) :
    ∃ taken rest, done ++ turns = taken ++ rest ∧
      Took (taken.flatMap Polled.typed) (taken.flatMap Polled.received) (run io turns c).1 ∧
      (run io turns c).2 = ended taken ∧ (ended taken = false → rest = []) ∧
      ∀ q, q <+: taken → q ≠ taken → ended q = false := by
  induction turns generalizing done c with
  | nil =>
    refine ⟨done, [], rfl, htook, ?_, fun _ ↦ rfl, hfirst⟩
    show (!c.running) = ended done
    rw [hrunning, Bool.not_not]
  | cons polled turns ih =>
    rcases hended : ended done with - | -
    · rw [hended] at hrunning
      -- the turn is taken, and up to it nothing had ended the loop
      have hnext : ∀ q, q <+: done ++ [polled] → q ≠ done ++ [polled] → ended q = false := by
        intro q hq hne
        rcases List.prefix_concat_iff.1 hq with rfl | hq
        · exact absurd rfl hne
        · by_cases hdone : q = done
          · exact hdone ▸ hended
          · exact hfirst q hq hdone
      have happend := htook.ended_append polled
      rw [hended, Bool.false_or] at happend
      have hsplit : done ++ polled :: turns = done ++ [polled] ++ turns := by
        rw [List.append_assoc]
        rfl
      rw [hsplit]
      cases polled with
      | interrupted =>
        have hrun : run io (.interrupted :: turns) c = run io turns c := by
          rw [run, hrunning]
          rfl
        have hquiet : loggedOut (c.recvBuf ++ Polled.interrupted.received) = false := by
          rw [show Polled.interrupted.received = [] from rfl, List.append_nil]
          exact htook.loggedOut_recvBuf
        rw [hrun]
        refine ih ?_ ?_ hnext
        · simpa [Polled.typed, Polled.received] using htook
        · rw [happend, hrunning, hquiet]
          rfl
      | failed error =>
        have hrun : run io (.failed error :: turns) c =
            (c.print (text "poll: " ++ error ++ text "\n"), true) := by
          rw [run, hrunning]
          rfl
        have hprint := htook.quiet (htook.typed.of_eq (outcome_print _) rfl)
          (quiet_print (text "poll: " ++ error ++ text "\n") c)
        have hends : ended (done ++ [.failed error]) = true := happend
        rw [hrun]
        refine ⟨done ++ [.failed error], turns, rfl, ?_, hends.symm, fun h ↦ ?_, hnext⟩
        · simpa [Polled.typed, Polled.received] using hprint
        · rw [hends] at h
          cases h
      | ready stdin output input hangup =>
        have hrun : run io (.ready stdin output input hangup :: turns) c =
            run io turns (turn io stdin output input hangup c) := by
          rw [run, hrunning]
          rfl
        rw [hrun]
        obtain ⟨hturn, hgoes⟩ := htook.next io stdin output input hangup
        refine ih ?_ ?_ hnext
        · simpa [Polled.typed, Polled.received] using hturn
        · rw [happend, hgoes, hrunning, Bool.not_false, Bool.true_and]
          exact (Bool.not_or _ _).symm
    · -- the loop is not entered again
      rw [hended] at hrunning
      have hrun : run io (polled :: turns) c = (c, true) := by
        cases polled <;> exact if_pos (by rw [hrunning]; rfl)
      rw [hrun]
      refine ⟨done, polled :: turns, rfl, htook, hended.symm, fun h ↦ ?_, hfirst⟩
      rw [hended] at h
      cases h

variable (io) in
/-- **A run of the loop.** Of the turns that come, it takes the shortest list with which it has been
told to end, or all of them if there is none. However what is typed and received is cut into reads
and put in order, the client has dispatched the commands typed in these turns, one after the other,
has handled the frames received in them, in order, and keeps what is after the last newline and
after the last whole frame. -/
theorem run_spec (turns : List Polled) :
    ∃ taken rest, turns = taken ++ rest ∧
      Took (taken.flatMap Polled.typed) (taken.flatMap Polled.received) (run io turns init).1 ∧
      (run io turns init).2 = ended taken ∧ (ended taken = false → rest = []) ∧
      ∀ q, q <+: taken → q ≠ taken → ended q = false := by
  refine @run_from io init [] turns took_init rfl fun q hq hne ↦ ?_
  exact absurd (List.prefix_nil.1 hq) hne

end Client

end MyTeams
