import MyTeams.Client.Stream
import MyTeams.Lib.Quoting

/-!
# Typing

The loop of `_handle_stdin` takes the lines off its buffer as a receiver takes frames off a stream:
a line is a frame that ends in a newline (`lineCodec`). So the cut of the input into reads does not
matter (`runLocal_eq`): what the client has packed and queued, and its use context, are those of the
commands typed, dispatched one after the other.

Neither do the writes matter. What a client has sent is observed as the bytes written together with
those still waiting (`outcome`), and an action changes that in a way of its own (`Action.apply`),
whatever `write` accepts.
-/

namespace MyTeams

open ByteField FrameStream Quoting

namespace Client

/-! ### Lines -/

/-- The line at the front of the input, if there is a whole one. -/
def scanLine (buf : Str) : Scan UInt8 Str :=
  match buf.dropWhile (· != newline) with
  | [] => .more
  | _ :: after => .frame (buf.takeWhile (· != newline)) after

theorem scanLine_append {line : Str} (h : newline ∉ line) (more : Str) :
    scanLine (line ++ newline :: more) = .frame line more := by
  rw [scanLine, dropWhile_append_of_ends h (ends_cons newline more),
    takeWhile_append_of_ends h (ends_cons newline more)]

theorem scanLine_of_not_mem {buf : Str} (h : newline ∉ buf) : scanLine buf = .more := by
  have hdrop := dropWhile_append_of_ends h (ends_nil newline)
  rw [List.append_nil] at hdrop
  rw [scanLine, hdrop]

/-- Input is a line and what follows it, or has no whole line. -/
theorem scanLine_cases (buf : Str) :
    newline ∉ buf ∨ ∃ line more, newline ∉ line ∧ buf = line ++ newline :: more := by
  by_cases h : newline ∈ buf
  · obtain ⟨line, more, heq, hline⟩ := List.eq_append_cons_of_mem h
    exact .inr ⟨line, more, hline, heq⟩
  · exact .inl h

/-- **Lines**, each with the newline that ends it. -/
def lineCodec : FrameCodec UInt8 Str where
  Valid line := newline ∉ line
  enc line := line ++ [newline]
  scan := scanLine
  scan_nil := rfl
  scan_enc := by
    intro line more h
    rw [List.append_assoc]
    exact scanLine_append h more
  enc_of_scan := by
    intro buf line rest h
    obtain hbuf | ⟨line', more, hline, rfl⟩ := scanLine_cases buf
    · rw [scanLine_of_not_mem hbuf] at h
      cases h
    · rw [scanLine_append hline] at h
      obtain ⟨rfl, rfl⟩ := Scan.frame.inj h
      exact ⟨hline, by rw [List.append_assoc]; rfl⟩
  refuse_append := by
    intro buf more h
    rw [scanLine] at h
    split at h
    · cases h
    · cases h

/-- The lines of what is typed. -/
def typedLines (s : Str) : List Str := (lineCodec.parse s).frames

/-- What is typed after the last newline. -/
def pendingLine (s : Str) : Str := (lineCodec.parse s).rest.getD []

theorem lineCodec_scan_ne_refuse (buf : Str) : lineCodec.scan buf ≠ .refuse := by
  intro h
  obtain hbuf | ⟨line, more, hline, rfl⟩ := scanLine_cases buf
  · rw [show lineCodec.scan buf = .more from scanLine_of_not_mem hbuf] at h
    cases h
  · rw [show lineCodec.scan _ = .frame line more from scanLine_append hline more] at h
    cases h

/-- **What is typed** is its lines, each with its newline, and the rest. -/
theorem typedLines_spec (s : Str) :
    s = ((typedLines s).map (· ++ [newline])).flatten ++ pendingLine s ∧
      (∀ line ∈ typedLines s, newline ∉ line) ∧ newline ∉ pendingLine s := by
  obtain ⟨hvalid, tail, hs, htail⟩ := lineCodec.parse_spec s
  rcases hrest : (lineCodec.parse s).rest with - | rest
  · rw [hrest] at htail
    exact absurd htail (lineCodec_scan_ne_refuse tail)
  · rw [hrest] at htail
    obtain ⟨rfl, hmore⟩ := htail
    have hpending : pendingLine s = tail := by rw [pendingLine, hrest, Option.getD_some]
    rw [hpending]
    refine ⟨hs, hvalid, fun hmem ↦ ?_⟩
    obtain ⟨line, more, rfl, hline⟩ := List.eq_append_cons_of_mem hmem
    rw [show lineCodec.scan _ = .frame line more from scanLine_append hline more] at hmore
    cases hmore

theorem rest_eq_pendingLine (s : Str) : (lineCodec.parse s).rest = some (pendingLine s) := by
  obtain ⟨-, tail, -, htail⟩ := lineCodec.parse_spec s
  rcases hrest : (lineCodec.parse s).rest with - | rest
  · rw [hrest] at htail
    exact absurd htail (lineCodec_scan_ne_refuse tail)
  · rw [pendingLine, hrest, Option.getD_some]

theorem parse_line_append {line : Str} (h : newline ∉ line) (more : Str) :
    typedLines (line ++ newline :: more) = line :: typedLines more ∧
      pendingLine (line ++ newline :: more) = pendingLine more := by
  have hscan : lineCodec.scan (line ++ newline :: more) = .frame line more :=
    scanLine_append h more
  rw [typedLines, pendingLine, lineCodec.parse_of_frame hscan]
  exact ⟨rfl, rfl⟩

theorem parse_of_not_mem {s : Str} (h : newline ∉ s) : typedLines s = [] ∧ pendingLine s = s := by
  have hscan : lineCodec.scan s = .more := scanLine_of_not_mem h
  rw [typedLines, pendingLine, lineCodec.parse_of_more hscan]
  exact ⟨rfl, rfl⟩

/-- Typing on: the lines so far, and those of the rest with what is typed next. -/
theorem typedLines_append (s t : Str) :
    typedLines (s ++ t) = typedLines s ++ typedLines (pendingLine s ++ t) ∧
      pendingLine (s ++ t) = pendingLine (pendingLine s ++ t) := by
  have hparse : lineCodec.parse (s ++ t) =
      ⟨typedLines s ++ typedLines (pendingLine s ++ t),
        (lineCodec.parse (pendingLine s ++ t)).rest⟩ := by
    rw [lineCodec.parse_append, FrameCodec.absorb, rest_eq_pendingLine]
    rfl
  exact ⟨congrArg Parsed.frames hparse, congrArg (fun p ↦ p.rest.getD []) hparse⟩

/-- The command of a line. An empty line has none, and neither has one that does not parse. -/
def lineCommand? (line : Str) : Option ParsedCommand :=
  if line.isEmpty then none else (parseLine line).toOption

/-- **The commands typed**, in order. -/
def typedCommands (s : Str) : List ParsedCommand := (typedLines s).filterMap lineCommand?

theorem typedCommands_append (s t : Str) :
    typedCommands (s ++ t) = typedCommands s ++ typedCommands (pendingLine s ++ t) := by
  rw [typedCommands, (typedLines_append s t).1, List.filterMap_append]
  rfl

/-! ### What a client has sent -/

/-- What is observed of a client: the packets with their contexts, the bytes of its stream, those
that are still waiting included, and the use context. -/
structure Outcome where
  packed : List (Frame × ClientContext)
  stream : List UInt8
  useLevel : UInt8
  useTeamUuid : Str
  useChannelUuid : Str
  useThreadUuid : Str

def outcome (c : Client) : Outcome :=
  ⟨c.packed, c.wrote ++ c.sendBuf, c.useLevel, c.useTeamUuid, c.useChannelUuid, c.useThreadUuid⟩

/-- The use context, in the form in which the server stores one. -/
def Outcome.context (o : Outcome) : ClientContext :=
  ⟨o.useLevel, fill 36 o.useTeamUuid, fill 36 o.useChannelUuid, fill 36 o.useThreadUuid⟩

/-- A packet is sent. -/
def Outcome.send (cmd : Command) (payload : List UInt8) (o : Outcome) : Outcome :=
  { o with
    packed := o.packed ++ [((cmd.code, payload), o.context)]
    stream := o.stream ++ Frame.bytes (cmd.code, payload) }

/-- What an action does to it. -/
def Action.apply (o : Outcome) : Action → Outcome
  | .print _ => o
  | .send cmd payload _ _ => o.send cmd payload
  | .use payload level team channel thread _ _ =>
    Outcome.send .use payload
      { o with
        useLevel := level
        useTeamUuid := team
        useChannelUuid := channel
        useThreadUuid := thread }

section Outcome

variable {io io' : ℕ → Option ℕ} {c c' : Client}

theorem outcome_print (s : Str) : (c.print s).outcome = c.outcome := by
  rw [outcome, packed_print, wrote_print]
  rfl

theorem outcome_handleServerWrite : (handleServerWrite io c).outcome = c.outcome := by
  have hpacked := handleServerWrite_packed io c
  obtain h | h | ⟨n, h⟩ := handleServerWrite_cases io c
  · rw [h]
  · rw [h]
    rfl
  · have hwrote : (handleServerWrite io c).wrote = c.wrote ++ c.sendBuf.take n := by
      rw [h]
      exact (wrote_of_history (c := c) rfl).trans (by simp)
    rw [outcome, hpacked, hwrote, h]
    show Outcome.mk c.packed (c.wrote ++ c.sendBuf.take n ++ c.sendBuf.drop n) _ _ _ _ = c.outcome
    rw [List.append_assoc, List.take_append_drop]
    rfl

theorem outcome_sendPacket (cmd : Command) (payload : List UInt8) :
    (sendPacket io cmd payload c).outcome = c.outcome.send cmd payload := by
  have hwrote : (c.enqueuePacket cmd payload).wrote = c.wrote :=
    (wrote_of_history (c := c) rfl).trans (by simp)
  have hbuf : (c.enqueuePacket cmd payload).sendBuf =
      c.sendBuf ++ Frame.bytes (cmd.code, payload) := List.append_assoc _ _ _
  rw [sendPacket, outcome_handleServerWrite, outcome, enqueuePacket_packed, hwrote, hbuf,
    ← List.append_assoc]
  rfl

/-- **An action is seen in the outcome**, whatever `write` accepts. -/
theorem outcome_perform (a : Action) : (a.perform io c).outcome = a.apply c.outcome := by
  cases a with
  | print s => exact outcome_print s
  | send cmd payload => exact outcome_sendPacket cmd payload
  | use payload => exact outcome_sendPacket .use payload

variable (io c) in
theorem stdinBuf_handleServerWrite : (handleServerWrite io c).stdinBuf = c.stdinBuf := by
  obtain h | h | ⟨n, h⟩ := handleServerWrite_cases io c
  · rw [h]
  · rw [h]
  · rw [h]
    rfl

theorem stdinBuf_perform (a : Action) : (a.perform io c).stdinBuf = c.stdinBuf := by
  cases a with
  | print s => rfl
  | send cmd payload => exact stdinBuf_handleServerWrite io _
  | use payload => exact stdinBuf_handleServerWrite io _

/-- A response is not seen in it. -/
theorem outcome_handleResponse (code : UInt16) (p : List UInt8) :
    (c.handleResponse code p).outcome = c.outcome ∧
      (c.handleResponse code p).stdinBuf = c.stdinBuf := by
  obtain ⟨hpacked, hwrote, hbuf, -⟩ := receives_handleResponse code p c
  obtain ⟨running, uuid, calls, h⟩ := handleResponse_eq code p c
  rw [outcome, hpacked, hwrote, hbuf, h]
  exact ⟨rfl, rfl⟩

theorem outcome_processRecvLoop (n : ℕ) :
    (processRecvLoop n c).outcome = c.outcome ∧ (processRecvLoop n c).stdinBuf = c.stdinBuf := by
  induction n generalizing c with
  | zero => exact ⟨rfl, rfl⟩
  | succ n ih =>
    rw [processRecvLoop_succ]
    split
    · rename_i f rest _
      obtain ⟨hout, hstdin⟩ := outcome_handleResponse (c := { c with recvBuf := rest }) f.1 f.2
      obtain ⟨hout', hstdin'⟩ := ih (c := handleResponse f.1 f.2 { c with recvBuf := rest })
      exact ⟨hout'.trans hout, hstdin'.trans hstdin⟩
    · exact ⟨rfl, rfl⟩

/-- **What is read from the server** is not seen in it. -/
theorem outcome_handleServerRead (tmp : List UInt8) :
    (handleServerRead tmp c).outcome = c.outcome ∧
      (handleServerRead tmp c).stdinBuf = c.stdinBuf := by
  rw [handleServerRead]
  split_ifs
  · exact ⟨outcome_print (c := c) _, rfl⟩
  · exact outcome_processRecvLoop (c := { c with recvBuf := c.recvBuf ++ tmp }) _

/-! ### Commands -/

theorem Obeys.packed_grows (h : Obeys io c c') : c.packed <+: c'.packed := by
  obtain ⟨s, rfl⟩ | ⟨cmd, payload, c₁, hissued, rfl⟩ := h
  · rw [packed_print]
  · obtain ⟨level, team, channel, thread, rfl⟩ := hissued.frame
    rw [sendPacket_packed]
    exact List.prefix_append _ _

/-- Packets are not taken back. -/
theorem packed_grows_handleStdin (buf : Str) (c : Client) :
    c.packed <+: (handleStdin io buf c).packed :=
  handleStdin_induction io (R := fun c c' ↦ c.packed <+: c'.packed) (fun _ ↦ List.prefix_refl _)
    (fun h h' ↦ h.trans h') Obeys.packed_grows (fun _ _ _ ↦ List.prefix_refl _) buf c

/-- Clients that look the same still do after a command. -/
theorem outcome_dispatch_congr (h : c.outcome = c'.outcome) (cmd : ParsedCommand) :
    (dispatch io cmd c).outcome = (dispatch io' cmd c').outcome := by
  obtain ⟨a, ha⟩ := determined_dispatch c.useLevel cmd
  have hlevel : c'.useLevel = c.useLevel := (congrArg Outcome.useLevel h).symm
  have hleft : dispatch io cmd c = a.perform io c := ha io c rfl
  have hright : dispatch io' cmd c' = a.perform io' c' := ha io' c' hlevel
  rw [hleft, hright, outcome_perform, outcome_perform, h]

theorem stdinBuf_dispatch (cmd : ParsedCommand) : (dispatch io cmd c).stdinBuf = c.stdinBuf := by
  obtain ⟨a, ha⟩ := determined_dispatch c.useLevel cmd
  have hdispatch : dispatch io cmd c = a.perform io c := ha io c rfl
  rw [hdispatch, stdinBuf_perform]

variable (io) in
/-- Commands are dispatched one after the other. -/
def dispatchAll (cmds : List ParsedCommand) (c : Client) : Client :=
  cmds.foldl (fun c cmd ↦ dispatch io cmd c) c

theorem dispatchAll_append (cmds cmds' : List ParsedCommand) :
    dispatchAll io (cmds ++ cmds') c = dispatchAll io cmds' (dispatchAll io cmds c) :=
  List.foldl_append

theorem outcome_dispatchAll_congr (h : c.outcome = c'.outcome) (cmds : List ParsedCommand) :
    (dispatchAll io cmds c).outcome = (dispatchAll io' cmds c').outcome := by
  induction cmds generalizing c c' with
  | nil => exact h
  | cons cmd cmds ih => exact ih (outcome_dispatch_congr h cmd)

variable (io) in
theorem packed_grows_dispatchAll (cmds : List ParsedCommand) (c : Client) :
    c.packed <+: (dispatchAll io cmds c).packed := by
  induction cmds generalizing c with
  | nil => exact List.prefix_refl _
  | cons cmd cmds ih => exact (obeys_dispatch cmd).packed_grows.trans (ih _)

/-- A line is its command, if it has one. -/
theorem outcome_handleLine (line : Str) :
    (handleLine io line c).outcome = (dispatchAll io (lineCommand? line).toList c).outcome := by
  rw [handleLine, lineCommand?]
  split_ifs
  · rfl
  · cases hparse : parseLine line with
    | error e => exact outcome_print _
    | ok cmd => rfl

variable (io c) in
theorem stdinBuf_handleLine (line : Str) : (handleLine io line c).stdinBuf = c.stdinBuf := by
  rw [handleLine]
  split_ifs
  · rfl
  · cases hparse : parseLine line with
    | error e => rfl
    | ok cmd => exact stdinBuf_dispatch cmd

/-! ### Standard input -/

variable (io) in
/-- **The loop over the lines** dispatches the commands typed, and keeps what is after the last
newline. -/
theorem stdinLoop_eq {n : ℕ} (hn : c.stdinBuf.length < n) :
    (stdinLoop io n c).outcome = (dispatchAll io (typedCommands c.stdinBuf) c).outcome ∧
      (stdinLoop io n c).stdinBuf = pendingLine c.stdinBuf := by
  induction n generalizing c with
  | zero => omega
  | succ n ih =>
    obtain hbuf | ⟨line, more, hline, hbuf⟩ := scanLine_cases c.stdinBuf
    · have hdrop := dropWhile_append_of_ends hbuf (ends_nil newline)
      rw [List.append_nil] at hdrop
      obtain ⟨hlines, hpending⟩ := parse_of_not_mem hbuf
      rw [stdinLoop, hdrop, typedCommands, hlines, hpending]
      exact ⟨rfl, rfl⟩
    · have hround : stdinLoop io (n + 1) c =
          stdinLoop io n (handleLine io line { c with stdinBuf := more }) := by
        rw [stdinLoop, hbuf, dropWhile_append_of_ends hline (ends_cons newline more),
          takeWhile_append_of_ends hline (ends_cons newline more)]
      have hstdin := stdinBuf_handleLine io { c with stdinBuf := more } line
      have hlen : more.length < n := by
        rw [hbuf, List.length_append, List.length_cons] at hn
        omega
      obtain ⟨hout, hrest⟩ :=
        ih (c := handleLine io line { c with stdinBuf := more }) (by rw [hstdin]; exact hlen)
      rw [hstdin] at hout hrest
      obtain ⟨hlines, hpending⟩ := parse_line_append hline more
      have hcommands : typedCommands c.stdinBuf =
          (lineCommand? line).toList ++ typedCommands more := by
        rw [hbuf, typedCommands, hlines, List.filterMap_cons]
        cases lineCommand? line with
        | none => rfl
        | some cmd => rfl
      rw [hround, hcommands, hbuf, hpending, dispatchAll_append]
      refine ⟨hout.trans (outcome_dispatchAll_congr ?_ _), hrest⟩
      have hshort : ({ c with stdinBuf := more } : Client).outcome = c.outcome := rfl
      exact (outcome_handleLine line).trans (outcome_dispatchAll_congr hshort _)

/-- What has been typed since the client was `c₀`: the commands in it were dispatched, and the rest
of it is kept. -/
structure HasTyped (c₀ : Client) (s : Str) (c : Client) : Prop where
  outcome : c.outcome = (dispatchAll (fun _ ↦ none) (typedCommands s) c₀).outcome
  stdinBuf : c.stdinBuf = pendingLine s

/-- A client that is not in the middle of its input. -/
theorem hasTyped_self (h : newline ∉ c.stdinBuf) : HasTyped c c.stdinBuf c := by
  obtain ⟨hlines, hpending⟩ := parse_of_not_mem h
  refine ⟨?_, hpending.symm⟩
  rw [typedCommands, hlines]
  rfl

variable (io c) in
/-- One read of at least one byte, in whatever state. -/
theorem hasTyped_handleStdin {buf : Str} (hbuf : buf ≠ []) :
    HasTyped c (c.stdinBuf ++ buf) (handleStdin io buf c) := by
  have hempty : ¬ buf.isEmpty = true := by simpa using hbuf
  rw [handleStdin, if_neg hempty]
  obtain ⟨hout, hrest⟩ := stdinLoop_eq io (c := { c with stdinBuf := c.stdinBuf ++ buf })
    (Nat.lt_succ_self _)
  have hread : ({ c with stdinBuf := c.stdinBuf ++ buf } : Client).outcome = c.outcome := rfl
  exact ⟨hout.trans (outcome_dispatchAll_congr hread _), hrest⟩

section HasTyped

variable {c₀ c₁ : Client} {s : Str}

/-- Nothing but the outcome of the first client matters. -/
theorem HasTyped.start (h : HasTyped c₁ s c) (hstart : c₁.outcome = c₀.outcome) : HasTyped c₀ s c :=
  ⟨h.outcome.trans (outcome_dispatchAll_congr hstart _), h.stdinBuf⟩

/-- Whatever else the client does. -/
theorem HasTyped.of_eq (h : HasTyped c₀ s c) (hout : c'.outcome = c.outcome)
    (hstdin : c'.stdinBuf = c.stdinBuf) : HasTyped c₀ s c' :=
  ⟨hout.trans h.outcome, hstdin.trans h.stdinBuf⟩

theorem HasTyped.flush (h : HasTyped c₀ s c) : HasTyped c₀ s (handleServerWrite io c) :=
  h.of_eq outcome_handleServerWrite (stdinBuf_handleServerWrite io c)

theorem HasTyped.read (h : HasTyped c₀ s c) (tmp : List UInt8) :
    HasTyped c₀ s (handleServerRead tmp c) :=
  h.of_eq (outcome_handleServerRead tmp).1 (outcome_handleServerRead tmp).2

variable (io) in
/-- **One read.** The end of the input adds nothing. -/
theorem HasTyped.type (h : HasTyped c₀ s c) (buf : Str) :
    HasTyped c₀ (s ++ buf) (handleStdin io buf c) := by
  rcases eq_or_ne buf [] with rfl | hbuf
  · rw [List.append_nil]
    exact h.of_eq rfl rfl
  · obtain ⟨hout, hrest⟩ := hasTyped_handleStdin io c hbuf
    rw [h.stdinBuf] at hout hrest
    refine ⟨?_, hrest.trans (typedLines_append s buf).2.symm⟩
    rw [typedCommands_append, dispatchAll_append]
    exact hout.trans (outcome_dispatchAll_congr h.outcome _)

end HasTyped

end Outcome

/-! ### The cut of the input -/

/-- A move of a client that hears nothing from the server: a read of some bytes, or a write that was
waiting. -/
inductive LocalMove
  | read (buf : { buf : Str // buf ≠ [] })
  | flush

/-- The bytes that a move reads. -/
def LocalMove.bytes : LocalMove → Str
  | .read buf => buf.val
  | .flush => []

/-- What is typed in a run. -/
def typed (moves : List LocalMove) : Str := moves.flatMap LocalMove.bytes

section Run

variable (io io' : ℕ → Option ℕ)

/-- The client makes a move. -/
def LocalMove.apply (c : Client) : LocalMove → Client
  | .read buf => handleStdin io buf.val c
  | .flush => handleServerWrite io c

/-- The client makes the moves, one after the other. -/
def runLocal (moves : List LocalMove) (c : Client) : Client := moves.foldl (LocalMove.apply io) c

variable {io io'} {c : Client} {moves : List LocalMove}

variable (io moves) in
/-- **A run** types what its moves read. -/
theorem HasTyped.run {c₀ : Client} {s : Str} (h : HasTyped c₀ s c) :
    HasTyped c₀ (s ++ typed moves) (runLocal io moves c) := by
  induction moves generalizing s c with
  | nil => exact (List.append_nil s).symm ▸ h
  | cons m moves ih =>
    cases m with
    | flush => exact ih h.flush
    | read buf =>
      have hrun := ih (h.type io buf.val)
      rw [List.append_assoc] at hrun
      exact hrun

variable (io) in
/-- A run has typed what its moves read, after what the client was holding, unless that had a whole
line in it and nothing is read. -/
theorem hasTyped_runLocal (h : newline ∉ c.stdinBuf ∨ typed moves ≠ []) :
    HasTyped c (c.stdinBuf ++ typed moves) (runLocal io moves c) := by
  induction moves generalizing c with
  | nil => exact (hasTyped_self (h.resolve_right fun hne ↦ hne rfl)).run io []
  | cons m moves ih =>
    cases m with
    | flush =>
      have hstdin := stdinBuf_handleServerWrite io c
      have hrun := ih (c := handleServerWrite io c) (by rw [hstdin]; exact h)
      rw [hstdin] at hrun
      exact hrun.start outcome_handleServerWrite
    | read buf =>
      have hrun := (hasTyped_handleStdin io c buf.property).run io moves
      rw [List.append_assoc] at hrun
      exact hrun

variable (io c) in
/-- A run in which nothing is typed. -/
theorem runLocal_of_typed_nil (h : typed moves = []) :
    (runLocal io moves c).outcome = c.outcome ∧ (runLocal io moves c).stdinBuf = c.stdinBuf := by
  induction moves generalizing c with
  | nil => exact ⟨rfl, rfl⟩
  | cons m moves ih =>
    obtain ⟨hm, hmoves⟩ := List.append_eq_nil_iff.1 (show m.bytes ++ typed moves = [] from h)
    cases m with
    | read buf => exact absurd hm buf.property
    | flush =>
      obtain ⟨hout, hstdin⟩ := ih (handleServerWrite io c) hmoves
      exact ⟨hout.trans outcome_handleServerWrite, hstdin.trans (stdinBuf_handleServerWrite io c)⟩

end Run

/-- **The cut of the input into reads does not matter**: a run has the outcome of one read of all
that is typed, which is that of the commands in it, one after the other. -/
theorem runLocal_eq (io io' : ℕ → Option ℕ) (moves : List LocalMove) (c : Client) :
    ((runLocal io moves c).outcome = (handleStdin io' (typed moves) c).outcome ∧
      (runLocal io moves c).stdinBuf = (handleStdin io' (typed moves) c).stdinBuf) ∧
    (newline ∉ c.stdinBuf ∨ typed moves ≠ [] →
      (runLocal io moves c).outcome =
          (dispatchAll io' (typedCommands (c.stdinBuf ++ typed moves)) c).outcome ∧
        (runLocal io moves c).stdinBuf = pendingLine (c.stdinBuf ++ typed moves)) := by
  refine ⟨?_, fun h ↦ ?_⟩
  · by_cases h : typed moves = []
    · obtain ⟨hout, hstdin⟩ := runLocal_of_typed_nil io c h
      rw [h, hout, hstdin]
      exact ⟨rfl, rfl⟩
    · have hrun := hasTyped_runLocal io (c := c) (.inr h)
      have hread := hasTyped_handleStdin io' c h
      exact ⟨hrun.outcome.trans hread.outcome.symm, hrun.stdinBuf.trans hread.stdinBuf.symm⟩
  · have hrun := hasTyped_runLocal io h
    exact ⟨hrun.outcome.trans (outcome_dispatchAll_congr rfl _), hrun.stdinBuf⟩

theorem runLocal_eq_use :
    ∃ moves, moves = [.read ⟨text "/use \"t", by decide +kernel⟩, .flush,
        .read ⟨text "1\"\nx\n/li", by decide +kernel⟩] ∧
      (runLocal (fun _ ↦ some 3) moves init).outcome =
        (handleStdin (fun _ ↦ none) (text "/use \"t1\"\nx\n/li") init).outcome ∧
      (runLocal (fun _ ↦ some 3) moves init).outcome =
        (dispatchAll (fun _ ↦ none) [⟨text "use", [text "t1"]⟩] init).outcome ∧
      (runLocal (fun _ ↦ some 3) moves init).stdinBuf = text "/li" := by
  obtain ⟨⟨hout, -⟩, hcommands⟩ := runLocal_eq (fun _ ↦ some 3) (fun _ ↦ none)
    [.read ⟨text "/use \"t", by decide +kernel⟩, .flush,
      .read ⟨text "1\"\nx\n/li", by decide +kernel⟩] init
  obtain ⟨hspec, hstdin⟩ := hcommands (.inl (by decide))
  have htyped : typed [.read ⟨text "/use \"t", by decide +kernel⟩, .flush,
      .read ⟨text "1\"\nx\n/li", by decide +kernel⟩] = text "/use \"t1\"\nx\n/li" := by
    decide +kernel
  have hparsed : typedCommands (init.stdinBuf ++ text "/use \"t1\"\nx\n/li") =
      [⟨text "use", [text "t1"]⟩] := by decide +kernel
  have hpending : pendingLine (init.stdinBuf ++ text "/use \"t1\"\nx\n/li") = text "/li" := by
    decide +kernel
  rw [htyped] at hout hspec hstdin
  rw [hparsed] at hspec
  rw [hpending] at hstdin
  exact ⟨_, rfl, hout, hspec, hstdin⟩

end Client

end MyTeams
