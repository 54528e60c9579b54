import MyTeams.Client.Commands
import MyTeams.Lib.Emission
import MyTeams.Lib.FrameLink
import MyTeams.Server.Semantics

/-!
# The client as the two ends of a link

What the rest of the development uses of the client. What a command line does is determined by the
line and the use level (`determined_dispatch`): it either prints something or sends one packet
(`Issued`), of at most 65535 bytes, after `/use` has stored the context that the packet asks for; so
the client is the sending end of a link (`Sends`). On the other side its receive loop takes off its
buffer exactly the frames of the parse (`processRecvBuffer_eq`).
-/

namespace MyTeams

open ByteField Emission FrameStream

namespace Client

/-! ### Reading the history -/

/-- The packets that were sent, oldest first, each with the use context at that moment. -/
def packed (c : Client) : List (Frame × ClientContext) :=
  c.history.filterMap fun
    | .packed cmd payload ctx => some ((cmd, payload), ctx)
    | _ => none

/-- The frames that were sent. -/
def packets (c : Client) : List Frame := c.packed.map Prod.fst

/-- The bytes that left the send buffer. -/
def wrote (c : Client) : List UInt8 :=
  (c.history.filterMap fun
    | .wrote bytes => some bytes
    | _ => none).flatten

/-- The frames that were handed to `_handle_response`. -/
def handled (c : Client) : List Frame :=
  c.history.filterMap fun
    | .handled code payload => some (code, payload)
    | _ => none

section History

variable {c c' : Client}

theorem packed_of_history {t : List ClientEvent} (h : c'.history = c.history ++ t) :
    c'.packed = c.packed ++ t.filterMap fun
      | .packed cmd payload ctx => some ((cmd, payload), ctx)
      | _ => none := by
  rw [packed, h, List.filterMap_append]
  rfl

theorem handled_of_history {t : List ClientEvent} (h : c'.history = c.history ++ t) :
    c'.handled = c.handled ++ t.filterMap fun
      | .handled code payload => some (code, payload)
      | _ => none := by
  rw [handled, h, List.filterMap_append]
  rfl

theorem wrote_of_history {t : List ClientEvent} (h : c'.history = c.history ++ t) :
    c'.wrote = c.wrote ++ (t.filterMap fun
      | .wrote bytes => some bytes
      | _ => none).flatten := by
  rw [wrote, h, List.filterMap_append, List.flatten_append]
  rfl

end History

variable {io : ℕ → Option ℕ} {c c' : Client}

/-! ### Writing -/

/-- Between `c` and `c'` the client wrote `out`, and was the sender of a link. -/
structure SendsBytes (c c' : Client) (out : List UInt8) : Prop where
  wrote : c'.wrote = c.wrote ++ out
  steps : ∀ wire recvBuf handled,
    Link.Steps serverCodec ⟨c.packets, c.sendBuf, wire, recvBuf, handled⟩
      ⟨c'.packets, c'.sendBuf, wire ++ out, recvBuf, handled⟩

/-- Between `c` and `c'` the client was the sender of a link. -/
def Sends (c c' : Client) : Prop := ∃ out, SendsBytes c c' out

theorem Sends.refl (c : Client) : Sends c c :=
  ⟨[], (List.append_nil _).symm, fun wire _ _ ↦ by rw [List.append_nil]⟩

theorem Sends.trans {c'' : Client} (h : Sends c c') (h' : Sends c' c'') : Sends c c'' := by
  obtain ⟨out, hwrote, hsteps⟩ := h
  obtain ⟨out', hwrote', hsteps'⟩ := h'
  refine ⟨out ++ out', by rw [hwrote', hwrote, List.append_assoc], fun wire r hd ↦ ?_⟩
  have hfirst := hsteps wire r hd
  have hsecond := hsteps' (wire ++ out) r hd
  rw [List.append_assoc] at hsecond
  exact hfirst.trans hsecond

/-- What touches neither the send buffer nor what was sent and written does not matter. -/
theorem Sends.of_eq (hpackets : c'.packets = c.packets) (hwrote : c'.wrote = c.wrote)
    (hbuf : c'.sendBuf = c.sendBuf) : Sends c c' := by
  refine ⟨[], by rw [hwrote, List.append_nil], fun wire r hd ↦ ?_⟩
  rw [hpackets, hbuf, List.append_nil]

theorem packed_print (s : Str) : (c.print s).packed = c.packed := by
  have hhistory : (c.print s).history = c.history ++ [.called (.output s)] := rfl
  exact (packed_of_history hhistory).trans (List.append_nil _)

theorem wrote_print (s : Str) : (c.print s).wrote = c.wrote := by
  have hhistory : (c.print s).history = c.history ++ [.called (.output s)] := rfl
  exact (wrote_of_history hhistory).trans (List.append_nil _)

theorem sends_print (s : Str) : Sends c (c.print s) :=
  .of_eq (congrArg (List.map Prod.fst) (packed_print s)) (wrote_print s) rfl

variable (io c) in
/-- `_handle_server_write` does nothing, or fails, or writes the front of the buffer. -/
theorem handleServerWrite_cases :
    handleServerWrite io c = c ∨ handleServerWrite io c = { c with writes := c.writes + 1 } ∨
      ∃ n, handleServerWrite io c = record (.wrote (c.sendBuf.take n))
        { c with writes := c.writes + 1, sendBuf := c.sendBuf.drop n } := by
  rw [handleServerWrite]
  split_ifs
  · exact .inl rfl
  · cases hio : io c.writes with
    | none => exact .inr (.inl rfl)
    | some n => exact .inr (.inr ⟨n, rfl⟩)

variable (io c) in
theorem handleServerWrite_packed : (handleServerWrite io c).packed = c.packed := by
  obtain h | h | ⟨n, h⟩ := handleServerWrite_cases io c
  · rw [h]
  · rw [h]
    rfl
  · rw [h]
    exact (packed_of_history (c := c) rfl).trans (List.append_nil _)

theorem sends_handleServerWrite : Sends c (handleServerWrite io c) := by
  have hpackets : (handleServerWrite io c).packets = c.packets :=
    congrArg (List.map Prod.fst) (handleServerWrite_packed io c)
  obtain h | h | ⟨n, h⟩ := handleServerWrite_cases io c
  · rw [h]
    exact .refl c
  · rw [h]
    exact .of_eq rfl rfl rfl
  · refine ⟨c.sendBuf.take n, ?_, fun wire r hd ↦ ?_⟩
    · rw [h]
      exact (wrote_of_history (c := c) rfl).trans (by simp)
    · rw [hpackets, h]
      exact .single (.write n)

/-! ### Sending a packet -/

variable (c) in
theorem enqueuePacket_packed (cmd : Command) (payload : List UInt8) :
    (c.enqueuePacket cmd payload).packed = c.packed ++ [((cmd.code, payload), c.context)] := by
  have hhistory : (c.enqueuePacket cmd payload).history =
      c.history ++ [.packed cmd.code payload c.context] := rfl
  exact packed_of_history hhistory

variable (io c) in
theorem sendPacket_packed (cmd : Command) (payload : List UInt8) :
    (sendPacket io cmd payload c).packed = c.packed ++ [((cmd.code, payload), c.context)] := by
  rw [sendPacket, handleServerWrite_packed, enqueuePacket_packed]

theorem sends_sendPacket (cmd : Command) {payload : List UInt8} (hlen : payload.length ≤ 65535) :
    Sends c (sendPacket io cmd payload c) := by
  refine Sends.trans ⟨[], ?_, fun wire r hd ↦ ?_⟩ sends_handleServerWrite
  · exact (wrote_of_history (c := c) rfl).trans (by simp)
  · have hqueue := Link.Step.queue (l := ⟨c.packets, c.sendBuf, wire, r, hd⟩) (C := serverCodec)
      (f := (cmd.code, payload)) hlen
    have hpackets : (c.enqueuePacket cmd payload).packets = c.packets ++ [(cmd.code, payload)] := by
      rw [packets, enqueuePacket_packed, List.map_append]
      rfl
    have hbuf : (c.enqueuePacket cmd payload).sendBuf =
        c.sendBuf ++ serverCodec.enc (cmd.code, payload) :=
      List.append_assoc _ _ _
    rw [hpackets, hbuf, List.append_nil]
    exact .single hqueue

/-! ### Commands -/

/-- What the client sends for a command line: a packet, sent from a state that differs from `c` in
its use context at most, and that only for `/use`, whose packet asks for the new context. -/
structure Issued (c : Client) (cmd : Command) (payload : List UInt8) (c₁ : Client) : Prop where
  short : payload.length ≤ 65535
  frame : ∃ level team channel thread, c₁ =
    { c with
      useLevel := level
      useTeamUuid := team
      useChannelUuid := channel
      useThreadUuid := thread }
  use : cmd = .use → requestedContext payload = some c₁.context
  other : cmd ≠ .use → c₁ = c

/-- A command that leaves the context alone. -/
theorem issued_of_ne {cmd : Command} {payload : List UInt8} (hcmd : cmd ≠ .use)
    (hlen : payload.length ≤ 65535) : Issued c cmd payload c :=
  ⟨hlen, ⟨_, _, _, _, rfl⟩, fun h ↦ absurd h hcmd, fun _ ↦ rfl⟩

variable (io) in
/-- What a command line can do: print something, or send a packet. -/
def Obeys (c c' : Client) : Prop :=
  (∃ s, c' = c.print s) ∨
    ∃ cmd payload c₁, Issued c cmd payload c₁ ∧ c' = sendPacket io cmd payload c₁

/-- An action of the client: print something, send a packet, or store a context and ask the server
for it. -/
inductive Action
  | print (s : Str)
  | send (cmd : Command) (payload : List UInt8) (hcmd : cmd ≠ .use) (hlen : payload.length ≤ 65535)
  | use (payload : List UInt8) (level : UInt8) (team channel thread : Str)
    (hlen : payload.length ≤ 65535)
    (hctx : requestedContext payload =
      some ⟨level, fill 36 team, fill 36 channel, fill 36 thread⟩)

variable (io) in
/-- The client performs an action. -/
def Action.perform (c : Client) : Action → Client
  | .print s => c.print s
  | .send cmd payload _ _ => sendPacket io cmd payload c
  | .use payload level team channel thread _ _ =>
    sendPacket io .use payload
      { c with
        useLevel := level
        useTeamUuid := team
        useChannelUuid := channel
        useThreadUuid := thread }

theorem Action.obeys (a : Action) : Obeys io c (a.perform io c) := by
  cases a with
  | print s => exact .inl ⟨s, rfl⟩
  | send cmd payload hcmd hlen => exact .inr ⟨cmd, payload, c, issued_of_ne hcmd hlen, rfl⟩
  | use payload level team channel thread hlen hctx =>
    exact .inr ⟨.use, payload, _,
      ⟨hlen, ⟨level, team, channel, thread, rfl⟩, fun _ ↦ hctx, fun h ↦ absurd rfl h⟩, rfl⟩

/-- At the given use level, `f` is one action, whatever else the client holds. -/
def Determined (level : UInt8) (f : (ℕ → Option ℕ) → Client → Client) : Prop :=
  ∃ a : Action, ∀ io c, c.useLevel = level → f io c = a.perform io c

section Determined

variable {level : UInt8} {f g : (ℕ → Option ℕ) → Client → Client}

theorem determined_print (s : Str) : Determined level fun _ c ↦ c.print s :=
  ⟨.print s, fun _ _ _ ↦ rfl⟩

theorem determined_send {cmd : Command} {payload : List UInt8} (hcmd : cmd ≠ .use)
    (hlen : payload.length ≤ 65535) : Determined level fun io ↦ sendPacket io cmd payload :=
  ⟨.send cmd payload hcmd hlen, fun _ _ _ ↦ rfl⟩

theorem determined_ite {p : Prop} [Decidable p] (hf : Determined level f)
    (hg : Determined level g) : Determined level fun io c ↦ if p then f io c else g io c := by
  by_cases hp : p
  · simpa only [if_pos hp] using hf
  · simpa only [if_neg hp] using hg

/-- What depends on the use level is determined by it. -/
theorem determined_level (k : UInt8) (hf : Determined level f) (hg : Determined level g) :
    Determined level fun io c ↦ if c.useLevel = k then f io c else g io c := by
  by_cases hk : level = k
  · obtain ⟨a, ha⟩ := hf
    exact ⟨a, fun io c hlevel ↦ (if_pos (hlevel.trans hk)).trans (ha io c hlevel)⟩
  · obtain ⟨a, ha⟩ := hg
    exact ⟨a, fun io c hlevel ↦ (if_neg (hlevel ▸ hk)).trans (ha io c hlevel)⟩

theorem length_packFixed (buf : List UInt8) (s : Str) (n : ℕ) :
    (packFixed buf s n).length = buf.length + n := by
  simp

theorem determined_cmdField {cmd : Command} (hcmd : cmd ≠ .use) {width : ℕ} (hwidth : width ≤ 512)
    (usage : String) (args : List Str) :
    Determined level fun io ↦ cmdField io cmd width usage args := by
  unfold cmdField
  split
  · exact determined_send hcmd (by rw [length_packFixed, List.length_nil]; omega)
  · exact determined_print _

theorem determined_cmdCreatePair {width : ℕ} (hwidth : width ≤ 512) (usage : String)
    (args : List Str) : Determined level fun io ↦ cmdCreatePair io width usage args := by
  unfold cmdCreatePair
  split
  · refine determined_send (by decide) ?_
    rw [length_packFixed, length_packFixed, List.length_nil]
    omega
  · exact determined_print _

theorem determined_cmdCreate (args : List Str) : Determined level fun io ↦ cmdCreate io args :=
  determined_level _ (determined_cmdCreatePair (by decide) _ _) <|
    determined_level _ (determined_cmdCreatePair (by decide) _ _) <|
    determined_level _ (determined_cmdCreatePair (by decide) _ _) <|
    determined_level _ (determined_cmdField (by decide) (by decide) _ _) <|
    determined_send (by decide) (Nat.zero_le _)

/-- The uuids of a `/use` packet are the ones typed, cut or padded to 36 bytes. -/
theorem determined_cmdUse (args : List Str) : Determined level fun io ↦ cmdUse io args := by
  have hthird (t u v : Str) :
    ((fill 36 t).toList ++ ((fill 36 u).toList ++ (fill 36 v).toList)).drop 72 =
      (fill 36 v).toList := by
    rw [← List.append_assoc, List.drop_left' (by simp)]
  have hzeros : zeros 36 = fill 36 [] := rfl
  unfold cmdUse
  split
  · exact ⟨.use [useNone] useNone [] [] [] (by decide) rfl, fun _ _ _ ↦ rfl⟩
  · rename_i team
    refine ⟨.use (packFixed [useTeam] team 36) useTeam team [] [] ?_ ?_, fun _ _ _ ↦ rfl⟩
    · simp
    · simp [requestedContext, useUuid, ClientContext.init, hzeros, useNone, useTeam]
  · rename_i team channel
    refine ⟨.use (packFixed (packFixed [useChannel] team 36) channel 36) useChannel team channel []
      ?_ ?_, fun _ _ _ ↦ rfl⟩
    · simp
    · simp [requestedContext, useUuid, ClientContext.init, hzeros, useNone, useTeam, useChannel]
  · rename_i team channel thread
    refine ⟨.use (packFixed (packFixed (packFixed [useThread] team 36) channel 36) thread 36)
      useThread team channel thread ?_ ?_, fun _ _ _ ↦ rfl⟩
    · simp
    · simp [requestedContext, useUuid, useNone, useTeam, useChannel, useThread, hthird]
  · exact determined_print _

theorem determined_cmdSend (args : List Str) : Determined level fun io ↦ cmdSend io args := by
  unfold cmdSend
  split
  · refine determined_send (by decide) ?_
    rw [length_packFixed, length_packFixed]
    decide
  · exact determined_print _

theorem determined_cmdSubscribed (args : List Str) :
    Determined level fun io ↦ cmdSubscribed io args := by
  unfold cmdSubscribed
  split
  · exact determined_send (by decide) (by decide)
  · refine determined_send (by decide) ?_
    rw [length_packFixed]
    decide
  · exact determined_print _

variable (level) in
/-- **What a command line does** is determined by the line and the use level. -/
theorem determined_dispatch (cmd : ParsedCommand) : Determined level fun io ↦ dispatch io cmd := by
  have hfield {k : Command} (hk : k ≠ .use) {width : ℕ} (hwidth : width ≤ 512) (usage : String) :
      Determined level fun io ↦ cmdField io k width usage cmd.args :=
    determined_cmdField hk hwidth usage cmd.args
  have hbare {k : Command} (hk : k ≠ .use) : Determined level fun io ↦ sendPacket io k [] :=
    determined_send hk (Nat.zero_le _)
  have help : Determined level fun _ ↦ cmdHelp := determined_print _
  have login : Determined level fun io ↦ cmdLogin io cmd.args := hfield (by decide) (by decide) _
  have user : Determined level fun io ↦ cmdUser io cmd.args := hfield (by decide) (by decide) _
  have messages : Determined level fun io ↦ cmdMessages io cmd.args :=
    hfield (by decide) (by decide) _
  have subscribe : Determined level fun io ↦ cmdSubscribe io cmd.args :=
    hfield (by decide) (by decide) _
  have unsubscribe : Determined level fun io ↦ cmdUnsubscribe io cmd.args :=
    hfield (by decide) (by decide) _
  exact determined_ite help <| determined_ite login <| determined_ite (hbare (by decide)) <|
    determined_ite (hbare (by decide)) <| determined_ite user <|
    determined_ite (determined_cmdSend _) <| determined_ite messages <|
    determined_ite subscribe <| determined_ite (determined_cmdSubscribed _) <|
    determined_ite unsubscribe <| determined_ite (determined_cmdUse _) <|
    determined_ite (determined_cmdCreate _) <| determined_ite (hbare (by decide)) <|
    determined_ite (hbare (by decide)) (determined_print _)

end Determined

/-- **Every command line** prints something or sends one packet. -/
theorem obeys_dispatch (cmd : ParsedCommand) : Obeys io c (dispatch io cmd c) := by
  obtain ⟨a, ha⟩ := determined_dispatch c.useLevel cmd
  have hdispatch : dispatch io cmd c = a.perform io c := ha io c rfl
  rw [hdispatch]
  exact a.obeys

/-! ### Standard input -/

variable (io) in
/-- **Invariant rule for what is typed**: a relation between the state before and after that is
reflexive and transitive, and holds across a printed line, a command and a change of the input
buffer, holds across every call of `_handle_stdin`. -/
theorem handleStdin_rule {R : Client → Client → Prop} (refl : ∀ c, R c c)
    (trans : ∀ {c c' c''}, R c c' → R c' c'' → R c c'') (print : ∀ c s, R c (c.print s))
    (dispatch : ∀ cmd c, R c (dispatch io cmd c))
    (input : ∀ c running stdin, R c { c with running := running, stdinBuf := stdin }) (buf : Str)
    (c : Client) : R c (handleStdin io buf c) := by
  have hline (line : Str) (c : Client) : R c (handleLine io line c) := by
    unfold handleLine
    split_ifs
    · exact refl c
    · split
      · exact print c _
      · exact dispatch _ c
  have hloop (n : ℕ) (c : Client) : R c (stdinLoop io n c) := by
    induction n generalizing c with
    | zero => exact refl c
    | succ n ih =>
      unfold stdinLoop
      split
      · exact refl c
      · exact trans (input c c.running _) (trans (hline _ _) (ih _))
  unfold handleStdin
  split_ifs
  · exact input c false c.stdinBuf
  · exact trans (input c c.running _) (hloop _ _)

variable (io) in
/-- The same for what only depends on the shape of a command. -/
theorem handleStdin_induction {R : Client → Client → Prop} (refl : ∀ c, R c c)
    (trans : ∀ {c c' c''}, R c c' → R c' c'' → R c c'')
    (obeys : ∀ {c c'}, Obeys io c c' → R c c')
    (input : ∀ c running stdin, R c { c with running := running, stdinBuf := stdin }) (buf : Str)
    (c : Client) : R c (handleStdin io buf c) :=
  handleStdin_rule io refl trans (fun _ s ↦ obeys (.inl ⟨s, rfl⟩))
    (fun cmd _ ↦ obeys (obeys_dispatch cmd)) input buf c

/-- **Whatever is typed, the client is the sender of a link.** -/
theorem sends_handleStdin (buf : Str) (c : Client) : Sends c (handleStdin io buf c) := by
  refine handleStdin_induction io Sends.refl Sends.trans ?_ (fun c _ _ ↦ .of_eq rfl rfl rfl) buf c
  rintro c c' (⟨s, rfl⟩ | ⟨cmd, payload, c₁, hissued, rfl⟩)
  · exact sends_print s
  · obtain ⟨level, team, channel, thread, rfl⟩ := hissued.frame
    refine Sends.trans ?_ (sends_sendPacket cmd hissued.short)
    exact .of_eq rfl rfl rfl

variable (io) in
/-- What a client does when something is typed, and what it passes to `_send_packet`: it prints,
takes input off its buffer, or sends the packet of a command. -/
inductive Issues : Client → List Frame → Client → Prop
  | print (c : Client) (s : Str) : Issues c [] (c.print s)
  | input (c : Client) (running : Bool) (stdin : Str) :
    Issues c [] { c with running := running, stdinBuf := stdin }
  | send {c c₁ : Client} {cmd : Command} {payload : List UInt8} (h : Issued c cmd payload c₁) :
    Issues c [(cmd.code, payload)] (sendPacket io cmd payload c₁)

/-- Whatever is typed, some packets are sent, each once. -/
theorem exists_emits_handleStdin (buf : Str) (c : Client) :
    ∃ fs, Emits (Issues io) c fs (handleStdin io buf c) := by
  refine handleStdin_induction io (R := fun c c' ↦ ∃ fs, Emits (Issues io) c fs c')
    (fun _ ↦ ⟨[], .refl⟩) ?_ ?_ (fun c running stdin ↦ ⟨_, .single (.input c running stdin)⟩) buf c
  · rintro c c' c'' ⟨fs, h⟩ ⟨fs', h'⟩
    exact ⟨fs ++ fs', h.trans h'⟩
  · rintro c c' (⟨s, rfl⟩ | ⟨cmd, payload, c₁, hissued, rfl⟩)
    · exact ⟨_, .single (.print c s)⟩
    · exact ⟨_, .single (.send hissued)⟩

theorem Issues.packets {fs : List Frame} (h : Issues io c fs c') :
    c'.packets = c.packets ++ fs := by
  cases h with
  | print s => rw [packets, packed_print, List.append_nil, packets]
  | input running stdin => exact (List.append_nil _).symm
  | send hissued =>
    obtain ⟨level, team, channel, thread, rfl⟩ := hissued.frame
    rw [packets, sendPacket_packed, List.map_append]
    rfl

/-- The history knows all of them. -/
theorem packets_of_emits {fs : List Frame} (h : Emits (Issues io) c fs c') :
    c'.packets = c.packets ++ fs := by
  refine h.rule (R := fun fs c' ↦ c'.packets = c.packets ++ fs) (List.append_nil _).symm
    fun ih hstep ↦ ?_
  rw [hstep.packets, ih, List.append_assoc]

/-- And they are the only ones. -/
theorem emits_handleStdin {fs : List Frame} {buf : Str}
    (h : (handleStdin io buf c).packets = c.packets ++ fs) :
    Emits (Issues io) c fs (handleStdin io buf c) := by
  obtain ⟨fs', hfs'⟩ : ∃ fs', Emits (Issues io) c fs' (handleStdin io buf c) :=
    exists_emits_handleStdin buf c
  obtain rfl : fs' = fs := List.append_cancel_left ((packets_of_emits hfs').symm.trans h)
  exact hfs'

/-! ### Receiving -/

/-- What a response can change. -/
theorem handleResponse_eq (code : UInt16) (p : List UInt8) (c : Client) :
    ∃ (running : Bool) (uuid : Str) (calls : List Callback), c.handleResponse code p =
      { c with
        running := running
        userUuid := uuid
        history := c.history ++ .handled code p :: calls.map .called } := by
  unfold handleResponse
  split
  · exact ⟨_, _, [], rfl⟩
  · rename_i k _
    obtain ⟨running, uuid, heq⟩ := applyResponse_eq k
      ((responseCalls (c.record (.handled code p)) k).read p).1 (c.record (.handled code p))
    refine ⟨running, uuid, ((responseCalls (c.record (.handled code p)) k).read p).1, ?_⟩
    rw [foldl_call, heq]
    simp [record]

/-- Across a piece of input the client keeps everything that it needs for sending. -/
structure Receives (c c' : Client) : Prop where
  packed : c'.packed = c.packed
  wrote : c'.wrote = c.wrote
  sendBuf : c'.sendBuf = c.sendBuf
  context : c'.context = c.context

theorem receives_handleResponse (code : UInt16) (p : List UInt8) (c : Client) :
    Receives c (c.handleResponse code p) := by
  obtain ⟨running, uuid, calls, h⟩ := handleResponse_eq code p c
  have hhistory : (c.handleResponse code p).history =
      c.history ++ .handled code p :: calls.map .called := by rw [h]
  refine ⟨?_, ?_, by rw [h], by rw [h]; rfl⟩
  · rw [packed_of_history hhistory]
    simp
  · rw [wrote_of_history hhistory]
    simp

theorem Receives.refl (c : Client) : Receives c c := ⟨rfl, rfl, rfl, rfl⟩

theorem Receives.trans {c'' : Client} (h : Receives c c') (h' : Receives c' c'') : Receives c c'' :=
  ⟨h'.packed.trans h.packed, h'.wrote.trans h.wrote, h'.sendBuf.trans h.sendBuf,
    h'.context.trans h.context⟩

theorem handled_handleResponse (code : UInt16) (p : List UInt8) (c : Client) :
    (c.handleResponse code p).handled = c.handled ++ [(code, p)] ∧
      (c.handleResponse code p).recvBuf = c.recvBuf := by
  obtain ⟨running, uuid, calls, h⟩ := handleResponse_eq code p c
  have hhistory : (c.handleResponse code p).history =
      c.history ++ .handled code p :: calls.map .called := by rw [h]
  refine ⟨?_, by rw [h]⟩
  rw [handled_of_history hhistory]
  simp

/-- One round of the receive loop looks at the front of the buffer once. -/
theorem processRecvLoop_succ (n : ℕ) (c : Client) :
    processRecvLoop (n + 1) c =
      match clientCodec.scan c.recvBuf with
      | .frame f rest => processRecvLoop n (handleResponse f.1 f.2 { c with recvBuf := rest })
      | _ => c := by
  have hmax : headerPayloadSize c.recvBuf ≤ (0xFFFFFFFF : UInt32).toNat := by
    have hlt : headerPayloadSize c.recvBuf < 2 ^ 32 := UInt32.toNat_lt _
    have hnat : (0xFFFFFFFF : UInt32).toNat = 2 ^ 32 - 1 := rfl
    omega
  show _ = match scanHeader 0xFFFFFFFF c.recvBuf with
    | .frame f rest => processRecvLoop n (handleResponse f.1 f.2 { c with recvBuf := rest })
    | _ => c
  rw [processRecvLoop, scanHeader]
  by_cases hheader : c.recvBuf.length < headerSize
  · rw [if_pos hheader, if_pos hheader]
  rw [if_neg hheader, if_neg hheader, if_neg (Nat.not_lt.2 hmax)]
  by_cases hpart : c.recvBuf.length < headerSize + headerPayloadSize c.recvBuf
  · rw [if_pos hpart]
    exact if_pos hpart
  · rw [if_neg hpart]
    exact if_neg hpart

/-- **The receive loop is the parse** of what the buffer holds. -/
theorem processRecvLoop_eq {n : ℕ} {c : Client} (hn : c.recvBuf.length < n) :
    (processRecvLoop n c).handled = c.handled ++ (clientCodec.parse c.recvBuf).frames ∧
      some (processRecvLoop n c).recvBuf = (clientCodec.parse c.recvBuf).rest ∧
      Receives c (processRecvLoop n c) := by
  induction n generalizing c with
  | zero => omega
  | succ n ih =>
    rw [processRecvLoop_succ]
    rcases hscan : clientCodec.scan c.recvBuf with - | - | ⟨f, rest⟩
    · rw [clientCodec.parse_of_more hscan]
      exact ⟨(List.append_nil _).symm, rfl, .refl c⟩
    · exact absurd hscan (clientCodec_scan_ne_refuse _)
    · have hshort := clientCodec.rest_lt_of_scan hscan
      obtain ⟨hframe, hbuf⟩ := handled_handleResponse f.1 f.2 { c with recvBuf := rest }
      obtain ⟨hhandled, hrest, hreceives⟩ :=
        ih (c := handleResponse f.1 f.2 { c with recvBuf := rest })
          (by rw [hbuf]; dsimp only; omega)
      rw [hbuf] at hhandled hrest
      rw [clientCodec.parse_of_frame hscan]
      refine ⟨?_, hrest, ?_⟩
      · rw [hhandled, hframe, List.append_assoc]
        rfl
      · have hpop : Receives c { c with recvBuf := rest } := ⟨rfl, rfl, rfl, rfl⟩
        exact (hpop.trans (receives_handleResponse _ _ _)).trans hreceives

/-- **One read** of at least one byte takes the frames off the buffer and the bytes read. -/
theorem handleServerRead_eq {tmp : List UInt8} (htmp : tmp ≠ []) (c : Client) :
    (handleServerRead tmp c).handled =
        c.handled ++ (clientCodec.parse (c.recvBuf ++ tmp)).frames ∧
      some (handleServerRead tmp c).recvBuf = (clientCodec.parse (c.recvBuf ++ tmp)).rest ∧
      Receives c (handleServerRead tmp c) := by
  have hempty : ¬ tmp.isEmpty = true := by simpa using htmp
  rw [handleServerRead, if_neg hempty, processRecvBuffer]
  obtain ⟨hhandled, hrest, hreceives⟩ :=
    processRecvLoop_eq (c := { c with recvBuf := c.recvBuf ++ tmp }) (Nat.lt_succ_self _)
  have hpush : Receives c { c with recvBuf := c.recvBuf ++ tmp } := ⟨rfl, rfl, rfl, rfl⟩
  exact ⟨hhandled, hrest, hpush.trans hreceives⟩

/-- What is read does not matter to the sender. -/
theorem receives_handleServerRead (tmp : List UInt8) (c : Client) :
    Receives c (handleServerRead tmp c) := by
  rcases eq_or_ne tmp [] with rfl | htmp
  · exact ⟨packed_print _, wrote_print _, rfl, rfl⟩
  · exact (handleServerRead_eq htmp c).2.2

theorem Receives.packets (h : Receives c c') : c'.packets = c.packets :=
  congrArg (List.map Prod.fst) h.packed

end Client

end MyTeams
