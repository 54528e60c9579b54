import MyTeams.Client.Stream

/-!
# Which call belongs to which frame

The history of a client, read as a list of calls, each with the number of frames that had been
handed to `_handle_response` when it was made (`made`). What is typed hands over no frame and calls
nothing but prints (`Quiet`), so every other call was made while a frame was being decoded, and its
number is that of the frame.
-/

namespace MyTeams

namespace Client

/-- The calls of a history, each with the number of frames handled until then. -/
def callsFrom : ℕ → List ClientEvent → List (ℕ × Callback)
  | _, [] => []
  | n, .handled _ _ :: t => callsFrom (n + 1) t
  | n, .called k :: t => (n, k) :: callsFrom n t
  | n, .packed _ _ _ :: t => callsFrom n t
  | n, .wrote _ :: t => callsFrom n t

/-- The calls, each with the number of frames handled until then. -/
def made (c : Client) : List (ℕ × Callback) := callsFrom 0 c.history

/-- The frames handled in a part of a history. -/
def handledIn (t : List ClientEvent) : List Frame :=
  t.filterMap fun
    | .handled code payload => some (code, payload)
    | _ => none

theorem callsFrom_append (n : ℕ) (t t' : List ClientEvent) :
    callsFrom n (t ++ t') = callsFrom n t ++ callsFrom (n + (handledIn t).length) t' := by
  induction t generalizing n with
  | nil => rfl
  | cons e t ih =>
    cases e with
    | handled code payload =>
      have hcount : (handledIn (.handled code payload :: t)).length =
        (handledIn t).length + 1 := rfl
      rw [List.cons_append, callsFrom, callsFrom, ih, hcount]
      congr 2
      omega
    | called k =>
      rw [List.cons_append, callsFrom, callsFrom, ih]
      rfl
    | packed | wrote => exact ih n

theorem callsFrom_called (n : ℕ) (calls : List Callback) :
    callsFrom n (calls.map .called) = calls.map fun k ↦ (n, k) := by
  induction calls with
  | nil => rfl
  | cons k calls ih => rw [List.map_cons, callsFrom, ih, List.map_cons]

variable {c c' : Client}

theorem made_of_history {t : List ClientEvent} (h : c'.history = c.history ++ t) :
    c'.made = c.made ++ callsFrom c.handled.length t := by
  rw [made, h, callsFrom_append, Nat.zero_add]
  rfl

/-- The calls for a response carry the number of its frame. -/
theorem made_of_response {code : UInt16} {p : List UInt8} {calls : List Callback}
    (h : c'.history = c.history ++ .handled code p :: calls.map .called) :
    c'.made = c.made ++ calls.map fun k ↦ (c.handled.length + 1, k) := by
  rw [made_of_history h, callsFrom, callsFrom_called]

/-! ### What is typed -/

/-- Between `c` and `c'` no frame was handled, and nothing was called but prints. -/
structure Quiet (c c' : Client) : Prop where
  recvBuf : c'.recvBuf = c.recvBuf
  handled : c'.handled = c.handled
  made : ∃ lines : List Str, c'.made = c.made ++ lines.map fun s ↦ (c.handled.length, .output s)

theorem Quiet.refl (c : Client) : Quiet c c := ⟨rfl, rfl, [], (List.append_nil _).symm⟩

theorem Quiet.trans {c'' : Client} (h : Quiet c c') (h' : Quiet c' c'') : Quiet c c'' := by
  obtain ⟨lines, hlines⟩ := h.made
  obtain ⟨lines', hlines'⟩ := h'.made
  refine ⟨h'.recvBuf.trans h.recvBuf, h'.handled.trans h.handled, lines ++ lines', ?_⟩
  rw [hlines', hlines, h.handled, List.append_assoc, List.map_append]

/-- What leaves the history alone is quiet. -/
theorem Quiet.of_eq (hbuf : c'.recvBuf = c.recvBuf) (hhistory : c'.history = c.history) :
    Quiet c c' := by
  refine ⟨hbuf, by rw [Client.handled, hhistory]; rfl, [], ?_⟩
  rw [Client.made, hhistory]
  exact (List.append_nil _).symm

/-- An entry that is neither a frame nor a call. -/
theorem Quiet.of_entry {e : ClientEvent} (hbuf : c'.recvBuf = c.recvBuf)
    (hhistory : c'.history = c.history ++ [e]) (hframe : handledIn [e] = [])
    (hcall : ∀ n, callsFrom n [e] = []) : Quiet c c' := by
  refine ⟨hbuf, ?_, [], ?_⟩
  · rw [handled_of_history hhistory]
    exact (congrArg (c.handled ++ ·) hframe).trans (List.append_nil _)
  · rw [made_of_history hhistory, hcall]
    rfl

theorem quiet_print (s : Str) (c : Client) : Quiet c (c.print s) := by
  have hhistory : (c.print s).history = c.history ++ [.called (.output s)] := rfl
  exact ⟨rfl, (handled_of_history hhistory).trans (List.append_nil _), [s],
    made_of_history hhistory⟩

variable {io : ℕ → Option ℕ}

theorem quiet_handleServerWrite (c : Client) : Quiet c (handleServerWrite io c) := by
  obtain h | h | ⟨n, h⟩ := handleServerWrite_cases io c
  · rw [h]
    exact .refl c
  · rw [h]
    exact .of_eq rfl rfl
  · rw [h]
    exact .of_entry rfl rfl rfl fun _ ↦ rfl

theorem quiet_sendPacket (cmd : Command) (payload : List UInt8) (c : Client) :
    Quiet c (sendPacket io cmd payload c) := by
  have hpacked : Quiet c (c.enqueuePacket cmd payload) := .of_entry rfl rfl rfl fun _ ↦ rfl
  exact hpacked.trans (quiet_handleServerWrite _)

/-- **Whatever is typed**, no frame is handled, and nothing is called but prints. -/
theorem quiet_handleStdin (buf : Str) (c : Client) : Quiet c (handleStdin io buf c) := by
  refine handleStdin_induction io Quiet.refl Quiet.trans ?_ (fun c _ _ ↦ .of_eq rfl rfl) buf c
  rintro c c' (⟨s, rfl⟩ | ⟨cmd, payload, c₁, hissued, rfl⟩)
  · exact quiet_print s c
  · obtain ⟨level, team, channel, thread, rfl⟩ := hissued.frame
    refine Quiet.trans ?_ (quiet_sendPacket cmd payload _)
    exact .of_eq rfl rfl

end Client

end MyTeams
