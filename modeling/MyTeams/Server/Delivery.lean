import MyTeams.Server.Refinement

/-!
# Delivery

What the layer between the handlers and the send buffers does with a result. Everything that one
frame or one disconnection queues is a list of destinations with messages, `Result.sends`, and the
nested loops of `_send_result` are `queueAll` of that list. The lemmas about `queueAll` are all that
is used of the delivery code later: the shared data is not touched, every client's send buffer grows
by exactly the messages addressed to it, and what is addressed to no client is dropped.
-/

namespace MyTeams

/-! ### Reading the history -/

/-- The messages queued to a connection, oldest first. -/
def queuedOn (d : Fd) (trace : List Observation) : List (List UInt8) :=
  trace.filterMap fun
    | .queued fd bytes => if fd = d then some bytes else none
    | _ => none

/-- The frames dispatched for a connection, oldest first. -/
def framesOn (d : Fd) (trace : List Observation) : List (UInt16 × List UInt8) :=
  trace.filterMap fun
    | .dispatched fd cmd payload _ => if fd = d then some (cmd, payload) else none
    | _ => none

@[simp] theorem queuedOn_append (d : Fd) (t t' : List Observation) :
    queuedOn d (t ++ t') = queuedOn d t ++ queuedOn d t' :=
  List.filterMap_append

theorem queuedOn_cons_queued (d fd : Fd) (bytes : List UInt8) (t : List Observation) :
    queuedOn d (.queued fd bytes :: t) =
      if fd = d then bytes :: queuedOn d t else queuedOn d t := by
  rcases eq_or_ne fd d with h | h <;> simp [queuedOn, h]

@[simp] theorem framesOn_append (d : Fd) (t t' : List Observation) :
    framesOn d (t ++ t') = framesOn d t ++ framesOn d t' :=
  List.filterMap_append

/-- The messages of a list of destinations that are addressed to `d`. -/
def addressedTo {μ : Type} (d : Fd) (l : List (Fd × μ)) : List μ :=
  (l.filter fun x ↦ x.1 = d).map Prod.snd

@[simp] theorem addressedTo_nil {μ : Type} (d : Fd) : addressedTo d ([] : List (Fd × μ)) = [] := rfl

@[simp] theorem addressedTo_append {μ : Type} (d : Fd) (l l' : List (Fd × μ)) :
    addressedTo d (l ++ l') = addressedTo d l ++ addressedTo d l' := by
  simp [addressedTo]

theorem addressedTo_cons {μ : Type} (d : Fd) (x : Fd × μ) (l : List (Fd × μ)) :
    addressedTo d (x :: l) = if x.1 = d then x.2 :: addressedTo d l else addressedTo d l := by
  rcases eq_or_ne x.1 d with h | h <;> simp [addressedTo, h]

namespace Server

/-! ### Single clients -/

@[simp] theorem modifyClient_data (fd : Fd) (f : ClientState → ClientState) (s : Server) :
    (s.modifyClient fd f).data = s.data := rfl

@[simp] theorem modifyClient_trace (fd : Fd) (f : ClientState → ClientState) (s : Server) :
    (s.modifyClient fd f).trace = s.trace := rfl

@[simp] theorem modifyClient_served (fd : Fd) (f : ClientState → ClientState) (s : Server) :
    (s.modifyClient fd f).served = s.served := rfl

/-- On an existing key `operator[]` creates nothing. -/
theorem modifyClient_clients {fd : Fd} {c : ClientState} {s : Server}
    (h : s.clients[fd]? = some c) (f : ClientState → ClientState) :
    (s.modifyClient fd f).clients = s.clients.insert fd (f c) := by
  refine IntMap.ext_get fun d ↦ ?_
  rw [modifyClient, IntMap.get_alter, IntMap.get_insert, h]
  rfl

theorem get_modifyClient_self {fd : Fd} {c : ClientState} {s : Server}
    (h : s.clients[fd]? = some c) (f : ClientState → ClientState) :
    (s.modifyClient fd f).clients[fd]? = some (f c) := by
  rw [modifyClient_clients h, IntMap.get_insert_self]

theorem get_modifyClient_of_ne {fd d : Fd} (hd : d ≠ fd) (f : ClientState → ClientState)
    (s : Server) : (s.modifyClient fd f).clients[d]? = s.clients[d]? := by
  rw [modifyClient, IntMap.get_alter, if_neg hd.symm]

/-- Reading `clients[fd]` on an existing key changes nothing. -/
theorem modifyClient_id {fd : Fd} {s : Server} (h : s.clients.contains fd = true) :
    s.modifyClient fd id = s := by
  obtain ⟨c, hc⟩ := (IntMap.contains_iff _).1 h
  have hclients : (s.modifyClient fd id).clients = s.clients := by
    rw [modifyClient_clients hc]
    exact IntMap.insert_eq_self _ hc
  calc s.modifyClient fd id = { s with clients := (s.modifyClient fd id).clients } := rfl
    _ = s := by rw [hclients]

theorem contains_modifyClient {fd : Fd} {s : Server} (h : s.clients.contains fd = true)
    (f : ClientState → ClientState) (d : Fd) :
    (s.modifyClient fd f).clients.contains d = s.clients.contains d := by
  obtain ⟨c, hc⟩ := (IntMap.contains_iff _).1 h
  rw [modifyClient_clients hc, Std.ExtTreeMap.contains_insert]
  rcases eq_or_ne fd d with hd | hd
  · rw [← hd, h, Bool.or_true]
  · simp [hd]

/-- Queueing appends to the send buffer of the client, if there is one. -/
theorem queueBytes_clients (fd : Fd) (bytes : List UInt8) (s : Server) (d : Fd) :
    (queueBytes fd bytes s).clients[d]? =
      s.clients[d]?.map fun c ↦
        if fd = d then { c with sendBuffer := c.sendBuffer ++ bytes } else c := by
  by_cases hmem : s.clients.contains fd = true
  · obtain ⟨c, hc⟩ := (IntMap.contains_iff _).1 hmem
    rw [queueBytes, if_pos hmem, record]
    rcases eq_or_ne fd d with rfl | hd
    · rw [get_modifyClient_self hc, hc, Option.map_some, if_pos rfl]
    · rw [get_modifyClient_of_ne hd.symm]
      simp [hd]
  · rw [queueBytes, if_neg hmem]
    rcases eq_or_ne fd d with hd | hd
    · have hnone := (IntMap.contains_eq_false_iff _).1 (Bool.eq_false_iff.2 hmem)
      rw [← hd, hnone, Option.map_none]
    · simp [hd]

@[simp] theorem queueBytes_data (fd : Fd) (bytes : List UInt8) (s : Server) :
    (queueBytes fd bytes s).data = s.data := by
  rw [queueBytes]
  split_ifs <;> rfl

@[simp] theorem queueBytes_served (fd : Fd) (bytes : List UInt8) (s : Server) :
    (queueBytes fd bytes s).served = s.served := by
  rw [queueBytes]
  split_ifs <;> rfl

theorem queueBytes_trace (fd : Fd) (bytes : List UInt8) (s : Server) :
    (queueBytes fd bytes s).trace =
      s.trace ++ if s.clients.contains fd then [.queued fd bytes] else [] := by
  rw [queueBytes]
  split_ifs
  · rfl
  · rw [List.append_nil]

@[simp] theorem contains_queueBytes (fd : Fd) (bytes : List UInt8) (s : Server) (d : Fd) :
    (queueBytes fd bytes s).clients.contains d = s.clients.contains d := by
  rw [Std.ExtTreeMap.contains_eq_isSome_getElem?, queueBytes_clients, Option.isSome_map,
    ← Std.ExtTreeMap.contains_eq_isSome_getElem?]

/-! ### Lists of messages -/

/-- Queue messages one after the other. -/
def queueAll (l : List (Fd × List UInt8)) (s : Server) : Server :=
  l.foldl (fun s x ↦ queueBytes x.1 x.2 s) s

@[simp] theorem queueAll_nil (s : Server) : queueAll [] s = s := rfl

@[simp] theorem queueAll_cons (x : Fd × List UInt8) (l : List (Fd × List UInt8)) (s : Server) :
    queueAll (x :: l) s = queueAll l (queueBytes x.1 x.2 s) := rfl

theorem queueAll_append (l l' : List (Fd × List UInt8)) (s : Server) :
    queueAll (l ++ l') s = queueAll l' (queueAll l s) :=
  List.foldl_append

@[simp] theorem queueAll_data (l : List (Fd × List UInt8)) (s : Server) :
    (queueAll l s).data = s.data := by
  induction l generalizing s with
  | nil => rfl
  | cons x l ih => rw [queueAll_cons, ih, queueBytes_data]

@[simp] theorem queueAll_served (l : List (Fd × List UInt8)) (s : Server) :
    (queueAll l s).served = s.served := by
  induction l generalizing s with
  | nil => rfl
  | cons x l ih => rw [queueAll_cons, ih, queueBytes_served]

@[simp] theorem contains_queueAll (l : List (Fd × List UInt8)) (s : Server) (d : Fd) :
    (queueAll l s).clients.contains d = s.clients.contains d := by
  induction l generalizing s with
  | nil => rfl
  | cons x l ih => rw [queueAll_cons, ih, contains_queueBytes]

/-- Every client's send buffer grows by the messages addressed to it, in order. -/
theorem queueAll_clients (l : List (Fd × List UInt8)) (s : Server) (d : Fd) :
    (queueAll l s).clients[d]? =
      s.clients[d]?.map fun c ↦
        { c with sendBuffer := c.sendBuffer ++ (addressedTo d l).flatten } := by
  induction l generalizing s with
  | nil => simp
  | cons x l ih =>
    rw [queueAll_cons, ih, queueBytes_clients, Option.map_map, addressedTo_cons]
    congr 1
    funext c
    rcases eq_or_ne x.1 d with hd | hd <;> simp [hd]

/-- The history records the messages that had a client to go to. -/
theorem queueAll_trace (l : List (Fd × List UInt8)) (s : Server) :
    (queueAll l s).trace =
      s.trace ++ (l.filter fun x ↦ s.clients.contains x.1).map fun x ↦ .queued x.1 x.2 := by
  induction l generalizing s with
  | nil => simp
  | cons x l ih =>
    rw [queueAll_cons, ih, queueBytes_trace]
    simp only [contains_queueBytes, List.append_assoc]
    by_cases hmem : s.clients.contains x.1 = true <;> simp [hmem]

/-- What is queued to a connection is what is addressed to it, and nothing if it is no client. -/
theorem queuedOn_queueAll (l : List (Fd × List UInt8)) (s : Server) (d : Fd) :
    queuedOn d (queueAll l s).trace =
      queuedOn d s.trace ++ if s.clients.contains d then addressedTo d l else [] := by
  rw [queueAll_trace, queuedOn_append]
  congr 1
  induction l with
  | nil => simp [queuedOn]
  | cons x l ih =>
    rw [List.filter_cons, addressedTo_cons]
    rcases eq_or_ne x.1 d with rfl | hd
    · rw [if_pos rfl]
      cases hx : s.clients.contains x.1 with
      | true =>
        rw [if_pos rfl, List.map_cons, queuedOn_cons_queued, if_pos rfl, ih, hx]
        rfl
      | false => rw [if_neg Bool.false_ne_true, ih, hx]; rfl
    · rw [if_neg hd, ← ih]
      split_ifs
      · rw [List.map_cons, queuedOn_cons_queued, if_neg hd]
      · rfl

end Server

/-! ### Results -/

/-- Where the pushes of a result go. -/
def deliveries (fd : Fd) (pushes : List Push) : List (Fd × List UInt8) :=
  pushes.flatMap fun p ↦ (p.fds.filter (· ≠ fd)).map fun d ↦ (d, p.packet.bytes)

/-- Everything a result causes to be queued. -/
def Result.sends (fd : Fd) (r : Result) : List (Fd × List UInt8) :=
  (if r.response.bytes.isEmpty then [] else [(fd, r.response.bytes)]) ++ deliveries fd r.pushes

namespace Server

/-- The delivery loops are one list of messages. -/
theorem deliver_eq (fd : Fd) (pushes : List Push) (s : Server) :
    deliver fd pushes s = queueAll (deliveries fd pushes) s := by
  have hpush (b : List UInt8) (fds : List Fd) (s : Server) :
      fds.foldl (fun s target ↦ if target = fd then s else queueBytes target b s) s =
        queueAll ((fds.filter (· ≠ fd)).map fun d ↦ (d, b)) s := by
    induction fds generalizing s with
    | nil => rfl
    | cons d fds ih => rcases eq_or_ne d fd with hd | hd <;> simp [hd, ih]
  induction pushes generalizing s with
  | nil => rfl
  | cons p pushes ih =>
    rw [deliveries, List.flatMap_cons, queueAll_append, ← hpush]
    exact ih _

/-- **`_send_result` queues the messages of the result.** -/
theorem sendResult_eq (fd : Fd) (r : Result) (s : Server) :
    sendResult fd r s = queueAll (r.sends fd) s := by
  rw [sendResult, deliver_eq, Result.sends, queueAll_append]
  split_ifs <;> rfl

end Server

/-! ### Answers -/

/-- The bytes of a message. -/
def Msg.bytes (m : Msg) : List UInt8 := m.packet.bytes

/-- The messages that an answer on connection `fd` has for connection `d`. -/
def Answer.messagesTo (fd d : Fd) (a : Answer) : List Msg :=
  if d = fd then [a.msg] else a.events.flatMap fun e ↦ List.replicate (e.2.count d) e.1

/-- Everything that an answer sends: the response and the events. -/
def Answer.msgs (a : Answer) : List Msg := a.msg :: a.events.map Prod.fst

theorem mem_msgs_of_mem_messagesTo {a : Answer} {fd d : Fd} {m : Msg} (h : m ∈ a.messagesTo fd d) :
    m ∈ a.msgs := by
  rw [Answer.messagesTo] at h
  split_ifs at h
  · rw [List.mem_singleton.1 h]
    exact List.mem_cons_self
  · obtain ⟨e, he, hme⟩ := List.mem_flatMap.1 h
    rw [List.eq_of_mem_replicate hme]
    exact List.mem_cons_of_mem _ (List.mem_map_of_mem he)

theorem addressedTo_map_pair {μ : Type} (d : Fd) (m : μ) (fds : List Fd) :
    addressedTo d (fds.map fun fd ↦ (fd, m)) = List.replicate (fds.count d) m := by
  induction fds with
  | nil => rfl
  | cons fd fds ih =>
    rw [List.map_cons, addressedTo_cons, ih, List.count_cons]
    rcases eq_or_ne fd d with h | h <;> simp [h, List.replicate_succ]

theorem addressedTo_deliveries (fd d : Fd) (pushes : List Push) :
    addressedTo d (deliveries fd pushes) =
      if d = fd then []
      else pushes.flatMap fun p ↦ List.replicate (p.fds.count d) p.packet.bytes := by
  induction pushes with
  | nil => simp [deliveries]
  | cons p pushes ih =>
    rw [deliveries, List.flatMap_cons, addressedTo_append, addressedTo_map_pair, ← deliveries, ih]
    rcases eq_or_ne d fd with h | h
    · have hcount : (p.fds.filter (· ≠ fd)).count d = 0 := by
        rw [List.count_eq_zero, h]
        simp
      simp only [h ▸ hcount, h, if_true, List.replicate_zero, List.append_nil]
    · rw [if_neg h, if_neg h, List.flatMap_cons, List.count_filter (by simpa using h)]

/-- What a result has for others than the issuer are its pushes. -/
theorem addressedTo_sends_of_ne {fd d : Fd} (hd : d ≠ fd) (r : Result) :
    addressedTo d (r.sends fd) = addressedTo d (deliveries fd r.pushes) := by
  rw [Result.sends, addressedTo_append]
  split_ifs
  · rfl
  · rw [addressedTo_cons, if_neg (Ne.symm hd)]
    rfl

/-- Everything an answer causes to be queued to `d` is the packets of its messages for `d`. -/
theorem addressedTo_sends (fd d : Fd) (a : Answer) :
    addressedTo d (a.result.sends fd) = (a.messagesTo fd d).map Msg.bytes := by
  have hresponse : a.result.response.bytes.isEmpty = false := by
    rw [List.isEmpty_eq_false_iff, ← List.length_pos_iff]
    show 0 < (makeMessage _ _).length
    simp [makeMessage]
  rw [Result.sends, hresponse, addressedTo_append, addressedTo_deliveries, Answer.messagesTo]
  rcases eq_or_ne d fd with h | h
  · simp [h, addressedTo_cons]
    rfl
  · simp [h, Ne.symm h, addressedTo_cons, Answer.result, List.flatMap_map, List.map_flatMap]
    rfl

end MyTeams
