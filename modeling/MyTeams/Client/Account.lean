import MyTeams.Client.Calls

/-!
# The account that a client thinks it is in

The client remembers in `_user_uuid` what the last `RES_LOGIN_OK` said, and passes it to the logging
library when it reports a subscription. Nothing else stores there, whatever is typed and whatever
arrives, so what a client reports is determined by the frames that it has been handed (`Knows`).
-/

namespace MyTeams

open ByteField ByteReader

/-- The account after a frame. -/
def accountAfter (uuid : Str) (f : Frame) : Str :=
  if f.1 = Response.loginOk.code then ((readFixed 36).read f.2).1 else uuid

theorem accountAfter_of_ne {uuid : Str} {f : Frame} (h : f.1 ≠ Response.loginOk.code) :
    accountAfter uuid f = uuid := if_neg h

/-- The account after a number of frames. -/
def account (frames : List Frame) : Str := frames.foldl accountAfter []

theorem account_concat (frames : List Frame) (f : Frame) :
    account (frames ++ [f]) = accountAfter (account frames) f := List.foldl_append

/-- Only a login names an account. -/
theorem account_append_of_ne {frames frames' : List Frame}
    (h : ∀ f ∈ frames', f.1 ≠ Response.loginOk.code) :
    account (frames ++ frames') = account frames := by
  induction frames' using List.reverseRecOn with
  | nil => rw [List.append_nil]
  | append_singleton frames' f ih =>
    rw [← List.append_assoc, account_concat,
      accountAfter_of_ne (h f (List.mem_append_right _ (List.mem_singleton_self f)))]
    exact ih fun g hg ↦ h g (List.mem_append_left _ hg)

/-- The user and the team that a call reports a subscription of, and whether the user is a member
now. -/
def Callback.membership : Callback → Option (Str × Str × Bool)
  | printSubscribed user team => some (user, team, true)
  | printUnsubscribed user team => some (user, team, false)
  | _ => none

/-! ### What is read -/

theorem mem_readTimes {α : Type} {r : Reader α} {P : α → Prop} (h : ∀ p c, P (r p c).1) (n : ℕ)
    (p : List UInt8) (c : Cursor) : ∀ a ∈ (readTimes r n p c).1, P a := by
  induction n generalizing c with
  | zero => exact fun a ha ↦ absurd ha List.not_mem_nil
  | succ n ih =>
    intro a ha
    rcases List.mem_cons.1 ha with rfl | ha
    · exact h p c
    · exact ih _ a ha

/-- **Subscriptions are reported for their responses**, and of the account that the client is in. -/
theorem membership_of_mem_responseCalls {c : Client} {k : ServerCode} {p : List UInt8}
    {call : Callback} (hcall : call ∈ ((responseCalls c k).read p).1) {user team : Str}
    {joined : Bool} (hm : call.membership = some (user, team, joined)) :
    user = c.userUuid ∧ k ≠ .res .loginOk := by
  have hlist {record : Reader Callback} (hrecord : ∀ p c, (record p c).1.membership = none) :
      call ∉ ((readList record).read p).1 := by
    intro hmem
    have hnone := mem_readTimes (P := fun k ↦ k.membership = none) hrecord _ _ _ call hmem
    rw [hnone] at hm
    cases hm
  unfold responseCalls at hcall
  split at hcall
  -- a list is made of calls of one kind
  case h_15 | h_16 | h_17 | h_18 | h_19 | h_20 | h_21 | h_22 =>
    exact absurd hcall (hlist fun _ _ ↦ rfl)
  case h_4 | h_5 =>
    rw [List.mem_singleton.1 hcall] at hm
    obtain ⟨rfl, -⟩ := Prod.mk.inj (Option.some.inj hm)
    exact ⟨rfl, by decide⟩
  all_goals
    first
    | rw [List.mem_singleton.1 hcall] at hm
      cases hm
    | cases hcall

namespace Client

variable {io : ℕ → Option ℕ} {c c' : Client}

theorem userUuid_handleResponse (code : UInt16) (p : List UInt8) (c : Client) :
    (c.handleResponse code p).userUuid = accountAfter c.userUuid (code, p) := by
  have hcall (calls : List Callback) (c : Client) :
      (calls.foldl (fun c call ↦ c.call call) c).userUuid = c.userUuid := by rw [foldl_call]
  unfold handleResponse
  cases hcode : ServerCode.ofCode? code with
  | none =>
    refine (accountAfter_of_ne ?_).symm
    rintro rfl
    cases hcode
  | some k =>
    rw [hcall]
    have hk : k.code = code := ServerCode.code_of_ofCode? hcode
    by_cases hlogin : k = .res .loginOk
    · subst hlogin
      exact (if_pos hk.symm).symm
    · rw [accountAfter_of_ne fun h ↦ hlogin (ServerCode.code_injective (hk.trans h))]
      unfold applyResponse
      split
      · exact absurd rfl hlogin
      · rfl
      · rfl

/-- The calls for a frame, and the subscriptions among them. -/
theorem history_handleResponse (code : UInt16) (p : List UInt8) (c : Client) :
    ∃ calls : List Callback,
      (c.handleResponse code p).history = c.history ++ .handled code p :: calls.map .called ∧
        ∀ k ∈ calls, ∀ user team joined, k.membership = some (user, team, joined) →
          user = c.userUuid ∧ code ≠ Response.loginOk.code := by
  unfold handleResponse
  cases hcode : ServerCode.ofCode? code with
  | none => exact ⟨[], rfl, fun _ h ↦ absurd h List.not_mem_nil⟩
  | some k =>
    refine ⟨((responseCalls (c.record (.handled code p)) k).read p).1, ?_,
      fun call hcall user team joined hm ↦ ?_⟩
    · obtain ⟨running, uuid, heq⟩ := applyResponse_eq k
        ((responseCalls (c.record (.handled code p)) k).read p).1 (c.record (.handled code p))
      dsimp only
      rw [foldl_call, heq]
      exact List.append_assoc _ _ _
    · obtain ⟨huser, hne⟩ := membership_of_mem_responseCalls hcall hm
      have hk : k.code = code := ServerCode.code_of_ofCode? hcode
      exact ⟨huser, fun h ↦ hne (ServerCode.code_injective (hk.trans h))⟩

/-! ### What is typed -/

theorem userUuid_handleServerWrite (c : Client) :
    (handleServerWrite io c).userUuid = c.userUuid := by
  obtain h | h | ⟨n, h⟩ := handleServerWrite_cases io c
  · rw [h]
  · rw [h]
  · rw [h]
    rfl

theorem userUuid_handleStdin (buf : Str) (c : Client) :
    (handleStdin io buf c).userUuid = c.userUuid := by
  refine handleStdin_induction io (R := fun c c' ↦ c'.userUuid = c.userUuid) (fun _ ↦ rfl)
    (fun h h' ↦ h'.trans h) ?_ (fun _ _ _ ↦ rfl) buf c
  rintro c c' (⟨s, rfl⟩ | ⟨cmd, payload, c₁, hissued, rfl⟩)
  · rfl
  · obtain ⟨level, team, channel, thread, rfl⟩ := hissued.frame
    exact userUuid_handleServerWrite _

/-! ### What a client knows -/

/-- **What a client knows**: the account it is in follows from the frames handed to it, and a
subscription is reported of the account after its frame. -/
structure Knows (c : Client) : Prop where
  userUuid : c.userUuid = account c.handled
  made : ∀ n k, (n, k) ∈ c.made → ∀ user team joined, k.membership = some (user, team, joined) →
    n ≤ c.handled.length ∧ user = account (c.handled.take n)

theorem knows_init : Knows init := ⟨rfl, fun _ _ h ↦ absurd h List.not_mem_nil⟩

theorem Knows.quiet (h : c.Knows) (hquiet : Quiet c c') (huser : c'.userUuid = c.userUuid) :
    c'.Knows := by
  refine ⟨by rw [huser, h.userUuid, hquiet.handled], fun n k hk user team joined hm ↦ ?_⟩
  obtain ⟨lines, hlines⟩ := hquiet.made
  rw [hquiet.handled]
  rw [hlines] at hk
  rcases List.mem_append.1 hk with hk | hk
  · exact h.made n k hk user team joined hm
  · obtain ⟨s, -, heq⟩ := List.mem_map.1 hk
    obtain ⟨rfl, rfl⟩ := Prod.mk.inj heq
    cases hm

/-- **One frame.** -/
theorem Knows.handleResponse (h : c.Knows) (code : UInt16) (p : List UInt8) :
    (c.handleResponse code p).Knows := by
  have hhandled := (handled_handleResponse code p c).1
  refine ⟨by rw [userUuid_handleResponse, hhandled, account_concat, h.userUuid], ?_⟩
  intro n k hk user team joined hm
  rw [hhandled]
  obtain ⟨calls, hhistory, hcalls⟩ := history_handleResponse code p c
  rw [made_of_response hhistory] at hk
  rcases List.mem_append.1 hk with hk | hk
  · obtain ⟨hle, huser⟩ := h.made n k hk user team joined hm
    refine ⟨by rw [List.length_append]; omega, ?_⟩
    rw [List.take_append_of_le_length hle, huser]
  · obtain ⟨call, hcall, heq⟩ := List.mem_map.1 hk
    obtain ⟨rfl, rfl⟩ := Prod.mk.inj heq
    obtain ⟨huser, hne⟩ := hcalls call hcall user team joined hm
    refine ⟨by rw [List.length_append, List.length_singleton], ?_⟩
    rw [List.take_of_length_le (by rw [List.length_append, List.length_singleton]), account_concat,
      accountAfter_of_ne hne, ← h.userUuid, huser]

theorem Knows.processRecvLoop (h : c.Knows) (n : ℕ) : (c.processRecvLoop n).Knows := by
  induction n generalizing c with
  | zero => exact h
  | succ n ih =>
    rw [processRecvLoop_succ]
    split
    · rename_i f rest _
      have hrest : Knows { c with recvBuf := rest } := ⟨h.userUuid, h.made⟩
      exact ih (hrest.handleResponse f.1 f.2)
    · exact h

/-- **Whatever is typed, and whatever arrives.** -/
theorem Knows.handleStdin (h : c.Knows) (buf : Str) : (c.handleStdin io buf).Knows :=
  h.quiet (quiet_handleStdin buf c) (userUuid_handleStdin buf c)

theorem Knows.handleServerWrite (h : c.Knows) : (c.handleServerWrite io).Knows :=
  h.quiet (quiet_handleServerWrite c) (userUuid_handleServerWrite c)

theorem Knows.handleServerRead (h : c.Knows) (tmp : List UInt8) :
    (c.handleServerRead tmp).Knows := by
  unfold Client.handleServerRead
  split_ifs
  · have hprint := quiet_print (text "Server disconnected.\n") c
    exact h.quiet ⟨hprint.recvBuf, hprint.handled, hprint.made⟩ rfl
  · have hpush : Knows { c with recvBuf := c.recvBuf ++ tmp } := ⟨h.userUuid, h.made⟩
    exact hpush.processRecvLoop _

end Client

end MyTeams
