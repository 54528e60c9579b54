import MyTeams.Server.Audience
import MyTeams.Server.OneFrame
import MyTeams.Server.Secrets

/-!
# Private message bodies

Two runs get the same inputs, but for the 512 body bytes of one `CMD_SEND` frame from a session of
user `A` to user `B`. What they store differs in the body of that message only (`BodyHidden`), and a
connection is sent the same as long as nobody on it is `A` or `B`: a body is read by `CMD_MESSAGES`,
which picks the messages that have the session's user on one side, and by the event to the sessions
of the receiver.
-/

namespace MyTeams

open ByteField FirstMatch Lockstep

/-! ### Messages that differ in a body -/

/-- The same message, or one from `A` to `B` with another body. -/
def Message.Alike (A B : Str) (m m' : Message) : Prop :=
  m' = m ∨ m.senderUuid.toList = A ∧ m.receiverUuid.toList = B ∧ m' = { m with body := m'.body }

/-- **Only the body of message `n` is hidden**, and that one is from `A` to `B`. -/
structure BodyHidden (n : ℕ) (A B : Str) (l l' : List Message) : Prop where
  alike : List.Forall₂ (Message.Alike A B) l l'
  others : ∀ i, i ≠ n → l'[i]? = l[i]?

section Messages

variable {n : ℕ} {A B : Str} {l l' : List Message} {m m' : Message}

theorem BodyHidden.refl (l : List Message) : BodyHidden n A B l l :=
  ⟨List.forall₂_same.2 fun _ _ ↦ .inl rfl, fun _ _ ↦ rfl⟩

/-- The same message stored in both. -/
theorem BodyHidden.concat (h : BodyHidden n A B l l') (m : Message) :
    BodyHidden n A B (l ++ [m]) (l' ++ [m]) where
  alike := List.rel_append h.alike (.cons (.inl rfl) .nil)
  others i hi := by
    rw [List.getElem?_append, List.getElem?_append, h.others i hi, h.alike.length_eq]

/-- The message that differs, stored last. -/
theorem bodyHidden_concat (l : List Message) (h : m.Alike A B m') :
    BodyHidden l.length A B (l ++ [m]) (l ++ [m']) where
  alike := List.rel_append (List.forall₂_same.2 fun _ _ ↦ .inl rfl) (.cons h .nil)
  others i hi := by
    rcases Nat.lt_or_gt_of_ne hi with hlt | hgt
    · rw [List.getElem?_append_left hlt, List.getElem?_append_left hlt]
    · have hend (m : Message) : (l ++ [m])[i]? = none :=
        List.getElem?_eq_none (by rw [List.length_append]; exact hgt)
      rw [hend, hend]

theorem Message.Alike.messageMatch (h : m.Alike A B m') (u v : Str) :
    MyTeams.messageMatch u v m' = MyTeams.messageMatch u v m := by
  rcases h with rfl | ⟨-, -, h⟩
  · rfl
  · rw [h]
    rfl

/-- Somebody who is neither `A` nor `B` has no part in the message that differs. -/
theorem Message.Alike.eq (h : m.Alike A B m') {u v : Str} (hA : u ≠ A) (hB : u ≠ B)
    (hmatch : MyTeams.messageMatch u v m = true) : m' = m := by
  rcases h with rfl | ⟨hsender, hreceiver, -⟩
  · rfl
  · simp only [MyTeams.messageMatch, Bool.or_eq_true, Bool.and_eq_true, beq_iff_eq, hsender,
      hreceiver] at hmatch
    rcases hmatch with ⟨h, -⟩ | ⟨-, h⟩
    · exact absurd h.symm hA
    · exact absurd h.symm hB

theorem filter_messageMatch_eq {u : Str} (h : List.Forall₂ (Message.Alike A B) l l') (hA : u ≠ A)
    (hB : u ≠ B) (v : Str) : l'.filter (messageMatch u v) = l.filter (messageMatch u v) := by
  induction h with
  | nil => rfl
  | @cons m m' l l' hm _ ih =>
    rw [List.filter_cons, List.filter_cons, hm.messageMatch, ih]
    split_ifs with hmatch
    · rw [hm.eq hA hB hmatch]
    · rfl

theorem length_appendMessage (out : List UInt8) (m : Message) :
    (appendMessage out m).length = out.length + 592 := by
  simp [appendMessage]

end Messages

/-! ### The handlers of private messages -/

section Handlers

variable {n : ℕ} {A B k : Str} {fd : Fd} {Low : Fd → Prop} {data data' : ServerData}

theorem handleMessages_alike (h : SameBut k (BodyHidden n A B) data data')
    (hlow : Low fd → ∀ u, data.sessions[fd]? = some u → u ≠ A ∧ u ≠ B) (user : Str) :
    (handleMessages fd user data).Alike k (BodyHidden n A B) fd Low
    (handleMessages fd user data') := by
  refine .withSession h fun self hs ↦ .withUuid36 h _ (.withUser h _ _ fun u _ ↦ ?_)
  have hfilter : List.Forall₂ (Message.Alike A B) (data.messages.filter (messageMatch self user))
      (data'.messages.filter (messageMatch self user)) :=
    List.rel_filter (fun m m' hm ↦ by simp only [hm.messageMatch]) h.messages.alike
  refine .answer h _ ?_ fun hfd ↦ ?_
  · rw [length_foldl_append length_appendMessage, length_foldl_append length_appendMessage,
      hfilter.length_eq]
  · obtain ⟨hA, hB⟩ := hlow hfd self hs
    rw [filter_messageMatch_eq h.messages.alike hA hB]

/-- **The frame that differs**: the same answer, and an event to sessions of `B`. -/
theorem handleSend_alike_of_body (host : Host) {body body' : Str} (hs : data.sessions[fd]? = some A)
    (hn : data.messages.length = n) (hA : A.length = 36)
    (hlow : ∀ d, Low d → ∀ u, data.sessions[d]? = some u → u ≠ A ∧ u ≠ B) :
    (handleSend host fd B body data).Alike k (BodyHidden n A B) fd Low
      (handleSend host fd B body' data) := by
  have h : SameBut k (BodyHidden n A B) data data := .refl BodyHidden.refl data
  refine .withSession h fun user hs' ↦ .withUuid36 h _ (.withUser h _ _ fun receiver hreceiver ↦ ?_)
  obtain rfl := Option.some.inj (hs.symm.trans hs')
  have hB : receiver.uuid.str = B := str_of_findUserByUuid hreceiver
  have hstored : (newMessage host A B body).Alike A B (newMessage host A B body') :=
    .inr ⟨toList_fill_of_length hA, toList_fill_of_length (hB ▸ receiver.uuid.length_str), rfl⟩
  refine ⟨⟨rfl, h.teams, hn ▸ bodyHidden_concat data.messages hstored⟩, rfl, fun _ ↦ rfl, ?_⟩
  dsimp only
  split_ifs
  · exact .nil
  · refine .cons ⟨rfl, ?_, fun d hd hlowd ↦ ?_⟩ .nil
    · show (makeMessage _ _).length = (makeMessage _ _).length
      simp [length_makeMessage]
    · exact absurd hB (hlow d hlowd _ (mem_userFds.1 hd)).2

end Handlers

/-! ### Runs -/

namespace Server

variable {host : ℕ → Host} {n : ℕ} {A B : Str}

/-- Nobody on the connection is `A` or `B`. -/
def Stranger (A B : Str) (s : Server) (d : Fd) : Prop :=
  ∀ u, s.data.sessions[d]? = some u → u ≠ A ∧ u ≠ B

/-- **The handlers keep a body hidden** from strangers. -/
theorem keeps_bodyHidden (P : Server → Action → Prop) :
    Keeps host (SameBut [] (BodyHidden n A B)) (fun s _ ↦ Stranger A B s) P where
  frame s _ _ cmd payload _ _ h :=
    (frameOutcome_alike h (host s.served) cmd payload (fun _ _ ↦ shuts_nil _ _)
      (handleSend_alike h (fun h m ↦ h.concat m) _) fun _ user ↦
        handleMessages_alike h (fun hlow ↦ hlow) user).outcomeAlike
  logout := SameBut.logoutAlike

theorem extractSv_append_left {p q : List UInt8} {m : ℕ} (h : p.length = m) :
    extractSv (p ++ q) 0 m = p := by
  rw [extractSv, if_neg (by rw [List.length_append]; omega), List.drop_zero, List.take_left' h]

theorem extractSv_append_right {p q : List UInt8} {l m : ℕ} (hp : p.length = l)
    (hq : q.length = m) :
    extractSv (p ++ q) l m = q := by
  rw [extractSv, if_neg (by rw [List.length_append]; omega), List.drop_left' hp,
    List.take_of_length_le hq.le]

/-- **Private message bodies.** The inputs of two runs differ in the body of a frame from `A` to
`B`: at every point their data differs at most in the body of one message, and what is queued to a
connection in any stretch of the run without `A` or `B` on it is the same. -/
theorem private_bodies (host : ℕ → Host) {A B : Str} {c : Fd} {all : List Frame}
    {body body' : List UInt8} {is is' : List Input}
    (hdiffer : DifferInFrame host c all (Command.send.code, B ++ body)
      (Command.send.code, B ++ body') is is')
    (hadmissible : Admissible host is Server.init) (hB : B.length = 36) (hbody : body.length = 512)
    (hsender : ∀ k, DispatchedAt host c all (Command.send.code, B ++ body) is k →
      (stateAt host is k).data.sessions[c]? = some A) :
    (actions host is' Server.init).length = (actions host is Server.init).length ∧
    (∃ n, (∀ k, DispatchedAt host c all (Command.send.code, B ++ body) is k →
        (stateAt host is k).data.messages.length = n) ∧
      ∀ k,
        (stateAt host is' k).data =
            { (stateAt host is k).data with messages := (stateAt host is' k).data.messages } ∧
          BodyHidden n A B (stateAt host is k).data.messages (stateAt host is' k).data.messages) ∧
      ∀ d j k, j ≤ k → (∀ i, j ≤ i → i < k → Stranger A B (stateAt host is i) d) →
        newMessages d (stateAt host is' j) (stateAt host is' k) =
          newMessages d (stateAt host is j) (stateAt host is k) := by
  -- `n` is the number of messages at the moment when the frame is dispatched
  obtain ⟨n, hn⟩ := @exists_at_moment host c (Command.send.code, B ++ body) all ℕ _
    (fun s ↦ s.data.messages.length) (actions host is Server.init) Server.init
  have hP : Along (perform host)
      (fun s a ↦ a = .frame c Command.send.code (B ++ body) → framesOn c s.trace = all →
        s.data.sessions[c]? = some A ∧ s.data.messages.length = n)
      (actions host is Server.init) Server.init :=
    along_iff.2 fun k a ha hframe hall ↦
      ⟨hsender k ⟨hframe ▸ ha, hall⟩, along_iff.1 hn k a ha hframe hall⟩
  have hides : Hides host (SameBut [] (BodyHidden n A B)) (fun s _ ↦ Stranger A B s)
      (fun s a ↦ a = .frame c Command.send.code (B ++ body) → framesOn c s.trace = all →
        s.data.sessions[c]? = some A ∧ s.data.messages.length = n) c all
      (Command.send.code, B ++ body) (Command.send.code, B ++ body') := by
    intro s hs hmoment hall
    obtain ⟨hsession, hcount⟩ := hmoment rfl hall
    have hbody' : body'.length = 512 := by
      have hlength := hdiffer.length_eq
      rw [List.length_append, List.length_append] at hlength
      omega
    have hframe {body : List UInt8} (hbody : body.length = 512) :
        frameOutcome (host s.served) c Command.send.code (B ++ body) s.data =
          handleSend (host s.served) c B body s.data := by
      rw [frameOutcome_of_session hsession (Command.ofCode?_code _), handle,
        extractSv_append_left hB, extractSv_append_right hB hbody]
    dsimp only
    rw [hframe hbody, hframe hbody']
    exact (handleSend_alike_of_body _ hsession hcount (hs.sessionsWf c A hsession)
      fun d hd ↦ hd).outcomeAlike
  have hrun := hdiffer.indistinguishable hadmissible (keeps_bodyHidden _)
    (SameBut.refl BodyHidden.refl) hides hP
  refine ⟨hrun.length_eq.symm, ⟨n, fun k hk ↦ along_iff.1 hn k _ hk.1 rfl hk.2, fun k ↦ ?_⟩,
    fun d j k hjk hlow ↦ hrun.newMessages_eq hjk fun i a hji hik _ ↦ hlow i hji hik⟩
  have hstates : SameBut [] (BodyHidden n A B) (stateAt host is k).data (stateAt host is' k).data :=
    hrun.states k
  exact ⟨hstates.of_nil, hstates.messages⟩

/-- What arrives on 4 and on the other connections: `a`, `b` and `c` log in on 4, 5 and 6, then `a`
sends the body to `b`. -/
def whispered (body : List UInt8) : List Input :=
  [.client 4 (.read (makeMessage Command.login.code [97])), .accept 5,
    .client 5 (.read (makeMessage Command.login.code [98])), .accept 6,
    .client 6 (.read (makeMessage Command.login.code [99])),
    .client 4 (.read (makeMessage Command.send.code ((plainUuid 1).str ++ body)))]

/-- The run of `whispered`; after it `c` asks for the users and `b` for its messages. -/
def whisper (body : List UInt8) : List Input :=
  .accept 4 :: (whispered body ++
    [.client 6 (.read (makeMessage Command.users.code [])),
      .client 5 (.read (makeMessage Command.messages.code (plainUuid 0).str))])

/-- Connection 6 is sent the same whatever `a` writes to `b`. -/
theorem private_bodies_whisper :
    newMessages 6 (stateAt plainHost (whisper (List.replicate 512 2)) 0)
        (stateAt plainHost (whisper (List.replicate 512 2)) 15) =
      newMessages 6 (stateAt plainHost (whisper (List.replicate 512 1)) 0)
        (stateAt plainHost (whisper (List.replicate 512 1)) 15) := by
  have hconnection (body : List UInt8) : ∀ i ∈ whispered body, i ≠ .accept 4 := by
    simp [whispered]
  have hdiffer : DifferInFrame plainHost 4 [(Command.login.code, [97])]
      (Command.send.code, (plainUuid 1).str ++ List.replicate 512 1)
      (Command.send.code, (plainUuid 1).str ++ List.replicate 512 2)
      (whisper (List.replicate 512 1)) (whisper (List.replicate 512 2)) := by
    refine ⟨[], _, _, _, _, rfl, rfl, rfl, ?_, hconnection _,
      ⟨[], by decide +kernel, by decide +kernel⟩, ?_,
      rfl, by decide +kernel⟩
    · exact .cons (.same _) (.cons (.same _) (.cons (.same _) (.cons (.same _) (.cons (.same _)
        (.cons (.read (by decide +kernel)) .nil)))))
    · decide +kernel
  have hlength : (actions plainHost (whisper (List.replicate 512 1)) Server.init).length = 15 := by
    decide +kernel
  have hmoments : ∀ k ≤ 15,
      framesOn 4 (stateAt plainHost (whisper (List.replicate 512 1)) k).trace =
        [(Command.login.code, [97])] →
      (stateAt plainHost (whisper (List.replicate 512 1)) k).data.sessions[(4 : Fd)]? =
        some (plainUuid 0).str := by
    decide +kernel
  have hothers : ∀ k < 15,
      (stateAt plainHost (whisper (List.replicate 512 1)) k).data.sessions[(6 : Fd)]? ≠
          some (plainUuid 0).str ∧
        (stateAt plainHost (whisper (List.replicate 512 1)) k).data.sessions[(6 : Fd)]? ≠
          some (plainUuid 1).str := by
    decide +kernel
  have hsender (k : ℕ) (hk : DispatchedAt plainHost 4 [(Command.login.code, [97])]
      (Command.send.code, (plainUuid 1).str ++ List.replicate 512 1)
      (whisper (List.replicate 512 1)) k) :
      (stateAt plainHost (whisper (List.replicate 512 1)) k).data.sessions[(4 : Fd)]? =
        some (plainUuid 0).str := by
    have hall := hk.2
    rcases Nat.le_total k 15 with hle | hle
    · exact hmoments k hle hall
    · rw [stateAt_of_le plainHost (hlength ▸ hle), hlength] at hall ⊢
      exact hmoments 15 le_rfl hall
  obtain ⟨-, -, hqueued⟩ := private_bodies plainHost hdiffer (by decide +kernel) (Uuid.length_str _)
    List.length_replicate hsender
  refine hqueued 6 0 15 (by decide) fun k _ hk u hu ↦ ?_
  obtain ⟨hA, hB⟩ := hothers k hk
  exact ⟨fun h ↦ hA (h ▸ hu), fun h ↦ hB (h ▸ hu)⟩

end Server

end MyTeams
