import MyTeams.Authenticity
import MyTeams.Client.Requests

/-!
# What an error means

A client that is handed an error can rely on it. The error is for a packet of its own, and it is the
first check that this packet failed when the server dispatched it (`errors_explained`). So an
unknown uuid was asked for by the client and nobody had it, and the client has no session or no
membership when it is told so. No request of the client is malformed but a `/create` that meets
another context on the server than the client's own.
-/

namespace MyTeams

open ByteField FirstMatch FrameStream Server

/-! ### Errors in the mail -/

/-- **An error is queued** to the connection whose frame was refused, and to no other. -/
theorem Server.Reachable.refusal_of_mail {host : ℕ → Host} {s : Server} (h : Reachable host s)
    {a : Action} (ha : s.Enabled a) {d : Fd} {x : Mail} (hx : x ∈ mailOf host s a d) {e : Error}
    {p : List UInt8} (hframe : x.frame = (e.code, p)) :
    ∃ code payload, a = .frame d code payload ∧
      refusal d payload s.data (Command.ofCode? code) = some (e, p) := by
  obtain ⟨b, hb, rfl⟩ := List.mem_map.1 hx
  have hquiet (hnew : newMessages d s (perform host a s) = []) : False := by
    rw [hnew] at hb
    cases hb
  by_cases hd : d = a.fd
  · cases a with
    | accept | receive | write =>
      exact (hquiet (newMessages_quiet (fun _ _ _ h ↦ by cases h) (fun _ h ↦ by cases h) d)).elim
    | disconnect fd =>
      obtain rfl : d = fd := hd
      have hgone : (perform host (.disconnect d) s).clients.contains d = false := by
        rw [contains_disconnect, bne_self_eq_false, Bool.false_and]
      rcases answer_perform host h.sessionsWf ha with ⟨answer, -, -, hnew⟩ | ⟨-, -, hnew⟩
      · exact (hquiet ((hnew d).trans (by rw [hgone]; rfl))).elim
      · exact (hquiet (hnew d)).elim
    | frame fd code payload =>
      obtain rfl : d = fd := hd
      refine ⟨code, payload, rfl, ?_⟩
      have hrefuses := @Reachable.frameOutcome_refuses host s d payload h code
      rw [newMessages_self h.sessionsWf ha, List.mem_singleton] at hb
      have hread {f : Frame} (hf : b = f.bytes) : f = (e.code, p) :=
        (frameOf_bytes f).symm.trans (hf ▸ hframe)
      rcases hrefusal : refusal d payload s.data (Command.ofCode? code) with - | ⟨e', p'⟩
      · rw [hrefusal] at hrefuses
        obtain ⟨r, q, hbytes⟩ := hrefuses
        have hcode := congrArg Prod.fst (hread (f := (r.code, q)) (hb.trans hbytes))
        exact absurd hcode (res_code_ne_err_code r e)
      · rw [hrefusal] at hrefuses
        obtain ⟨hcode, rfl⟩ := Prod.mk.inj (hread (f := (e'.code, p')) (hb.trans hrefuses))
        rw [err_code_injective hcode]
  -- what others are sent are events
  · obtain ⟨answer, hserves, m, hm, rfl⟩ := exists_answer_of_newMessages h.sessionsWf ha hb
    obtain ⟨evt, hevt⟩ := (isPush_code m.code).1 (hserves.push hd m hm)
    have hcode : m.code.code = (ServerCode.err e).code := by
      rw [← headerCode_bytes]
      exact congrArg Prod.fst hframe
    rw [hevt] at hcode
    cases ServerCode.code_injective hcode

namespace Net

variable {host : ℕ → Host} {io : ℕ → Option ℕ} {N : Net}

/-- **Every client speaks as the server listens**, in every run. -/
theorem wellSpoken_of_steps {allowed : Net → NetMove → Prop} (h : Steps host io allowed start N) :
    ∀ p ∈ N.peers, p.client.WellSpoken := by
  induction h with
  | refl => exact fun p hp ↦ absurd hp List.not_mem_nil
  | tail _ hstep ih =>
    obtain ⟨m, -, -, rfl⟩ := hstep
    cases m with
    | type j buf =>
      exact forall_mem_modify ih fun p hp ↦ (ih p (List.mem_of_getElem? hp)).handleStdin buf
    | flush j =>
      exact forall_mem_modify ih fun p hp ↦ (ih p (List.mem_of_getElem? hp)).handleServerWrite
    | read j n =>
      exact forall_mem_modify ih fun p hp ↦ (ih p (List.mem_of_getElem? hp)).handleServerRead _
    | act a =>
      intro p hp
      rcases List.mem_append.1 hp with hp | hp
      · obtain ⟨q, hq, rfl⟩ := List.mem_map.1 hp
        rw [Peer.client_serve]
        exact ih q hq
      · obtain ⟨fd, -, rfl⟩ := mem_accepted.1 hp
        exact Client.wellSpoken_init

/-- **An error is about a request of one's own, and it is true.** In every run of the loops in which
at most `capacity` frames are dispatched, a client that is handed an error has packed a request that
the server has dispatched on its connection, and the error is the first check that this request
failed then. If it is `ERR_INVALID_COMMAND`, the request is a creation, and it was packed in a
context that calls for less than the one that the server had stored. -/
theorem errors_explained (hrun : Turns host io start N) (hserved : N.server.served ≤ capacity)
    {p : Peer} (hp : p ∈ N.peers) {j : ℕ} {e : Error} {b : List UInt8}
    (hf : p.client.handled[j]? = some (e.code, b)) :
    ∃ x cmd payload ctx, p.mail[j]? = some x ∧ x.cause = .frame p.fd (Command.code cmd) payload ∧
      ((cmd.code, payload), ctx) ∈ p.client.packed ∧
      refusal p.fd payload x.before.data (some cmd) = some (e, b) ∧
      (e = .invalidCommand → cmd = .create ∧ ∃ stored,
        x.before.data.clientContexts[p.fd]? = some stored ∧
          createLength ctx.level < createLength stored.level) := by
  have hsteps := fitting_of_turns hrun hserved
  obtain ⟨hid, -⟩ := (identified_of_steps hsteps).2 p hp
  -- what is handled is mail
  have hmail : (p.mail.map Mail.frame)[j]? = some (e.code, b) := by
    obtain ⟨buf, hintact, -⟩ := ((sound_of_fitting hsteps).linked p hp).down
    obtain ⟨todo, htodo⟩ : p.client.handled <+: p.mail.map Mail.frame := hintact.prefix_queued
    rw [← htodo, List.getElem?_append_left (List.getElem?_eq_some_iff.1 hf).1, hf]
  rw [List.getElem?_map] at hmail
  obtain ⟨x, hx, hframe⟩ := Option.map_eq_some_iff.1 hmail
  obtain ⟨hreachable, henabled, hxmail, -⟩ := hid.mail j x hx
  obtain ⟨code, payload, hcause, hrefusal⟩ := hreachable.refusal_of_mail henabled hxmail hframe
  -- the frame is a packet of the client
  have hown := (attributed_of_steps hsteps).own p hp x (List.mem_of_getElem? hx) code payload hcause
  obtain ⟨⟨f, ctx⟩, hpacked, hpacket⟩ := List.mem_map.1 hown
  obtain rfl : f = (code, payload) := hpacket
  obtain ⟨cmd, rfl, hform⟩ := (wellSpoken_of_steps hsteps p hp).packed _ ctx hpacked
  rw [Command.ofCode?_code] at hrefusal
  refine ⟨x, cmd, payload, ctx, hx, hcause, hpacked, hrefusal, ?_⟩
  rintro rfl
  exact hform.of_malformed hrefusal

/-- Somebody enters a channel, asks in vain for another team, and creates something there. -/
def createdElsewhere : List (Net → Turn) :=
  [accepting 4,
    typing 0 (text "/login a\n/create \"t\" \"\"\n/use \"" ++ (plainUuid 1).str ++
      text "\"\n/create \"c\" \"\"\n/use \"" ++ (plainUuid 1).str ++ text "\" \"" ++
        (plainUuid 3).str ++
      text "\"\n/use \"x\"\n/create \"c\" \"\"\n"),
    readAll, readAll, reading 0 5000]

/-- What was laid out for a channel in a team is malformed as a thread. -/
theorem errors_explained_createdElsewhere :
    let N := played createdElsewhere start
    ∃ x cmd payload ctx, N.firstPeer.mail[6]? = some x ∧
      x.cause = .frame 4 (Command.code cmd) payload ∧
      ((cmd.code, payload), ctx) ∈ N.firstPeer.client.packed ∧
      cmd = .create ∧ ∃ stored, x.before.data.clientContexts[(4 : Fd)]? = some stored ∧
        createLength ctx.level < createLength stored.level := by
  intro N
  have hturns : Turns plainHost (fun _ ↦ some 65535) start N := turns_played (by decide +kernel)
  have hfd : N.firstPeer.fd = 4 := by decide +kernel
  have hf : N.firstPeer.client.handled[6]? = some (Error.invalidCommand.code, []) := by
    decide +kernel
  obtain ⟨x, cmd, payload, ctx, hx, hcause, hpacked, -, hcreate⟩ :=
    errors_explained hturns (by decide +kernel) (firstPeer_mem (by decide +kernel)) hf
  rw [hfd] at hcause hcreate
  exact ⟨x, cmd, payload, ctx, hx, hcause, hpacked, hcreate rfl⟩

end Net

end MyTeams
