import MyTeams.Authenticity
import MyTeams.Server.Conversations
import MyTeams.Server.Identity
import MyTeams.Texts

/-!
# Where the texts come from

A client shows names, descriptions, titles and bodies that it has from the server alone. None of
them comes from nowhere: the server keeps a text only because a request has brought it
(`texts_perform`), the request was packed by a client, and what a message shows was kept when it was
queued. So whatever a client shows was written by some client, in a request of the kind that writes
such texts (`shown_was_written`).
-/

namespace MyTeams

open ByteField FirstMatch Forest FrameStream Server

/-! ### Who writes what -/

/-- The texts that a request writes, a creation at a level. -/
def writtenTexts (level : UInt8) (payload : List UInt8) : Command → List Str
  | .login => [(cut payload).take 32]
  | .send => [cut (Server.extractSv payload 36 512)]
  | .create =>
    if level = useNone ∨ level = useTeam then
      [cut (payloadField payload 0 32).toList, cut (payloadField payload 32 255).toList]
    else if level = useChannel then
      [cut (payloadField payload 0 32).toList, cut (payloadField payload 32 512).toList]
    else [cut (payloadField payload 0 512).toList]
  | _ => []

/-- The requests that write to a place. -/
def Place.writer : Place → Command
  | user _ => .login
  | resource _ => .create
  | message _ => .send

/-- The requests that write what a message with the given code shows. -/
def ServerCode.writer : ServerCode → Command
  | .res .loginOk | .res .logoutOk | .res .userDetails | .res .usersList | .res .userInfo
  | .res .subscribedUsers | .evt .userLoggedIn | .evt .userLoggedOut => .login
  | .res .messagesList | .evt .messageReceived => .send
  | _ => .create

/-- The requests that write what a call passes. -/
def Callback.writer : Callback → Command
  | eventLoggedIn _ _ | eventLoggedOut _ _ | printUsers _ _ _ | printUser _ _ _ => .login
  | eventPrivateMessageReceived _ _ | privateMessagePrintMessages _ _ _ => .send
  | _ => .create

theorem writer_of_mem_shown {fd : Fd} {payload : List UInt8} {data after : ServerData}
    {code : ServerCode} {pl : Place} (h : pl ∈ shown fd payload data after code) :
    pl.writer = code.writer := by
  have hmap {ι : Type} {l : List ι} {f : ι → Place} (hpl : pl ∈ l.map f) : ∃ i, pl = f i := by
    obtain ⟨i, -, rfl⟩ := List.mem_map.1 hpl
    exact ⟨i, rfl⟩
  have husers {uuid : Str} (hpl : pl ∈ userPlaces data uuid) : pl.writer = .login := by
    obtain ⟨i, rfl⟩ := hmap hpl
    rfl
  unfold shown at h
  split at h
  all_goals
    first
    | exact husers h
    | obtain ⟨i, rfl⟩ := hmap h
      rfl
    | obtain ⟨p, -, hpl⟩ := List.mem_flatMap.1 h
      first
      | exact husers hpl
      | obtain ⟨i, rfl⟩ := hmap hpl
        rfl
    | rw [List.mem_singleton.1 h]
      rfl
    | cases h

theorem writer_of_mem_calls {m : Msg} {c : Client} {k : Callback} (hk : k ∈ m.calls c) :
    k.writer = m.code.writer := by
  obtain ⟨code, b⟩ := m
  unfold Msg.calls at hk
  dsimp only at hk
  split at hk
  all_goals
    first
    | rw [List.mem_singleton.1 hk]
      rfl
    | obtain ⟨r, -, rfl⟩ := List.mem_map.1 hk
      rfl
    | cases hk

/-! ### One action -/

theorem texts_newResource (host : Host) (user payload : Str) (level : UInt8) :
    (newResource host user payload level).texts = writtenTexts level payload .create := by
  rw [newResource, writtenTexts]
  by_cases h0 : level = useNone
  · rw [if_pos h0, if_pos (Or.inl h0)]
    rfl
  by_cases h1 : level = useTeam
  · rw [if_neg h0, if_pos h1, if_pos (Or.inr h1)]
    rfl
  rw [if_neg h0, if_neg h1, if_neg (not_or.2 ⟨h0, h1⟩)]
  split_ifs
  · rfl
  · rfl

/-- **What an answer keeps** was kept before, or is what its request has brought. -/
theorem Serves.texts {host : Host} {fd : Fd} {payload : List UInt8} {data : ServerData}
    {cmd : Option Command} {a : Answer} (h : Serves host fd payload data cmd a) {pl : Place}
    {ts : List Str} (hts : a.data.texts pl = some ts) :
    data.texts pl = some ts ∨ cmd = some pl.writer ∧ ∃ level,
      ts = writtenTexts level payload pl.writer := by
  -- what is new in a list to which one entry is added
  have hconcat {α : Type} {l : List α} {x y : α} {i : ℕ} (hget : (l ++ [x])[i]? = some y) :
      l[i]? = some y ∨ y = x := by
    rw [List.getElem?_append] at hget
    split_ifs at hget
    · exact .inl hget
    · exact .inr (List.mem_singleton.1 (List.mem_of_getElem? hget))
  cases pl with
  | user i =>
    obtain ⟨x, hx, rfl⟩ := Option.map_eq_some_iff.1 hts
    rcases h.identities_cases with hsame | ⟨hcmd, -, hnew⟩
    · rw [hsame] at hx
      exact .inl (congrArg (Option.map fun x : Uuid × Bytes 32 ↦ [cut x.2.toList]) hx)
    · rw [hnew] at hx
      rcases hconcat hx with hx | rfl
      · exact .inl (congrArg (Option.map fun x : Uuid × Bytes 32 ↦ [cut x.2.toList]) hx)
      · refine .inr ⟨hcmd, useNone, ?_⟩
        show [cut (fill 32 (cut payload)).toList] = _
        rw [cut_fill_of_not_mem (not_mem_cut _)]
        rfl
  | resource p =>
    obtain ⟨r, hr, rfl⟩ := Option.map_eq_some_iff.1 hts
    rcases h.forest with ⟨hcmd, user, ctx, hcreates⟩ | ⟨hsame, -⟩
    · rw [hcreates.forest] at hr
      rcases labelAt_of_insertAt hr with hold | ⟨rfl, -⟩
      · exact .inl (congrArg (Option.map Resource.texts) hold)
      · exact .inr ⟨hcmd, ctx.level, texts_newResource host user payload ctx.level⟩
    · rw [hsame] at hr
      exact .inl (congrArg (Option.map Resource.texts) hr)
  | message i =>
    obtain ⟨m, hm, rfl⟩ := Option.map_eq_some_iff.1 hts
    rcases h.messages_cases with ⟨hcmd, -, user, receiver, -, -, hnew⟩ | ⟨hsame, -⟩
    · rw [hnew] at hm
      rcases hconcat hm with hm | rfl
      · exact .inl (congrArg (Option.map fun m : Message ↦ [cut m.body.toList]) hm)
      · refine .inr ⟨hcmd, useNone, ?_⟩
        show [cut (fill 512 (cut (Server.extractSv payload 36 512))).toList] = _
        rw [cut_fill_extractSv]
        rfl
    · rw [hsame] at hm
      exact .inl (congrArg (Option.map fun m : Message ↦ [cut m.body.toList]) hm)

/-- **What a message shows is kept**, at a place to which the same requests write. -/
theorem Shows.exists_place {fd : Fd} {payload : List UInt8} {data after : ServerData} {m : Msg}
    (h : Shows fd payload data after m) {ts : List Str} (hts : ts ∈ m.body.texts) :
    ∃ pl, after.texts pl = some ts ∧ pl.writer = m.code.writer := by
  have hmem : some ts ∈ (shown fd payload data after m.code).map after.texts := by
    rw [h]
    exact List.mem_map_of_mem hts
  obtain ⟨pl, hpl, hkept⟩ := List.mem_map.1 hmem
  exact ⟨pl, hkept, writer_of_mem_shown hpl⟩

namespace Server

variable {host : ℕ → Host} {s : Server}

theorem Reachable.texts_perform (h : Reachable host s) (a : Action) {pl : Place} {ts : List Str}
    (hts : (perform host a s).data.texts pl = some ts) :
    s.data.texts pl = some ts ∨
      a = .frame a.fd pl.writer.code a.request.2 ∧ ∃ level,
        ts = writtenTexts level a.request.2 pl.writer := by
  obtain ⟨answer, hserves, hdata⟩ | ⟨-, hdata⟩ := serves_perform host h.sessionsWf a
  · rw [hdata] at hts
    refine (hserves.texts hts).imp_right fun hnew ↦ ⟨Action.eq_frame_of_request hnew.1 ?_, hnew.2⟩
    cases pl <;> exact Command.noConfusion
  · rw [hdata] at hts
    exact .inl hts

end Server

/-! ### Messages and their calls -/

/-- The calls for a message are those for its bytes. -/
theorem Msg.Fits.calls_eq {m m' : Msg} (h : m.Fits) (h' : m'.Fits) (hbytes : m.bytes = m'.bytes)
    (hlen : m.body.bytes.length < 2 ^ 32) (c : Client) : m.calls c = m'.calls c := by
  obtain ⟨hcode, hbody⟩ := Prod.mk.inj (Frame.bytes_injective
    (f := (m.code.code, m.body.bytes)) (g := (m'.code.code, m'.body.bytes)) hbytes)
  have hcalls := h.handleResponse (m.body.count_lt hlen) c
  have hcalls' := h'.handleResponse (m'.body.count_lt (hbody ▸ hlen)) c
  rw [hcode, hbody, hcalls'] at hcalls
  have hlists := (List.cons.inj (List.append_cancel_left hcalls)).2
  exact (List.map_injective_iff.2 (fun _ _ ↦ ClientEvent.called.inj) hlists).symm

/-! ### Runs -/

namespace Net

variable {host : ℕ → Host} {io : ℕ → Option ℕ} {N : Net}

/-- **No text comes from nowhere**: what the server keeps was packed by a client, and what it kept
when it queued a message it still keeps. -/
structure Sourced (host : ℕ → Host) (N : Net) : Prop where
  packed : ∀ pl ts, N.server.data.texts pl = some ts → ∃ q ∈ N.peers, ∃ level payload,
    (pl.writer.code, payload) ∈ q.client.packets ∧ ts = writtenTexts level payload pl.writer
  kept : ∀ p ∈ N.peers, ∀ x ∈ p.mail, ∀ pl ts,
    (perform host x.cause x.before).data.texts pl = some ts → N.server.data.texts pl = some ts

theorem sourced_start : start.Sourced host := by
  refine ⟨fun pl ts hts ↦ ?_, fun _ hp ↦ absurd hp List.not_mem_nil⟩
  cases pl with
  | user i => cases hts
  | message i => cases hts
  | resource p =>
    cases p with
    | nil => cases hts
    | cons i p => cases hts

/-- **A move of one client.** -/
theorem Sourced.modify (h : N.Sourced host) {i : ℕ} {f : Peer → Peer}
    (hmail : ∀ p, (f p).mail = p.mail) (hpackets : ∀ p, p.client.packets <+: (f p).client.packets) :
    Sourced host ⟨N.server, N.peers.modify i f⟩ := by
  refine ⟨fun pl ts hts ↦ ?_, forall_mem_modify h.kept fun p hp ↦ ?_⟩
  · obtain ⟨q, hq, level, payload, hpacked, hwritten⟩ := h.packed pl ts hts
    obtain ⟨q', hq', rfl | rfl⟩ := exists_mem_modify (i := i) (f := f) hq
    · exact ⟨q', hq', level, payload, hpacked, hwritten⟩
    · exact ⟨f q, hq', level, payload, (hpackets q).subset hpacked, hwritten⟩
  · rw [hmail]
    exact h.kept p (List.mem_of_getElem? hp)

/-- **An action of the server.** -/
theorem Sourced.act (h : N.Sourced host) (hattributed : N.Attributed) (hs : Reachable host N.server)
    (hlinked : ∀ p ∈ N.peers, System.Linked host p.fd (p.view N.server)) {a : Action}
    (ha : N.Enabled (.act a)) : (N.move host io (.act a)).Sourced host := by
  refine ⟨fun pl ts hts ↦ ?_, fun p hp x hx pl ts hts ↦ ?_⟩
  · have hsource : ∃ q ∈ N.peers, ∃ level payload,
        (pl.writer.code, payload) ∈ q.client.packets ∧
          ts = writtenTexts level payload pl.writer := by
      rcases hs.texts_perform a hts with hold | ⟨hframe, level, hwritten⟩
      · exact h.packed pl ts hold
      · rw [hframe] at ha
        obtain ⟨q, hq, -, hpacked⟩ := hattributed.exists_packed hlinked ha
        exact ⟨q, hq, level, _, hpacked, hwritten⟩
    obtain ⟨q, hq, level, payload, hpacked, hwritten⟩ := hsource
    refine ⟨_, List.mem_append_left _ (List.mem_map_of_mem hq), level, payload, ?_, hwritten⟩
    rwa [Peer.client_serve]
  · have hstays {pl : Place} {ts : List Str} (hts : N.server.data.texts pl = some ts) :
        (perform host a N.server).data.texts pl = some ts :=
      (effect_perform host hs.sessionsWf a).texts hts
    rcases List.mem_append.1 hp with hp | hp
    · obtain ⟨q, hq, rfl⟩ := List.mem_map.1 hp
      rw [Peer.serve] at hx
      split_ifs at hx
      · rcases List.mem_append.1 hx with hx | hx
        · exact hstays (h.kept q hq x hx pl ts hts)
        · obtain ⟨b, -, rfl⟩ := List.mem_map.1 hx
          exact hts
      · exact hstays (h.kept q hq x hx pl ts hts)
    · obtain ⟨fd, -, rfl⟩ := mem_accepted.1 hp
      cases hx

theorem sourced_of_steps {allowed : Net → NetMove → Prop} (h : Steps host io allowed start N) :
    N.Sourced host := by
  induction h with
  | refl => exact sourced_start
  | tail hsteps hstep ih =>
    obtain ⟨m, hm, -, rfl⟩ := hstep
    cases m with
    | type j buf =>
      exact ih.modify (fun _ ↦ rfl) fun p ↦ (Client.packed_grows_handleStdin buf p.client).map _
    | flush j =>
      refine ih.modify (fun _ ↦ rfl) fun p ↦ ?_
      show p.client.packed.map _ <+: (p.client.handleServerWrite io).packed.map _
      rw [Client.handleServerWrite_packed]
    | read j n =>
      exact ih.modify (fun _ ↦ rfl) fun p ↦
        (Client.receives_handleServerRead (p.down.take n) p.client).packets.symm ▸
          List.prefix_refl _
    | act a =>
      have hlinked := linked_of_steps hsteps
      exact ih.act (attributed_of_steps hsteps) hlinked.1 hlinked.2 hm

/-- **Whatever is shown was written.** In every run of the loops in which at most `capacity` frames
are dispatched, the texts that a call of a client passes to the logging library are those of a
packet of some client: of a `CMD_LOGIN` where the call shows users, of a `CMD_SEND` where it shows
private messages, and of a `CMD_CREATE` where it shows teams, channels, threads or replies. -/
theorem shown_was_written (hrun : Turns host io start N) (hserved : N.server.served ≤ capacity)
    {p : Peer} (hp : p ∈ N.peers) {n : ℕ} {k : Callback} (hk : (n, k) ∈ p.client.made)
    {ts : List Str} (hts : k.texts = some ts) :
    ∃ q ∈ N.peers, ∃ level payload, (k.writer.code, payload) ∈ q.client.packets ∧
      ts = writtenTexts level payload k.writer := by
  have hsteps := fitting_of_turns hrun hserved
  have hsound := sound_of_fitting hsteps
  obtain ⟨j, x, calls, rfl, hx, -, ⟨m, c, hmail, rfl⟩, hcall⟩ :=
    (hsound.tells p hp).exists_mail hk (fun _ h ↦ by rw [h] at hts; cases hts)
  obtain ⟨hreachable, henabled, hxmail, -⟩ := ((identified_of_steps hsteps).2 p hp).1.mail j x hx
  have hsourced := sourced_of_steps hsteps
  have hxmem := List.mem_of_getElem? hx
  -- the message as it was queued, with the places that it shows
  obtain ⟨b, hb, hxb⟩ := List.mem_map.1 hxmail
  obtain ⟨cmd, answer, m', hserves, hm', rfl, hshows⟩ := hreachable.shows henabled hb
  have hbytes : m.bytes = m'.bytes := by
    rw [← hmail.bytes, ← hxb]
  have hlen : m.body.bytes.length < 2 ^ 32 := by
    obtain ⟨a, ha, hm⟩ := hmail.answer
    exact ha.length_lt ((hsound.linked p hp).mail x hxmem).1 m (mem_msgs_of_mem_messagesTo hm)
  have hfits := hreachable.fits_of_mem_msgs hserves hm'
  rw [hmail.fits.calls_eq hfits hbytes hlen c] at hcall
  have hmem : ts ∈ m'.body.texts := by
    rw [← hfits.filterMap_calls c]
    exact List.mem_filterMap.2 ⟨k, hcall, hts⟩
  obtain ⟨pl, hkept, hwriter⟩ := hshows.exists_place hmem
  rw [writer_of_mem_calls hcall, ← hwriter]
  exact hsourced.packed pl ts (hsourced.kept p hp x hxmem pl ts hkept)

/-- Somebody creates a team while another user is logged in. -/
def teamAnnounced : List (Net → Turn) :=
  [accepting 4, accepting 5, typing 0 (text "/login a\n"), readAll,
    typing 1 (text "/login b\n/create t d\n"), readAll, readAll, reading 0 5000]

/-- What the other is shown of it was packed. -/
theorem shown_was_written_teamAnnounced :
    let N := played teamAnnounced start
    ∃ q ∈ N.peers, ∃ level payload, (Command.create.code, payload) ∈ q.client.packets ∧
      [text "t", text "d"] = writtenTexts level payload .create := by
  intro N
  have hturns : Turns plainHost (fun _ ↦ some 65535) start N := turns_played (by decide +kernel)
  have hk : (3, .eventTeamCreated (plainUuid 2).str (text "t") (text "d")) ∈
      N.firstPeer.client.made := by
    decide +kernel
  exact shown_was_written hturns (by decide +kernel) (firstPeer_mem (by decide +kernel)) hk rfl

end Net

end MyTeams
