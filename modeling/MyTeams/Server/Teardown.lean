import MyTeams.Server.Disclosure
import MyTeams.Server.Presence

/-!
# The end of a connection

A session ends by `CMD_LOGOUT` or because its connection is lost, and the event loop notices a lost
connection in four places (`Loses`). The two code paths deliver the announcement in loops of their
own; `teardown` shows that they come to the same for the shared data and for every other connection,
and that a connection lost after its logout has nothing left to announce.
-/

namespace MyTeams

namespace Server

variable {host : ℕ → Host} {s s' : Server} {c : Fd}

/-! ### The ways to lose a connection -/

/-- **The four places** where the event loop, in state `s`, gives up the connection `c`, with the
state each leaves. -/
inductive Loses (host : ℕ → Host) (c : Fd) (s : Server) : Server → Prop
  /-- `poll` reports an error. -/
  | poll {ev : Revents} (herror : ev.error = true) : Loses host c s (serveClient host c ev s)
  /-- `read` returns zero, or fails. -/
  | read : Loses host c s (handleClientRead host c [] s)
  /-- `write` fails while there is something to send. -/
  | write {client : ClientState} (hclient : s.clients[c]? = some client)
    (hbuf : client.sendBuffer ≠ []) : Loses host c s (handleClientWrite c none s)
  /-- The receive loop has come to the header of an oversized frame. -/
  | oversized {client : ClientState} (hclient : s.clients[c]? = some client)
    (hheader : headerSize ≤ client.recvBuffer.length)
    (hsize : 65535 < headerPayloadSize client.recvBuffer) (rounds : ℕ) :
    Loses host c s (processRecvLoop host c (rounds + 1) s)

/-- Each of them is `_handle_client_disconnect`. -/
theorem Loses.eq (h : Loses host c s s') (hc : s.clients.contains c = true) :
    s' = handleClientDisconnect c s := by
  cases h with
  | poll herror =>
    rw [serveClient, hc, herror]
    rfl
  | read => rfl
  | write hclient hbuf =>
    simp only [handleClientWrite, modifyClient_id hc, hclient, Option.getD_some]
    rw [if_neg (by rwa [List.isEmpty_iff])]
  | oversized hclient hheader hsize =>
    have hscan : serverCodec.scan _ = .refuse := scan_eq_refuse_iff.2 ⟨hheader, hsize⟩
    rw [processRecvLoop_succ hclient, hscan]

/-- A receive loop that ends without its connection has come to an oversized frame. -/
theorem exists_loses_of_processRecvLoop {n : ℕ} (hc : s.clients.contains c = true)
    (hgone : (processRecvLoop host c n s).clients.contains c = false) :
    ∃ s₁, StepsOn host c s s₁ ∧ s₁.clients.contains c = true ∧
      Loses host c s₁ (processRecvLoop host c n s) := by
  induction n generalizing s with
  | zero =>
    rw [processRecvLoop, hc] at hgone
    cases hgone
  | succ n ih =>
    obtain ⟨client, hclient⟩ := (IntMap.contains_iff _).1 hc
    rcases hscan : serverCodec.scan client.recvBuffer with - | - | ⟨f, rest⟩
    · rw [processRecvLoop_succ hclient, hscan, hc] at hgone
      cases hgone
    · obtain ⟨hheader, hsize⟩ := scan_eq_refuse_iff.1 hscan
      exact ⟨s, .refl, hc, .oversized hclient hheader hsize n⟩
    · have hloop : processRecvLoop host c (n + 1) s =
          processRecvLoop host c n (perform host (.frame c f.1 f.2) s) := by
        rw [processRecvLoop_succ hclient, hscan]
      rw [hloop] at hgone ⊢
      obtain ⟨s₁, hsteps, hc₁, hloses⟩ := ih ((contains_frame hc _ _ _).trans hc) hgone
      exact ⟨s₁, .head ⟨.frame c f.1 f.2, rfl, ⟨client, rest, hclient, hscan⟩, rfl⟩ hsteps, hc₁,
        hloses⟩

theorem exists_loses_of_read {tmp : List UInt8} (hc : s.clients.contains c = true)
    (hgone : (handleClientRead host c tmp s).clients.contains c = false) :
    ∃ s₁, StepsOn host c s s₁ ∧ s₁.clients.contains c = true ∧
      Loses host c s₁ (handleClientRead host c tmp s) := by
  rcases eq_or_ne tmp [] with rfl | hne
  · exact ⟨s, .refl, hc, .read⟩
  have hreceive := (contains_modifyClient hc
    (fun c ↦ { c with recvBuffer := c.recvBuffer ++ tmp }) c).trans hc
  rw [handleClientRead, if_neg (by rwa [List.isEmpty_iff]), processRecvBuffer,
    modifyClient_id hreceive] at hgone ⊢
  obtain ⟨s₁, hsteps, hc₁, hloses⟩ := exists_loses_of_processRecvLoop hreceive hgone
  exact ⟨s₁, .head ⟨.receive c tmp, rfl, ⟨hc, hne⟩, rfl⟩ hsteps, hc₁, hloses⟩

theorem exists_loses_of_write {written : Option ℕ} (hc : s.clients.contains c = true)
    (hgone : (handleClientWrite c written s).clients.contains c = false) :
    Loses host c s (handleClientWrite c written s) := by
  obtain ⟨client, hclient⟩ := (IntMap.contains_iff _).1 hc
  simp only [handleClientWrite, modifyClient_id hc, hclient, Option.getD_some] at hgone
  split_ifs at hgone with hempty
  · rw [hc] at hgone
    cases hgone
  · cases written with
    | none => exact .write hclient (by rwa [List.isEmpty_iff] at hempty)
    | some n =>
      have hsame :=
        contains_modifyClient hc (fun c ↦ { c with sendBuffer := c.sendBuffer.drop n }) c
      exact absurd (hgone.symm.trans (hsame.trans hc)) Bool.false_ne_true

/-- **There is no other place**: a round of the poll loop that ends without the connection lost it
in one of the four ways, after some actions about that connection. -/
theorem exists_loses_of_serveClient {ev : Revents} (hc : s.clients.contains c = true)
    (hgone : (serveClient host c ev s).clients.contains c = false) :
    ∃ s₁, StepsOn host c s s₁ ∧ s₁.clients.contains c = true ∧
      Loses host c s₁ (serveClient host c ev s) := by
  cases herror : ev.error with
  | true => exact ⟨s, .refl, hc, .poll herror⟩
  | false =>
    have hsteps : StepsOn host c s (serveInput host c ev.input s) := by
      cases ev.input with
      | none => exact .refl
      | some tmp => exact handleClientRead_steps hc
    have hserve : serveClient host c ev s =
        if !(serveInput host c ev.input s).clients.contains c then serveInput host c ev.input s
        else serveOutput c ev.output (serveInput host c ev.input s) := by
      rw [serveClient, hc, herror]
      rfl
    rw [hserve] at hgone ⊢
    cases hinput : (serveInput host c ev.input s).clients.contains c with
    | false =>
      rw [hinput] at hgone
      cases hev : ev.input with
      | none =>
        rw [hev, serveInput, hc] at hinput
        cases hinput
      | some tmp =>
        rw [hev] at hinput
        exact exists_loses_of_read hc hinput
    | true =>
      rw [hinput] at hgone
      cases hev : ev.output with
      | none =>
        rw [hev] at hgone
        exact absurd (hgone.symm.trans hinput) Bool.false_ne_true
      | some written =>
        rw [hev] at hgone
        exact ⟨_, hsteps, hinput, exists_loses_of_write hinput hgone⟩

/-! ### Losing a connection and logging out -/

/-- **The same for everybody but `c`**: the shared data, the client of every other connection, and
what has been queued to it. -/
structure AlikeForOthers (c : Fd) (s₁ s₂ : Server) : Prop where
  data : s₁.data = s₂.data
  clients : ∀ d, d ≠ c → s₁.clients[d]? = s₂.clients[d]?
  queued : ∀ d, d ≠ c → queuedOn d s₁.trace = queuedOn d s₂.trace

theorem AlikeForOthers.newMessages_eq {s₁ s₂ : Server} (h : AlikeForOthers c s₁ s₂) (s : Server)
    {d : Fd} (hd : d ≠ c) : newMessages d s s₁ = newMessages d s s₂ := by
  rw [newMessages, newMessages, h.queued d hd]

variable (host) in
/-- **Losing a connection is logging it out**, for everybody else. -/
theorem alikeForOthers_logout {user : Str} (hs : s.data.sessions[c]? = some user)
    (payload : List UInt8) :
    AlikeForOthers c (handleClientDisconnect c s)
      (dispatch host c Command.logout.code payload s) := by
  have hclosed (d : Fd) : queuedOn d [.closed c] = [] := rfl
  have hdispatched (d : Fd) :
      queuedOn d [.dispatched c Command.logout.code payload s.data] = [] := rfl
  rw [handleClientDisconnect_eq, dispatch_eq_queueAll,
    frameOutcome_of_session hs (Command.ofCode?_code _), handle]
  refine ⟨?_, fun d hd ↦ ?_, fun d hd ↦ ?_⟩
  · rw [queueAll_data]
    exact queueAll_data _ _
  · rw [record, IntMap.get_erase_of_ne _ hd, loseSession, queueAll_clients, queueAll_clients,
      addressedTo_sends_of_ne hd]
  · rw [record, queuedOn_append, hclosed, List.append_nil, loseSession, queuedOn_queueAll,
      queuedOn_queueAll, addressedTo_sends_of_ne hd, queuedOn_append, hdispatched, List.append_nil]

/-- **Losing a connection without a session** is nothing to anybody else. -/
theorem alikeForOthers_of_no_session (hs : s.data.sessions[c]? = none) :
    AlikeForOthers c (handleClientDisconnect c s) s := by
  have hout : handleLogout c s.data = Outcome.error s.data .unauthorized [] := by
    rw [handleLogout, withSession, hs]
  have hclosed (d : Fd) : queuedOn d [.closed c] = [] := rfl
  have hlose : loseSession c s = s := by
    rw [loseSession, hout]
    rfl
  rw [handleClientDisconnect_eq, hlose]
  refine ⟨rfl, fun d hd ↦ IntMap.get_erase_of_ne _ hd, fun d hd ↦ ?_⟩
  rw [record, queuedOn_append, hclosed, List.append_nil]

/-! ### The announcement -/

/-- **The end of a session of `u` on `c` is announced** once to every other logged-in connection if
it was the last one, and otherwise not at all. -/
def EndAnnounced (c : Fd) (u : Str) (s s' : Server) : Prop :=
  ∀ d, d ≠ c →
    Copies .userLoggedOut u (newMessages d s s') (LoggedIn s.data d ∧ OnlySession s.data c u)

/-- Losing the connection announces the end of its session. -/
theorem Reachable.endAnnounced (h : Reachable host s) {u : Str}
    (hs : s.data.sessions[c]? = some u) : EndAnnounced c u s (handleClientDisconnect c s) := by
  have hc : s.clients.contains c = true := h.registry.client c ((IntMap.contains_iff _).2 ⟨u, hs⟩)
  have ha : s.Enabled (.disconnect c) := hc
  have hlaw : KeepsPresence host s (.disconnect c) :=
    (h.keepsPresence_iff ha).2 fun hlogin ↦ by cases hlogin.1
  have hafter : (perform host (.disconnect c) s).data = logoutData s.data c u := by
    rw [perform_disconnect_data, handleLogout_data_of_some hs]
  intro d hd
  refine (hlaw u d).2.congr ?_
  rw [loggedIn_perform h.sessionsWf (a := .disconnect c) hd,
    show (Action.disconnect c).fd = c from rfl, and_iff_right hd, hafter, online_logoutData,
    online_and_not_iff]

/-- **Disconnecting equals logging out.** In every reachable state, losing a connection that has a
session leaves the shared data and every other connection as `CMD_LOGOUT` would; after that command,
losing the connection changes nothing for anybody else; and either way the end of the session is
announced once if it was the last, and not at all otherwise. A connection without a session is lost
without a trace. These are all the ways to lose one. -/
theorem teardown (host : ℕ → Host) :
    (∀ s c u payload, Reachable host s → s.data.sessions[c]? = some u →
      (∀ s', Loses host c s s' →
        AlikeForOthers c s' (dispatch host c Command.logout.code payload s) ∧
          EndAnnounced c u s s') ∧
      EndAnnounced c u s (dispatch host c Command.logout.code payload s) ∧
      ∀ s', Loses host c (dispatch host c Command.logout.code payload s) s' →
        AlikeForOthers c s' (dispatch host c Command.logout.code payload s)) ∧
    (∀ s c, Reachable host s → s.clients.contains c = true → s.data.sessions[c]? = none →
      ∀ s', Loses host c s s' → AlikeForOthers c s' s) ∧
    ∀ s c ev, Reachable host s → s.clients.contains c = true →
      (serveClient host c ev s).clients.contains c = false →
      ∃ s₁, Reachable host s₁ ∧ Loses host c s₁ (serveClient host c ev s) := by
  refine ⟨fun s c u payload h hs ↦ ?_, fun s c h hc hs s' hloses ↦ ?_, fun s c ev h hc hgone ↦ ?_⟩
  · have hc : s.clients.contains c = true := h.registry.client c ((IntMap.contains_iff _).2 ⟨u, hs⟩)
    have halike := alikeForOthers_logout host hs payload
    have hend := h.endAnnounced hs
    refine ⟨fun s' hloses ↦ ?_, fun d hd ↦ ?_, fun s' hloses ↦ ?_⟩
    · rw [hloses.eq hc]
      exact ⟨halike, hend⟩
    · rw [← halike.newMessages_eq s hd]
      exact hend d hd
    · rw [hloses.eq ((contains_dispatch _ _ _ _ _).trans hc)]
      refine alikeForOthers_of_no_session ?_
      rw [← halike.data]
      exact @session_disconnect host _ c
  · rw [hloses.eq hc]
    exact alikeForOthers_of_no_session hs
  · obtain ⟨s₁, hsteps, -, hloses⟩ := exists_loses_of_serveClient hc hgone
    exact ⟨s₁, h.steps hsteps.steps, hloses⟩

/-- Two users on 4 and 5, and a third connection without a session. -/
def threeConnections : List Action :=
  .accept 4 :: request 4 .login [97] ++ .accept 5 :: request 5 .login [98] ++ [.accept 6]

/-- Connection 4 is closed by its peer, or after its logout, and 6 is closed. -/
theorem teardown_threeConnections :
    (AlikeForOthers 4 (handleClientRead plainHost 4 []
    (execute plainHost threeConnections Server.init))
        (dispatch plainHost 4 Command.logout.code []
          (execute plainHost threeConnections Server.init)) ∧
      EndAnnounced 4 (plainUuid 0).str (execute plainHost threeConnections Server.init)
        (handleClientRead plainHost 4 [] (execute plainHost threeConnections Server.init))) ∧
    AlikeForOthers 4
      (serveClient plainHost 4 ⟨true, none, none⟩ (dispatch plainHost 4 Command.logout.code []
        (execute plainHost threeConnections Server.init)))
      (dispatch plainHost 4 Command.logout.code []
        (execute plainHost threeConnections Server.init)) ∧
    AlikeForOthers 6 (handleClientRead plainHost 6 []
      (execute plainHost threeConnections Server.init))
      (execute plainHost threeConnections Server.init) ∧
    ∃ s₁, Reachable plainHost s₁ ∧ Loses plainHost 6 s₁ (serveClient plainHost 6 (.read [])
      (execute plainHost threeConnections Server.init)) := by
  obtain ⟨hsession, hnone, hall⟩ := teardown plainHost
  have hreachable : Reachable plainHost (execute plainHost threeConnections Server.init) :=
    reachable_execute (by decide +kernel)
  have hs : (execute plainHost threeConnections Server.init).data.sessions[(4 : Fd)]? =
      some (plainUuid 0).str := by decide +kernel
  have hs' : (execute plainHost threeConnections Server.init).data.sessions[(6 : Fd)]? = none := by
    decide +kernel
  have hc : (execute plainHost threeConnections Server.init).clients.contains 6 = true := by
    decide +kernel
  obtain ⟨hlost, -, hafter⟩ := hsession _ 4 _ [] hreachable hs
  exact ⟨hlost _ .read, hafter _ (.poll rfl), hnone _ 6 hreachable hc hs' _ .read,
    hall _ 6 (.read []) hreachable hc (by decide +kernel)⟩

end Server

end MyTeams
