import MyTeams.Authenticity
import MyTeams.Server.Service

/-!
# One at a time

What the clients see of the server, they could see of a service that handles one whole request after
the other, with nothing in between (`served_in_turn`). The service and its history do not depend on
what is in the buffers and the channels: a request is in the history only after its client has
packed it, the history only grows, and what a client handles was said by the service before. So each
request takes effect at once, at some moment after it was packed and before its reply is handled.
-/

namespace MyTeams

open AtomicService FirstMatch FrameStream Server

/-- The history only grows. -/
theorem Server.happenings_grow (host : ℕ → Host) (s : Server) (a : Action) :
    s.happenings <+: (perform host a s).happenings := by
  rw [happenings_perform]
  exact List.prefix_append _ _

namespace Net

variable {host : ℕ → Host} {io : ℕ → Option ℕ} {N : Net}

theorem happenings_of_steps {allowed : Net → NetMove → Prop} {N' : Net}
    (h : Steps host io allowed N N') :
    N.server.happenings <+: N'.server.happenings := by
  induction h with
  | refl => exact List.prefix_refl _
  | @tail N₁ _ _ hstep ih =>
    obtain ⟨m, -, -, rfl⟩ := hstep
    cases m with
    | act a => exact ih.trans (happenings_grow host N₁.server a)
    | _ => exact ih

/-- What a client has handled is the first of what the server has queued to it. -/
theorem handled_told (h : Fitting host io start N) {p : Peer} (hp : p ∈ N.peers)
    (hconnected : p.connected = true) :
    p.client.handled.map Frame.bytes <+: queuedOn p.fd (sinceAccept p.fd N.server.trace) := by
  have hlinked := (sound_of_fitting h).linked p hp
  obtain ⟨buf, hintact, -⟩ := hlinked.down
  have hhandled : p.client.handled <+: p.mail.map Mail.frame := hintact.prefix_queued
  have hbytes : (p.mail.map Mail.frame).map Frame.bytes = p.mail.map Mail.bytes := by
    rw [List.map_map]
    refine List.map_congr_left fun x hx ↦ ?_
    obtain ⟨-, m, hm⟩ := hlinked.mail x hx
    exact hm.enc_frame
  rw [← mail_of_fitting h p hp hconnected, ← hbytes]
  exact hhandled.map _

/-- **The server handles one request after the other.** In every run of the loops in which at most
`capacity` frames are dispatched, what has happened at the server is a history of the atomic
service, which leaves it no choice: the service ends with the data of the server, and of each client
that is connected it has taken the first packets, in their order. The client has handled the first
of what it told it, in which there is one reply to each of these packets, in their order; and
however the run goes on, the history is only continued. -/
theorem served_in_turn (hrun : Turns host io start N) (hserved : N.server.served ≤ capacity) :
    ∃ S, (∀ S', Runs (rules host) N.server.happenings S' ↔ S' = S) ∧ S.data = N.server.data ∧
      (∀ p ∈ N.peers, p.connected = true → ∃ told, S.told p.fd = some told ∧
        requestsSince p.fd N.server.happenings <+: p.client.packets ∧
        p.client.handled.map Frame.bytes <+: told ∧
        List.Forall₂ Replies (requestsSince p.fd N.server.happenings) (told.filter isReply)) ∧
      ∀ N', Turns host io N N' → N.server.happenings <+: N'.server.happenings := by
  obtain ⟨hpolling, hall⟩ := steps_of_turns hrun .start
  have hsteps := steps_of_served_le hall .init hserved
  have hruns : Runs (rules host) N.server.happenings N.server.asService := (hpolling.reachable).runs
  refine ⟨N.server.asService, fun S' ↦ ⟨fun h ↦ h.unique (functional_rules host) hruns, ?_⟩, rfl,
    fun p hp hconnected ↦ ?_, fun N' h ↦ happenings_of_steps (steps_of_turns h hpolling).2⟩
  · rintro rfl
    exact hruns
  obtain ⟨c, hc, hintact⟩ := ((linked_of_steps hsteps).2 p hp).link hconnected
  have htold := told_asService ((IntMap.contains_iff _).2 ⟨c, hc⟩)
  have htaken : requestsSince p.fd N.server.happenings <+: p.client.packets := by
    rw [requestsSince_happenings]
    exact hintact.prefix_queued
  exact ⟨_, htold, htaken, handled_told hsteps hp hconnected,
    hruns.replies (replies_rules host) htold⟩

/-- Two users log in at once, and the first, who has asked for more, reads a part of what he is
told. -/
def loggedInAtOnce : List (Net → Turn) :=
  [accepting 4, accepting 5, typing 0 (text "/login a\n/users\n"), typing 1 (text "/login b\n"),
    readAll, readAll, reading 0 100]

/-- His requests were served. -/
theorem served_in_turn_loggedInAtOnce :
    let N := played loggedInAtOnce start
    ∃ S told, Runs (rules plainHost) N.server.happenings S ∧ S.told 4 = some told ∧
      N.firstPeer.client.handled.map Frame.bytes <+: told ∧
      List.Forall₂ Replies (requestsSince 4 N.server.happenings) (told.filter isReply) ∧
      (requestsSince 4 N.server.happenings).map Prod.fst =
        [Command.login.code, Command.users.code] := by
  intro N
  have hturns : Turns plainHost (fun _ ↦ some 65535) start N := turns_played (by decide +kernel)
  have hfd : N.firstPeer.fd = 4 := by decide +kernel
  obtain ⟨S, hruns, -, hpeers, -⟩ := served_in_turn hturns (by decide +kernel)
  obtain ⟨told, htold, -, hhandled, hreplies⟩ :=
    hpeers N.firstPeer (firstPeer_mem (by decide +kernel)) (by decide +kernel)
  rw [hfd] at htold hreplies
  exact ⟨S, told, (hruns S).2 rfl, htold, hhandled, hreplies, by decide +kernel⟩

end Net

end MyTeams
