import MyTeams.Latency

/-!
# Nobody is thrown out

The server closes a connection for four reasons: `poll` reports an error, the other end has closed,
a write fails, or the receive buffer cannot be the beginning of a frame. What comes from a client is
always the beginning of its packets, and those are short, so for the clients of the network the
fourth reason never occurs: whatever a client sends and however the bytes are cut, it stays
connected until its connection breaks for one of the other three (`stays_connected`), whatever the
others do. A client that ends its own `run`, after `RES_LOGOUT_OK` or at the end of its input,
closes its socket, and so breaks its connection itself.
-/

namespace MyTeams

open FirstMatch FrameStream Server

/-- `poll` reports that the connection is broken, or `read` or `write` find it so. -/
def Revents.Broken (ev : Revents) : Prop :=
  ev.error = true ∨ ev.input = some [] ∨ ev.output = some none

instance (ev : Revents) : Decidable ev.Broken :=
  inferInstanceAs (Decidable (ev.error = true ∨ ev.input = some [] ∨ ev.output = some none))

/-- A connection is found to be broken in a turn, be it that the network or the client has ended
it. -/
def Turn.Breaks (fd : Fd) : Turn → Prop
  | .client _ _ _ _ => False
  | .server _ revents => (revents fd).Broken

instance (fd : Fd) (t : Turn) : Decidable (t.Breaks fd) :=
  match t with
  | .client _ _ _ _ => instDecidableFalse
  | .server _ revents => inferInstanceAs (Decidable (revents fd).Broken)

namespace Server

/-! ### Why a connection is closed -/

/-- An entry of two lists, one after the other, is in the first or in the second. -/
theorem append_eq_append_cons {α : Type} {l₁ l₂ as bs : List α} {x : α}
    (h : l₁ ++ l₂ = as ++ x :: bs) :
    (∃ cs, l₁ = as ++ x :: cs) ∨ ∃ cs, as = l₁ ++ cs ∧ l₂ = cs ++ x :: bs := by
  rcases List.append_eq_append_iff.1 h with ⟨cs, hleft, hright⟩ | ⟨cs, hleft, hright⟩
  · exact .inr ⟨cs, hleft, hright⟩
  · cases cs with
    | nil => exact .inr ⟨[], by rw [List.append_nil, hleft, List.append_nil], hright.symm⟩
    | cons y cs =>
      obtain ⟨rfl, -⟩ := List.cons.inj hright
      exact .inl ⟨cs, hleft⟩

variable {host : ℕ → Host} {fd d : Fd} {s : Server} {as bs : List Action}

/-- The receive loop closes the connection when the buffer is refused. -/
theorem refuse_of_loopActions {n : ℕ} (h : loopActions host fd n s = as ++ .disconnect d :: bs) :
    serverCodec.scan (received? fd (execute host as s)) = .refuse := by
  induction n generalizing s as with
  | zero => exact absurd h.symm (List.append_ne_nil_of_right_ne_nil as (List.cons_ne_nil _ _))
  | succ n ih =>
    rw [loopActions] at h
    rcases hscan : serverCodec.scan (received? fd s) with - | - | ⟨f, rest⟩ <;> rw [hscan] at h
    · exact absurd h.symm (List.append_ne_nil_of_right_ne_nil as (List.cons_ne_nil _ _))
    · cases as with
      | nil => exact hscan
      | cons a as =>
        have htail := (List.cons.inj h).2
        exact absurd htail.symm (List.append_ne_nil_of_right_ne_nil as (List.cons_ne_nil _ _))
    · cases as with
      | nil => cases (List.cons.inj h).1
      | cons a as =>
        obtain ⟨rfl, htail⟩ := List.cons.inj h
        exact @ih (perform host (.frame fd f.1 f.2) s) as htail

theorem cause_of_clientActions {ev : Revents}
    (h : clientActions host fd ev s = as ++ .disconnect d :: bs) :
    ev.Broken ∨ serverCodec.scan (received? fd (execute host as s)) = .refuse := by
  have hnil {as bs : List Action} {a : Action} : ¬ [] = as ++ a :: bs :=
    (List.append_ne_nil_of_right_ne_nil as (List.cons_ne_nil a bs)).symm
  by_cases herror : ev.error = true
  · exact .inl (.inl herror)
  rw [clientActions, if_neg herror] at h
  split_ifs at h with hmem
  · exact absurd h hnil
  dsimp only at h
  rcases append_eq_append_cons h with ⟨cs, hinput⟩ | ⟨cs, rfl, houtput⟩
  · cases hread : ev.input with
    | none =>
      rw [hread] at hinput
      exact absurd hinput hnil
    | some tmp =>
      rw [hread, inputActions, readActions] at hinput
      split_ifs at hinput with hempty
      · exact .inl (.inr (.inl (hread.trans (congrArg some (List.isEmpty_iff.1 hempty)))))
      · cases as with
        | nil => cases (List.cons.inj hinput).1
        | cons a as =>
          obtain ⟨rfl, hloop⟩ := List.cons.inj hinput
          exact .inr (@refuse_of_loopActions host fd d (perform host (.receive fd tmp) s) as cs _
            hloop)
  · left
    split_ifs at houtput with hgone
    · exact absurd houtput hnil
    · rcases hwrite : ev.output with - | written <;> rw [hwrite] at houtput
      · exact absurd houtput hnil
      · rw [outputActions, writeActions.eq_def] at houtput
        split_ifs at houtput
        · exact absurd houtput hnil
        · cases written with
          | none => exact .inr (.inr hwrite)
          | some n =>
            cases cs with
            | nil => cases (List.cons.inj houtput).1
            | cons c cs => exact absurd (List.cons.inj houtput).2 hnil

/-- **Why a connection is closed**: `poll` has said of it that it is broken, or its receive buffer
is refused. -/
theorem cause_of_actions {is : List Input} (h : actions host is s = as ++ .disconnect d :: bs) :
    (∃ ev, Input.client d ev ∈ is ∧ ev.Broken) ∨
      serverCodec.scan (received? d (execute host as s)) = .refuse := by
  induction is generalizing s as with
  | nil => exact absurd h.symm (List.append_ne_nil_of_right_ne_nil as (List.cons_ne_nil _ _))
  | cons i is ih =>
    rw [actions] at h
    rcases append_eq_append_cons h with ⟨cs, hhead⟩ | ⟨cs, rfl, htail⟩
    · have hmem : Action.disconnect d ∈ actionsOf host i s :=
        hhead ▸ List.mem_append_right as List.mem_cons_self
      have hfd : d = i.fd := fd_of_mem_actionsOf hmem
      cases i with
      | accept fd =>
        cases as with
        | nil => cases (List.cons.inj hhead).1
        | cons a as =>
          have hrest := (List.cons.inj hhead).2
          exact absurd hrest.symm (List.append_ne_nil_of_right_ne_nil as (List.cons_ne_nil _ _))
      | client fd ev =>
        obtain rfl : d = fd := hfd
        exact (cause_of_clientActions hhead).imp (fun hev ↦ ⟨ev, List.mem_cons_self, hev⟩) id
    · rcases ih htail with ⟨ev, hmem, hev⟩ | hrefuse
      · exact .inl ⟨ev, List.mem_cons_of_mem i hmem, hev⟩
      · rw [execute_append, execute_actions]
        exact .inr hrefuse

end Server

/-! ### The clients -/

namespace Net

variable {host : ℕ → Host} {io : ℕ → Option ℕ} {N : Net} {i : ℕ} {p : Peer}

/-- **Every client is linked to the server** upwards, in every run. -/
theorem linked_of_steps {allowed : Net → NetMove → Prop} (h : Steps host io allowed start N) :
    Reachable host N.server ∧ ∀ p ∈ N.peers, System.Linked host p.fd (p.view N.server) := by
  induction h with
  | refl => exact ⟨.init, fun p hp ↦ absurd hp List.not_mem_nil⟩
  | tail _ hstep ih =>
    obtain ⟨hreachable, ih⟩ := ih
    obtain ⟨m, hm, -, rfl⟩ := hstep
    cases m with
    | type j buf =>
      exact ⟨hreachable, forall_mem_modify ih fun p hp ↦
        (ih p (List.mem_of_getElem? hp)).move (m := .type buf) trivial⟩
    | flush j =>
      exact ⟨hreachable, forall_mem_modify ih fun p hp ↦
        (ih p (List.mem_of_getElem? hp)).move (m := .flush) trivial⟩
    | read j n =>
      exact ⟨hreachable, forall_mem_modify ih fun p hp ↦
        @System.Linked.move host (fun _ ↦ none) _ _ (ih p (List.mem_of_getElem? hp)) (.read n)
          trivial⟩
    | act a =>
      refine ⟨hreachable.step hm.1, fun p hp ↦ ?_⟩
      rcases List.mem_append.1 hp with hp | hp
      · obtain ⟨q, hq, rfl⟩ := List.mem_map.1 hp
        rw [Peer.fd_serve]
        exact Peer.up_serve (ih q hq) hm.1 (hm.2 q hq)
      · obtain ⟨fd, rfl, rfl⟩ := mem_accepted.1 hp
        exact System.linked_start hreachable hm.1

/-- What has been received from a client is the beginning of a packet. -/
theorem scan_ne_refuse (h : System.Linked host p.fd (p.view N.server))
    (hconnected : p.connected = true) :
    serverCodec.scan (received? p.fd N.server) ≠ .refuse := by
  intro hrefuse
  obtain ⟨c, hc, hintact⟩ := h.link hconnected
  have hc : N.server.clients[p.fd]? = some c := hc
  rw [received?, hc, Option.getD_some] at hrefuse
  obtain ⟨todo, rest, -, hrest, -⟩ := hintact.parse
  rw [serverCodec.parse_of_refuse hrefuse] at hrest
  cases hrest

theorem mem_map_act {as : List Action} {a : Action} : NetMove.act a ∈ as.map NetMove.act ↔ a ∈ as :=
  List.mem_map_of_injective fun _ _ ↦ NetMove.act.inj

/-- Who is not disconnected stays connected. -/
theorem connected_of_moves {ms : List NetMove} (hp : N.peers[i]? = some p)
    (hconnected : p.connected = true) (h : NetMove.act (.disconnect p.fd) ∉ ms) :
    ∃ p', (N.execute host io ms).peers[i]? = some p' ∧ p'.fd = p.fd ∧ p'.connected = true := by
  induction ms generalizing N p with
  | nil => exact ⟨p, hp, rfl, hconnected⟩
  | cons m ms ih =>
    have hstep : (p.step host io N.server i m).fd = p.fd ∧
        (p.step host io N.server i m).connected = true := by
      cases m with
      | act a =>
        refine ⟨Peer.fd_serve host N.server a p, ?_⟩
        have hcloses : a.closes p.fd = false := by
          cases a with
          | disconnect d =>
            refine beq_false_of_ne ?_
            rintro rfl
            exact h List.mem_cons_self
          | _ => rfl
        show (p.serve host N.server a).connected = true
        rw [Peer.serve, if_pos hconnected, hcloses]
        rfl
      | type j | flush j | read j =>
        rw [Peer.step]
        split_ifs
        · exact ⟨rfl, hconnected⟩
        · exact ⟨rfl, hconnected⟩
    obtain ⟨p', hp', hfd', hconnected'⟩ := ih (peers_move hp m) hstep.2
      (hstep.1.symm ▸ fun hmem ↦ h (List.mem_cons_of_mem m hmem))
    exact ⟨p', hp', hfd'.trans hstep.1, hconnected'⟩

/-- **A list of actions** that the loop makes of its inputs disconnects no client for whom none of
the inputs is broken. -/
theorem not_mem_actions {is : List Input} (h : Steps host io (fun _ _ ↦ True) start N)
    (hexec : Executable host io (fun _ _ ↦ True) ((actions host is N.server).map .act) N)
    (hp : N.peers[i]? = some p) (hconnected : p.connected = true)
    (hbroken : ∀ ev, Input.client p.fd ev ∈ is → ¬ ev.Broken) :
    Action.disconnect p.fd ∉ actions host is N.server := by
  intro hmem
  obtain ⟨as, bs, heq, hfirst⟩ := List.eq_append_cons_of_mem hmem
  rcases cause_of_actions heq with ⟨ev, hev, hbrk⟩ | hrefuse
  · exact hbroken ev hev hbrk
  · -- the actions before it lead to a state of the network in which the client is connected
    rw [heq, List.map_append, executable_append] at hexec
    have hbefore := linked_of_steps (h.trans (steps_execute hexec.1))
    obtain ⟨p', hp', hfd, hconnected'⟩ :=
      @connected_of_moves host io N i p (as.map .act) hp hconnected
      fun hmem ↦ hfirst (mem_map_act.1 hmem)
    refine scan_ne_refuse (hbefore.2 p' (List.mem_of_getElem? hp')) hconnected' ?_
    rw [hfd, server_execute]
    exact hrefuse

/-! ### Turns -/

/-- **One turn of a loop.** -/
theorem connected_of_turn (hrun : Turns host io start N) (hp : N.peers[i]? = some p)
    (hconnected : p.connected = true) {t : Turn} (htakes : N.Takes t) (hbreaks : ¬ t.Breaks p.fd) :
    ∃ p', (N.take host io t).peers[i]? = some p' ∧ p'.fd = p.fd ∧ p'.connected = true := by
  refine connected_of_moves hp hconnected fun hmem ↦ ?_
  obtain ⟨hpolling, hsteps⟩ := steps_of_turns hrun .start
  cases t with
  | client j stdin output n =>
    rcases List.mem_append.1 hmem with hmem | hmem
    · rcases List.mem_append.1 hmem with hmem | hmem
      · obtain ⟨_, -, heq⟩ := List.mem_map.1 hmem
        cases heq
      · split_ifs at hmem
        · cases List.mem_singleton.1 hmem
        · cases hmem
    · obtain ⟨_, -, heq⟩ := List.mem_map.1 hmem
      cases heq
  | server accepted revents =>
    refine not_mem_actions hsteps (executable_moves hpolling.reachable htakes) hp hconnected ?_
      (mem_map_act.1 hmem)
    intro ev hev hbroken
    rcases List.mem_append.1 hev with hev | hev
    · obtain ⟨_, -, heq⟩ := List.mem_map.1 hev
      cases heq
    · obtain ⟨q, -, heq⟩ := List.mem_map.1 hev
      obtain ⟨hfd, rfl⟩ := Input.client.inj heq
      refine hbreaks ?_
      show (revents p.fd).Broken
      rw [← hfd]
      refine hbroken.imp id (Or.imp id fun houtput ↦ ?_)
      -- `POLLOUT` is reported only when asked for
      rw [PollFd.report] at houtput
      split_ifs at houtput
      exact houtput

/-- **A client is never thrown out**: in every run of the loops, a client that is connected stays so
through any number of turns in none of which the server finds its connection broken, whatever it
sends and whatever the others do. -/
theorem stays_connected (hrun : Turns host io start N) (hp : N.peers[i]? = some p)
    (hconnected : p.connected = true) {N' : Net}
    (hturns : Relation.ReflTransGen
      (fun N N' ↦ ∃ t : Turn, N.Takes t ∧ ¬ t.Breaks p.fd ∧ N' = N.take host io t) N N') :
    ∃ p', N'.peers[i]? = some p' ∧ p'.fd = p.fd ∧ p'.connected = true := by
  have hboth : Turns host io start N' ∧
      ∃ p', N'.peers[i]? = some p' ∧ p'.fd = p.fd ∧ p'.connected = true := by
    induction hturns with
    | refl => exact ⟨hrun, p, hp, rfl, hconnected⟩
    | tail _ hturn ih =>
      obtain ⟨hbefore, q, hq, hfd, hstill⟩ := ih
      obtain ⟨t, htakes, hbreaks, rfl⟩ := hturn
      obtain ⟨q', hq', hfd', hstill'⟩ :=
        connected_of_turn hbefore hq hstill htakes (hfd.symm ▸ hbreaks)
      exact ⟨hbefore.tail ⟨t, htakes, rfl⟩, q', hq', hfd'.trans hfd, hstill'⟩
  exact hboth.2

/-- A request that is refused. -/
theorem stays_connected_usersTyped :
    ∃ p', (alternating 3).peers[0]? = some p' ∧ p'.fd = 4 ∧ p'.connected = true := by
  have hrun : Turns plainHost (fun _ ↦ some 4) start (alternating 0) :=
    .tail (.single ⟨.server (some 4) fun _ ↦ ⟨false, none, none⟩, by decide +kernel, rfl⟩)
      ⟨.client 0 (some (text "/users\n")) false none, trivial, rfl⟩
  have hp : (alternating 0).peers[0]? = some (alternating 0).firstPeer := by
    have hsome : (alternating 0).peers[0]?.isSome := by decide +kernel
    obtain ⟨q, hq⟩ := Option.isSome_iff_exists.1 hsome
    rw [firstPeer, hq, Option.getD_some]
  have hfd : (alternating 0).firstPeer.fd = 4 := by decide +kernel
  have hlaps : ∀ j < 3, (alternating j).Takes (serverTurn (alternating j)) ∧
      ¬ (serverTurn (alternating j)).Breaks 4 := by decide +kernel
  have hlap {j : ℕ} (hj : j < 3) : Relation.ReflTransGen (fun N N' ↦ ∃ t : Turn, N.Takes t ∧
      ¬ t.Breaks (alternating 0).firstPeer.fd ∧ N' = N.take plainHost (fun _ ↦ some 4) t)
        (alternating j) (alternating (j + 1)) := by
    rw [hfd]
    exact .tail (.single ⟨_, (hlaps j hj).1, (hlaps j hj).2, rfl⟩) ⟨clientTurn _, trivial, id, rfl⟩
  have hstays := stays_connected hrun hp (by decide +kernel)
    (((hlap (by decide)).trans (hlap (by decide))).trans (hlap (by decide)))
  rwa [hfd] at hstays

end Net

end MyTeams
