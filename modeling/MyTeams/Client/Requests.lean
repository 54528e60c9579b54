import MyTeams.Server.Refusals
import MyTeams.UseContext

/-!
# What the client asks for

The client lays out every packet so that the server finds in it what it looks for: uuids in fields
of 36 bytes, the context of a `/use` down to its level, and for a `/create` what the client's own
context calls for (`WellSpoken`). So a request of the client is malformed in one case only, a
`/create` that meets another context on the server than it was laid out for
(`WellFormed.of_malformed`).
-/

namespace MyTeams

/-- The payload has the form that the server looks for. A creation is laid out for the level of the
client's context. -/
def WellFormed (payload : List UInt8) (level : UInt8) : Command → Prop
  | .user | .send | .messages | .subscribe | .unsubscribe =>
    (Server.extractSv payload 0 36).length = 36
  | .subscribed => payload.head? = some 0x01 → (Server.extractSv payload 1 36).length = 36
  | .use => (requestedContext payload).isSome = true
  | .create => payload.length = createLength level
  | .login | .logout | .users | .list | .info => True

theorem length_extractSv {p : List UInt8} {offset size : ℕ} (h : offset + size ≤ p.length) :
    (Server.extractSv p offset size).length = size := by
  rw [Server.extractSv, if_neg (Nat.not_lt.2 h), List.length_take, List.length_drop]
  omega

section Refused

variable {fd : Fd} {payload p : List UInt8} {data : ServerData} {level : UInt8} {uuid : Str}

theorem must_eq_some {passed : Bool} {e e' : Error} (h : must passed e p = some (e', payload)) :
    passed = false ∧ e = e' := by
  cases passed with
  | false => exact ⟨rfl, (Prod.mk.inj (Option.some.inj h)).1⟩
  | true => cases h

theorem not_userRefusal (huuid : uuid.length = 36) :
    userRefusal data uuid ≠ some (.invalidCommand, p) := by
  rw [userRefusal, isUuid36, huuid]
  exact fun h ↦ by cases (must_eq_some h).2

theorem not_teamRefusal (huuid : uuid.length = 36) :
    teamRefusal data uuid ≠ some (.invalidCommand, p) := by
  rw [teamRefusal, isUuid36, huuid]
  exact fun h ↦ by cases (must_eq_some h).2

theorem not_memberRefusal {user : Str} : memberRefusal data user uuid ≠ some (.invalidCommand, p) :=
  fun h ↦ by cases (must_eq_some h).2

theorem or_ne_some {α : Type} {o o' : Option α} {a : α} (h : o ≠ some a) (h' : o' ≠ some a) :
    o.or o' ≠ some a := by
  cases o with
  | none => exact h'
  | some b => exact h

theorem not_contextRefusal {user : Str} {ctx : ClientContext} :
    contextRefusal data user ctx ≠ some (.invalidCommand, p) := by
  have hlookup {passed : Bool} {e : Error} {q : List UInt8} (he : e ≠ .invalidCommand) :
      must passed e q ≠ some (.invalidCommand, p) := fun h ↦ he (must_eq_some h).2
  rw [contextRefusal, innerRefusal]
  split_ifs
  · exact fun h ↦ by cases h
  · exact or_ne_some (hlookup (by decide)) (or_ne_some not_memberRefusal fun h ↦ by cases h)
  · exact or_ne_some (hlookup (by decide)) (or_ne_some not_memberRefusal
      (or_ne_some (hlookup (by decide)) fun h ↦ by cases h))
  · exact or_ne_some (hlookup (by decide)) (or_ne_some not_memberRefusal
      (or_ne_some (hlookup (by decide)) (hlookup (by decide))))

/-- **When a request of the client is malformed**: it is a creation, and the context that the server
has stored calls for more than the client's. -/
theorem WellFormed.of_malformed {cmd : Command} (h : WellFormed payload level cmd)
    (hrefused : refusal fd payload data (some cmd) = some (.invalidCommand, p)) :
    cmd = .create ∧ ∃ ctx, data.clientContexts[fd]? = some ctx ∧
      createLength level < createLength ctx.level := by
  rw [refusal] at hrefused
  split_ifs at hrefused with hlogin
  rcases hs : data.sessions[fd]? with - | user
  · rw [hs] at hrefused
    cases hrefused
  rw [hs] at hrefused
  have hrefused : requestRefusal fd payload data user cmd = some (.invalidCommand, p) := hrefused
  cases cmd with
  | login => exact absurd rfl hlogin
  | logout | users | list | info => cases hrefused
  | user | send | messages => exact absurd hrefused (not_userRefusal h)
  | subscribe => exact absurd hrefused (not_teamRefusal h)
  | unsubscribe => exact absurd hrefused (or_ne_some (not_teamRefusal h) not_memberRefusal)
  | subscribed =>
    rw [requestRefusal] at hrefused
    split_ifs at hrefused with hhead
    exact absurd hrefused (or_ne_some (not_teamRefusal (h hhead)) not_memberRefusal)
  | use =>
    obtain ⟨ctx, hctx⟩ := Option.isSome_iff_exists.1 h
    rw [requestRefusal, hctx] at hrefused
    exact absurd hrefused not_contextRefusal
  | create =>
    obtain ⟨ctx, hctx, hcheck⟩ := Option.bind_eq_some_iff.1 hrefused
    refine ⟨rfl, ctx, hctx, ?_⟩
    have hlen : payload.length = createLength level := h
    rcases Nat.lt_or_ge payload.length (createLength ctx.level) with hshort | hlong
    · rwa [hlen] at hshort
    · rw [must, if_pos (decide_eq_true hlong), Option.none_or] at hcheck
      split_ifs at hcheck
      exact absurd hcheck not_memberRefusal

end Refused

namespace Client

/-- **The client speaks as the server listens.** -/
structure WellSpoken (c : Client) : Prop where
  level : c.useLevel.toNat ≤ 3
  packed : ∀ f ctx, (f, ctx) ∈ c.packed → ∃ cmd : Command, f.1 = cmd.code ∧
    WellFormed f.2 ctx.level cmd

theorem wellSpoken_init : Client.init.WellSpoken := ⟨by decide, fun _ _ h ↦ by cases h⟩

variable {io : ℕ → Option ℕ} {c c' : Client}

theorem WellSpoken.of_eq (h : c.WellSpoken) (hpacked : c'.packed = c.packed)
    (hlevel : c'.useLevel = c.useLevel) : c'.WellSpoken :=
  ⟨hlevel ▸ h.level, hpacked ▸ h.packed⟩

theorem WellSpoken.print (h : c.WellSpoken) (s : Str) : (c.print s).WellSpoken :=
  h.of_eq (packed_print s) rfl

theorem WellSpoken.send (h : c.WellSpoken) {cmd : Command} {payload : List UInt8}
    (hform : WellFormed payload c.useLevel cmd) : (sendPacket io cmd payload c).WellSpoken := by
  have hcontext : (sendPacket io cmd payload c).context = c.context :=
    handleServerWrite_context io _
  have hlevel : (sendPacket io cmd payload c).useLevel = c.useLevel :=
    congrArg ClientContext.level hcontext
  refine ⟨hlevel ▸ h.level, fun f ctx hmem ↦ ?_⟩
  rw [sendPacket_packed] at hmem
  rcases List.mem_append.1 hmem with hmem | hmem
  · exact h.packed f ctx hmem
  · obtain ⟨rfl, rfl⟩ := Prod.mk.inj (List.mem_singleton.1 hmem)
    exact ⟨cmd, rfl, hform⟩

theorem WellSpoken.field (h : c.WellSpoken) {cmd : Command} {width : ℕ} (usage : String)
    (args : List Str) (hform : ∀ arg, WellFormed (packFixed [] arg width) c.useLevel cmd) :
    (cmdField io cmd width usage args c).WellSpoken := by
  unfold cmdField
  split
  · exact h.send (hform _)
  · exact h.print _

theorem WellSpoken.createPair (h : c.WellSpoken) {width : ℕ} (usage : String) (args : List Str)
    (hwidth : createLength c.useLevel = 32 + width) :
    (cmdCreatePair io width usage args c).WellSpoken := by
  unfold cmdCreatePair
  split
  · refine h.send (show List.length _ = createLength c.useLevel from ?_)
    rw [length_packFixed, length_packFixed, hwidth, List.length_nil, Nat.zero_add]
  · exact h.print _

/-- A creation is laid out for one of the four levels. -/
theorem WellSpoken.cmdCreate (h : c.WellSpoken) (args : List Str) :
    (cmdCreate io args c).WellSpoken := by
  unfold Client.cmdCreate
  split_ifs with h0 h1 h2 h3
  · exact h.createPair _ _ (by rw [h0]; rfl)
  · exact h.createPair _ _ (by rw [h1]; rfl)
  · exact h.createPair _ _ (by rw [h2]; rfl)
  · refine h.field _ _ fun arg ↦ show List.length _ = createLength c.useLevel from ?_
    rw [length_packFixed, h3]
    rfl
  · rcases level_cases h.level with hlevel | hlevel | hlevel | hlevel
    · exact absurd hlevel h0
    · exact absurd hlevel h1
    · exact absurd hlevel h2
    · exact absurd hlevel h3

/-- The context is stored, and asked for in full. -/
theorem WellSpoken.cmdUse (h : c.WellSpoken) (args : List Str) : (cmdUse io args c).WellSpoken := by
  have hstored {level : UInt8} (hlevel : level.toNat ≤ 3) (team channel thread : Str) :
      WellSpoken
        { c with
          useLevel := level
          useTeamUuid := team
          useChannelUuid := channel
          useThreadUuid := thread } :=
    ⟨hlevel, h.packed⟩
  unfold Client.cmdUse
  split
  · exact (hstored (by decide) _ _ _).send (show Option.isSome _ = true from rfl)
  · refine (hstored (by decide) _ _ _).send (show Option.isSome _ = true from ?_)
    simp [requestedContext, useNone, useTeam]
  · refine (hstored (by decide) _ _ _).send (show Option.isSome _ = true from ?_)
    simp [requestedContext, useNone, useTeam, useChannel]
  · refine (hstored (by decide) _ _ _).send (show Option.isSome _ = true from ?_)
    simp [requestedContext, useNone, useTeam, useChannel, useThread]
  · exact h.print _

theorem WellSpoken.cmdSend (h : c.WellSpoken) (args : List Str) :
    (cmdSend io args c).WellSpoken := by
  unfold Client.cmdSend
  split
  · exact h.send (length_extractSv (by rw [length_packFixed, length_packFixed]; decide))
  · exact h.print _

theorem WellSpoken.cmdSubscribed (h : c.WellSpoken) (args : List Str) :
    (cmdSubscribed io args c).WellSpoken := by
  unfold Client.cmdSubscribed
  split
  · exact h.send fun hhead ↦ by cases hhead
  · exact h.send fun _ ↦ length_extractSv (by rw [length_packFixed]; decide)
  · exact h.print _

theorem WellSpoken.ite {p : Prop} [Decidable p] (h : c.WellSpoken) (h' : c'.WellSpoken) :
    (if p then c else c').WellSpoken := by
  split_ifs
  · exact h
  · exact h'

/-- **Every command line.** -/
theorem WellSpoken.dispatch (h : c.WellSpoken) (cmd : ParsedCommand) :
    (dispatch io cmd c).WellSpoken := by
  have hnamed {k : Command} (hk : ∀ payload, (Server.extractSv payload 0 36).length = 36 →
      WellFormed payload c.useLevel k) (usage : String) :
        (cmdField io k 36 usage cmd.args c).WellSpoken :=
    h.field usage cmd.args fun arg ↦ hk _ (length_extractSv (by rw [length_packFixed]; decide))
  have hlogin : (cmdLogin io cmd.args c).WellSpoken := h.field _ _ fun _ ↦ trivial
  have huser : (cmdUser io cmd.args c).WellSpoken := hnamed (fun _ ↦ id) _
  have hmessages : (cmdMessages io cmd.args c).WellSpoken := hnamed (fun _ ↦ id) _
  have hsubscribe : (cmdSubscribe io cmd.args c).WellSpoken := hnamed (fun _ ↦ id) _
  have hunsubscribe : (cmdUnsubscribe io cmd.args c).WellSpoken := hnamed (fun _ ↦ id) _
  exact .ite (h.print _) <| .ite hlogin <| .ite (h.send trivial) <| .ite (h.send trivial) <|
    .ite huser <| .ite (h.cmdSend _) <| .ite hmessages <| .ite hsubscribe <|
      .ite (h.cmdSubscribed _) <|
    .ite hunsubscribe <| .ite (h.cmdUse _) <| .ite (h.cmdCreate _) <| .ite (h.send trivial) <|
    .ite (h.send trivial) (h.print _)

/-- **Whatever is typed.** -/
theorem WellSpoken.handleStdin (h : c.WellSpoken) (buf : Str) : (handleStdin io buf c).WellSpoken :=
  handleStdin_rule io (R := fun c c' ↦ c.WellSpoken → c'.WellSpoken) (fun _ ↦ id)
    (fun h h' ↦ h' ∘ h)
    (fun _ s h ↦ h.print s) (fun cmd _ h ↦ h.dispatch cmd) (fun _ _ _ h ↦ h.of_eq rfl rfl) buf c h

theorem WellSpoken.handleServerWrite (h : c.WellSpoken) : (handleServerWrite io c).WellSpoken :=
  h.of_eq (handleServerWrite_packed io c)
    (congrArg ClientContext.level (handleServerWrite_context io c))

theorem WellSpoken.handleServerRead (h : c.WellSpoken) (tmp : List UInt8) :
    (handleServerRead tmp c).WellSpoken :=
  h.of_eq (receives_handleServerRead tmp c).packed
    (congrArg ClientContext.level (receives_handleServerRead tmp c).context)

end Client

end MyTeams
