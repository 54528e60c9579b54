import MyTeams.Client.Stream
import MyTeams.Server.Contexts

/-!
# Use contexts, frame by frame

The client and the server each keep a use context for the connection, and a `CMD_CREATE` payload
does not say which one it was laid out for. On the client's side the context is a function of the
packets sent (`contextOf`, `Coherent`), since `/use` stores what it asks for. The server stores a
context only when it is granted, and resets it at a login, so a frame leaves the two equal only if
it keeps them together (`KeepsContext`): a `/use` is granted or changes nothing, and a login is
packed under `USE_NONE`.
-/

namespace MyTeams

/-! ### The client's context -/

/-- The client's context after sending a frame. -/
def useOf (ctx : ClientContext) (f : Frame) : ClientContext :=
  match Command.ofCode? f.1 with
  | some .use => (requestedContext f.2).getD ctx
  | _ => ctx

/-- The client's context after sending these frames. -/
def contextOf (fs : List Frame) : ClientContext := fs.foldl useOf ClientContext.init

theorem contextOf_concat (fs : List Frame) (f : Frame) :
    contextOf (fs ++ [f]) = useOf (contextOf fs) f := by
  rw [contextOf, List.foldl_append]
  rfl

theorem useOf_of_use {ctx ctx' : ClientContext} {payload : List UInt8}
    (h : requestedContext payload = some ctx') :
    useOf ctx (Command.use.code, payload) = ctx' := by
  rw [useOf, Command.ofCode?_code, h]
  rfl

theorem useOf_of_ne {cmd : Command} (hcmd : cmd ≠ .use) (ctx : ClientContext)
    (payload : List UInt8) : useOf ctx (cmd.code, payload) = ctx := by
  rw [useOf, Command.ofCode?_code]
  cases cmd with
  | use => exact absurd rfl hcmd
  | _ => rfl

namespace Client

/-- **The client's context is a function of its packets**, now and at the moment of each of them. -/
structure Coherent (c : Client) : Prop where
  context : c.context = contextOf c.packets
  packed : ∀ i f ctx, c.packed[i]? = some (f, ctx) → ctx = contextOf (c.packets.take (i + 1))

theorem coherent_init : Coherent Client.init := ⟨rfl, fun i f ctx h ↦ by cases h⟩

variable {io : ℕ → Option ℕ} {c c' : Client}

theorem Coherent.of_eq (h : Coherent c) (hpacked : c'.packed = c.packed)
    (hcontext : c'.context = c.context) : Coherent c' := by
  have hpackets : c'.packets = c.packets := congrArg (List.map Prod.fst) hpacked
  refine ⟨by rw [hcontext, hpackets, h.context], fun i f ctx hget ↦ ?_⟩
  rw [hpackets]
  exact h.packed i f ctx (hpacked ▸ hget)

variable (io c) in
theorem handleServerWrite_context : (handleServerWrite io c).context = c.context := by
  obtain h | h | ⟨n, h⟩ := handleServerWrite_cases io c <;> rw [h] <;> rfl

/-- One more packet. -/
theorem Coherent.concat (h : Coherent c) {f : Frame} {ctx : ClientContext}
    (hctx : ctx = useOf c.context f) (hpacked : c'.packed = c.packed ++ [(f, ctx)])
    (hcontext : c'.context = ctx) : Coherent c' := by
  have hpackets : c'.packets = c.packets ++ [f] := by
    rw [packets, hpacked, List.map_append]
    rfl
  have hafter : ctx = contextOf (c.packets ++ [f]) := by rw [contextOf_concat, ← h.context, hctx]
  refine ⟨by rw [hcontext, hpackets, hafter], fun i g ctx' hget ↦ ?_⟩
  have hlen : c.packets.length = c.packed.length := List.length_map _
  rw [hpacked] at hget
  rw [hpackets]
  rcases lt_trichotomy i c.packed.length with hi | rfl | hi
  · rw [List.getElem?_append_left hi] at hget
    rw [List.take_append_of_le_length (by omega)]
    exact h.packed i g ctx' hget
  · rw [List.getElem?_concat_length] at hget
    obtain ⟨-, rfl⟩ := Prod.mk.inj (Option.some.inj hget)
    rw [List.take_of_length_le (by rw [List.length_append, hlen, List.length_singleton])]
    exact hafter
  · rw [List.getElem?_eq_none (by rw [List.length_append, List.length_singleton]; omega)] at hget
    cases hget

/-- What a command line sends is packed in the context it leaves. -/
theorem Coherent.obeys (h : Coherent c) (hobeys : Obeys io c c') : Coherent c' := by
  obtain ⟨s, rfl⟩ | ⟨cmd, payload, c₁, hissued, rfl⟩ := hobeys
  · exact h.of_eq (packed_print s) rfl
  · obtain ⟨level, team, channel, thread, heq⟩ := hissued.frame
    have hbefore : c₁.packed = c.packed := by rw [heq]; rfl
    have hsent : (sendPacket io cmd payload c₁).packed =
        c.packed ++ [((cmd.code, payload), c₁.context)] := by rw [sendPacket_packed, hbefore]
    refine h.concat ?_ hsent (handleServerWrite_context io _)
    rcases eq_or_ne cmd .use with rfl | hcmd
    · exact (useOf_of_use (hissued.use rfl)).symm
    · rw [useOf_of_ne hcmd, hissued.other hcmd]

/-- **Whatever is typed**, the context stays a function of the packets. -/
theorem Coherent.handleStdin (h : Coherent c) (buf : Str) : Coherent (handleStdin io buf c) :=
  handleStdin_induction io (R := fun c c' ↦ Coherent c → Coherent c') (fun _ ↦ id)
    (fun h h' ↦ h' ∘ h) (fun hobeys h ↦ h.obeys hobeys) (fun _ _ _ h ↦ h.of_eq rfl rfl) buf c h

theorem Coherent.handleServerWrite (h : Coherent c) : Coherent (handleServerWrite io c) :=
  h.of_eq (handleServerWrite_packed io c) (handleServerWrite_context io c)

theorem Coherent.handleServerRead (h : Coherent c) (tmp : List UInt8) :
    Coherent (handleServerRead tmp c) :=
  h.of_eq (receives_handleServerRead tmp c).packed (receives_handleServerRead tmp c).context

end Client

/-! ### The server's context -/

/-- Whoever is logged in on the connection has this context. -/
def AgreesOn (fd : Fd) (ctx : ClientContext) (data : ServerData) : Prop :=
  ∀ user, data.sessions[fd]? = some user → data.clientContexts[fd]? = some ctx

/-- A frame that was packed in the context `ctx` keeps the two ends together: a login was packed
under `USE_NONE`, and a `/use`, whose frame asks for `ctx`, is granted or asks for what is
stored. -/
def KeepsContext (fd : Fd) (data : ServerData) (f : Frame) (ctx : ClientContext) : Prop :=
  match Command.ofCode? f.1 with
  | some .login => ctx = ClientContext.init
  | some .use =>
    ∀ user, data.sessions[fd]? = some user →
      Grants data user ctx ∨ data.clientContexts[fd]? = some ctx
  | _ => True

instance (data : ServerData) (user : Str) (ctx : ClientContext) :
    Decidable (Grants data user ctx) :=
  inferInstanceAs (Decidable ((contextInfo data user ctx).isSome ∧
    (ctx.level = useNone ∨ ∃ t ∈ ctx.team? data, user ∈ t.memberUuids)))

instance (fd : Fd) (data : ServerData) (f : Frame) (ctx : ClientContext) :
    Decidable (KeepsContext fd data f ctx) :=
  if hlogin : Command.ofCode? f.1 = some .login then
    decidable_of_iff (ctx = ClientContext.init) (by rw [KeepsContext, hlogin])
  else if huse : Command.ofCode? f.1 = some .use then
    decidable_of_iff (∀ user ∈ data.sessions[fd]?,
      Grants data user ctx ∨ data.clientContexts[fd]? = some ctx) (by rw [KeepsContext, huse]; rfl)
  else
    isTrue <| by
      unfold KeepsContext
      split
      · exact absurd ‹_› hlogin
      · exact absurd ‹_› huse
      · trivial

section Frames

variable {host : Host} {fd : Fd} {data : ServerData} {f : Frame} {ctx : ClientContext} {a : Answer}

/-- Where nobody is logged in, the two ends agree. -/
theorem agreesOn_of_no_session (h : data.sessions[fd]? = none) (ctx : ClientContext) :
    AgreesOn fd ctx data := by
  intro user hs
  rw [h] at hs
  cases hs

/-- The server forgets the context at a login. -/
theorem agreesOn_loginData_iff {users : List User} {user : User} :
    AgreesOn fd ctx (loginData data fd users user) ↔ ctx = ClientContext.init := by
  have hsession : (loginData data fd users user).sessions[fd]? = some user.uuid.str := by
    rw [loginData, IntMap.get_insert_self]
  have hreset : (loginData data fd users user).clientContexts[fd]? = some ClientContext.init := by
    rw [loginData, IntMap.get_insert_self]
  constructor
  · intro h
    exact (Option.some.inj (hreset.symm.trans (h _ hsession))).symm
  · rintro rfl _ _
    exact hreset

/-- **One frame**: the two ends that agree before it agree after it exactly when it keeps them
together. -/
theorem agreesOn_iff_keepsContext (h : Serves host fd f.2 data (Command.ofCode? f.1) a)
    (hagree : AgreesOn fd ctx data) :
    AgreesOn fd (useOf ctx f) a.data ↔ KeepsContext fd data f (useOf ctx f) := by
  have hsame {after : ServerData} (hsessions : after.sessions = data.sessions)
      (hcontexts : after.clientContexts = data.clientContexts) : AgreesOn fd ctx after := by
    intro user hs
    rw [hcontexts]
    exact hagree user (hsessions ▸ hs)
  rw [KeepsContext, useOf]
  generalize Command.ofCode? f.1 = cmd at h ⊢
  cases h with
  | loginKnown hfind hafter => rw [hafter]; exact agreesOn_loginData_iff
  | loginNew hfind huser hafter => rw [hafter]; exact agreesOn_loginData_iff
  | @use user ctx' m hs hreq hgrant hinfo =>
    rw [hreq]
    refine iff_of_true ?_ ?_
    · intro _ _
      exact IntMap.get_insert_self _ _ _
    · intro user' hs'
      obtain rfl := Option.some.inj (hs.symm.trans hs')
      exact .inl hgrant
  | @unauthorized cmd hs hcmd =>
    refine iff_of_true (agreesOn_of_no_session hs _) ?_
    split
    · exact absurd rfl hcmd
    · intro user h
      rw [hs] at h
      cases h
    · trivial
  | @refused cmd user e b hs hb hquery hcreate huse =>
    rcases eq_or_ne cmd .use with rfl | hne
    · rcases hreq : requestedContext f.2 with - | ctx'
      · exact iff_of_true (hsame rfl rfl) fun user' hs' ↦ .inr (hsame rfl rfl user' hs')
      -- a refused `/use` stores nothing, so it must have asked for what is stored
      · refine forall_congr' fun user' ↦ forall_congr' fun hs' ↦ ?_
        obtain rfl := Option.some.inj (hs.symm.trans hs')
        have hnot : ¬ Grants data user ctx' := fun hgrant ↦ huse rfl ⟨ctx', hreq, hgrant⟩
        exact (or_iff_right hnot).symm
    · have hnext : (match some cmd with
          | some .use => (requestedContext f.2).getD ctx
          | _ => ctx) = ctx := by
        split
        · exact absurd (Option.some.inj ‹_›) hne
        · rfl
      rw [hnext]
      refine iff_of_true (hsame rfl rfl) ?_
      split
      · exact absurd (Option.some.inj ‹_›) hquery.1
      · exact absurd (Option.some.inj ‹_›) hne
      · trivial
  | dangling hs hcmd hctx =>
    rcases hcmd with rfl | rfl | rfl <;> exact iff_of_true (hsame rfl rfl) trivial
  | @logout user hs after hafter =>
    refine iff_of_true (agreesOn_of_no_session ?_ _) trivial
    rw [hafter, logoutData, IntMap.get_erase_self]
  | _ => exact iff_of_true (hsame rfl rfl) trivial

end Frames

/-! ### What a creation creates -/

/-- What `CMD_CREATE` creates in a context: the response names the kind, and the resource is
appended where the context points. -/
inductive CreatedIn (host : Host) (user payload : Str) (data : ServerData) (ctx : ClientContext) :
    Response → ServerData → Prop
  | team (hlevel : ctx.level = useNone) :
    CreatedIn host user payload data ctx .teamCreated (addTeam data (newTeam host user payload))
  | channel {team : Team} (hlevel : ctx.level = useTeam) (hteam : ctx.team? data = some team) :
    CreatedIn host user payload data ctx .channelCreated
      (addChannel data ctx (newChannel host payload))
  | thread {channel : Channel} (hlevel : ctx.level = useChannel)
    (hchannel : ctx.channel? data = some channel) :
    CreatedIn host user payload data ctx .threadCreated
      (addThread data ctx (newThread host user payload))
  | reply {thread : Thread} (hlevel : ctx.level = useThread)
    (hthread : ctx.thread? data = some thread) :
    CreatedIn host user payload data ctx .replyCreated
      (addReply data ctx (newReply host user payload))

/-- A creation that succeeds creates in the stored context. -/
theorem Serves.createdIn {host : Host} {fd : Fd} {payload : List UInt8} {data : ServerData}
    {a : Answer} (h : Serves host fd payload data (some .create) a) {r : Response}
    (hr : a.msg.code = .res r) :
    ∃ user ctx, data.sessions[fd]? = some user ∧ data.clientContexts[fd]? = some ctx ∧
      CreatedIn host user payload data ctx r a.data := by
  cases h with
  | createTeam hs hctx hlevel hlen hnew =>
    obtain rfl := ServerCode.res.inj hr
    exact ⟨_, _, hs, hctx, hnew ▸ .team hlevel⟩
  | createChannel hs hctx hlevel hlen hteam hsub hnew =>
    obtain rfl := ServerCode.res.inj hr
    exact ⟨_, _, hs, hctx, hnew ▸ .channel hlevel hteam⟩
  | createThread hs hctx hlevel hlen hteam hsub hchannel hnew =>
    obtain rfl := ServerCode.res.inj hr
    exact ⟨_, _, hs, hctx, hnew ▸ .thread hlevel hchannel⟩
  | createReply hs hctx hlevel hlen hteam hsub hthread hnew =>
    obtain rfl := ServerCode.res.inj hr
    exact ⟨_, _, hs, hctx, hnew ▸ .reply hlevel hthread⟩
  | _ => cases hr

end MyTeams
