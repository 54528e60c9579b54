import MyTeams.Server.History
import MyTeams.Server.Tree

/-!
# What is listed is what was created

`CMD_CREATE` and `CMD_LIST` meet in the tree of resources: a creation appends a leaf at the path of
the stored context, a list reads the leaves there. Every other operation leaves the tree alone, so
along a run the listing of a context is the log of the creations in it (`Reachable.listing_eq`),
byte for byte.

Uuids are not assumed to be fresh: both handlers resolve a context by the same first-match searches.
-/

namespace MyTeams

open FirstMatch Forest ByteField FrameStream

/-! ### Contexts are determined by their paths -/

theorem length_path {ctx : ClientContext} (h : ctx.level.toNat ≤ 3) :
    ctx.path.length = ctx.level.toNat := by
  rw [ClientContext.path, List.length_take]
  exact Nat.min_eq_left h

/-- The uuids of a stored context are its path, padded with zeros. -/
theorem uuids_eq_path {data : ServerData} {ctx : ClientContext} (h : ctx.Resolved data)
    (hle : ctx.level.toNat ≤ 3) :
    [ctx.teamUuid.toList, ctx.channelUuid.toList, ctx.threadUuid.toList] =
      ctx.path.takeD 3 (zeros 36).toList := by
  rcases level_cases hle with h0 | h1 | h2 | h3
  · rw [path_of_none h0, h.noTeam (by rw [h0]; decide), h.noChannel (by rw [h0]; decide),
      h.noThread (by rw [h0]; decide)]
    rfl
  · rw [path_of_team h1, h.noChannel (by rw [h1]; decide), h.noThread (by rw [h1]; decide)]
    rfl
  · rw [path_of_channel h2, h.noThread (by rw [h2]; decide)]
    rfl
  · rw [path_of_thread h3]
    rfl

/-- Stored contexts with the same path are the same. -/
theorem eq_of_path_eq {data data' : ServerData} {ctx ctx' : ClientContext} (h : ctx.Resolved data)
    (h' : ctx'.Resolved data') (hle : ctx.level.toNat ≤ 3) (hle' : ctx'.level.toNat ≤ 3)
    (hpath : ctx.path = ctx'.path) : ctx = ctx' := by
  have hlevel : ctx.level = ctx'.level := by
    have hlength := congrArg List.length hpath
    rw [length_path hle, length_path hle'] at hlength
    exact UInt8.toNat_inj.1 hlength
  have huuids := uuids_eq_path h hle
  rw [hpath, ← uuids_eq_path h' hle'] at huuids
  simp only [List.cons.injEq, and_true] at huuids
  obtain ⟨hteam, hchannel, hthread⟩ := huuids
  obtain ⟨level, team, channel, thread⟩ := ctx
  obtain ⟨level', team', channel', thread'⟩ := ctx'
  obtain rfl : level = level' := hlevel
  obtain rfl : team = team' := List.Vector.eq _ _ hteam
  obtain rfl : channel = channel' := List.Vector.eq _ _ hchannel
  obtain rfl : thread = thread' := List.Vector.eq _ _ hthread
  rfl

/-! ### The log of creations -/

namespace Dispatch

/-- The frame was a `CMD_CREATE` in the context `ctx`, answered by a success response. -/
def CreatesIn (ctx : ClientContext) (d : Dispatch) : Prop :=
  d.data.clientContexts[d.fd]? = some ctx ∧ Command.ofCode? d.cmd = some .create ∧
    ∃ r ∈ createdResponses, d.response.code = r.code

instance (ctx : ClientContext) (d : Dispatch) : Decidable (d.CreatesIn ctx) :=
  inferInstanceAs (Decidable (_ ∧ _ ∧ _))

/-- The record bytes that the response carries after its header. -/
def recordBytes (d : Dispatch) : List UInt8 := d.response.bytes.drop headerSize

end Dispatch

/-- The records returned by the creations in a context, oldest first. -/
def creationsIn (ctx : ClientContext) (ds : List Dispatch) : List (List UInt8) :=
  (ds.filter fun d ↦ d.CreatesIn ctx).map Dispatch.recordBytes

/-- What the record of a creation is made of: the new uuid, or the thread's, the creator and the
time, and the text fields, which are the payload up to the length asked for. -/
def createdRecord (d : Dispatch) (user : Str) (ctx : ClientContext) : List UInt8 :=
  if ctx.level = useNone ∨ ctx.level = useTeam then
    d.host.newUuid.str ++ d.payload.take (32 + 255)
  else if ctx.level = useChannel then
    d.host.newUuid.str ++ user ++ be64 d.host.time ++ d.payload.take (32 + 512)
  else ctx.threadUuid.toList ++ user ++ be64 d.host.time ++ d.payload.take 512

theorem toList_payloadField {p : Str} {offset size : ℕ} (h : offset + size ≤ p.length) :
    (payloadField p offset size).toList = (p.drop offset).take size := by
  refine toList_fill_of_le ?_
  rw [List.length_drop]
  omega

/-- The text fields of a record are the payload, cut into fields. -/
theorem payloadFields_append {p : Str} {m n : ℕ} (h : m + n ≤ p.length) :
    (payloadField p 0 m).toList ++ (payloadField p m n).toList = p.take (m + n) := by
  rw [toList_payloadField (by omega), toList_payloadField h, List.drop_zero, List.take_add]

/-- The body of a creation. -/
theorem bytes_newResource {host : Host} {fd : Fd} {payload : List UInt8} {data : ServerData}
    {a : Answer} {user : Str} {ctx : ClientContext} (h : Creates host fd payload data a user ctx)
    (huser : user.length = 36) (cmd : UInt16) :
    ((newResource host user payload ctx.level).body ctx.threadUuid).bytes =
      createdRecord ⟨host, fd, cmd, payload, data⟩ user ctx := by
  have hlevel := h.level
  have hlength := h.length
  simp only [List.mem_cons, List.not_mem_nil, or_false] at hlevel
  rcases hlevel with h0 | h1 | h2 | h3
  · rw [h0] at hlength ⊢
    rw [createdRecord, if_pos (Or.inl h0)]
    show host.newUuid.str ++ (payloadField payload 0 32).toList ++
      (payloadField payload 32 255).toList = host.newUuid.str ++ payload.take (32 + 255)
    rw [List.append_assoc, payloadFields_append hlength]
  · rw [h1] at hlength ⊢
    rw [createdRecord, if_pos (Or.inr h1)]
    show host.newUuid.str ++ (payloadField payload 0 32).toList ++
      (payloadField payload 32 255).toList = host.newUuid.str ++ payload.take (32 + 255)
    rw [List.append_assoc, payloadFields_append hlength]
  · rw [h2] at hlength ⊢
    rw [createdRecord, h2, if_neg (by decide), if_pos rfl]
    show host.newUuid.str ++ (fill 36 user).toList ++ be64 host.time ++
        (payloadField payload 0 32).toList ++ (payloadField payload 32 512).toList =
      host.newUuid.str ++ user ++ be64 host.time ++ payload.take (32 + 512)
    rw [List.append_assoc _ _ (payloadField payload 32 512).toList, payloadFields_append hlength,
      toList_fill_of_length huser]
  · rw [h3] at hlength ⊢
    have hfit : 0 + 512 ≤ payload.length := hlength
    rw [createdRecord, h3, if_neg (by decide), if_neg (by decide)]
    show ctx.threadUuid.toList ++ (fill 36 user).toList ++ be64 host.time ++
        (payloadField payload 0 512).toList =
      ctx.threadUuid.toList ++ user ++ be64 host.time ++ payload.take 512
    rw [toList_payloadField hfit, toList_fill_of_length huser, List.drop_zero]

namespace Server

variable {host : ℕ → Host} {s : Server}

/-- A frame creates in a context exactly when its answer is a creation there. -/
theorem createsIn_iff {d : Dispatch} {a : Answer}
    (ha : Serves d.host d.fd d.payload d.data (Command.ofCode? d.cmd) a)
    (hresult : d.outcome.result = a.result) (ctx : ClientContext) :
    d.CreatesIn ctx ↔ ∃ user, Creates d.host d.fd d.payload d.data a user ctx := by
  have hcode : d.response.code = a.msg.code.code :=
    congrArg (fun r : Result ↦ r.response.code) hresult
  constructor
  · rintro ⟨hctx, -, r, hr, hres⟩
    rcases ha.forest with ⟨-, user, ctx', hcreates⟩ | ⟨-, hnot⟩
    · obtain rfl := Option.some.inj (hctx.symm.trans hcreates.context)
      exact ⟨user, hcreates⟩
    · have hmsg : a.msg.code.code = (ServerCode.res r).code := hcode.symm.trans hres
      exact absurd (ServerCode.code_injective hmsg) (hnot r hr)
  · rintro ⟨user, hcreates⟩
    rcases ha.forest with ⟨hcmd, -⟩ | ⟨-, hnot⟩
    · exact ⟨hcreates.context, hcmd, _, createdResponse_mem ctx.level,
        hcode.trans (congrArg (fun m : Msg ↦ m.code.code) hcreates.msg)⟩
    · exact absurd (congrArg Msg.code hcreates.msg) (hnot _ (createdResponse_mem ctx.level))

/-- The record of a creation is the body of its answer. -/
theorem recordBytes_eq {a : Answer} {d : Dispatch} (hresult : d.outcome.result = a.result) :
    d.recordBytes = a.msg.body.bytes := by
  rw [Dispatch.recordBytes, Dispatch.response, hresult]
  exact drop_headerSize _ _

/-- A frame adds its record to the listing of a stored context if it creates there, and otherwise
nothing. -/
theorem listing_frame (hs : Reachable host s) {data : ServerData} {ctx : ClientContext}
    (hctx : ctx.Resolved data) (hle : ctx.level.toNat ≤ 3) (fd : Fd) (cmd : UInt16)
    (payload : List UInt8) :
    let d : Dispatch := ⟨host s.served, fd, cmd, payload, s.data⟩
    (listing Resource.key ctx.path d.outcome.data.forest).map
        (fun r ↦ (r.body ctx.threadUuid).bytes) =
      (listing Resource.key ctx.path s.data.forest).map (fun r ↦ (r.body ctx.threadUuid).bytes) ++
        if d.CreatesIn ctx then [d.recordBytes] else [] := by
  intro d
  obtain ⟨a, hserves, hdata, hresult⟩ := d.realizes hs.sessionsWf
  rw [hdata]
  by_cases hcreates : d.CreatesIn ctx
  · obtain ⟨user, hnew⟩ := (createsIn_iff hserves hresult ctx).1 hcreates
    rw [if_pos hcreates, hnew.forest, listing_insertAt hnew.place, if_pos (beq_self_eq_true _),
      List.map_append, List.map_singleton, recordBytes_eq hresult, hnew.msg]
  · rw [if_neg hcreates, List.append_nil]
    rcases hserves.forest with ⟨-, user, ctx', hnew⟩ | ⟨hsame, -⟩
    · have hne : ctx'.path ≠ ctx.path := by
        intro hpath
        have hctx' := hs.dataContexts.resolved fd ctx' hnew.context
        have hle' := hs.dataContexts.level fd ctx' hnew.context
        obtain rfl := eq_of_path_eq hctx' hctx hle' hle hpath
        exact hcreates ((createsIn_iff hserves hresult ctx').2 ⟨user, hnew⟩)
      rw [hnew.forest, listing_insertAt hnew.place, if_neg (by simpa using hne), List.append_nil]
    · rw [hsame]

/-- **The listing of a stored context is the log of its creations.** -/
theorem Reachable.listing_eq (h : Reachable host s) {fd : Fd} {ctx : ClientContext}
    (hctx : s.data.clientContexts[fd]? = some ctx) :
    (listing Resource.key ctx.path s.data.forest).map (fun r ↦ (r.body ctx.threadUuid).bytes) =
      creationsIn ctx (dispatches host s.trace) := by
  refine h.log (g := fun data ↦ (listing Resource.key ctx.path data.forest).map
    fun r ↦ (r.body ctx.threadUuid).bytes) (p := fun d ↦ d.CreatesIn ctx) (f :=
      Dispatch.recordBytes)
    ?_ (fun _ _ _ ↦ rfl) fun fd cmd payload hs ↦ ?_
  · simp [ServerData.forest, ServerData.init]
  · exact listing_frame hs (h.dataContexts.resolved _ ctx hctx) (h.dataContexts.level _ ctx hctx)
      fd cmd payload

/-- What a creation in a run returned. -/
theorem Reachable.recordBytes_eq_createdRecord (h : Reachable host s) {ctx : ClientContext}
    {d : Dispatch} (hd : d ∈ dispatches host s.trace) (hcreates : d.CreatesIn ctx) :
    ∃ user, d.data.sessions[d.fd]? = some user ∧ d.recordBytes = createdRecord d user ctx := by
  obtain ⟨s', fd, cmd, payload, hs', rfl⟩ := h.exists_of_dispatch hd
  obtain ⟨a, hserves, -, hresult⟩ :=
    Dispatch.realizes (d := ⟨host s'.served, fd, cmd, payload, s'.data⟩) hs'.sessionsWf
  obtain ⟨user, hnew⟩ := (createsIn_iff hserves hresult ctx).1 hcreates
  refine ⟨user, hnew.session, ?_⟩
  rw [recordBytes_eq hresult, hnew.msg]
  exact bytes_newResource hnew (hs'.sessionsWf _ _ hnew.session) cmd

/-- For a logged-in connection `CMD_LIST` is answered with the listing of its stored context. -/
theorem Reachable.list_answer (h : Reachable host s) {fd : Fd} {cmd : UInt16} {payload : List UInt8}
    {user : Str} (hcmd : Command.ofCode? cmd = some .list)
    (hs : s.data.sessions[fd]? = some user) {a : Answer}
    (ha : Serves (host s.served) fd payload s.data (Command.ofCode? cmd) a) :
    ∃ ctx, s.data.clientContexts[fd]? = some ctx ∧ a.msg.code = .res (listResponse ctx.level) ∧
      a.msg.body.bytes = listBytes (fun r ↦ (r.body ctx.threadUuid).bytes)
        (listing Resource.key ctx.path s.data.forest) := by
  rw [hcmd] at ha
  cases ha with
  | unauthorized hno => rw [hs] at hno; cases hno
  | refused _ _ hquery => simp at hquery
  | dangling hs' _ hctx =>
    obtain rfl := Option.some.inj (hs.symm.trans hs')
    exact absurd hctx (h.not_dangling hs)
  | list _ hctx hlist => exact ⟨_, hctx, contextList_code hlist, bytes_contextList hlist⟩

/-- **The log law of `CMD_CREATE` and `CMD_LIST`.** A logged-in connection has a context, and its
`CMD_LIST` is answered, under the list code of that level, with the number and then the bytes of the
records that all creations in that context have returned, in order. Each of these was the answer
queued to the connection that created, and consists of the new uuid (or the thread's), the uuid of
the session's user and the time where the record has them, and the payload bytes of the text
fields. -/
theorem create_list_log (h : Reachable host s) {fd : Fd} {cmd : UInt16} {payload : List UInt8}
    {user : Str} (ha : s.Enabled (.frame fd cmd payload)) (hcmd : Command.ofCode? cmd = some .list)
    (hs : s.data.sessions[fd]? = some user) :
    ∃ ctx, s.data.clientContexts[fd]? = some ctx ∧
      newMessages fd s (perform host (.frame fd cmd payload) s) =
        [makeMessage (listResponse ctx.level).code
          (be32 (UInt32.ofNat (creationsIn ctx (dispatches host s.trace)).length) ++
            (creationsIn ctx (dispatches host s.trace)).flatten)] ∧
      ∀ d ∈ dispatches host s.trace, d.CreatesIn ctx →
        d.response.bytes ∈ answersOn d.fd s.trace ∧
          ∃ u, d.data.sessions[d.fd]? = some u ∧ d.recordBytes = createdRecord d u ctx := by
  obtain ⟨c, rest, hc, -⟩ := ha
  have hfd : s.clients.contains fd = true := (IntMap.contains_iff _).2 ⟨c, hc⟩
  obtain ⟨a, hserves, -, hqueue⟩ := @exists_answer_frame host s h.sessionsWf fd hfd cmd payload
  obtain ⟨ctx, hctx, hcode, hbytes⟩ := h.list_answer hcmd hs hserves
  refine ⟨ctx, hctx, ?_, fun d hd hcreates ↦ ⟨?_, h.recordBytes_eq_createdRecord hd hcreates⟩⟩
  · have hlog := h.listing_eq hctx
    rw [newMessages_of_append (hqueue fd), if_pos hfd, Answer.messagesTo, if_pos rfl,
      List.map_singleton, Msg.bytes, Msg.packet, hcode, hbytes, listBytes, ← hlog, List.length_map]
    rfl
  · rw [h.answersOn_eq]
    exact List.mem_map_of_mem (List.mem_filter.2 ⟨hd, decide_eq_true rfl⟩)

/-- A login, a team, and a list on its way. -/
def createThenList : List Action :=
  .accept 4 :: request 4 .login [0x61] ++ request 4 .create (List.replicate 287 0x62) ++
    [.receive 4 (makeMessage Command.list.code [])]

/-- The list holds the team. -/
theorem create_list_log_createThenList :
    newMessages 4 (execute plainHost createThenList Server.init)
        (perform plainHost (.frame 4 Command.list.code [])
          (execute plainHost createThenList Server.init)) =
      [makeMessage Response.listTeams.code
        (be32 1 ++ ((plainUuid 1).str ++ List.replicate 287 0x62))] := by
  have hreachable : Reachable plainHost (execute plainHost createThenList Server.init) :=
    reachable_execute (by decide +kernel)
  have hframe : (execute plainHost createThenList Server.init).Enabled
      (.frame 4 Command.list.code []) := by decide +kernel
  have hsession : (execute plainHost createThenList Server.init).data.sessions[(4 : Fd)]? =
      some (plainUuid 0).str := by decide +kernel
  have hcontext : (execute plainHost createThenList Server.init).data.clientContexts[(4 : Fd)]? =
      some ClientContext.init := by decide +kernel
  have hlog : creationsIn ClientContext.init
      (dispatches plainHost (execute plainHost createThenList Server.init).trace) =
        [(plainUuid 1).str ++ List.replicate 287 0x62] := by decide +kernel
  obtain ⟨ctx, hctx, hlist, -⟩ :=
    create_list_log hreachable hframe (Command.ofCode?_code .list) hsession
  obtain rfl := Option.some.inj (hcontext.symm.trans hctx)
  rw [hlist, hlog, List.flatten_singleton, List.length_singleton]
  rfl

end Server

end MyTeams
