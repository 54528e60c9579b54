import MyTeams.Server.Audience
import MyTeams.Server.Siblings

/-!
# Texts for the logging library

Seven of the arguments of the `server_event_*` functions are the char arrays of a record: names,
titles and bodies. The library reads each of them as a C string, up to its first zero byte, while
the handlers fill the array to its last byte when the text is long enough. `logs_terminated_iff` is
the exact condition under which every array that a frame hands over has a zero byte of its own.
-/

namespace MyTeams

open ByteField

/-! ### The arrays -/

/-- The char arrays of a record that a call hands over, as opposed to its uuids. -/
def ServerLog.texts : ServerLog → List Str
  | .userCreated _ name => [name.toList]
  | .teamCreated _ name _ => [name.toList]
  | .channelCreated _ _ name => [name.toList]
  | .threadCreated _ _ _ title body => [title.toList, body.toList]
  | .replyCreated _ _ body => [body.toList]
  | .privateMessageSended _ _ body => [body.toList]
  | .userLoggedIn _ | .userLoggedOut _ | .userSubscribed _ _ | .userUnsubscribed _ _ => []

/-- All arrays that an outcome hands over. -/
def Outcome.texts (o : Outcome) : List Str := o.logged.flatMap ServerLog.texts

/-- **Every array is terminated**: a zero byte ends the text inside the array. -/
def Outcome.Terminated (o : Outcome) : Prop := ∀ text ∈ o.texts, (0 : UInt8) ∈ text

/-- No array at all is handed over. -/
def Outcome.Silent (o : Outcome) : Prop := o.texts = []

/-- The slices of a `CMD_CREATE` payload that become arrays, at the level of the context. -/
def createdTexts (level : UInt8) (payload : List UInt8) : List Str :=
  if level = useThread then [payload.take 512]
  else if level = useChannel then [payload.take 32, (payload.drop 32).take 512]
  else [payload.take 32]

/-- The condition: a text that fills its field, in a request that is accepted. -/
inductive FillsField (fd : Fd) (payload : List UInt8) (data : ServerData) : Option Command → Prop
  /-- The name of a new user is as long as its field, or longer. -/
  | userName (hfind : findUserByName data (cut payload) = none)
      (hfull : 32 ≤ (cut payload).length) : FillsField fd payload data (some .login)
  /-- A creation passes the checks, and a text of its payload fills the field. -/
  | created {user : Str} {ctx : ClientContext} (hpasses : PassesCreate fd payload data user ctx)
      (hfull : ∃ text ∈ createdTexts ctx.level payload, (0 : UInt8) ∉ text) :
      FillsField fd payload data (some .create)
  /-- A private message to a known user has a body that fills the field. -/
  | body {user : Str} {receiver : User} (hs : data.sessions[fd]? = some user)
      (hreceiver : findUserByUuid data (Server.extractSv payload 0 36) = some receiver)
      (hfull : 512 ≤ (cut (Server.extractSv payload 36 512)).length) :
      FillsField fd payload data (some .send)

/-! ### The handlers -/

section Handlers

variable {host : Host} {fd : Fd} {payload : List UInt8} {data : ServerData}

theorem Outcome.Silent.terminated {o : Outcome} (h : o.Silent) : o.Terminated := by
  rw [Terminated, h]
  exact fun text htext ↦ absurd htext List.not_mem_nil

/-- A text without zero bytes, written into a field, is terminated if it is shorter. -/
theorem zero_mem_fill_cut_iff {n : ℕ} {l : Str} :
    (0 : UInt8) ∈ (fill n (cut l)).toList ↔ ¬ n ≤ (cut l).length := by
  rw [zero_mem_fill_iff, or_iff_left fun h ↦ not_mem_cut l (List.mem_of_mem_take h), not_le]

/-- `handle_login` hands over the name of a new user. -/
theorem handleLogin_terminated_iff :
    (handleLogin host fd payload data).Terminated ↔ ¬ FillsField fd payload data (some .login) := by
  rcases hfind : findUserByName data (cut payload) with - | user
  · have htexts : (handleLogin host fd payload data).texts = [(fill 32 (cut payload)).toList] := by
      have hlogged (b : Bool) (user : User) : (ServerLog.userCreated user.uuid user.name ::
          if b then [] else [ServerLog.userLoggedIn user.uuid]).flatMap ServerLog.texts =
            [user.name.toList] := by
        cases b <;> rfl
      rw [Outcome.texts, handleLogin, trimPaddedName, hfind]
      exact hlogged _ _
    rw [Outcome.Terminated, htexts, List.forall_mem_singleton, zero_mem_fill_cut_iff, not_iff_not]
    refine ⟨.userName hfind, fun hfills ↦ ?_⟩
    cases hfills with
    | userName _ hfull => exact hfull
  · refine iff_of_true (Outcome.Silent.terminated ?_) ?_
    · by_cases hon : isUserOnline data user <;>
        simp [Outcome.Silent, Outcome.texts, handleLogin, trimPaddedName, hfind, hon,
          ServerLog.texts]
    · rintro ⟨hnone, -⟩
      rw [hfind] at hnone
      cases hnone

/-- `handle_send` hands over the body. -/
theorem handleSend_terminated_iff :
    (handleSend host fd (Server.extractSv payload 0 36) (Server.extractSv payload 36 512)
      data).Terminated ↔ ¬ FillsField fd payload data (some .send) := by
  constructor
  · rintro hterminated ⟨⟩
    rename_i user receiver hs hreceiver hfull
    have hlength : (Server.extractSv payload 0 36).length = 36 := by
      rw [← str_of_findUserByUuid hreceiver, Uuid.length_str]
    rw [handleSend, withSession_of_some hs, withUuid36_of_length hlength,
      withUser_of_some hreceiver] at hterminated
    exact zero_mem_fill_cut_iff.1 (hterminated _ (List.mem_singleton_self _)) hfull
  · intro hno
    refine withSession_elim (fun _ ↦ Outcome.Silent.terminated rfl) fun user hs ↦
      withUuid36_elim (fun _ ↦ Outcome.Silent.terminated rfl) fun _ ↦
      withUser_elim (Outcome.Silent.terminated rfl) fun receiver hreceiver ↦ ?_
    rintro text htext
    rw [List.mem_singleton.1 htext]
    exact zero_mem_fill_cut_iff.2 fun hfull ↦ hno (.body hs hreceiver hfull)

/-- `handle_create` hands over the texts that it copies out of the payload. -/
theorem PassesCreate.texts_eq {user : Str} {ctx : ClientContext}
    (h : PassesCreate fd payload data user ctx) (hle : ctx.level.toNat ≤ 3)
    (hinfo : (contextInfo data user ctx).isSome) :
    (handleCreate host fd payload data).texts = createdTexts ctx.level payload := by
  have hname (hlen : 32 ≤ payload.length) :
      (payloadField payload 0 32).toList = payload.take 32 :=
    toList_fill_of_le hlen
  refine h.elim (P := fun o ↦ o.texts = createdTexts ctx.level payload) hle hinfo
    (fun h0 hlen ↦ ?_) (fun h1 hlen _ ↦ ?_) (fun h2 hlen _ _ ↦ ?_) fun h3 hlen _ _ ↦ ?_
  · rw [h0]
    exact congrArg (fun l ↦ [l]) (hname (by omega))
  · rw [h1]
    exact congrArg (fun l ↦ [l]) (hname (by omega))
  · rw [h2]
    exact congrArg₂ (fun l l' ↦ [l, l']) (hname (by omega))
      (toList_fill_of_le (n := 512) (by rw [List.length_drop]; omega))
  · rw [h3]
    exact congrArg (fun l ↦ [l]) (toList_fill_of_le (n := 512) hlen)

/-- What does not pass the checks hands over nothing. -/
theorem handleCreate_silent
    (h : ∀ user ctx, ¬ PassesCreate fd payload data user ctx) :
    (handleCreate host fd payload data).Silent := by
  refine withSession_elim (fun _ ↦ rfl) fun user hs ↦
    withContext_elim (fun _ ↦ rfl) fun ctx hctx ↦ ?_
  have hpasses {n : ℕ} (hn : createLength ctx.level = n) (hlen : ¬ payload.length < n)
      (hmember : ctx.level ≠ useNone → ∃ t, ctx.team? data = some t ∧ user ∈ t.memberUuids) :
      False :=
    h user ctx ⟨hs, hctx, hn ▸ not_lt.1 hlen, hmember⟩
  -- below the top level, the checks end with the subscription
  have hinside {n : ℕ} (hn : createLength ctx.level = n) (k : Team → Outcome) :
      (if payload.length < n then Outcome.error data .invalidCommand [] else
        withTeam data ctx.teamUuid.toList [] fun team ↦
        withSubscription data team user (k team)).Silent :=
    ite_elim (fun _ ↦ rfl) fun hlen ↦ withTeam_elim (fun _ ↦ rfl) fun team ht ↦
      withSubscription_elim (fun _ ↦ rfl) fun hsub ↦ (hpasses hn hlen fun _ ↦ ⟨team, ht, hsub⟩).elim
  exact level_elim
    (fun h0 ↦ ite_elim (fun _ ↦ rfl) fun hlen ↦
      (hpasses (congrArg _ h0) hlen fun hne ↦ absurd h0 hne).elim)
    (fun h1 ↦ hinside (congrArg _ h1) _) (fun h2 ↦ hinside (congrArg _ h2) _)
    (fun h3 ↦ hinside (congrArg _ h3) _) fun _ _ _ _ ↦ rfl

/-! ### The handlers that only look -/

/-- Nothing is logged, and the data are kept, but for a context. -/
structure Outcome.Keeps (data : ServerData) (o : Outcome) : Prop where
  logged : o.logged = []
  data : ∃ contexts, o.data = { data with clientContexts := contexts }

theorem Outcome.Keeps.silent {o : Outcome} (h : o.Keeps data) : o.Silent := by
  rw [Silent, texts, h.logged]
  rfl

/-- A refused request. -/
theorem keeps_error {e : Error} {p : List UInt8} : (Outcome.error data e p).Keeps data :=
  ⟨rfl, _, rfl⟩

/-- A request about what the context names. -/
theorem keeps_atContext {ctx : ClientContext} {o : Outcome} {kt : Team → Outcome}
    {kc : Channel → Outcome} {kh : Thread → Outcome} (none : o.Keeps data)
    (team : ∀ t, (kt t).Keeps data) (channel : ∀ c, (kc c).Keeps data)
    (thread : ∀ th, (kh th).Keeps data) :
    Outcome.Keeps data
      (if ctx.level = useNone then o
      else if ctx.level = useTeam then withTeam data ctx.teamUuid.toList [] kt
      else if ctx.level = useChannel then
        withTeam data ctx.teamUuid.toList [] fun t ↦
        withChannel data t ctx.channelUuid.toList [] kc
      else if ctx.level = useThread then
        withTeam data ctx.teamUuid.toList [] fun t ↦
        withChannel data t ctx.channelUuid.toList [] fun c ↦
        withThread data c ctx.threadUuid.toList [] kh
      else Outcome.error data .invalidCommand []) :=
  level_elim (fun _ ↦ none) (fun _ ↦ withTeam_elim (fun _ ↦ keeps_error) fun t _ ↦ team t)
    (fun _ ↦ withTeam_elim (fun _ ↦ keeps_error) fun _ _ ↦
      withChannel_elim (fun _ ↦ keeps_error) fun c _ ↦ channel c)
    (fun _ ↦ withTeam_elim (fun _ ↦ keeps_error) fun _ _ ↦
      withChannel_elim (fun _ ↦ keeps_error) fun _ _ ↦
      withThread_elim (fun _ ↦ keeps_error) fun th _ ↦ thread th)
    fun _ _ _ _ ↦ keeps_error

/-- `handle_use` stores a context, or refuses it. -/
theorem handleUse_keeps : (handleUse fd payload data).Keeps data := by
  refine withSession_elim (fun _ ↦ keeps_error) fun user _ ↦ ?_
  rcases payload with - | ⟨level, rest⟩
  · exact keeps_error
  · exact level_elim (fun _ ↦ ⟨rfl, _, rfl⟩)
      (fun _ ↦ ite_elim (fun _ ↦ keeps_error) fun _ ↦
        withTeam_elim (fun _ ↦ keeps_error) fun _ _ ↦
        withSubscription_elim (fun _ ↦ keeps_error) fun _ ↦ ⟨rfl, _, rfl⟩)
      (fun _ ↦ ite_elim (fun _ ↦ keeps_error) fun _ ↦
        withTeam_elim (fun _ ↦ keeps_error) fun _ _ ↦
        withSubscription_elim (fun _ ↦ keeps_error) fun _ ↦
        withChannel_elim (fun _ ↦ keeps_error) fun _ _ ↦ ⟨rfl, _, rfl⟩)
      (fun _ ↦ ite_elim (fun _ ↦ keeps_error) fun _ ↦
        withTeam_elim (fun _ ↦ keeps_error) fun _ _ ↦
        withSubscription_elim (fun _ ↦ keeps_error) fun _ ↦
        withChannel_elim (fun _ ↦ keeps_error) fun _ _ ↦
        withThread_elim (fun _ ↦ keeps_error) fun _ _ ↦ ⟨rfl, _, rfl⟩)
      fun _ _ _ _ ↦ keeps_error

/-- **Seven commands only look at the data.** -/
theorem handle_keeps {cmd : Command}
    (h : cmd ∈ [Command.users, .user, .messages, .subscribed, .use, .list, .info]) :
    (Server.handle host fd cmd payload data).Keeps data := by
  cases cmd with
  | users => exact ite_elim (fun _ ↦ keeps_error) fun _ ↦ ⟨rfl, _, rfl⟩
  | user =>
    exact ite_elim (fun _ ↦ keeps_error) fun _ ↦ withUuid36_elim (fun _ ↦ keeps_error) fun _ ↦
      withUser_elim keeps_error fun _ _ ↦ ⟨rfl, _, rfl⟩
  | messages =>
    exact withSession_elim (fun _ ↦ keeps_error) fun _ _ ↦
      withUuid36_elim (fun _ ↦ keeps_error) fun _ ↦
      withUser_elim keeps_error fun _ _ ↦ ⟨rfl, _, rfl⟩
  | subscribed =>
    refine ite_elim (fun _ ↦ ?_) fun _ ↦
      withSession_elim (fun _ ↦ keeps_error) fun _ _ ↦ ⟨rfl, _, rfl⟩
    exact withSession_elim (fun _ ↦ keeps_error) fun _ _ ↦
      withUuid36_elim (fun _ ↦ keeps_error) fun _ ↦
      withTeam_elim (fun _ ↦ keeps_error) fun _ _ ↦
      withSubscription_elim (fun _ ↦ keeps_error) fun _ ↦ ⟨rfl, _, rfl⟩
  | use => exact handleUse_keeps
  | list | info =>
    exact withSession_elim (fun _ ↦ keeps_error) fun _ _ ↦
      withContext_elim (fun _ ↦ keeps_error) fun _ _ ↦
      keeps_atContext ⟨rfl, _, rfl⟩ (fun _ ↦ ⟨rfl, _, rfl⟩) (fun _ ↦ ⟨rfl, _, rfl⟩)
        fun _ ↦ ⟨rfl, _, rfl⟩
  | login | logout | send | subscribe | unsubscribe | create => simp at h

/-- The other handlers hand over uuids only. -/
theorem handle_silent {cmd : Command} (h : cmd ∉ [Command.login, .create, .send]) :
    (Server.handle host fd cmd payload data).Silent := by
  cases cmd with
  | login | create | send => simp at h
  | logout =>
    exact withSession_elim (fun _ ↦ rfl) fun _ _ ↦ ite_elim (fun _ ↦ rfl) fun _ ↦ rfl
  | subscribe =>
    exact withSession_elim (fun _ ↦ rfl) fun _ _ ↦
      withUuid36_elim (fun _ ↦ rfl) fun _ ↦ withTeam_elim (fun _ ↦ rfl) fun _ _ ↦
      ite_elim (fun _ ↦ rfl) fun _ ↦ rfl
  | unsubscribe =>
    exact withSession_elim (fun _ ↦ rfl) fun _ _ ↦
      withUuid36_elim (fun _ ↦ rfl) fun _ ↦ withTeam_elim (fun _ ↦ rfl) fun _ _ ↦
      withSubscription_elim (fun _ ↦ rfl) fun _ ↦ rfl
  | users | user | messages | subscribed | use | list | info =>
    exact (handle_keeps (by decide)).silent

/-- `handle_create`, in a state whose contexts can be shown. -/
theorem handleCreate_terminated_iff
    (hshows : ∀ user ctx, PassesCreate fd payload data user ctx →
      ctx.level.toNat ≤ 3 ∧ (contextInfo data user ctx).isSome) :
    (handleCreate host fd payload data).Terminated ↔
    ¬ FillsField fd payload data (some .create) := by
  by_cases hpasses : ∃ user ctx, PassesCreate fd payload data user ctx
  · obtain ⟨user, ctx, hpasses⟩ := hpasses
    obtain ⟨hle, hinfo⟩ := hshows user ctx hpasses
    rw [Outcome.Terminated, hpasses.texts_eq hle hinfo]
    constructor
    · rintro hall ⟨⟩
      rename_i user' ctx' hpasses' hfull
      obtain rfl : ctx = ctx' := Option.some.inj (hpasses.context.symm.trans hpasses'.context)
      obtain ⟨text, htext, hzero⟩ := hfull
      exact hzero (hall text htext)
    · intro hno text htext
      by_contra hzero
      exact hno (.created hpasses ⟨text, htext, hzero⟩)
  · push Not at hpasses
    refine iff_of_true (handleCreate_silent hpasses).terminated ?_
    rintro ⟨⟩
    rename_i user ctx hpasses' _
    exact hpasses user ctx hpasses'

/-- Only a login can fill a field without a session. -/
theorem FillsField.session {cmd : Option Command} (h : FillsField fd payload data cmd)
    (hs : data.sessions[fd]? = none) : cmd = some .login := by
  cases h with
  | userName => rfl
  | created hpasses =>
    have hsome := hpasses.session
    rw [hs] at hsome
    cases hsome
  | body hsome =>
    rw [hs] at hsome
    cases hsome

end Handlers

/-! ### The law -/

namespace Server

variable {host : ℕ → Host} {s : Server}

/-- **When the logging library is given terminated texts.** In every reachable state, a frame hands
over arrays that all have a zero byte of their own exactly when it does not store a text that fills
its field: a login under a new name of 32 bytes or more, a creation whose name, title or body has no
zero byte in its slice of the payload, or a private message with a body of 512 bytes. -/
theorem logs_terminated_iff (h : Reachable host s) (fd : Fd) (cmd : UInt16) (payload : List UInt8) :
    (frameOutcome (host s.served) fd cmd payload s.data).Terminated ↔
      ¬ FillsField fd payload s.data (Command.ofCode? cmd) := by
  rw [frameOutcome]
  split_ifs with hrefuse
  · refine iff_of_true (Outcome.Silent.terminated rfl) fun hfills ↦ hrefuse.2 ?_
    exact (Command.code_of_ofCode? (hfills.session hrefuse.1)).symm
  rcases Command.ofCode? cmd with - | c
  · exact iff_of_true (Outcome.Silent.terminated rfl) fun hfills ↦ by cases hfills
  by_cases hc : c ∈ [Command.login, .create, .send]
  · simp only [List.mem_cons, List.not_mem_nil, or_false] at hc
    rcases hc with rfl | rfl | rfl
    · show (handleLogin _ fd (extractSv payload 0 payload.length) s.data).Terminated ↔ _
      rw [extractSv_whole]
      exact handleLogin_terminated_iff
    · show (handleCreate _ fd (extractSv payload 0 payload.length) s.data).Terminated ↔ _
      rw [extractSv_whole]
      refine handleCreate_terminated_iff fun user ctx hpasses ↦ ?_
      obtain ⟨ctx', hctx', hinfo⟩ := h.exists_context hpasses.session
      obtain rfl := Option.some.inj (hpasses.context.symm.trans hctx')
      exact ⟨h.dataContexts.level fd ctx hctx', hinfo⟩
    · exact handleSend_terminated_iff
  · refine iff_of_true (handle_silent hc).terminated ?_
    rintro ⟨⟩ <;> simp at hc

/-- A name of 31 bytes is terminated, since its field has 32. -/
theorem logs_terminated_iff_name31 :
    (frameOutcome (plainHost 0) 4 Command.login.code (List.replicate 31 97)
      Server.init.data).Terminated := by
  refine (logs_terminated_iff Reachable.init 4 Command.login.code (List.replicate 31 97)).2 ?_
  rintro ⟨⟩
  rename_i _ hfull
  exact absurd hfull (by decide +kernel)

/-- A name of 32 bytes is not. -/
theorem not_terminated_name32 : ¬ ∀ s fd cmd payload, Reachable plainHost s →
    s.Enabled (.frame fd cmd payload) →
      (frameOutcome (plainHost s.served) fd cmd payload s.data).Terminated := by
  intro hall
  let name : List UInt8 := List.replicate 32 97
  let s := execute plainHost [.accept 4, .receive 4 (makeMessage Command.login.code name)]
    Server.init
  have hterminated := hall s 4 Command.login.code name (reachable_execute (by decide +kernel))
    (by decide +kernel)
  have htexts : (frameOutcome (plainHost s.served) 4 Command.login.code name s.data).texts =
      [name] := by
    decide +kernel
  have hzero := hterminated name (htexts ▸ List.mem_singleton_self name)
  exact absurd hzero (by decide)

end Server

end MyTeams
