import MyTeams.Server.Effects
import MyTeams.Server.Places
import MyTeams.Server.Sizes

/-!
# How much a server can store before a header lies

The payload size of a list response has to fit into the 32 bits of its header, and nothing in the
handlers sees to it. But a frame adds at most one thing to what is stored and one member to a team,
so what is stored is bounded by the number of frames dispatched (`Reachable.within`). As long as
that number is at most `capacity`, every header is exact and the bytes queued to a connection are
the messages, one after the other, for whoever reads them (`parse_of_capacity`).
-/

namespace MyTeams

open FirstMatch Forest FrameStream

/-- So many of the longest records, and no more, fit into one list: a thread has 624 bytes, and the
count before them 4. -/
def capacity : ℕ := (2 ^ 32 - 1 - 4) / 624

/-! ### How much is stored -/

/-- At most `n` things are stored, and no team has more than `n` members. -/
structure ServerData.Within (n : ℕ) (data : ServerData) : Prop where
  size : data.size ≤ n
  members : ∀ t ∈ data.teams, t.memberUuids.length ≤ n

namespace ServerData.Within

variable {n : ℕ} {data : ServerData}

theorem users (h : data.Within n) : data.users.length ≤ n := by
  have := h.size
  rw [ServerData.size] at this
  omega

theorem messages (h : data.Within n) : data.messages.length ≤ n := by
  have := h.size
  rw [ServerData.size] at this
  omega

theorem forest (h : data.Within n) : Forest.size data.forest ≤ n := by
  have := h.size
  rw [ServerData.size] at this
  omega

theorem teams (h : data.Within n) : data.teams.length ≤ n := by
  have hlength := length_le_size data.forest
  rw [ServerData.forest, List.length_map] at hlength
  exact hlength.trans h.forest

end ServerData.Within

/-! ### What a change adds -/

theorem Change.members {fd : Fd} {payload : List UInt8} {data after : ServerData}
    {cmd : Option Command} (h : Change fd payload data cmd after) {n : ℕ}
    (hn : ∀ t ∈ data.teams, t.memberUuids.length ≤ n) :
    ∀ t ∈ after.teams, t.memberUuids.length ≤ n + 1 := by
  have hsame : ∀ t ∈ data.teams, t.memberUuids.length ≤ n + 1 := fun t ht ↦
    (hn t ht).trans (Nat.le_succ n)
  cases h with
  | addMember =>
    refine forall_teams_updateTeam hsame fun t ht _ ↦ ?_
    rw [List.length_append, List.length_singleton]
    exact Nat.succ_le_succ (hn t ht)
  | removeMember =>
    exact forall_teams_updateTeam hsame fun t ht _ ↦ List.length_erase_le.trans (hsame t ht)
  | @addTeam user team _ hmembers =>
    intro t ht
    rcases List.mem_append.1 ht with ht | ht
    · exact hsame t ht
    · rw [List.mem_singleton.1 ht, hmembers]
      exact Nat.succ_le_succ (Nat.zero_le n)
  | addChannel | addThread | addReply => exact forall_teams_updateTeam hsame fun t ht _ ↦ hsame t ht
  | _ => exact hsame

/-! ### What is listed -/

/-- The longest records are threads. -/
theorem Body.length_le (b : Body) : b.layout.length b.count ≤ 4 + max 1 b.count * 624 := by
  cases b <;> simp [Body.layout, Body.count, Layout.length] <;> omega

theorem length_lt_of_capacity {n w : ℕ} (hn : n ≤ capacity) (hw : w ≤ 624) :
    4 + n * w < 2 ^ 32 := by
  have hcapacity : capacity * 624 ≤ 2 ^ 32 - 1 - 4 := Nat.div_mul_le_self _ _
  have hmul : n * w ≤ capacity * 624 := Nat.mul_le_mul hn hw
  omega

/-- What a context lists is part of what is stored. -/
theorem count_contextList {data : ServerData} {ctx : ClientContext} {m : Msg}
    (h : contextList data ctx = some m) : m.body.count ≤ Forest.size data.forest := by
  obtain ⟨g, hg, htexts⟩ := childrenAt_of_contextList h
  have hlength : m.body.count = g.length := by
    have hcount : m.body.texts.length = m.body.count := by
      rw [contextList] at h
      split_ifs at h
      · rw [← Option.some.inj h]
        exact List.length_map _
      all_goals
        obtain ⟨x, -, rfl⟩ := Option.map_eq_some_iff.1 h
        exact List.length_map _
    rw [← hcount, htexts, List.length_map, List.length_map]
  rw [hlength]
  exact Nat.le_trans (length_le_size g) (size_childrenAt_le hg)

/-- **Lists fit** as long as no more than `capacity` things are stored. -/
theorem ServerData.Within.listsFit {n : ℕ} {data : ServerData} (h : data.Within n)
    (hn : n ≤ capacity) (fd : Fd) (payload : List UInt8) (cmd : Option Command) :
    ListsFit fd payload data cmd := by
  have hle {k : ℕ} (hk : k ≤ n) : k ≤ capacity := hk.trans hn
  rcases cmd with - | cmd
  · trivial
  cases cmd with
  | users => exact length_lt_of_capacity (hle h.users) (by decide)
  | messages =>
    exact fun user _ ↦
      length_lt_of_capacity (hle ((List.length_filter_le _ _).trans h.messages)) (by decide)
  | subscribed =>
    refine ⟨fun user _ ↦ ?_, fun team hteam ↦ ?_⟩
    · exact length_lt_of_capacity (hle ((List.length_filter_le _ _).trans h.teams)) (by decide)
    · exact length_lt_of_capacity (hle (h.members team (mem_teams_of_findTeam hteam))) (by decide)
  | list =>
    intro ctx _ m hm
    have hcount : m.body.count ≤ capacity := hle ((count_contextList hm).trans h.forest)
    refine Nat.lt_of_le_of_lt m.body.length_le (length_lt_of_capacity ?_ (Nat.le_refl _))
    exact Nat.max_le.2 ⟨by decide, hcount⟩
  | _ => trivial

namespace Server

variable {host : ℕ → Host} {s : Server}

/-! ### Along runs -/

theorem within_init : ServerData.init.Within 0 :=
  ⟨Nat.le_refl 0, fun _ ht ↦ absurd ht List.not_mem_nil⟩

/-- **What is stored is bounded by the number of frames dispatched.** -/
theorem Reachable.within (h : Reachable host s) : s.data.Within s.served := by
  refine Reachable.induction (P := fun s ↦ s.data.Within s.served) within_init
    (fun {s a} hs ih _ ↦ ?_) h
  have hquiet (hserved : (perform host a s).served = s.served)
      (hdata : (perform host a s).data = s.data) :
      (perform host a s).data.Within (perform host a s).served := by
    rw [hserved, hdata]
    exact ih
  cases a with
  | frame fd cmd payload =>
    have hserved : (perform host (.frame fd cmd payload) s).served = s.served + 1 :=
      served_perform _
    rw [hserved]
    exact ⟨(effect_perform host hs.sessionsWf _).size.trans (Nat.succ_le_succ ih.size),
      (change_perform hs.sessionsWf _).members ih.members⟩
  | disconnect fd =>
    have hserved : (perform host (.disconnect fd) s).served = s.served := served_perform _
    rw [hserved, perform_disconnect_data]
    rcases hsession : s.data.sessions[fd]? with - | user
    · rw [handleLogout_data_of_none hsession]
      exact ih
    -- a logout marks a user, and stores nothing
    · rw [handleLogout_data_of_some hsession]
      refine ⟨?_, ih.members⟩
      rw [ServerData.size, length_users, identities_logout, ← length_users]
      exact ih.size
  | accept | receive | write => exact hquiet rfl rfl

theorem Reachable.listsFit (h : Reachable host s) (hserved : s.served ≤ capacity) (fd : Fd)
    (payload : List UInt8) (cmd : Option Command) : ListsFit fd payload s.data cmd :=
  h.within.listsFit hserved fd payload cmd

/-- What happened since a descriptor was accepted is the end of what happened. -/
theorem sinceAccept_suffix (fd : Fd) (trace : List Observation) :
    sinceAccept fd trace <:+ trace := by
  induction trace using List.reverseRecOn with
  | nil => exact List.suffix_refl []
  | append_singleton t o ih =>
    rcases eq_or_ne o (.accepted fd) with rfl | ho
    · rw [sinceAccept_append_accepted, if_pos rfl]
      exact List.nil_suffix
    · rw [sinceAccept_append fun o' ho' ↦ List.mem_singleton.1 ho' ▸ ho]
      exact List.suffix_append_self_iff.2 ih

theorem mem_queuedOn_of_sinceAccept {d : Fd} {trace : List Observation} {b : List UInt8}
    (h : b ∈ queuedOn d (sinceAccept d trace)) : b ∈ queuedOn d trace :=
  ((sinceAccept_suffix d trace).sublist.filterMap _).subset h

/-- The header of a message says how long its payload is. -/
def HeaderExact (b : List UInt8) : Prop :=
  ∃ f : Frame, b = f.bytes ∧ f.2.length < 2 ^ 32

theorem served_le_perform (a : Action) : s.served ≤ (perform host a s).served := by
  rw [served_perform]
  exact Nat.le_add_right _ _

/-- **Every message queued has an exact header** as long as at most `capacity` frames were
dispatched. -/
theorem Reachable.headerExact (h : Reachable host s) (hserved : s.served ≤ capacity) (d : Fd) :
    ∀ b ∈ queuedOn d s.trace, HeaderExact b := by
  refine Reachable.induction
    (P := fun s ↦ s.served ≤ capacity → ∀ b ∈ queuedOn d s.trace, HeaderExact b)
    (fun _ _ hb ↦ absurd hb List.not_mem_nil) (fun {s a} hs ih ha hserved b hb ↦ ?_) h hserved
  have hbefore : s.served ≤ capacity := (served_le_perform a).trans hserved
  rw [queuedOn_perform] at hb
  rcases List.mem_append.1 hb with hb | hb
  · exact ih hbefore b hb
  · obtain ⟨answer, hserves, m, hm, rfl⟩ := exists_answer_of_newMessages hs.sessionsWf ha hb
    exact ⟨(m.code.code, m.body.bytes), rfl,
      hserves.length_lt (hs.listsFit hbefore _ _ _) m (mem_msgs_of_mem_messagesTo hm)⟩

/-- The frame that a message is. -/
def frameOf (b : List UInt8) : Frame := (headerCode b, b.drop headerSize)

theorem frameOf_bytes (f : Frame) : frameOf f.bytes = f := by
  have hcode := headerCode_frame f []
  rw [List.append_nil] at hcode
  exact Prod.ext hcode (drop_headerSize f.1 f.2)

theorem HeaderExact.frame {b : List UInt8} (h : HeaderExact b) :
    clientCodec.Valid (frameOf b) ∧ clientCodec.enc (frameOf b) = b := by
  obtain ⟨f, rfl, hlt⟩ := h
  rw [frameOf_bytes]
  exact ⟨Nat.le_of_lt_succ hlt, rfl⟩

/-- **What a client has read is what the server has said so far.** As long as at most `capacity`
frames were dispatched, whoever has read some part of the bytes queued to a connection since it was
accepted has decoded exactly the first of the messages, with their codes and their whole payloads;
and what is left over and not read yet encodes exactly the others. -/
theorem parse_of_capacity (h : Reachable host s) (hserved : s.served ≤ capacity) (d : Fd)
    {seen later : List UInt8}
    (hsplit : seen ++ later = (queuedOn d (sinceAccept d s.trace)).flatten) :
    ∃ k rest,
      clientCodec.parse seen =
        ⟨((queuedOn d (sinceAccept d s.trace)).take k).map frameOf, some rest⟩ ∧
      rest ++ later = ((queuedOn d (sinceAccept d s.trace)).drop k).flatten := by
  have hexact : ∀ b ∈ queuedOn d (sinceAccept d s.trace), HeaderExact b := fun b hb ↦
    h.headerExact hserved d b (mem_queuedOn_of_sinceAccept hb)
  have henc {l : List (List UInt8)} (hl : ∀ b ∈ l, HeaderExact b) :
      (l.map frameOf).map clientCodec.enc = l := by
    rw [List.map_map]
    exact (List.map_congr_left (g := id) fun b hb ↦ (hl b hb).frame.2).trans (List.map_id l)
  have hvalid : ∀ f ∈ (queuedOn d (sinceAccept d s.trace)).map frameOf, clientCodec.Valid f := by
    intro f hf
    obtain ⟨b, hb, rfl⟩ := List.mem_map.1 hf
    exact (hexact b hb).frame.1
  obtain ⟨got, todo, rest, hframes, hparse, hrest⟩ :=
    clientCodec.parse_of_prefix hvalid (hsplit.trans (congrArg List.flatten (henc hexact).symm))
  have hgot : got = ((queuedOn d (sinceAccept d s.trace)).take got.length).map frameOf := by
    rw [List.map_take, hframes, List.take_left]
  have htodo : todo = ((queuedOn d (sinceAccept d s.trace)).drop got.length).map frameOf := by
    rw [List.map_drop, hframes, List.drop_left]
  refine ⟨got.length, rest, by rw [← hgot, hparse], ?_⟩
  rw [hrest, htodo, henc fun b hb ↦ hexact b (List.mem_of_mem_drop hb)]

/-- Someone has logged in. -/
def afterLogin : Server := execute plainHost (.accept 4 :: request 4 .login []) Server.init

/-- The client has read ten bytes of the answer. -/
theorem parse_of_capacity_afterLogin :
    ∃ k rest,
      clientCodec.parse ((queuedOn 4 (sinceAccept 4 afterLogin.trace)).flatten.take 10) =
        ⟨((queuedOn 4 (sinceAccept 4 afterLogin.trace)).take k).map frameOf, some rest⟩ ∧
      rest ++ (queuedOn 4 (sinceAccept 4 afterLogin.trace)).flatten.drop 10 =
        ((queuedOn 4 (sinceAccept 4 afterLogin.trace)).drop k).flatten :=
  parse_of_capacity (reachable_execute (by decide +kernel)) (by decide +kernel) 4
    (List.take_append_drop 10 _)

end Server

end MyTeams
