import MyTeams.Server.Addresses
import MyTeams.Server.Capacity

/-!
# Lists and the clock

`CMD_LIST` sends what is stored, in the order in which it is stored; nothing is sorted, and nothing
is ever taken out. A list that is asked for again begins with what it has shown before, and what it
shows of threads and replies is in the order of the clock, which was read once for each
(`lists_grow_in_order`).
-/

namespace MyTeams

open FirstMatch Forest ByteField

/-- The time that is stored with a resource. -/
def Resource.timestamp : Resource → Option Int64
  | thread r => some r.timestamp
  | reply r => some r.timestamp
  | team _ | channel _ => none

theorem timestamp_newResource (host : Host) (user payload : Str) (level : UInt8) :
    ([newResource host user payload level].filterMap Resource.timestamp).Sublist [host.time] := by
  rw [newResource]
  split_ifs
  · exact List.nil_sublist _
  · exact List.nil_sublist _
  · exact List.Sublist.refl _
  · exact List.Sublist.refl _

/-- What the clock shows at each of the first `n` requests. -/
def clock (host : ℕ → Host) (n : ℕ) : List Int64 := (List.range n).map fun i ↦ (host i).time

theorem clock_succ (host : ℕ → Host) (n : ℕ) :
    clock host (n + 1) = clock host n ++ [(host n).time] := by
  rw [clock, List.range_succ, List.map_append]
  rfl

namespace Server

variable {host : ℕ → Host} {s s' : Server}

/-- **The times of a list** are readings of the clock, in their order. -/
theorem Reachable.times_sublist (h : Reachable host s) (ks : List Str) :
    ((listing Resource.key ks s.data.forest).filterMap Resource.timestamp).Sublist
      (clock host s.served) := by
  refine Reachable.induction
    (P := fun s ↦ ((listing Resource.key ks s.data.forest).filterMap Resource.timestamp).Sublist
      (clock host s.served))
    (by simp [Server.init, ServerData.init, ServerData.forest]) (fun {s a} hs ih _ ↦ ?_) h
  have hsame : ((listing Resource.key ks s.data.forest).filterMap Resource.timestamp).Sublist
      (clock host (perform host a s).served) :=
    ih.trans ((List.range_sublist.2 (served_le_perform a)).map _)
  obtain ⟨answer, hserves, hdata⟩ | ⟨-, hdata⟩ := serves_perform host hs.sessionsWf a
  · rw [hdata]
    rcases hserves.forest with ⟨hcmd, user, ctx, hnew⟩ | ⟨hforest, -⟩
    · have hserved : (perform host a s).served = s.served + 1 := by
        rw [Action.eq_frame_of_request hcmd (by decide), served_perform]
        rfl
      rw [hnew.forest, listing_insertAt hnew.place, List.filterMap_append, hserved, clock_succ]
      refine ih.append ?_
      split_ifs
      · exact timestamp_newResource _ _ _ _
      · exact List.nil_sublist _
    · rw [hforest]
      exact hsame
  · rw [hdata]
    exact hsame

/-- **Lists only grow, at their end, and in the order of time.** A logged-in connection asks for the
list of its stored context; whatever happens on whatever connections, when some connection with the
same context asks for its list later, it is shown the same records, and after them those that are
new. The times shown are readings of the clock in the order in which they were taken, so if the
clock never goes back they never decrease. -/
theorem lists_grow_in_order (h : Reachable host s) {fd fd' : Fd} {code code' : UInt16}
    {payload payload' : List UInt8} {user user' : Str} {ctx : ClientContext}
    (ha : s.Enabled (.frame fd code payload)) (hcmd : Command.ofCode? code = some .list)
    (hs : s.data.sessions[fd]? = some user) (hctx : s.data.clientContexts[fd]? = some ctx)
    (hrun : Steps host (perform host (.frame fd code payload) s) s')
    (ha' : s'.Enabled (.frame fd' code' payload')) (hcmd' : Command.ofCode? code' = some .list)
    (hs' : s'.data.sessions[fd']? = some user') (hctx' : s'.data.clientContexts[fd']? = some ctx) :
    ∃ shown new : List Resource,
      newMessages fd s (perform host (.frame fd code payload) s) =
        [makeMessage (listResponse ctx.level).code
          (listBytes (fun x ↦ (x.body ctx.threadUuid).bytes) shown)] ∧
      newMessages fd' s' (perform host (.frame fd' code' payload') s') =
        [makeMessage (listResponse ctx.level).code
          (listBytes (fun x ↦ (x.body ctx.threadUuid).bytes) (shown ++ new))] ∧
      ((shown ++ new).filterMap Resource.timestamp).Sublist (clock host s'.served) ∧
      ((∀ i j, i < j → j < s'.served → (host i).time ≤ (host j).time) →
        ((shown ++ new).filterMap Resource.timestamp).Pairwise (· ≤ ·)) := by
  have hlater : Steps host s s' := .head ⟨_, ha, rfl⟩ hrun
  have hreachable := h.steps hlater
  obtain ⟨new, hnew⟩ := h.listing_prefix hlater ctx.path
  have htimes := hreachable.times_sublist ctx.path
  refine ⟨_, new, h.newMessages_list ha hcmd hs hctx, ?_⟩
  rw [hnew]
  refine ⟨hreachable.newMessages_list ha' hcmd' hs' hctx', htimes, fun hclock ↦ ?_⟩
  have hsorted : (clock host s'.served).Pairwise (· ≤ ·) := by
    rw [clock, List.pairwise_map]
    exact List.pairwise_lt_range.imp_of_mem fun _ hj hij ↦ hclock _ _ hij (List.mem_range.1 hj)
  exact hsorted.sublist htimes

/-- An environment whose clock goes on by one with each request. -/
def tickingHost (n : ℕ) : Host := ⟨plainUuid n, Int64.ofNat n⟩

/-- A thread has been posted in a channel, whose list is about to be asked for. -/
def threadPosted : List Action :=
  .accept 4 :: request 4 .login [0x61] ++ request 4 .create (List.replicate 287 0x62) ++
    request 4 .use (useTeam :: (plainUuid 1).str) ++ request 4 .create (List.replicate 287 0x63) ++
    request 4 .use (useChannel :: (plainUuid 1).str ++ (plainUuid 3).str) ++
    request 4 .create (List.replicate 544 0x64) ++ [.receive 4 (makeMessage Command.list.code [])]

/-- Another is posted, and the list is asked for again. -/
def threadPostedAgain : List Action :=
  request 4 .create (List.replicate 544 0x65) ++ [.receive 4 (makeMessage Command.list.code [])]

theorem lists_grow_in_order_threadPosted :
    let s := execute tickingHost threadPosted Server.init
    let s' := execute tickingHost threadPostedAgain
      (perform tickingHost (.frame 4 Command.list.code []) s)
    ∃ shown new : List Resource,
      newMessages 4 s (perform tickingHost (.frame 4 Command.list.code []) s) =
        [makeMessage Response.listThreads.code
          (listBytes (fun x ↦ (x.body (zeros 36)).bytes) shown)] ∧
      newMessages 4 s' (perform tickingHost (.frame 4 Command.list.code []) s') =
        [makeMessage Response.listThreads.code
          (listBytes (fun x ↦ (x.body (zeros 36)).bytes) (shown ++ new))] ∧
      ((shown ++ new).filterMap Resource.timestamp).Pairwise (· ≤ ·) := by
  intro s s'
  let ctx : ClientContext := ⟨useChannel, (plainUuid 1).bytes, (plainUuid 3).bytes, zeros 36⟩
  have hreachable : Reachable tickingHost s := reachable_execute (by decide +kernel)
  have hframe : s.Enabled (.frame 4 Command.list.code []) := by decide +kernel
  have hs : s.data.sessions[(4 : Fd)]? = some (plainUuid 0).str := by decide +kernel
  have hctx : s.data.clientContexts[(4 : Fd)]? = some ctx := by decide +kernel
  have hrun : Steps tickingHost (perform tickingHost (.frame 4 Command.list.code []) s) s' :=
    steps_execute (by decide +kernel)
  have hframe' : s'.Enabled (.frame 4 Command.list.code []) := by decide +kernel
  have hs' : s'.data.sessions[(4 : Fd)]? = some (plainUuid 0).str := by decide +kernel
  have hctx' : s'.data.clientContexts[(4 : Fd)]? = some ctx := by decide +kernel
  have hclock : ∀ i < s'.served, ∀ j < s'.served, i < j →
      (tickingHost i).time ≤ (tickingHost j).time := by
    decide +kernel
  obtain ⟨shown, new, hfirst, hsecond, -, htimes⟩ :=
    lists_grow_in_order hreachable hframe (Command.ofCode?_code .list) hs hctx hrun hframe'
      (Command.ofCode?_code .list) hs' hctx'
  exact ⟨shown, new, hfirst, hsecond, htimes fun i j hij hj ↦ hclock i (hij.trans hj) j hj hij⟩

end Server

end MyTeams
