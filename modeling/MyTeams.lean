import MyTeams.Lib.ByteOrder
import MyTeams.Lib.ByteField
import MyTeams.Lib.ByteReader
import MyTeams.Lib.ReadLog
import MyTeams.Lib.FirstMatch
import MyTeams.Lib.IntMap
import MyTeams.Lib.FrameStream
import MyTeams.Lib.FrameLink
import MyTeams.Lib.Emission
import MyTeams.Lib.Forest
import MyTeams.Lib.Lockstep
import MyTeams.Lib.Quoting
import MyTeams.Protocol
import MyTeams.Data
import MyTeams.Message
import MyTeams.Wire
import MyTeams.Server.Detail
import MyTeams.Server.Auth
import MyTeams.Server.Messages
import MyTeams.Server.Subscriptions
import MyTeams.Server.Context
import MyTeams.Server.Create
import MyTeams.Server.EventLoop
import MyTeams.Server.Semantics
import MyTeams.Server.Refinement
import MyTeams.Server.Delivery
import MyTeams.Server.Steps
import MyTeams.Server.Effects
import MyTeams.Server.Registry
import MyTeams.Server.Framing
import MyTeams.Server.Contexts
import MyTeams.Server.Disclosure
import MyTeams.Server.Answers
import MyTeams.Server.Sizes
import MyTeams.Server.Audience
import MyTeams.Server.Presence
import MyTeams.Server.Tree
import MyTeams.Server.Growth
import MyTeams.Server.History
import MyTeams.Server.Listing
import MyTeams.Server.Conversations
import MyTeams.Server.Identity
import MyTeams.Server.Siblings
import MyTeams.Server.Authorship
import MyTeams.Server.Membership
import MyTeams.Server.Inputs
import MyTeams.Server.TwoRuns
import MyTeams.Server.OneFrame
import MyTeams.Server.Secrets
import MyTeams.Server.PrivateBodies
import MyTeams.Server.TeamContent
import MyTeams.Server.Places
import MyTeams.Server.Sending
import MyTeams.Server.Issuer
import MyTeams.Server.Teardown
import MyTeams.Server.InfoUse
import MyTeams.Server.Records
import MyTeams.Server.Logging
import MyTeams.Server.Reads
import MyTeams.Server.Bounds
import MyTeams.Client.Helpers
import MyTeams.Client.State
import MyTeams.Client.Response
import MyTeams.Client.Network
import MyTeams.Client.Commands
import MyTeams.Client.CommandLine
import MyTeams.Client.Stream
import MyTeams.Client.Typing
import MyTeams.Client.Calls
import MyTeams.Client.Malformed
import MyTeams.Decoding
import MyTeams.Transport
import MyTeams.UseContext
import MyTeams.System
import MyTeams.Net
import MyTeams.Status
import MyTeams.ReplyTeam
import MyTeams.Texts
import MyTeams.Accounts
import MyTeams.Lib.Pipeline
import MyTeams.Server.Capacity
import MyTeams.Server.Loop
import MyTeams.Client.Loop
import MyTeams.Loops
import MyTeams.Latency
import MyTeams.Lib.NamedForest
import MyTeams.Server.Addresses
import MyTeams.Server.Journal
import MyTeams.Client.Account
import MyTeams.Subscriptions
import MyTeams.Lib.Timeline
import MyTeams.SameOrder
import MyTeams.Connections
import MyTeams.Server.Clock
import MyTeams.Server.Following
import MyTeams.Authenticity
import MyTeams.Server.Refusals
import MyTeams.Client.Requests
import MyTeams.Errors
import MyTeams.Atomicity
import MyTeams.Provenance
