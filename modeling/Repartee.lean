import Repartee.Text
import Repartee.Fields
import Repartee.Lib.Prog
import Repartee.Lib.Table
import Repartee.Lib.Run
import Repartee.Lib.Flow
import Repartee.Lib.Line
import Repartee.Lib.Keyset
import Repartee.Lib.Insertion
import Repartee.Lib.Linked
import Repartee.Lib.Base64
import Repartee.Lib.Moves
import Repartee.Lib.Glob
import Repartee.Lib.Keyed
import Repartee.Lib.Greedy
import Repartee.Lib.Blind
import Repartee.Lib.Decode
import Repartee.Lib.SlidingWindow
import Repartee.Lib.Utf8
import Repartee.Lib.Scan
import Repartee.Lib.Offsets
import Repartee.Storage.Messages
import Repartee.Storage.Pages
import Repartee.Storage.Writer
import Repartee.Storage.Links
import Repartee.Session.Writer
import Repartee.State.RedactionRegistry
import Repartee.State.RedactionRuns
import Repartee.State.RowIdentity
import Repartee.Irc.MonitorRuns
import Repartee.Irc.MonitorRounds
import Repartee.State.Buffers
import Repartee.State.ReadState
import Repartee.State.Delivery
import Repartee.State.ReadRuns
import Repartee.State.ReadConfluence
import Repartee.State.HistorySplice
import Repartee.Irc.JoinBatches
import Repartee.Irc.Message
import Repartee.Irc.Multiline
import Repartee.Irc.Partition
import Repartee.Irc.BlankBatches
import Repartee.Irc.Batch
import Repartee.Irc.BatchFlow
import Repartee.Irc.Reassembly
import Repartee.Irc.Netsplit
import Repartee.Irc.NetsplitTracker
import Repartee.Irc.Flood
import Repartee.Irc.ChatHistory
import Repartee.Irc.HistoryRuns
import Repartee.Irc.Scram
import Repartee.Irc.SaslExchange
import Repartee.Irc.FanOut
import Repartee.Irc.FanOutRuns
import Repartee.Irc.SaslFraming
import Repartee.Irc.ChannelModes
import Repartee.Irc.ChannelModeRuns
import Repartee.Irc.BanNumbers
import Repartee.Irc.SaslMechanisms
import Repartee.Irc.Capabilities
import Repartee.Irc.CapNegotiation
import Repartee.Irc.EarlyMessages
import Repartee.Irc.BouncerBinding
import Repartee.Irc.BindingRuns
import Repartee.Irc.BouncerNetworks
import Repartee.Irc.NetworkRuns
import Repartee.Lib.Escape
import Repartee.Irc.BouncerMutations
import Repartee.Irc.Scrollback
import Repartee.Irc.ScrollbackRuns
import Repartee.E2e.Context
import Repartee.E2e.Platform
import Repartee.E2e.Keyring
import Repartee.E2e.Database
import Repartee.E2e.Portable
import Repartee.E2e.Restore
import Repartee.E2e.Handshake
import Repartee.E2e.Wire
import Repartee.E2e.Manager.State
import Repartee.E2e.Manager.Trust
import Repartee.E2e.Manager.Outgoing
import Repartee.E2e.Manager.Messages
import Repartee.E2e.Commands
import Repartee.E2e.Machine
import Repartee.E2e.Effects
import Repartee.E2e.Writes.Outgoing
import Repartee.E2e.Writes.Messages
import Repartee.E2e.Writes.Ops
import Repartee.E2e.Symbolic
import Repartee.E2e.Chunks
import Repartee.E2e.LineCodec
import Repartee.E2e.Freshness
import Repartee.E2e.IncomingRate
import Repartee.E2e.Autotrust
import Repartee.E2e.HandshakeCodec
import Repartee.E2e.Placeholder
import Repartee.E2e.Revocation
import Repartee.E2e.Provenance
import Repartee.E2e.Replay
import Repartee.E2e.Tofu
import Repartee.E2e.Reverify
import Repartee.E2e.Isolation
import Repartee.E2e.Adoption
import Repartee.E2e.PendingReplies
import Repartee.E2e.SignedPayloads
import Repartee.Translate.Attempts
import Repartee.Translate.Queue
import Repartee.Translate.QueueRuns
import Repartee.Translate.Ceiling
import Repartee.Translate.Limiter
import Repartee.Translate.Follows
import Repartee.State.OwnEchoes
import Repartee.State.OwnEchoRuns
import Repartee.Dcc.SessionRuns
import Repartee.Dcc.Manager
import Repartee.Web.RateLimiter
import Repartee.Config.AppConfig
import Repartee.Config.Env
import Repartee.App.State
import Repartee.App.Gate
import Repartee.App.FailClosed
import Repartee.App.ScopedConfig
import Repartee.App.PlainExits
import Repartee.App.PossibleTargets
import Repartee.App.ReadMarkers
import Repartee.App.MarkerRuns
import Repartee.App.HistoryDiscovery
import Repartee.App.DiscoveryRuns
import Repartee.App.Layout
import Repartee.App.TranslatedSend
import Repartee.App.Typing
import Repartee.App.WhoRuns
import Repartee.App.CleanLines
import Repartee.App.ServerHistory
import Repartee.App.SplitContent
import Repartee.App.EchoRows
import Repartee.App.BouncerChildren
import Repartee.App.ChildFrames
import Repartee.App.Who
import Repartee.Theme.Parser
import Repartee.Theme.Visible
import Repartee.Irc.FloodBudget
import Repartee.Irc.Formatting
import Repartee.Lib.Positions
import Repartee.Ui.Wrap
import Repartee.Lib.Slice
import Repartee.App.HighlightSeek
import Repartee.Ui.ChatView
import Repartee.App.Seeks
import Repartee.App.SeekSteps
import Repartee.App.SeekTwins
import Repartee.App.SeekFrames
import Repartee.App.SeekRuns
import Repartee.App.SeekQueues
import Repartee.App.SeekAgreement
import Repartee.App.SeekSequences
import Repartee.Ui.Input
import Repartee.Ui.Completion
import Repartee.Ui.Keys
import Repartee.Ui.InputInvariant
import Repartee.Ui.KeyRuns
import Repartee.Ui.KeySequence
import Repartee.Shrink.HostHint
import Repartee.Commands.Parser
import Repartee.App.RetryText
