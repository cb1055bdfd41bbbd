import Gallows.Envelope
import Gallows.Protocol.Request
import Gallows.Protocol.Reply
import Gallows.Frame.Codec
import Gallows.Protocol.Event
import Gallows.Failure
import Gallows.Host
import Gallows.Secret
import Gallows.Toml.Node
import Gallows.Toml.Scan
import Gallows.Toml.Number
import Gallows.Toml.Reader
import Gallows.Toml.Quoted
import Gallows.Settings.Basic
import Gallows.Settings.Error
import Gallows.Settings.Check
import Gallows.Settings.Reader
import Gallows.Settings.Writer
import Gallows.Options
import Gallows.Logging
import Gallows.CommandLine.Grammar
import Gallows.CommandLine.Reader
import Gallows.Invocation
import Gallows.Report
import Gallows.Settings.Action
import Gallows.Program
import Gallows.Frame.Split
import Gallows.Network.Connection
import Gallows.Network.Basic
import Gallows.Token
import Gallows.Channel.Basic
import Gallows.Channel.Receive
import Gallows.Caller
import Gallows.Move
import Gallows.Feed
import Gallows.Relay.Basic
import Gallows.Relay.Subscriber
import Gallows.Client
import Gallows.Play
import Gallows.Disk
import Gallows.Main
import Gallows.Proofs.Frame.Assembly
import Gallows.Proofs.Network.Traffic
import Gallows.Proofs.Channel.Alignment
import Gallows.Proofs.Caller.Pairing
import Gallows.Proofs.Feed.Delivery
import Gallows.Proofs.Envelope.Layout
import Gallows.Proofs.Frame.Streams
import Gallows.Proofs.Frame.Agreement
import Gallows.Proofs.Time.RoundTrip
import Gallows.Proofs.Table
import Gallows.Proofs.Json.Compact
import Gallows.Proofs.Document.Variation
import Gallows.Proofs.Document.RoundTrip
import Gallows.Proofs.Document.Requests
import Gallows.Proofs.Document.Replies
import Gallows.Proofs.Channel.Deeds
import Gallows.Proofs.Feed.Rounds
import Gallows.Proofs.Feed.Handshake
import Gallows.Proofs.Channel.Stance
import Gallows.Proofs.Network.Arrival
import Gallows.Proofs.Channel.Clock
import Gallows.Proofs.Channel.Resuming
import Gallows.Proofs.Feed.Attention
import Gallows.Proofs.Relay.Forwarding
import Gallows.Proofs.Feed.Stopping
import Gallows.Proofs.Feed.States
import Gallows.Proofs.Feed.Halting
import Gallows.Proofs.Channel.Outbound
import Gallows.Proofs.Json.Texts
import Gallows.Proofs.Move.Asking
import Gallows.Proofs.Event.Line
import Gallows.Proofs.Event.Agreement
import Gallows.Proofs.Feed.Patience
import Gallows.Proofs.Network.Schedule
import Gallows.Proofs.Channel.Facing
import Gallows.Proofs.Feed.Tale
import Gallows.Proofs.Relay.Watching
import Gallows.Proofs.Relay.Halting
import Gallows.Proofs.Client.Watching
import Gallows.Proofs.Client.Working
import Gallows.Proofs.CommandLine.Spelling
import Gallows.Proofs.CommandLine.Precedence
import Gallows.Proofs.CommandLine.Telling
import Gallows.Proofs.CommandLine.Globals
import Gallows.Proofs.Settings.Layout
import Gallows.Proofs.Invocation.Sources
import Gallows.Proofs.Network.Arriving
import Gallows.Proofs.Network.Answering
import Gallows.Proofs.Channel.Hearing
import Gallows.Proofs.Channel.Lifecycle
import Gallows.Proofs.Caller.Outcome
import Gallows.Proofs.Caller.Answered
import Gallows.Proofs.Except
import Gallows.Proofs.Frame.Recovery
import Gallows.Proofs.Wire.Grammar
import Gallows.Proofs.Envelope.Tolerance
import Gallows.Proofs.Toml.Documents
import Gallows.Proofs.Settings.Dump
import Gallows.Proofs.Settings.Secrecy
import Gallows.Proofs.Frame.Reachable
import Gallows.Proofs.Frame.Writing
import Gallows.Proofs.Toml.Range
import Gallows.Proofs.Settings.Writable
import Gallows.Proofs.Invocation.Dumping
