import ZoneRelay.BufferPool
import ZoneRelay.Bus.Binary
import ZoneRelay.Bus.Channel
import ZoneRelay.Bus.Format
import ZoneRelay.Bus.Frame
import ZoneRelay.Bus.Packet
import ZoneRelay.Bus.Record
import ZoneRelay.Bytes
import ZoneRelay.Cipher.Key
import ZoneRelay.Cipher.Packet
import ZoneRelay.Cipher.Pi
import ZoneRelay.Cipher.Schedule
import ZoneRelay.Code.Bits
import ZoneRelay.Code.Book
import ZoneRelay.Code.Encoder
import ZoneRelay.Code.Layout
import ZoneRelay.Code.Lengths
import ZoneRelay.Code.Numbering
import ZoneRelay.Code.Trie
import ZoneRelay.Code.Words
import ZoneRelay.Config.Basic
import ZoneRelay.Config.Check
import ZoneRelay.Config.Environment
import ZoneRelay.Config.File
import ZoneRelay.Config.Level
import ZoneRelay.Config.Problem
import ZoneRelay.Digest
import ZoneRelay.Fault
import ZoneRelay.Frame.Demux
import ZoneRelay.Frame.Header
import ZoneRelay.Frame.Seal
import ZoneRelay.Frame.SubPacket
import ZoneRelay.Json.Quoted
import ZoneRelay.Json.Reader
import ZoneRelay.Json.Value
import ZoneRelay.Keys
import ZoneRelay.Keys.File
import ZoneRelay.Launch
import ZoneRelay.Launch.Command
import ZoneRelay.Launch.Files
import ZoneRelay.Login
import ZoneRelay.Main
import ZoneRelay.Metrics
import ZoneRelay.Net.Address
import ZoneRelay.Relay.Arrival
import ZoneRelay.Relay.Basic
import ZoneRelay.Relay.Flush
import ZoneRelay.Relay.Forward
import ZoneRelay.Relay.Outlets
import ZoneRelay.Relay.Queues
import ZoneRelay.Relay.Upkeep
import ZoneRelay.Session.Basic
import ZoneRelay.Session.Inbound
import ZoneRelay.Session.Outbound
import ZoneRelay.Session.Table
import ZoneRelay.Text.Numeral
import ZoneRelay.Text.Reader
import ZoneRelay.Text.Shortest
import ZoneRelay.Text.Utf8
import ZoneRelay.Toml.Number
import ZoneRelay.Toml.Quoted
import ZoneRelay.Toml.Reader
import ZoneRelay.Toml.Value
import ZoneRelay.Toml.Written
import ZoneRelay.Proofs.Code.Loading
import ZoneRelay.Proofs.Code.Canonical
import ZoneRelay.Proofs.Code.Layout
import ZoneRelay.Proofs.Code.RoundTrip
import ZoneRelay.Proofs.Cipher.Image
import ZoneRelay.Proofs.Cipher.Inverse
import ZoneRelay.Proofs.Cipher.Flooding
import ZoneRelay.Proofs.Cipher.Key
import ZoneRelay.Proofs.Cipher.Region
import ZoneRelay.Proofs.Frame.Framing
import ZoneRelay.Proofs.Frame.Seal
import ZoneRelay.Proofs.Session.Run
import ZoneRelay.Proofs.Session.Window
import ZoneRelay.Proofs.Session.Acceptance
import ZoneRelay.Proofs.Session.Agreement
import ZoneRelay.Proofs.Session.Rotation
import ZoneRelay.Proofs.Session.Slot
import ZoneRelay.Proofs.Relay.Handling
import ZoneRelay.Proofs.Relay.Flushing
import ZoneRelay.Proofs.Relay.Register
import ZoneRelay.Proofs.Relay.Invariant
import ZoneRelay.Proofs.Relay.Conservation
import ZoneRelay.Proofs.Relay.Admission
import ZoneRelay.Proofs.Relay.Effects
import ZoneRelay.Proofs.Relay.Isolation
import ZoneRelay.Proofs.Relay.History
import ZoneRelay.Proofs.Relay.Attribution
import ZoneRelay.Proofs.Relay.Delivery
import ZoneRelay.Proofs.Relay.Run
import ZoneRelay.Proofs.Relay.Queues
import ZoneRelay.Proofs.Session.Ledger
import ZoneRelay.Proofs.Relay.Rejection
import ZoneRelay.Proofs.Code.Reading
import ZoneRelay.Proofs.Code.Copy
import ZoneRelay.Proofs.Code.Decoding
import ZoneRelay.Proofs.Code.Capacity
import ZoneRelay.Proofs.Code.Succession
import ZoneRelay.Proofs.Code.Kraft
import ZoneRelay.Proofs.Config.Limits
import ZoneRelay.Proofs.Net.Address
import ZoneRelay.Proofs.Json.Quoted
import ZoneRelay.Proofs.Bus.Codec
import ZoneRelay.Proofs.Frame.Region
import ZoneRelay.Proofs.Frame.Appending
import ZoneRelay.Proofs.Frame.Parts
import ZoneRelay.Proofs.Frame.Tiling
import ZoneRelay.Proofs.Relay.Echo
import ZoneRelay.Proofs.Relay.Backlog
import ZoneRelay.Proofs.Session.Capacity
import ZoneRelay.Proofs.Session.Opening
import ZoneRelay.Proofs.Session.LoginRequest
import ZoneRelay.Proofs.Session.Counting
import ZoneRelay.Proofs.Session.Missed
import ZoneRelay.Proofs.Session.Recycling
import ZoneRelay.Proofs.Session.LoginRoundTrip
