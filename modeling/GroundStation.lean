import GroundStation.Accessor
import GroundStation.Bus.Basic
import GroundStation.Bus.Callback
import GroundStation.Bus.Channel
import GroundStation.Bus.Subscription
import GroundStation.Bus.Topic
import GroundStation.Catalog
import GroundStation.CommandLine
import GroundStation.Config.Decode
import GroundStation.Config.FromJson
import GroundStation.Config.FromYaml
import GroundStation.Config.Model
import GroundStation.Console.Reply
import GroundStation.Console.Session
import GroundStation.Encoding
import GroundStation.Error
import GroundStation.Instrument.Acquisition
import GroundStation.Instrument.Basic
import GroundStation.Instrument.Exchange
import GroundStation.Instrument.Memory
import GroundStation.Instrument.Request
import GroundStation.Json.Basic
import GroundStation.Json.Number
import GroundStation.Json.Reader
import GroundStation.Json.Writer
import GroundStation.Launch
import GroundStation.Link.Bench
import GroundStation.Link.Framing
import GroundStation.Link.Host
import GroundStation.Link.Registry
import GroundStation.Link.Rmap
import GroundStation.Link.Script
import GroundStation.Link.Simulation
import GroundStation.Link.Socket
import GroundStation.Link.Standard
import GroundStation.Link.Tcp
import GroundStation.Link.Transport
import GroundStation.Link.Udp
import GroundStation.Main
import GroundStation.Message
import GroundStation.Number.Binary64
import GroundStation.Number.Decimal
import GroundStation.Number.Integer
import GroundStation.Parameter.Compile
import GroundStation.Parameter.Declaration
import GroundStation.Parameter.ValueType
import GroundStation.Proofs.Bus.Account
import GroundStation.Proofs.Bus.Delivery
import GroundStation.Proofs.Bus.History
import GroundStation.Proofs.Bus.Standing
import GroundStation.Proofs.Bus.Visits
import GroundStation.Proofs.Catalog.Batch
import GroundStation.Proofs.Catalog.Registration
import GroundStation.Proofs.Console.Answer
import GroundStation.Proofs.Console.Request
import GroundStation.Proofs.Instrument.Advertised
import GroundStation.Proofs.Instrument.Agreement
import GroundStation.Proofs.Instrument.Arity
import GroundStation.Proofs.Instrument.Assembly
import GroundStation.Proofs.Instrument.Attribution
import GroundStation.Proofs.Instrument.Books
import GroundStation.Proofs.Instrument.Entries
import GroundStation.Proofs.Instrument.Intact
import GroundStation.Proofs.Instrument.Ledger
import GroundStation.Proofs.Instrument.Lifecycle
import GroundStation.Proofs.Instrument.Make
import GroundStation.Proofs.Instrument.Publication
import GroundStation.Proofs.Instrument.Refusal
import GroundStation.Proofs.Instrument.Sequence
import GroundStation.Proofs.Instrument.Usage
import GroundStation.Proofs.Link.Conservation
import GroundStation.Proofs.Link.Framing
import GroundStation.Proofs.Link.LineBuffer
import GroundStation.Proofs.Link.Lines
import GroundStation.Proofs.Link.Termination
import GroundStation.Proofs.Number.Numeral
import GroundStation.Proofs.Parameter.Arguments
import GroundStation.Proofs.Parameter.Characters
import GroundStation.Proofs.Parameter.HexText
import GroundStation.Proofs.Parameter.Values
import GroundStation.Proofs.Parameter.WellFormed
import GroundStation.Proofs.Parameter.WireText
import GroundStation.Proofs.Record.Fields
import GroundStation.Proofs.Record.Reassembly
import GroundStation.Proofs.Rmap.Checksum
import GroundStation.Proofs.Rmap.Correlation
import GroundStation.Proofs.Rmap.Fragments
import GroundStation.Proofs.Rmap.HexData
import GroundStation.Proofs.Rmap.Integrity
import GroundStation.Proofs.Rmap.Layout
import GroundStation.Proofs.Rmap.Numbering
import GroundStation.Proofs.Rmap.Reply
import GroundStation.Proofs.Rmap.RoundTrip
import GroundStation.Proofs.Rmap.Stream
import GroundStation.Proofs.Rmap.Transaction
import GroundStation.Proofs.Rmap.Truncation
import GroundStation.Proofs.Rmap.Wording
import GroundStation.Proofs.Station.Accounting
import GroundStation.Proofs.Station.Addressing
import GroundStation.Proofs.Station.Admission
import GroundStation.Proofs.Station.Change
import GroundStation.Proofs.Station.Links
import GroundStation.Proofs.Station.Ownership
import GroundStation.Proofs.Station.Prompt
import GroundStation.Proofs.Station.Quiescence
import GroundStation.Proofs.Station.Reach
import GroundStation.Proofs.Station.Rendezvous
import GroundStation.Proofs.Station.Slot
import GroundStation.Proofs.Station.Wiring
import GroundStation.Proofs.Telemetry.AtOnce
import GroundStation.Proofs.Telemetry.Course
import GroundStation.Proofs.Telemetry.FanOut
import GroundStation.Proofs.Telemetry.Outbox
import GroundStation.Proofs.Telemetry.Roll
import GroundStation.Proofs.Telemetry.Traffic
import GroundStation.Proofs.Template.Characters
import GroundStation.Proofs.Template.Segment
import GroundStation.Proofs.Template.Soundness
import GroundStation.Proofs.Template.Substitution
import GroundStation.Proofs.Text.Blank
import GroundStation.Proofs.Text.Encoding
import GroundStation.Proofs.Text.Utf8
import GroundStation.Proofs.Wire.Buffer
import GroundStation.Proofs.Wire.Line
import GroundStation.Proofs.Wire.Token
import GroundStation.Record.Accumulator
import GroundStation.Record.Fields
import GroundStation.Rmap.Codec
import GroundStation.Rmap.CommandText
import GroundStation.Rmap.Crc
import GroundStation.Rmap.Frame
import GroundStation.Rmap.Packet
import GroundStation.Signature
import GroundStation.Station.Basic
import GroundStation.Station.Publish
import GroundStation.Station.Server
import GroundStation.Station.Service
import GroundStation.Template.Format
import GroundStation.Template.Placeholder
import GroundStation.Template.Render
import GroundStation.Text.Basic
import GroundStation.Text.Blank
import GroundStation.Text.Hex
import GroundStation.Text.Keyed
import GroundStation.Text.Split
import GroundStation.Text.Utf8
import GroundStation.Wire.Line
import GroundStation.Wire.Reply
import GroundStation.Wire.Token
import GroundStation.Yaml.Node
import GroundStation.Yaml.Scalar
import GroundStation.Yaml.Schema
import GroundStation.Yaml.Token
