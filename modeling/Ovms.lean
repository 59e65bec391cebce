import Ovms.Lib.Abbreviation
import Ovms.Lib.Bytes
import Ovms.Lib.Machine
import Ovms.Lib.History
import Ovms.Bap.Element
import Ovms.Bap.Send
import Ovms.Bap.Assembler
import Ovms.Bap.Integrity
import Ovms.Bap.Reassembly
import Ovms.Bap.Channels
import Ovms.Bap.Cursor
import Ovms.Bap.Position
import Ovms.Bap.Bounds
import Ovms.EGolf.BatteryControl
import Ovms.EGolf.Record
import Ovms.EGolf.ProfileArray
import Ovms.BatCtrl.Model
import Ovms.BatCtrl.Protocol
import Ovms.BatCtrl.History
import Ovms.BatCtrl.Order
import Ovms.BatCtrl.Write
import Ovms.BatCtrl.Terminal
import Ovms.BatCtrl.ChargeCurrent
import Ovms.Lib.IsoTp
import Ovms.Can.Frame
import Ovms.Ocu.Heartbeat
import Ovms.Ocu.Presence
import Ovms.Poll.Model
import Ovms.Poll.IsoTp
import Ovms.Poll.Step
import Ovms.Poll.Receive
import Ovms.Poll.Loss
import Ovms.Poll.Bounds
import Ovms.Poll.Broadcast
import Ovms.Poll.Transmit
import Ovms.Poll.OneOff
import Ovms.Poll.Vwtp
import Ovms.Poll.VwtpStep
import Ovms.Poll.VwtpTransmit
import Ovms.Poll.VwtpReceive
import Ovms.Lib.Ring
import Ovms.Buffer.OvmsBuffer
import Ovms.Buffer.Lines
import Ovms.Lib.Links
import Ovms.Lib.Loop
import Ovms.Lib.Numeral
import Ovms.Canlog.Text
import Ovms.Canlog.Format
import Ovms.Canlog.Crtd
import Ovms.Canlog.Lawicel
import Ovms.Canlog.Gvret
import Ovms.Canlog.Records
import Ovms.Canlog.Serve
import Ovms.Canlog.Bounds
import Ovms.Series.Model
import Ovms.Series.Represents
import Ovms.Series.Polling
import Ovms.Series.Invariant
import Ovms.Series.OnceOff
import Ovms.Series.Answers
import Ovms.Metrics.Persist
import Ovms.Metrics.Slots
import Ovms.Metrics.Int64
import Ovms.Metrics.Vector
import Ovms.Metrics.Repair
import Ovms.Lib.Single
import Ovms.Metrics.Registry
import Ovms.Notify.Model
import Ovms.Notify.Kept
import Ovms.Notify.Command
import Ovms.Notify.Once
import Ovms.Events.Deregister
import Ovms.Command.Dispatch
import Ovms.Events.Timers
import Ovms.Crypt.Base64
import Ovms.Lib.StreamCipher
import Ovms.Crypt.Rc4
import Ovms.ServerV2.Transmit
import Ovms.ServerV2.Command
import Ovms.ServerV2.Receive
import Ovms.ServerV2.Segments
import Ovms.ServerV2.Connection
import Ovms.ServerV2.Login
import Ovms.ServerV2.Outbox
import Ovms.ServerV2.Delivery
import Ovms.ServerV2.DataRecords
import Ovms.ServerV2.Metrics
import Ovms.Config.File
import Ovms.Config.Transaction
import Ovms.Config.Values
import Ovms.Config.Writes
import Ovms.Cellular.GsmMux
import Ovms.Cellular.RoundTrip
import Ovms.Bms.Model
import Ovms.Bms.Look
import Ovms.Bms.Tracker
import Ovms.Bms.Tracking
import Ovms.Bms.Alerts
import Ovms.Bms.Pack
import Ovms.Bms.Extremes
import Ovms.Bms.Report
import Ovms.CanOpen.Exact
import Ovms.CanOpen.Stale
import Ovms.CanOpen.Rounds
import Ovms.Power.Management
import Ovms.Time.Election
import Ovms.Boot.Shutdown
import Ovms.Schedule.Weekly
import Ovms.Schedule.Next
import Ovms.Schedule.Commands
import Ovms.ServerV3.Connection
import Ovms.ServerV3.Reconnect
import Ovms.ServerV3.Passes
import Ovms.Notify.Reader
import Ovms.ServerV3.Notifications
import Ovms.Location.Current
import Ovms.Location.Scan
import Ovms.Location.Stored
import Ovms.ReTools.PidScanner
import Ovms.Series.Standard
import Ovms.Poll.Waiting
import Ovms.Dbc.Number
import Ovms.Dbc.Extract
import Ovms.Dbc.Signal
import Ovms.Units.Target
import Ovms.Units.Convert
import Ovms.Units.Agreement
import Ovms.Metrics.Bitset
import Ovms.Metrics.VectorChanges
import Ovms.Lib.Memo
import Ovms.Dbc.Multiplex
import Ovms.Dbc.MultiplexDecode
import Ovms.Lib.Groups
import Ovms.Dbc.Editing
import Ovms.Dbc.SourceGroups
import Ovms.Dbc.Sources
import Ovms.Utils.Csv
import Ovms.Utils.Bits
import Ovms.Utils.Accessors
import Ovms.Can.Filter
import Ovms.Lib.Monomial
import Ovms.Units.RoundTrip
import Ovms.Lib.Calendar
import Ovms.Metrics.Dates
import Ovms.Utils.Average
import Ovms.Utils.IdFilter
import Ovms.Obd2ecu.FillFrame
import Ovms.Dbc.Survives
import Ovms.EGolf.Identity
import Ovms.EGolf.Telegrams
