import Ser2Net.Lib.Trace
import Ser2Net.Lib.Binary
import Ser2Net.Lib.Dict
import Ser2Net.Lib.Durable
import Ser2Net.Lib.Loop
import Ser2Net.Lib.Sifted
import Ser2Net.Lib.Framing
import Ser2Net.Lib.PyText
import Ser2Net.Lib.PyStr
import Ser2Net.Lib.Latin1
import Ser2Net.Lib.PyUnicode
import Ser2Net.Lib.PyJson
import Ser2Net.Lib.Utf8Cut
import Ser2Net.Lib.Logged
import Ser2Net.Lib.PyValue
import Ser2Net.Lib.Demand
import Ser2Net.Lib.PyEq
import Ser2Net.Lib.Ipaddress
import Ser2Net.Lib.IpText
import Ser2Net.Lib.IpRange
import Ser2Net.Lib.Window
import Ser2Net.Lib.Tickets
import Ser2Net.Lib.Protobuf
import Ser2Net.Lib.Replica
import Ser2Net.Lib.Delimited
import Ser2Net.Lib.Search
import Ser2Net.Lib.SplitLines
import Ser2Net.Lib.PosixPath
import Ser2Net.Lib.Uri
import Ser2Net.Lib.Base64
import Ser2Net.Config.Basic
import Ser2Net.Config.Mapping
import Ser2Net.Config.Demands
import Ser2Net.Config.Copy
import Ser2Net.Config.App
import Ser2Net.Config.Load
import Ser2Net.Config.Apart
import Ser2Net.Config.Backups
import Ser2Net.Config.Saves
import Ser2Net.Engine.Bridge
import Ser2Net.Engine.Supervisor
import Ser2Net.Engine.Settle
import Ser2Net.Engine.Sparkplug
import Ser2Net.Engine.SparkplugWire
import Ser2Net.Engine.SparkplugRoundTrip
import Ser2Net.Engine.SparkplugDecode
import Ser2Net.Engine.SparkplugCut
import Ser2Net.Engine.SparkplugNode
import Ser2Net.Engine.Modbus
import Ser2Net.Engine.ModbusBus
import Ser2Net.Engine.ModbusServer
import Ser2Net.Engine.ModbusGateway
import Ser2Net.Engine.ModbusWrite
import Ser2Net.Engine.ModbusSet
import Ser2Net.Engine.SparkplugCommand
import Ser2Net.Engine.SparkplugPoint
import Ser2Net.Engine.SparkplugReport
import Ser2Net.Engine.SparkplugHost
import Ser2Net.Engine.SparkplugInt
import Ser2Net.Engine.Telnet
import Ser2Net.Engine.TelnetLoop
import Ser2Net.Engine.Discovery
import Ser2Net.Engine.Rfc2217
import Ser2Net.Engine.ClientConn
import Ser2Net.Engine.Closeon
import Ser2Net.Engine.Udp
import Ser2Net.Engine.SerialIo
import Ser2Net.Engine.SerialTransport
import Ser2Net.Engine.MqttLines
import Ser2Net.Lib.Segments
import Ser2Net.Engine.FilePaths
import Ser2Net.Engine.TraceFiles
import Ser2Net.Engine.TraceWriter
import Ser2Net.Engine.Cluster
import Ser2Net.Engine.Access
import Ser2Net.Engine.Beacon
import Ser2Net.State.LogTrim
import Ser2Net.State.Notify
import Ser2Net.State.NotifyRun
import Ser2Net.Web.Auth
import Ser2Net.Web.Ops
import Ser2Net.Web.Forms
import Ser2Net.Web.Reconcile
import Ser2Net.Web.Cluster
import Ser2Net.Web.Groups
import Ser2Net.Web.SignIn
import Ser2Net.Web.Accounts
import Ser2Net.Web.RateLimit
import Ser2Net.Web.Audit
import Ser2Net.Web.Session
import Ser2Net.Web.Console
import Ser2Net.Web.Gate
import Ser2Net.Import.Apply
import Ser2Net.Import.Merge
import Ser2Net.Import.Preview
import Ser2Net.Import.Again
import Ser2Net.Web.Pending
import Ser2Net.Import.Basic
import Ser2Net.Import.Scalar
import Ser2Net.Import.Reader
import Ser2Net.Import.Progress
import Ser2Net.Import.Conn
import Ser2Net.Import.Options
import Ser2Net.Import.Yaml
import Ser2Net.Import.V3
import Ser2Net.Import.Assemble
import Ser2Net.Import.Valid
import Ser2Net.Import.Applied
import Ser2Net.Import.Sources
import Ser2Net.Import.Entries
import Ser2Net.Import.Escapes
import Ser2Net.Import.Contained
