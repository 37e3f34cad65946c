import LumiOS.Support.Runs
import LumiOS.Support.CStr
import LumiOS.Support.Text
import LumiOS.Support.Words
import LumiOS.Support.Numerals
import LumiOS.Support.Stores
import LumiOS.Support.Appends
import LumiOS.Support.Dfs
import LumiOS.Support.DfsStop
import LumiOS.Support.Forest
import LumiOS.Lumid.Service
import LumiOS.Lumid.Resolve
import LumiOS.Lumid.StartOrder
import LumiOS.Lumid.Lifecycle
import LumiOS.Lumid.Machine
import LumiOS.Lumid.Moves
import LumiOS.Lumid.Refine
import LumiOS.Lumid.Pids
import LumiOS.Lumid.OneProcess
import LumiOS.Lumid.Stop
import LumiOS.Lumid.Times
import LumiOS.Lumid.Delay
import LumiOS.Lumid.Lumictl
import LumiOS.Lumid.RequestBytes
import LumiOS.Lumid.ShowLog
import LumiOS.Lumid.Fstab
import LumiOS.Lumid.Main
import LumiOS.Lumid.Restarts
import LumiOS.Lumid.Reaping
import LumiOS.Lumid.ExitCode
import LumiOS.Lumid.StopAll
import LumiOS.Lumid.StartAll
import LumiOS.Lumid.CheckOrder
import LumiOS.Lumid.Reload
import LumiOS.Lumid.Child
import LumiOS.Lumid.SignalMask
import LumiOS.Lumid.Config
import LumiOS.Lumid.Size
import LumiOS.Lumid.DepList
import LumiOS.Lumid.KeyBuffer
import LumiOS.Lumid.Cgroup
import LumiOS.Lumid.MkdirP
import LumiOS.Sandbox.Seccomp
import LumiOS.Sandbox.FilterArray
import LumiOS.Sandbox.Whitelist
import LumiOS.Sandbox.Apply
import LumiOS.Sandbox.Landlock
import LumiOS.Sandbox.Profile
import LumiOS.Sandbox.PolicyFile
import LumiOS.Sandbox.PolicyImage
import LumiOS.Sandbox.Level
import LumiOS.Sandbox.Network
import LumiOS.Container.Properties
import LumiOS.Container.PropTable
import LumiOS.Container.Lifecycle
import LumiOS.Comments
import LumiOS.Telephony.Daemon
import LumiOS.Telephony.Airplane
import LumiOS.Bluetooth.Pairing
import LumiOS.Sensor.Daemon
import LumiOS.Sensor.Poll
import LumiOS.Toolkit.Widget
import LumiOS.Sandbox.PolicyImage
import LumiOS.Telephony.CommandLine
import LumiOS.Telephony.Sms
import LumiOS.Telephony.ResultLine
import LumiOS.Telephony.Sim
import LumiOS.Support.Shift
import LumiOS.Telephony.CallArray
import LumiOS.Telephony.Shutdown
import LumiOS.Telephony.StaleIp
import LumiOS.Lumid.KeyValue
import LumiOS.Support.Offsets
import LumiOS.Toolkit.Placement
import LumiOS.Toolkit.Relayout
import LumiOS.Container.Start
import LumiOS.Audio.Volume
import LumiOS.Support.Rises
import LumiOS.Lumid.Boot
import LumiOS.Lumid.RestartRate
import LumiOS.Lumid.Operations
import LumiOS.Lumid.Gating
import LumiOS.Lumid.StopOrder
import LumiOS.Support.BpfCheck
import LumiOS.Sandbox.Nested
import LumiOS.Support.Simulates
import LumiOS.Telephony.CallMemory
import LumiOS.Support.FloatText
import LumiOS.Support.FloatRound
import LumiOS.Audio.SavedVolume
import LumiOS.Support.MountView
import LumiOS.Container.Child
import LumiOS.Container.Devices
import LumiOS.Lumid.LogFile
import LumiOS.Lumid.Recovery
import LumiOS.Toolkit.Repeated
import LumiOS.Toolkit.Memory
import LumiOS.Netd.Monitor
