import OemAaMod.Lib.CStr
import OemAaMod.Lib.Run
import OemAaMod.Lib.Utf8
import OemAaMod.Lib.Wire
import OemAaMod.Lib.Motion
import OemAaMod.Common.VbsNaviHud
import OemAaMod.Common.Translit
import OemAaMod.Nav16.Reader
import OemAaMod.Nav16.Decoder
import OemAaMod.Nav16.RoundTrip
import OemAaMod.Nav16.Cut
import OemAaMod.Nav16.Feed
import OemAaMod.Relay.Frame
import OemAaMod.Relay.FirstStep
import OemAaMod.Hud.Lane
import OemAaMod.Hud.Glyph
import OemAaMod.Hud.Transport
import OemAaMod.Hud.Accumulator
import OemAaMod.Hud.Callback
import OemAaMod.Relay.Paths
import OemAaMod.Relay.Delivery
import OemAaMod.Hud.Street
import OemAaMod.Hud.Pipeline
import OemAaMod.Hud.Updates
import OemAaMod.Hud.Session
import OemAaMod.Hud.Wakeup
import OemAaMod.Hud.Ownership
import OemAaMod.Merge.Hook
import OemAaMod.Merge.Stream
import OemAaMod.Touch.Send
import OemAaMod.Touch.Diff
import OemAaMod.Touch.Stream
import OemAaMod.Carplay.Send
import OemAaMod.Carplay.Sender
import OemAaMod.Carplay.NavOff
import OemAaMod.Carplay.ClearRequest
import OemAaMod.Carplay.NextRoute
import OemAaMod.Carplay.KeepAlive
import OemAaMod.Hud.Frames
import OemAaMod.Carplay.Nav
import OemAaMod.Carplay.Selection
import OemAaMod.Hud.Blank
import OemAaMod.Hud.Mirror
import OemAaMod.Touch.Focus
import OemAaMod.PlayPause.Bridge
import OemAaMod.PlayPause.Resume
import OemAaMod.Lib.Logged
import OemAaMod.Nav16.Memory
import OemAaMod.Nav16.Safety
import OemAaMod.Nav16.Sound
import OemAaMod.Hud.LaneCode
import OemAaMod.Common.FoldLaws
import OemAaMod.Lib.Utf8Cut
import OemAaMod.Carplay.Street
import OemAaMod.Hud.Roundabout
import OemAaMod.Lib.WriteLog
import OemAaMod.Touch.Reader
import OemAaMod.Lib.Decimal
import OemAaMod.Hud.Distance
import OemAaMod.Hud.WireDistance
import OemAaMod.Lib.LastRun
import OemAaMod.Carplay.Window
import OemAaMod.Lib.Quantizer
import OemAaMod.Lib.ChangeGate
import OemAaMod.Lib.Image
import OemAaMod.Carplay.Dedup
import OemAaMod.Hud.Gate
import OemAaMod.Carplay.Generation
import OemAaMod.Lib.SlotTable
import OemAaMod.Audio.Threshold
import OemAaMod.Bt16pair.Activator
import OemAaMod.Lib.LastAssign
import OemAaMod.Lib.Trim
import OemAaMod.Common.Config
import OemAaMod.Common.ConfigFile
import OemAaMod.Lib.Pattern
import OemAaMod.Lib.Text
import OemAaMod.Lib.Edit
import OemAaMod.Installer.Service
import OemAaMod.Installer.Patch
import OemAaMod.Installer.Runs
import OemAaMod.Installer.Installed
import OemAaMod.Installer.Uninstall
import OemAaMod.Lib.Seqlock
import OemAaMod.Hud.LockedSnapshot
import OemAaMod.Hud.Range
import OemAaMod.Installer.History
import OemAaMod.Installer.Etc
import OemAaMod.Preload.Resolve
import OemAaMod.Preload.Guard
import OemAaMod.Relay.Boot
import OemAaMod.Lib.Holding
import OemAaMod.Lifecycle.Worker
import OemAaMod.Lifecycle.Process
import OemAaMod.Hud.AtRest
import OemAaMod.Lib.Contract
import OemAaMod.Bus.LibDbus
import OemAaMod.Bus.LibJciDbus
import OemAaMod.Bus.Senders
import OemAaMod.PlayPause.Watches
