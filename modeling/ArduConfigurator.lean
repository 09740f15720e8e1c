import ArduConfigurator.AiAssistant.LineStream
import ArduConfigurator.CanBus.Allocator
import ArduConfigurator.CanBus.NodeIdChange
import ArduConfigurator.CanBus.ParamWalk
import ArduConfigurator.CanCore.CaptureBuffer
import ArduConfigurator.CanCore.Playback
import ArduConfigurator.CanCore.SlcanReadBack
import ArduConfigurator.DataFlash.WellFormedLogs
import ArduConfigurator.DesktopBridge.Delivery
import ArduConfigurator.DesktopBridge.Lifecycle
import ArduConfigurator.Dronecan.Reassembly
import ArduConfigurator.Dronecan.TypedDecode
import ArduConfigurator.FirmwareFlash.BootloaderCrc
import ArduConfigurator.FirmwareFlash.BootloaderProgram
import ArduConfigurator.FirmwareFlash.DfuCorrect
import ArduConfigurator.FirmwareFlash.DfuLayout
import ArduConfigurator.FirmwareFlash.DfuPlan
import ArduConfigurator.FirmwareFlash.FlashGate
import ArduConfigurator.FirmwareFlash.WebSerialStream
import ArduConfigurator.GuidedActions.AutoConfirm
import ArduConfigurator.GuidedActions.CompassReports
import ArduConfigurator.LogDownload.Integrity
import ArduConfigurator.Mavftp.BurstBound
import ArduConfigurator.Mavftp.DirectoryListing
import ArduConfigurator.Mavftp.PathHelpers
import ArduConfigurator.Mavftp.PathsOnWire
import ArduConfigurator.Mavftp.QueueSilence
import ArduConfigurator.Mavftp.ReplyCorrelation
import ArduConfigurator.Mavftp.SequenceCounter
import ArduConfigurator.Mavftp.StalePackets
import ArduConfigurator.Mavftp.Upload
import ArduConfigurator.Mavlink.LayoutRoundTrip
import ArduConfigurator.Mavlink.Sha256Digest
import ArduConfigurator.Mavlink.TruncatedSigning
import ArduConfigurator.MotorTest.Supersession
import ArduConfigurator.MotorTest.SweepTiming
import ArduConfigurator.Msp.Session
import ArduConfigurator.Parameters.ImportAccounting
import ArduConfigurator.Parameters.JsonBackup
import ArduConfigurator.Parameters.ParamPck
import ArduConfigurator.PlotCore.Chains
import ArduConfigurator.PlotCore.FieldSeries
import ArduConfigurator.Runtime.ChangeTests
import ArduConfigurator.Runtime.CommandAck
import ArduConfigurator.Runtime.FakeGps
import ArduConfigurator.Runtime.RetainedTable
import ArduConfigurator.Runtime.StatusTextChunks
import ArduConfigurator.Runtime.VerifiedWrites
import ArduConfigurator.Setup.RcRangeExercise
import ArduConfigurator.Tables.TextRoundTrip
import ArduConfigurator.Transport.Replay
import ArduConfigurator.Transport.WebSocket
import ArduConfigurator.Transport.WebUsbClaims
import ArduConfigurator.ViewModels.EnableGateOrder
import ArduConfigurator.ViewModels.PlotPanes
import ArduConfigurator.ViewModels.PlotThinning
import ArduConfigurator.ViewModels.PresetMerge
import ArduConfigurator.ViewModels.PresetSerialRemap
import ArduConfigurator.ViewModels.RcLogicReadBack
import ArduConfigurator.ViewModels.SequenceLoss
