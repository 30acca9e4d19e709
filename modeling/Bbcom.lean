import Bbcom.ProtocolParserLaws
import Bbcom.ModbusValues
import Bbcom.ModbusReadLaws
import Bbcom.ModbusWriteLaws
import Bbcom.ModbusWindows
import Bbcom.ModbusDelivery
import Bbcom.ModbusRunnerRuns
import Bbcom.WorkspaceHydrationPages
import Bbcom.WriteEpochIsolation
import Bbcom.WriteEpochRuns
import Bbcom.SerialWriteTruth
import Bbcom.TriggerEngine
import Bbcom.SmpPacket
import Bbcom.SmpCbor
import Bbcom.SmpOverflow
import Bbcom.SmpConsoleDecode
import Bbcom.SmpRaw
import Bbcom.MergedFrameRope
import Bbcom.CaptureWedge
import Bbcom.ModbusPause
import Bbcom.ShutdownBarrier
import Bbcom.RxPipelineWakeups
import Bbcom.SerialRxWakeups
import Bbcom.RuntimeRegistryRuns
import Bbcom.OperationRuns
import Bbcom.AutomationExclusion
import Bbcom.AutoLogRuns
import Bbcom.ExportAtomicity
import Bbcom.WorkspaceRestarts
import Bbcom.HydrationFidelity
import Bbcom.Base64Canon
import Bbcom.ParserPanel
import Bbcom.SerialTransactionLease
import Bbcom.ModbusReplay
import Bbcom.FrameSaveQueue
import Bbcom.SerialShellInput
import Bbcom.Waveform
import Bbcom.ModbusStream
import Bbcom.SaveGateRuns
import Bbcom.AsyncSendLoop
import Bbcom.ExportBatches
import Bbcom.LocalDateCache
import Bbcom.SessionProtocolRuntime
import Bbcom.WorkspaceAdapterSecurity
import Bbcom.HexText
