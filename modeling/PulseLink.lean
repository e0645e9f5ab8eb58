import PulseLink.BaseBytes
import PulseLink.BaseProc
import PulseLink.BasePool
import PulseLink.BaseBlocks
import PulseLink.BaseQueue
import PulseLink.BaseAlike
import PulseLink.BaseWait
import PulseLink.BaseMonitor
import PulseLink.BaseGate
import PulseLink.BaseTwoRuns
import PulseLink.BaseLayer
import PulseLink.BaseRefine
import PulseLink.BaseTotal
import PulseLink.BaseOnesComplement
import PulseLink.BaseStencil
import PulseLink.BasePrintf
import PulseLink.Protocol
import PulseLink.Wire
import PulseLink.Telemetry
import PulseLink.NetUtil
import PulseLink.StreamTransfer
import PulseLink.Image
import PulseLink.Bmp
import PulseLink.BmpAccept
import PulseLink.Convolve
import PulseLink.SobelSymmetry
import PulseLink.Frame
import PulseLink.Codecs
import PulseLink.FrameChunk
import PulseLink.FrameReassembly
import PulseLink.FrameInvariant
import PulseLink.FrameSoundness
import PulseLink.FrameAccept
import PulseLink.FrameDuplicate
import PulseLink.DeviceTable
import PulseLink.Server
import PulseLink.ClientWorker
import PulseLink.WorkerRun
import PulseLink.Session
import PulseLink.Checksum
import PulseLink.FrameSession
import PulseLink.Tring
import PulseLink.TringQueue
import PulseLink.Readout
import PulseLink.TelemetryDrv
import PulseLink.TelemetryReset
import PulseLink.ReaderWake
import PulseLink.TelemetryCalls
import PulseLink.RingLog
import PulseLink.SinkDump
import PulseLink.TableInvariant
import PulseLink.TableTraffic
import PulseLink.TableDump
import PulseLink.LastReading
import PulseLink.Sweep
import PulseLink.TableThreads
import PulseLink.WorkerPath
import PulseLink.AckSoundness
import PulseLink.Dialogue
import PulseLink.Accounts
import PulseLink.Workers
import PulseLink.Counters
import PulseLink.TableSink
import PulseLink.Handshake
import PulseLink.DeviceAccounts
import PulseLink.Ticks
import PulseLink.TickTransparency
import PulseLink.Framing
import PulseLink.AbsentPackets
import PulseLink.Maintenance
import PulseLink.Liveness
import PulseLink.Heartbeat
import PulseLink.Daemons
import PulseLink.SensorBuffer
import PulseLink.DeviceBinding
import PulseLink.Reaping
import PulseLink.Strikes
import PulseLink.DeviceStream
import PulseLink.DeviceTools
import PulseLink.Listener
import PulseLink.HostedWorkers
import PulseLink.Segmentation
import PulseLink.Isolation
import PulseLink.ReplyStream
import PulseLink.ConnectionLife
import PulseLink.ConnectionBooks
import PulseLink.Slots
import PulseLink.WorkerArgs
import PulseLink.Shutdown
import PulseLink.Descriptors
import PulseLink.Stopping
import PulseLink.Firmware
import PulseLink.SampleLedger
import PulseLink.Uplink
import PulseLink.LineRuns
import PulseLink.EndToEnd
import PulseLink.HeartbeatPath
import PulseLink.FirmwareLoops
import PulseLink.Watchdog
import PulseLink.FirmwareRefines
import PulseLink.Deadlines
import PulseLink.Backoff
