import CtuCanFd.Lib.SyncMachine
import CtuCanFd.Lib.RingSlots
import CtuCanFd.Lib.FrameQueue
import CtuCanFd.RxBuffer.Model
import CtuCanFd.RxBuffer.Monitor
import CtuCanFd.RxBuffer.Datapath
import CtuCanFd.RxBuffer.Refinement
import CtuCanFd.RxBuffer.Room
import CtuCanFd.RxBuffer.Atomicity
import CtuCanFd.Core.Blocks
import CtuCanFd.Core.CanCore
import CtuCanFd.FrameFilters
import CtuCanFd.RxPath.Model
import CtuCanFd.Core.FsmSteps
import CtuCanFd.Core.CoreSteps
import CtuCanFd.RxPath.Ordering
import CtuCanFd.RxPath.Commands
import CtuCanFd.RxPath.Filtering
import CtuCanFd.Core.Stuffing
import CtuCanFd.Core.TransmitSteps
import CtuCanFd.Core.BitSync
import CtuCanFd.Core.Following
import CtuCanFd.Core.ShiftOut
import CtuCanFd.Core.OwnHeader
import CtuCanFd.RxPath.WordCount
import CtuCanFd.TxPath.Arbitrator
import CtuCanFd.TxPath.Model
import CtuCanFd.TxPath.Steps
import CtuCanFd.TxPath.Coherence
import CtuCanFd.Core.FaultConfinement
import CtuCanFd.Node.Model
import CtuCanFd.Node.Integration
import CtuCanFd.Core.ErrorSources
import CtuCanFd.Node.Confinement
import CtuCanFd.Node.Consistency
import CtuCanFd.Node.BusOff
import CtuCanFd.Core.Locking
import CtuCanFd.Node.Accounting
import CtuCanFd.TxPath.Restricted
import CtuCanFd.Core.StuffLink
import CtuCanFd.Core.DataWords
import CtuCanFd.Node.Retransmission
import CtuCanFd.Core.CanCrc
import CtuCanFd.Core.Coverage
import CtuCanFd.Core.CrcAgreement
import CtuCanFd.Core.Exceptions
import CtuCanFd.Driver.InsertFrame
import CtuCanFd.Driver.TxQueue
import CtuCanFd.Driver.TxOrder
import CtuCanFd.Driver.Interrupt
import CtuCanFd.Prescaler.Model
import CtuCanFd.Prescaler.Segments
import CtuCanFd.Prescaler.SegmentEnd
import CtuCanFd.Lib.Forecast
import CtuCanFd.Prescaler.Countdown
import CtuCanFd.Prescaler.Resync
import CtuCanFd.Prescaler.BitRateSwitch
import CtuCanFd.TxPath.Backup
import CtuCanFd.Driver.Filters
import CtuCanFd.Interface.Ahb
import CtuCanFd.TxPath.Parity
import CtuCanFd.Driver.BitTiming
import CtuCanFd.Driver.Napi
import CtuCanFd.Driver.RoundTrip
import CtuCanFd.RxBuffer.ParityFlag
import CtuCanFd.RxBuffer.ErrorLogging
import CtuCanFd.TxPath.DataReads
import CtuCanFd.Core.CrcRemainder
import CtuCanFd.TxPath.Completion
import CtuCanFd.Driver.SetMode
import CtuCanFd.Core.StuffRules
import CtuCanFd.Core.StuffedOutput
import CtuCanFd.Node.ErrorCounterReset
import CtuCanFd.Node.StuckDominant
import CtuCanFd.BusSampling.Model
import CtuCanFd.BusSampling.SecondarySample
import CtuCanFd.Prescaler.TriggerDiscipline
import CtuCanFd.Driver.Timestamp
import CtuCanFd.Core.Acceptance
import CtuCanFd.Core.FrameSent
import CtuCanFd.Core.WireRoundTrip
import CtuCanFd.Core.Arbitration
import CtuCanFd.BusSampling.DelayCompensation
import CtuCanFd.TxPath.FrameOut
import CtuCanFd.Node.Recovery
