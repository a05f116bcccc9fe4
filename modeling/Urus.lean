import Urus.AcFence
import Urus.Adsb.Eviction
import Urus.Avr.I2cDevice
import Urus.Avr.RcInput
import Urus.Avr.TimerProcs
import Urus.AvrUart.Transmit
import Urus.Beacon.Stream
import Urus.Cygwin.BusThread
import Urus.Cygwin.Delay
import Urus.DataFlash.Delivery
import Urus.Eeprom.Runs
import Urus.F4Storage.Convergence
import Urus.FlashStorage.PowerLoss
import Urus.FlashStorage.Recursion
import Urus.Frsky.Frames
import Urus.Frsky.TextChunks
import Urus.Gcs.Deferred
import Urus.Gcs.Streaming
import Urus.Gcs.StatusText
import Urus.Gps.Series
import Urus.Gps.Ubx
import Urus.Gps.Sbp
import Urus.Gps.Gsof
import Urus.Gps.Calendar
import Urus.Gps.NmeaFix
import Urus.HalStorage.ReadYourWrites
import Urus.HalStorage.LinuxWriteBack
import Urus.IoMcu.Events
import Urus.IoMcu.Registers
import Urus.Joypad
import Urus.LogFiles.Numbering
import Urus.LogTransfer.Download
import Urus.LogTransfer.Listing
import Urus.Mission.Termination
import Urus.Mission.DoCommands
import Urus.Mission.LookAhead
import Urus.Mission.TwoUploads
import Urus.Mission.Roundtrip
import Urus.Mission.Partial
import Urus.Param.PowerLoss
import Urus.Param.Hiding
import Urus.Param.Load
import Urus.Param.LoadObject
import Urus.Polygon
import Urus.Rally
import Urus.RcProtocol.PpmSum
import Urus.RcProtocol.SbusLink
import Urus.RcProtocol.DsmPulse
import Urus.RcProtocol.DsmDecode
import Urus.RcProtocol.SrxlFrames
import Urus.RcProtocol.SerialSafety
import Urus.Revo.RandomAccess
import Urus.Revo.Search
import Urus.RingBuffer.Objects
import Urus.Routing.Theory
import Urus.Semaphores
import Urus.Servo.PassThrough
import Urus.Servo.Functions
import Urus.ServoRelayEvents
import Urus.SmartRtl.Simplify
import Urus.SmartRtl.Bounds
import Urus.TaskScheduler
import Urus.Terrain.WriteBack
import Urus.Terrain.Layout
