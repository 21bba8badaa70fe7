import EdgeFlow.Lib.CText
import EdgeFlow.Lib.Run
import EdgeFlow.Lib.CDouble
import EdgeFlow.Model.DeviceModel
import EdgeFlow.Platform.Config
import EdgeFlow.Runtime.StateEngine
import EdgeFlow.Proof.EngineHistory
import EdgeFlow.Lib.Table
import EdgeFlow.Platform.Storage
import EdgeFlow.Egress.MqttSession
import EdgeFlow.Lib.Mqtt
import EdgeFlow.Proof.MqttFrames
import EdgeFlow.Proof.SessionStream
import EdgeFlow.Proof.SessionCalls
import EdgeFlow.Proof.Survival
import EdgeFlow.Proof.StoredRows
import EdgeFlow.Ingress.Adapter
import EdgeFlow.Runtime.CommandScheduler
import EdgeFlow.Runtime.Worker
import EdgeFlow.Core.Ring
import EdgeFlow.Proof.Interlock
import EdgeFlow.Proof.RingFifo
import EdgeFlow.Runtime.Pipeline
import EdgeFlow.Proof.Shutdown
import EdgeFlow.Runtime.Gateway
import EdgeFlow.Proof.GatewaySteps
import EdgeFlow.Proof.Autonomy
import EdgeFlow.Proof.Upload
import EdgeFlow.Proof.AtMostOnce
import EdgeFlow.Proof.SchedulerRuns
import EdgeFlow.Ingress.ModbusAdapter
import EdgeFlow.Proof.EngineOutputs
import EdgeFlow.Runtime.App
import EdgeFlow.Proof.WorkerCommands
import EdgeFlow.Proof.Counters
import EdgeFlow.Proof.SocketDiscipline
import EdgeFlow.Proof.ConnectPacket
import EdgeFlow.Egress.Replay
import EdgeFlow.Proof.Replay
import EdgeFlow.Proof.Progress
import EdgeFlow.Proof.SessionRules
import EdgeFlow.Proof.DeviceHealth
import EdgeFlow.Proof.QueueDepth
import EdgeFlow.Lib.Buffer
import EdgeFlow.Proof.PublishEncoding
import EdgeFlow.Ingress.ModbusLibmodbus
import EdgeFlow.Proof.Handshake
import EdgeFlow.Proof.ModbusContext
import EdgeFlow.Core.Timers
import EdgeFlow.Proof.Durations
import EdgeFlow.Proof.PollAll
import EdgeFlow.Lib.Json
import EdgeFlow.Lib.JsonText
import EdgeFlow.Proof.MessageSizes
import EdgeFlow.Proof.JsonTexts
import EdgeFlow.Proof.ConfigNumbers
import EdgeFlow.Proof.RemainingLength
import EdgeFlow.Ingress.ModbusRtu
import EdgeFlow.Ingress.ModbusSerial
import EdgeFlow.Lib.ShiftRegister
import EdgeFlow.Proof.CrcDetection
import EdgeFlow.ThirdParty.Modbus
import EdgeFlow.Proof.ModbusReads
import EdgeFlow.Lib.Custody
import EdgeFlow.Runtime.Lifecycle
import EdgeFlow.Proof.Lifecycle
import EdgeFlow.Proof.LifecycleRuns
import EdgeFlow.Lib.JsonGrammar
import EdgeFlow.Proof.CJsonReads
import EdgeFlow.Lib.Binary64
import EdgeFlow.Proof.LineToBroker
