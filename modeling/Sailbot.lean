import Sailbot.Lib.Transition
import Sailbot.Lib.Ring
import Sailbot.Lib.Bytes
import Sailbot.Lib.Fp
import Sailbot.Lib.PriorityQueue
import Sailbot.Lib.Family
import Sailbot.Lib.Loop
import Sailbot.Lib.Choices
import Sailbot.Lib.Json
import Sailbot.Lib.Arith
import Sailbot.Lib.Plane
import Sailbot.Lib.Segment
import Sailbot.Lib.ClosedPath
import Sailbot.Lib.Arc
import Sailbot.Lib.Heading
import Sailbot.Lib.Reflection
import Sailbot.Lib.Space
import Sailbot.Lib.Least
import Sailbot.Lib.Number
import Sailbot.Lib.Latest
import Sailbot.Lib.Channel
import Sailbot.Lib.Watchdog
import Sailbot.Ipc.MessageQueue
import Sailbot.Ipc.System
import Sailbot.Ipc.Representation
import Sailbot.Ipc.Delivery
import Sailbot.Ipc.Fifo
import Sailbot.Ipc.InOrder
import Sailbot.Ipc.Lifecycle
import Sailbot.Ipc.Removal
import Sailbot.Ipc.TestQueue
import Sailbot.Can.CanId
import Sailbot.Can.PgnList
import Sailbot.Can.Proto
import Sailbot.Can.Decode
import Sailbot.Can.Node
import Sailbot.Can.Buffer
import Sailbot.Can.FastPacket
import Sailbot.Can.Sequence
import Sailbot.Can.Stale
import Sailbot.Can.RawValue
import Sailbot.Can.NotAvailable
import Sailbot.Can.Construct
import Sailbot.Can.RoundTrip
import Sailbot.Can.Send
import Sailbot.RigidWing.Feedback
import Sailbot.RigidWing.Command
import Sailbot.Control.ActuatorCmd
import Sailbot.Control.Scamp
import Sailbot.Control.ScampRange
import Sailbot.Control.ScampWinch
import Sailbot.Control.WaypointManager
import Sailbot.Control.Challenges
import Sailbot.Control.ChallengeRuns
import Sailbot.Control.Calibration
import Sailbot.Control.Constants
import Sailbot.Math.Polygon
import Sailbot.Math.Line
import Sailbot.Math.Distance
import Sailbot.Math.Validate
import Sailbot.Control.LineCost
import Sailbot.Control.ObstacleCost
import Sailbot.Control.LinePath
import Sailbot.Control.LinePathSearch
import Sailbot.Control.LinePathCosts
import Sailbot.Control.LinePlan
import Sailbot.Control.LinePlanIndex
import Sailbot.Control.LinePlanFrame
import Sailbot.Control.LinePlanPath
import Sailbot.Control.GateCrossing
import Sailbot.Control.Angle
import Sailbot.Control.Tacks
import Sailbot.Control.TurnCost
import Sailbot.Control.CostGradient
import Sailbot.Control.LineGradient
import Sailbot.Control.GatePlacement
import Sailbot.Control.LinePlanProgress
import Sailbot.Control.Attitude
import Sailbot.Control.Orthogonalize
import Sailbot.Control.Simple
import Sailbot.Control.SimpleVoltage
import Sailbot.Control.Adaptive
import Sailbot.Control.AdaptiveSearch
import Sailbot.Control.AdaptiveControl
import Sailbot.Control.Ballast
import Sailbot.Control.LineTacking
import Sailbot.Control.LineTackingIndex
import Sailbot.Control.LineTackingDone
import Sailbot.Control.LineTackingDistance
import Sailbot.Util.Clock
import Sailbot.Util.Sleep
import Sailbot.Util.Loop
import Sailbot.Util.Logger
import Sailbot.Util.LogReader
import Sailbot.Util.LogReplay
import Sailbot.Ui.LogEntry
import Sailbot.Ui.CurrentVal
import Sailbot.Ui.Server
import Sailbot.Sensor.ReadSbus
import Sailbot.Sensor.StateEstimator
import Sailbot.Sim.FakeAirmar
import Sailbot.Sim.SensorLoop
import Sailbot.Sim.Saoud
import Sailbot.Sim.TrivialDynamics
import Sailbot.Sim.SimulatorNode
import Sailbot.Sim.SailSide
import Sailbot.Management.Monitor
import Sailbot.Control.Helm
import Sailbot.Ui.Requests
import Sailbot.Ui.SailWidget
import Sailbot.Ui.Connection
import Sailbot.Ui.Widget
import Sailbot.Ui.Obstacles
import Sailbot.Ui.Reply
import Sailbot.Ui.DataPage
import Sailbot.Ui.Polling
