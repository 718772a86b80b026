import MgRobot.Sequencer.NavHandOver
import MgRobot.Sequencer.NavTruth
import MgRobot.Sequencer.Outstanding
import MgRobot.Sequencer.Stop
import MgRobot.Localization.Corroboration
import MgRobot.Localization.GateTruth
import MgRobot.Lib.Replica
import MgRobot.WebUi.PoseGraphSync
import MgRobot.Slam.EdgeRuns
import MgRobot.Slam.Anchoring
import MgRobot.Slam.DiffRuns
import MgRobot.Slam.DrawnRuns
import MgRobot.Slam.ExactAlignment
import MgRobot.Localization.RecoveryRuns
import MgRobot.Localization.SupervisorGate
import MgRobot.Sequencer.CostmapMode
import MgRobot.SystemManager.LogHub
import MgRobot.SystemManager.LogHubRuns
import MgRobot.EventLog.Format
import MgRobot.EventLog.Agreement
import MgRobot.Scenario.Nav2Goals
import MgRobot.Scenario.Timeline
import MgRobot.Scenario.Engine
import MgRobot.Scenario.RemoteStack
import MgRobot.Scenario.ResultDirs
import MgRobot.Scenario.TimeoutRuns
import MgRobot.Watchdog.Activity
import MgRobot.Watchdog.Node
import MgRobot.Watchdog.SelfLag
import MgRobot.WebUi.FoxgloveConnection
import MgRobot.WebUi.FoxgloveServer
import MgRobot.WebUi.Reconcile
import MgRobot.WebUi.CallSettlement
import MgRobot.WebUi.PublishRuns
import MgRobot.WebUi.SubscriptionRuns
import MgRobot.WebUi.LogStreamRows
import MgRobot.Lib.Resumption
import MgRobot.SystemManager.DockerOps
import MgRobot.SystemManager.Routers
import MgRobot.SystemManager.Discipline
import MgRobot.SystemManager.Handlers
import MgRobot.SystemManager.Exclusion
import MgRobot.SystemManager.ScenarioArgs
import MgRobot.SystemManager.ScenarioConflicts
import MgRobot.BtPlugins.ClearanceTracker
import MgRobot.BtPlugins.IsPathClear
import MgRobot.BtPlugins.PathClearance
import MgRobot.BtPlugins.ArcTermination
import MgRobot.BtPlugins.ResampleCoverage
import MgRobot.BtPlugins.FootprintEdges
import MgRobot.BtPlugins.LethalCells
import MgRobot.Lib.PlainValue
import MgRobot.WaypointFile.Loader
import MgRobot.WaypointFile.SavedList
import MgRobot.WaypointFile.RoundTrip
import MgRobot.WaypointFile.Migration
import MgRobot.WaypointFile.Editor
import MgRobot.WaypointFile.EditorItems
import MgRobot.WaypointFile.EditorRuns
import MgRobot.Lib.RigidAlignment
import MgRobot.Slam.ReanchorResidual
import MgRobot.Sequencer.ActionThreads
import MgRobot.Sequencer.ModeAgreement
import MgRobot.Sequencer.PlanLength
import MgRobot.Sequencer.ThroughPoints
import MgRobot.Sequencer.ThroughPointRuns
import MgRobot.Lib.RigidMotion
import MgRobot.Slam.RelativePoses
import MgRobot.Slam.OdometryCarried
import MgRobot.Lib.SortedSearch
import MgRobot.Slam.TimeSeries
import MgRobot.Lib.ParallelFor
import MgRobot.Slam.CountingRenderer
import MgRobot.Slam.RenderedCounts
import MgRobot.Slam.HitCells
import MgRobot.Lib.FloorMultiples
import MgRobot.Slam.CellOccupancy
import MgRobot.Slam.CorrelativeSearch
import MgRobot.Slam.SearchOrder
import MgRobot.Lib.RecentCache
import MgRobot.Slam.NearLinkBatches
import MgRobot.Slam.LinkRuns
import MgRobot.Lib.PositiveDefinite
import MgRobot.Slam.EdgeInformation
import MgRobot.Slam.NodePositions
import MgRobot.Watchdog.Hysteresis
import MgRobot.Slam.BridgeHeading
import MgRobot.Slam.BridgeRuns
import MgRobot.Localization.RollbackRuns
import MgRobot.Localization.ReinitThreads
import MgRobot.Slam.LocalMapReference
import MgRobot.Slam.Deskew
import MgRobot.Lib.PointIndex
import MgRobot.Lib.Segments
import MgRobot.Lib.Outcomes
import MgRobot.Scenario.SpecParser
import MgRobot.Scenario.SpecSchema
import MgRobot.Scenario.SpecVerdict
import MgRobot.Scenario.SpecExactness
import MgRobot.Lib.EvenOdd
import MgRobot.Scenario.Geometry
import MgRobot.Scenario.PolygonDistance
import MgRobot.Scenario.ObstacleClearance
import MgRobot.Scenario.ClearanceRuns
import MgRobot.Scenario.ClearanceVerdict
import MgRobot.Slam.LoopSearchRuns
import MgRobot.Slam.BuilderReset
import MgRobot.ObstacleDetection.DetectorRuns
import MgRobot.WheelOdom.OdomCorrector
import MgRobot.Drivers.MotorDriverNode
import MgRobot.Drivers.WheelOdometryNode
import MgRobot.Nav2CollisionMonitor.Node
import MgRobot.Slam.LikelihoodField
import MgRobot.Slam.NewLoopEdges
