import Questix.PwmGuard.FaultTheorems
import Questix.PwmGuard.LeaseTheorems
import Questix.MotorControl.DriveTimeoutTheorems
import Questix.MotorControl.DdtGuardTheorems
import Questix.CommandArbiter.DriveCapTheorems
import Questix.EscMotorControl.RollerCommandLogic
import Questix.EscMotorControl.Rp1Theorems
import Questix.WebJoyDriver.WebJoyTheorems
import Questix.OperationManager.PermissionTheorems
import Questix.MotorControl.ShotTeardownTheorems
import Questix.MotorControl.ShotIntervalTheorems
import Questix.MotorControl.ShotReplayTheorems
import Questix.LabBridge.DriveTheorems
import Questix.RobotManager.RecorderTheorems
import Questix.RobotManager.RequestTheorems
import Questix.RobotManager.StartRequestTheorems
import Questix.RobotManager.NetworkTheorems
import Questix.EscMotorControl.PwmCommand
import Questix.CommandArbiter.LabRunTheorems
import Questix.MotorControl.LauncherEventTheorems
import Questix.MotorControl.DdtBrakeTheorems
import Questix.MotorControl.WheelStateTheorems
import Questix.MotorControl.NeutralLqrTheorems
import Questix.LabBridge.SaveTheorems
import Questix.MotorControl.DriveSlewTheorems
import Questix.MotorControl.WheelControllerTheorems
import Questix.MotorControl.WheelUnwrapTheorems
import Questix.MotorControl.DdtFramingTheorems
import Questix.UartJoyDriver.JoyLineTheorems
import Questix.UartJoyDriver.DropoutTheorems
import Questix.UartJoyDriver.UartFramingTheorems
import Questix.RobotManager.HeartbeatTheorems
import Questix.MotorControl.FeetechTheorems
import Questix.RobotManager.ControlsTheorems
import Questix.LabBridge.ShootGuardTheorems
import Questix.LabBridge.RefusedSaveTheorems
import Questix.LabBridge.AutoRecorderTheorems
import Questix.RobotManager.ReadinessTheorems
import Questix.PwmGuard.Protocol
import Questix.MotorControl.CurrentPiTheorems
import Questix.MotorControl.DriveParamsTheorems
import Questix.MotorControl.OdometryIntegrator
import Questix.RobotManager.ExcludeTopics
import Questix.LabBridge.PayloadTheorems
import Questix.LabBridge.StaticSite
import Questix.LabPage.ShootLinkTheorems
import Questix.LabBridge.FanOutTheorems
import Questix.LabBridge.TiltTheorems
import Questix.LabPage.UsbProtocolTheorems
import Questix.LabPage.RoomMapTheorems
import Questix.LabPage.RecordingTheorems
import Questix.RobotManager.EstopMonitor
import Questix.LabPage.RobotLinkTheorems
import Questix.LabPage.McapTheorems
import Questix.Blockly.BridgeRuns
import Questix.Identify.StepSequence
import Questix.LabPage.ArmKinematics
import Questix.LabPage.CameraFit
import Questix.LabPage.OdomGoal
import Questix.LabPage.PairByStamp
import Questix.LabPage.BrowserSlamTheorems
import Questix.LabPage.ProgressTheorems
import Questix.LabPage.SlamEngineTheorems
import Questix.MotorControl.CrcTheorems
import Questix.MotorControl.OscillationTheorems
import Questix.LabPage.Morphology
import Questix.LabPage.LaunchEstimate
import Questix.LabPage.StepMetrics
import Questix.LabPage.QuadTransform
import Questix.LabPage.PlanShortest
