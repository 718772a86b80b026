import MgRobot.SystemManager.DockerOps
import Mathlib.Data.List.Infix

/-!
# The requests of the API

The requests that operate on containers, each as the program that its handler
runs in a thread of its own.
-/

namespace MgRobot.SystemManager

set_option autoImplicit false

open MgRobot.Lib MgRobot.Lib.Resumption

structure Response where
  success : Bool
  message : String
  runId : Option String
  deriving DecidableEq, Repr

def result (r : Bool × String) : Response := ⟨r.1, r.2, none⟩

structure ScenarioTestStartRequest where
  scenarios : List String
  repeats : Int
  gui : Bool
  attach : Bool
  robot : String
  deriving DecidableEq, Repr

inductive Request where
  | start (service : String)
  | stop (service : String)
  | restart (service : String)
  | scenarioStackStart (package file : String) (args : List (String × String))
  | scenarioStackStop
  | scenarioTestStart (body : ScenarioTestStartRequest)
  | scenarioTestStop
  | scenarioEnvStart (gui : Bool)
  | scenarioEnvStop
  | previewStart (slamMapPath : String)
  | previewStop
  | reoptimizeStart (inputDir bagPath saveDir : String)
  | reoptimizeStop
  | rosbagReplayStart (file : String) (topics : List String)
  | rosbagReplayStop
  deriving DecidableEq, Repr

open ComposeRunner

/-- Those of the services that run. -/
def runningOf (status : Status) (services : List String) : List String :=
  services.filter fun s => status.get? s = some .running

/-! ## services.py -/

namespace Services

/-- The routes that `_add_routes` makes, for the services it knows. -/
def route (service : String) (p : Program (Bool × String)) : Program Response := do
  if service ∈ SERVICE_KEYS then pure (result (← p)) else pure (result (false, "Not Found"))

def start (service : String) : Program Response := route service (up service [] 60 [])
def stop (service : String) : Program Response := route service (ComposeRunner.stop service none)
def restart (service : String) : Program Response := route service (ComposeRunner.restart service)

end Services

/-! ## scenario_stack.py -/

namespace ScenarioStack

/-- What is wrong with the request, if anything. -/
def validate (settings : Settings) (package file : String) (args : List (String × String)) :
    Option String :=
  if package ∉ settings.scenarioStackAllowedPackages then some ("package not allowed: " ++ package)
  else if PATH_RE file = false ∨ ['.', '.'] <:+: file.toList then some "invalid file"
  else args.findSome? fun (key, value) =>
    if !ARG_KEY_RE key then some ("invalid arg name: " ++ key)
    else if !PATH_RE value then some ("invalid arg value for " ++ key)
    else none

/-- `_start` -/
def startStack (package file : String) (args : List (String × String)) :
    Program (Bool × String) :=
  catchBusy <| operation SCENARIO_STACK_SERVICE true do
    let status ← getStatus
    let running := runningOf status HARDWARE_SERVICE_KEYS
    if !running.isEmpty then pure (false, "hardware services are running: " ++ reprKeys running)
    else
      up SCENARIO_STACK_SERVICE
        [("STACK_PACKAGE", package), ("STACK_FILE", file),
          ("STACK_ARGS", " ".intercalate (args.map fun (k, v) => k ++ ":=" ++ v))]
        120 ["--force-recreate"]

/-- `_stop` -/
def stopStack : Program (Bool × String) :=
  catchBusy <| operation SCENARIO_STACK_SERVICE false do
    match ← getContainer SCENARIO_STACK_SERVICE with
    | none => pure (true, "not running")
    | some _ => do
        let (ok, msg) ← ComposeRunner.stop SCENARIO_STACK_SERVICE (some 30)
        if !ok then pure (false, msg) else remove SCENARIO_STACK_SERVICE

def start (settings : Settings) (package file : String) (args : List (String × String)) :
    Program Response :=
  match validate settings package file args with
  | some message => pure (result (false, message))
  | none => do pure (result (← startStack package file args))

def stop : Program Response := do pure (result (← stopStack))

end ScenarioStack

/-! ## scenario_test.py -/

namespace ScenarioTest

/-- `_validate_start` -/
def validateStart (body : ScenarioTestStartRequest) : Option String :=
  if body.scenarios.isEmpty then some "no scenarios selected"
  else if 100 < body.scenarios.length then some "too many scenarios (max 100)"
  else
    match body.scenarios.find? fun name => !SCENARIO_NAME_RE name with
    | some name => some ("invalid scenario name: " ++ name)
    | none =>
        if ¬ (1 ≤ body.repeats ∧ body.repeats ≤ 20) then some "repeat must be between 1 and 20"
        else if body.robot ≠ "" ∧ HOST_RE body.robot = false then some "invalid robot address"
        else if body.robot ≠ "" ∧ body.attach = true then
          some "robot and attach cannot be used together"
        else none

/-- What a run without `--attach` must not meet. -/
def CONFLICTING_SERVICES : List String :=
  [SCENARIO_ENV_SERVICE, GAZEBO_SERVICE] ++ HARDWARE_SERVICE_KEYS

/-- `_check_running_services` -/
def checkRunningServices (status : Status) (body : ScenarioTestStartRequest) : Option String :=
  if status.get? SCENARIO_TEST_SERVICE = some .running then some "scenario test is already running"
  else if body.attach then
    if (runningOf status [SCENARIO_ENV_SERVICE, GAZEBO_SERVICE]).isEmpty then
      some ("attach needs a running simulator and stack (" ++ SCENARIO_ENV_SERVICE ++ " or " ++
        GAZEBO_SERVICE ++ ")")
    else none
  else
    let conflicting := runningOf status CONFLICTING_SERVICES
    if !conflicting.isEmpty then some ("stop these services first: " ++ reprKeys conflicting)
    else none

def buildScenarioArgs (body : ScenarioTestStartRequest) (settings : Settings)
    (resultsDir : String) : List String :=
  ["run-all"] ++ body.scenarios ++ (settings.scenarioDirs.flatMap fun d => ["--scenario-dir", d]) ++
    ["--results-dir", resultsDir] ++
    (if 1 < body.repeats then ["--repeat", toString body.repeats] else []) ++
    (if body.attach then ["--attach"] else if body.gui then ["--gui"] else []) ++
    (if body.robot ≠ "" then ["--remote-stack", "http://" ++ body.robot ++ ":8001"] else [])

def remoteEnv (body : ScenarioTestStartRequest) (settings : Settings) : List String :=
  if body.robot = "" then []
  else
    ["-e", "ROS_DOMAIN_ID=" ++ settings.scenarioRosDomainId,
      "-e", "CYCLONEDDS_URI=file:///app/docker/cyclonedds/remote.xml",
      "-e", "MG_REMOTE_PEER=" ++ body.robot]

/-- `_start` up to its `except` -/
def startRun (settings : Settings) (body : ScenarioTestStartRequest) (runId : String) :
    Program Response :=
  operation SCENARIO_TEST_SERVICE false do
    let status ← getStatus
    match checkRunningServices status body with
    | some error => pure (result (false, error))
    | none => do
        removeStopped SCENARIO_TEST_SERVICE
        let scenarioArgs := " ".intercalate
          (buildScenarioArgs body settings (settings.scenarioResultsDir ++ "/" ++ runId))
        let (ok, msg) ← compose
          (["run", "-d"] ++ remoteEnv body settings ++
            ["-e", "SCENARIO_ARGS=" ++ scenarioArgs, SCENARIO_TEST_SERVICE]) [] 60
        pure ⟨ok, msg, some (if ok then runId else "")⟩

def start (settings : Settings) (body : ScenarioTestStartRequest) : Program Response :=
  match validateStart body with
  | some error => pure (result (false, error))
  | none => do
      let runId : String ← Prog.perform Action.strftime
      (startRun settings body runId).tryCatch fun
        | .busy message => pure (result (false, message))
        | e => .raise e

def stop : Program Response := do
  pure (result (← ComposeRunner.stop SCENARIO_TEST_SERVICE (some 10)))

/-- The checks of `scenario_env_start`. -/
def checkEnv (status : Status) : Option String :=
  if status.get? SCENARIO_TEST_SERVICE = some .running then some "scenario test is running"
  else
    let conflicting := runningOf status (GAZEBO_SERVICE :: HARDWARE_SERVICE_KEYS)
    if !conflicting.isEmpty then some ("stop these services first: " ++ reprKeys conflicting)
    else none

def startEnv (settings : Settings) (gui : Bool) : Program Response := do
  let status ← getStatus
  match checkEnv status with
  | some error => pure (result (false, error))
  | none => do
      pure (result (← up SCENARIO_ENV_SERVICE
        [("SCENARIO_ENV_ARGS", "profile:=" ++ settings.scenarioProfile ++ " world:=" ++
          settings.simulationWorld ++ " headless:=" ++ if gui then "false" else "true")]
        120 ["--force-recreate"]))

def stopEnv : Program Response := do
  pure (result (← ComposeRunner.stop SCENARIO_ENV_SERVICE none))

end ScenarioTest

/-! ## maps.py and rosbag.py -/

namespace Maps

def startPreview (slamMapPath : String) : Program Response :=
  if !PATH_RE slamMapPath then pure (result (false, "invalid slam_map_path"))
  else do pure (result (← up MAP_PREVIEW_SERVICE [("SLAM_MAP_DIR", slamMapPath)] 60 []))

def startReoptimize (inputDir bagPath saveDir : String) : Program Response :=
  if !PATH_RE inputDir then pure (result (false, "invalid input_dir"))
  else if bagPath ≠ "" ∧ PATH_RE bagPath = false then pure (result (false, "invalid bag_path"))
  else if saveDir ≠ "" ∧ PATH_RE saveDir = false then pure (result (false, "invalid save_dir"))
  else do
    pure (result (← up REOPTIMIZE_SERVICE
      [("INPUT_DIR", inputDir), ("BAG_PATH", bagPath), ("SAVE_DIR", saveDir)] 60 []))

end Maps

namespace Rosbag

def startReplay (file : String) (topics : List String) : Program Response :=
  if !PATH_RE file then pure (result (false, "invalid file path"))
  else
    match topics.find? fun topic => !PATH_RE topic with
    | some topic => pure (result (false, "invalid topic: " ++ topic))
    | none => do
        pure (result (← up ROSBAG_REPLAY_SERVICE
          [("ROSBAG_FILE", file), ("ROSBAG_TOPICS", " ".intercalate topics)] 60 []))

end Rosbag

/-- A request that stops a service and nothing more. -/
def stopService (service : String) : Program Response := do
  pure (result (← ComposeRunner.stop service none))

def handler (settings : Settings) : Request → Program Response
  | .start service => Services.start service
  | .stop service => Services.stop service
  | .restart service => Services.restart service
  | .scenarioStackStart package file args => ScenarioStack.start settings package file args
  | .scenarioStackStop => ScenarioStack.stop
  | .scenarioTestStart body => ScenarioTest.start settings body
  | .scenarioTestStop => ScenarioTest.stop
  | .scenarioEnvStart gui => ScenarioTest.startEnv settings gui
  | .scenarioEnvStop => ScenarioTest.stopEnv
  | .previewStart slamMapPath => Maps.startPreview slamMapPath
  | .previewStop => stopService MAP_PREVIEW_SERVICE
  | .reoptimizeStart inputDir bagPath saveDir => Maps.startReoptimize inputDir bagPath saveDir
  | .reoptimizeStop => stopService REOPTIMIZE_SERVICE
  | .rosbagReplayStart file topics => Rosbag.startReplay file topics
  | .rosbagReplayStop => stopService ROSBAG_REPLAY_SERVICE

/-! ## Requests side by side -/

abbrev World := Pool Host Request Action Action.Response Exn Response

/-- A request comes in, a thread goes on, or the engine changes the containers. -/
abbrev Event := Resumption.Event Request Outcome (List Container)

def shared : Shared Host Action Action.Response Outcome (List Container) := ⟨Host.perform, Host.engine⟩

def step (settings : Settings) : World → Event → Option World :=
  Pool.step shared (handler settings)

/-- No request is in progress; the containers may be anything. -/
def initial (containers : List Container) : World :=
  ⟨⟨containers, [], fun _ => none, fun _ => none⟩, []⟩

end MgRobot.SystemManager
