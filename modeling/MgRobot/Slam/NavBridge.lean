import Mathlib.Algebra.Order.Floor.Ring
import MgRobot.Slam.Geometry

/-!
# SlamGnssNavBridgeNode

The GNSS navigation bridge with `gnss/nav_bridge_core`: what its callbacks do with a
fix and with a request to switch the publication. The projection to UTM, the clock
and the transform that the listener holds come from outside.
-/

namespace MgRobot.Slam

set_option autoImplicit false

/-- `CarrierSolution`. -/
inductive CarrierSolution where
  | none
  | float
  | fixed
  deriving DecidableEq, Repr

structure PositionQualityConfig (R : Type*) where
  fixFloorM : R
  floatFloorM : R
  singleFloorM : R
  fixScale : R
  floatScale : R
  singleScale : R
  acceptSingle : Bool
  maxCovarianceThreshold : R

structure Quaternion (R : Type*) where
  x : R
  y : R
  z : R
  w : R
  deriving DecidableEq, Repr

/-- `ublox_msgs/NavPVT`, as far as the bridge reads it. -/
structure NavPVT where
  flags : UInt8
  fixType : Nat
  hAcc : Nat
  lat : Int
  lon : Int
  heading : Int
  deriving DecidableEq, Repr

/-- `sensor_msgs/NavSatFix`, as far as the bridge reads it. -/
structure NavSatFix (R : Type*) where
  stamp : R
  status : Int
  latitude : R
  longitude : R
  /-- `position_covariance[0]`. -/
  covariance : R
  deriving DecidableEq, Repr

/-- `nav_msgs/Odometry`. -/
structure Odometry (R : Type*) where
  stamp : R
  frameId : String
  childFrameId : String
  x : R
  y : R
  z : R
  orientation : Quaternion R
  covariance : Fin 36 → R

structure NavBridgeConfig (R : Type*) where
  mapFrameId : String
  baseFrameId : String
  gpsFrameId : String
  headingSource : String
  headingMinDist : R
  headingAlpha : R
  minPubDist : R
  quality : PositionQualityConfig R
  leverArmCompensation : Bool
  leverX : R
  leverY : R
  yawMaxAgeSec : R
  timeOffsetSec : R
  anchorEasting : R
  anchorNorthing : R
  rotationRad : R

/-- The defaults of the constructor, with an anchor at the origin. -/
def NavBridgeConfig.defaults {R : Type*} [Field R] : NavBridgeConfig R where
  mapFrameId := "map"
  baseFrameId := "base_footprint"
  gpsFrameId := "gps_link"
  headingSource := "computed"
  headingMinDist := 6 / 10
  headingAlpha := 6 / 10
  minPubDist := 1
  quality := ⟨2 / 100, 2 / 100, 2 / 100, 1, 1, 1, true, 49⟩
  leverArmCompensation := true
  leverX := 26 / 100
  leverY := -13 / 100
  yawMaxAgeSec := 1
  timeOffsetSec := 0
  anchorEasting := 0
  anchorNorthing := 0
  rotationRad := 0

/-- The `(x, y)` members are set together. -/
structure NavBridge (R : Type*) where
  lastMap : Option (R × R)
  lastHeading : Option R
  lastPub : Option (R × R)
  publishEnabled : Bool
  lastAdopted : Option R
  lastRejectReason : String
  deriving DecidableEq, Repr

/-- What a callback reads of its surroundings: `now()` and the latest `map -> base` transform. -/
structure Surroundings (R : Type*) where
  now : R
  transform : Option (R × Quaternion R)

/-- `CarrierFromFlags`. -/
def carrierFromFlags (flags : UInt8) : CarrierSolution :=
  match (flags >>> 6) &&& 3 with
  | 2 => .fixed
  | 1 => .float
  | _ => .none

variable {R : Type*} [Field R] [LinearOrder R]

/-- `PositionVariance`. -/
def positionVariance (cfg : PositionQualityConfig R) (carrier : CarrierSolution) (hAccM : R) :
    Option R :=
  if carrier = .none ∧ cfg.acceptSingle = false then none
  else
    let p := match carrier with
      | .fixed => (cfg.fixFloorM, cfg.fixScale)
      | .float => (cfg.floatFloorM, cfg.floatScale)
      | .none => (cfg.singleFloorM, cfg.singleScale)
    let sigma := max hAccM p.1
    let variance := sigma * sigma * p.2
    if cfg.maxCovarianceThreshold < variance * 2 then none else some variance

namespace Numerics

variable (m : Numerics R)

/-- `AntennaToBase`. -/
def antennaToBase (antenna : R × R) (baseYaw leverX leverY : R) : R × R :=
  let c := m.cos baseYaw
  let s := m.sin baseYaw
  (antenna.1 - (c * leverX - s * leverY), antenna.2 - (s * leverX + c * leverY))

/-- `euler_to_quaternion`. -/
def eulerToQuaternion (roll pitch yaw : R) : Quaternion R :=
  let sr := m.sin (roll / 2)
  let cr := m.cos (roll / 2)
  let sp := m.sin (pitch / 2)
  let cp := m.cos (pitch / 2)
  let sy := m.sin (yaw / 2)
  let cy := m.cos (yaw / 2)
  { x := sr * cp * cy - cr * sp * sy
    y := cr * sp * cy + sr * cp * sy
    z := cr * cp * sy - sr * sp * cy
    w := cr * cp * cy + sr * sp * sy }

/-- `quaternion_to_yaw` of a message. -/
def quaternionToYaw (q : Quaternion R) : R :=
  m.atan2 (2 * (q.w * q.z + q.x * q.y)) (1 - 2 * (q.y * q.y + q.z * q.z))

end Numerics

/-- `LeverArmUncertaintyVariance`. -/
def leverArmUncertaintyVariance (leverX leverY : R) : R := leverX * leverX + leverY * leverY

section Remainder

variable [FloorRing R]

/-- The nearest integer, the even one of two. -/
def roundTiesEven (x : R) : ℤ :=
  if Int.fract x < 1 / 2 then ⌊x⌋
  else if 1 / 2 < Int.fract x then ⌊x⌋ + 1
  else if Even ⌊x⌋ then ⌊x⌋
  else ⌊x⌋ + 1

/-- `std::remainder`. -/
def remainder (x y : R) : R := x - roundTiesEven (x / y) * y

end Remainder

namespace NavBridge

def new : NavBridge R := ⟨none, none, none, true, none, "no GNSS data yet"⟩

variable (m : Numerics R) (cfg : NavBridgeConfig R) (s : NavBridge R)

def markAdopted (now : R) : NavBridge R := { s with lastAdopted := some now }

def reject (reason : String) : NavBridge R := { s with lastRejectReason := reason }

/-- `transform_latlon` of GeographicLib is `utm`. -/
def convertToMap (utm : R → R → R × R) (lat lon : R) : R × R :=
  let u := utm lat lon
  m.rotate cfg.rotationRad (u.1 - cfg.anchorEasting) (u.2 - cfg.anchorNorthing)

/-- No yaw where there is no transform, or one that is too old. -/
def lookupBaseYaw (around : Surroundings R) : Option R :=
  around.transform.bind fun t =>
    if cfg.yawMaxAgeSec < around.now - t.1 then none else some (m.quaternionToYaw t.2)

def publishOdom (around : Surroundings R) (stamp : R) (antenna : R × R) (yaw posVar : R) :
    Option (Odometry R) :=
  if s.publishEnabled = false then none
  else
    let (position, childFrame, posVar) :=
      if cfg.leverArmCompensation then
        match lookupBaseYaw m cfg around with
        | some baseYaw =>
            (m.antennaToBase antenna baseYaw cfg.leverX cfg.leverY, cfg.baseFrameId, posVar)
        | none =>
            (antenna, cfg.gpsFrameId, posVar + leverArmUncertaintyVariance cfg.leverX cfg.leverY)
      else (antenna, cfg.gpsFrameId, posVar)
    some
      { stamp := stamp
        frameId := cfg.mapFrameId
        childFrameId := childFrame
        x := position.1
        y := position.2
        z := 0
        orientation := m.eulerToQuaternion 0 0 yaw
        covariance := fun i =>
          if i = 0 ∨ i = 7 then posVar
          else if i = 14 ∨ i = 21 ∨ i = 28 then 99999
          else if i = 35 then 1 / 10
          else 0 }

/-- The distance that thins the fixes out: the fix is too near to the last one. -/
def thinned (p : R × R) : Bool :=
  s.lastPub.any fun q => decide (m.hypot (p.1 - q.1) (p.2 - q.2) < cfg.minPubDist)

section Headings

variable [FloorRing R]

def computeHeading (p : R × R) : NavBridge R × Option R :=
  match s.lastMap with
  | none => ({ s with lastMap := some p }, none)
  | some q =>
      let dx := p.1 - q.1
      let dy := p.2 - q.2
      if cfg.headingMinDist ≤ m.hypot dx dy then
        let new := m.atan2 dy dx
        let heading := match s.lastHeading with
          | none => new
          | some last =>
              let diff := remainder (new - last) (2 * m.pi)
              remainder (last + cfg.headingAlpha * diff) (2 * m.pi)
        ({ s with lastMap := some p, lastHeading := some heading }, some heading)
      else (s, s.lastHeading)

/-- The yaw of a heading of motion in degrees, clockwise from north. -/
def navpvtYaw (headingDeg : R) : R :=
  let h := headingDeg * m.pi / 180 + cfg.rotationRad
  let h := -h + m.pi / 2
  remainder h (2 * m.pi)

/-- The heading of a `NavPVT` at the position `p`. -/
def navpvtHeading (msg : NavPVT) (p : R × R) : NavBridge R × Option R :=
  if cfg.headingSource = "navpvt" then (s, some (navpvtYaw m cfg (msg.heading / 10 ^ 5)))
  else s.computeHeading m cfg p

end Headings

/-- What both callbacks do with a fix they accept: it is thinned out, it lacks a heading, or it is
handed to `publish_odom` and remembered. -/
def takeFix (around : Surroundings R) (stamp variance : R) (p : R × R)
    (headed : NavBridge R × Option R) : NavBridge R × Option (Odometry R) :=
  if s.thinned m cfg p then (s.markAdopted around.now, none)
  else
    match headed.2 with
    | none => (headed.1.reject "heading unavailable", none)
    | some yaw =>
        ({ headed.1.markAdopted around.now with lastPub := some p },
          headed.1.publishOdom m cfg around stamp p yaw variance)

/-- The variance of a `NavPVT`, or why it is rejected. -/
def navpvtVariance (msg : NavPVT) : Except String R :=
  if msg.flags &&& 1 = 0 ∨ msg.fixType < 2 then .error "no fix"
  else
    match positionVariance cfg.quality (carrierFromFlags msg.flags) (msg.hAcc / 1000) with
    | none => .error "low quality (not RTK or accuracy too low)"
    | some variance => .ok variance

/-- The variance of a `NavSatFix`, or why it is rejected; only `STATUS_GBAS_FIX` is a fix. -/
def navsatfixVariance (msg : NavSatFix R) : Except String R :=
  if msg.status < 0 then .error "no fix"
  else
    let carrier := if 2 ≤ msg.status then CarrierSolution.fixed else .none
    match positionVariance cfg.quality carrier (m.sqrt msg.covariance) with
    | none => .error "low quality (not RTK or accuracy too low)"
    | some variance => .ok variance

section Callbacks

variable [FloorRing R] (utm : R → R → R × R)

/-- The antenna of a `NavPVT` on the map. -/
def navpvtAntenna (msg : NavPVT) : R × R :=
  convertToMap m cfg utm (msg.lat / 10 ^ 7) (msg.lon / 10 ^ 7)

def onNavpvt (around : Surroundings R) (msg : NavPVT) : NavBridge R × Option (Odometry R) :=
  match navpvtVariance cfg msg with
  | .error reason => (s.reject reason, none)
  | .ok variance =>
      let p := navpvtAntenna m cfg utm msg
      s.takeFix m cfg around (around.now - cfg.timeOffsetSec) variance p
        (s.navpvtHeading m cfg msg p)

def onNavsatfix (around : Surroundings R) (msg : NavSatFix R) :
    NavBridge R × Option (Odometry R) :=
  match navsatfixVariance m cfg msg with
  | .error reason => (s.reject reason, none)
  | .ok variance =>
      let p := convertToMap m cfg utm msg.latitude msg.longitude
      s.takeFix m cfg around (msg.stamp - cfg.timeOffsetSec) variance p (s.computeHeading m cfg p)

/-- The callback of `~/change_publish_state`: the text of its response goes with the new state. -/
def changePublishState (data : Bool) : NavBridge R × String :=
  ({ s with publishEnabled := data }, if data then "publishing /odom/gps" else "stopped /odom/gps")

end Callbacks

end NavBridge

end MgRobot.Slam
