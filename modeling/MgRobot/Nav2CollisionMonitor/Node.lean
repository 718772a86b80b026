import Mathlib.Data.List.DropRight
import MgRobot.Nav2CollisionMonitor.Monitor

/-!
# The collision monitor at work

What `collision_monitor_node.cpp` makes of its decisions: it reports a changed action on
the state topic, and lets a robot that stands still have silence after a while.
-/

namespace MgRobot.Nav2CollisionMonitor

set_option autoImplicit false

open MgRobot.Lib.Runs

/-- What the node notes in its log: a command with what was decided and what went out for it, or
that it was deactivated. -/
inductive Record (R : Type*) where
  | command (now : R) (cmdVelIn : Velocity R) (robotAction : Action R)
      (state : Option (String × ActionType)) (cmdVelOut : Option (Velocity R))
  | deactivated

/-- What reaches the node. A command comes with the two times that are read for it, and a new shape
of a polygon in the base frame. -/
inductive Call (R D : Type*) where
  | cmdVelIn (currTime now : R) (vertices : String → Option (List (Point R)))
      (cmdVelIn : Velocity R)
  | data (name : String) (stamp : R) (data : D)
  | polygonShape (name : String) (poly : List (Point R))
  | parameter (name : String) (value : Bool)
  | activate
  | deactivate

section

variable {R D : Type*} [Field R] [LinearOrder R]

def Action.default : Action R where
  actionType := .doNothing
  reqVel := { x := -1, y := -1, tw := -1 }
  polygonName := ""

namespace Source

def dynamicParametersCallback (s : Source R D) (name : String) (value : Bool) : Source R D :=
  if name = s.name ++ "." ++ "enabled" then { s with enabled := value }
  else if name = s.name ++ "." ++ "stop_on_timeout" then { s with stopOnTimeout := value }
  else s

def dataCallback (s : Source R D) (name : String) (stamp : R) (data : D) : Source R D :=
  if s.name = name then { s with data := some (stamp, data) } else s

end Source

namespace Polygon

variable {K : Type*} [Zero K] [LT K]

def dynamicParametersCallback (p : Polygon K) (name : String) (value : Bool) : Polygon K :=
  if name = p.name ++ "." ++ "enabled" then { p with enabled := value } else p

/-- A shape of fewer than three points is refused. -/
def polygonCallback (p : Polygon K) (name : String) (poly : List (Point K)) : Polygon K :=
  match p.shape with
  | .polygon _ =>
      if p.name = name ∧ 3 ≤ poly.length then { p with shape := .polygon poly } else p
  | .circle _ => p

end Polygon

namespace CollisionMonitor

variable (m : CollisionMonitor R D)

def notifyActionState (robotAction : Action R) : Option (String × ActionType) :=
  if m.statePub then some (robotAction.polygonName, robotAction.actionType) else none

/-- The new `stop_stamp_`, and the message if there is one. -/
def publishVelocity (now : R) (robotAction : Action R) : R × Option (Velocity R) :=
  if robotAction.reqVel.isZero then
    if !m.robotActionPrev.reqVel.isZero then (now, some robotAction.reqVel)
    else if m.stopPubTimeout < now - m.stopStamp then (m.stopStamp, none)
    else (m.stopStamp, some robotAction.reqVel)
  else (m.stopStamp, some robotAction.reqVel)

def process [FloorRing R] (env : Env R D) (currTime now : R)
    (vertices : String → Option (List (Point R))) (cmdVelIn : Velocity R) :
    CollisionMonitor R D × List (Record R) :=
  if !m.processActive then (m, [])
  else
    let (polygons, robotAction) := m.decision env currTime vertices cmdVelIn
    let state :=
      if robotAction.polygonName ≠ m.robotActionPrev.polygonName then
        m.notifyActionState robotAction
      else none
    let (stopStamp, cmdVelOut) := m.publishVelocity now robotAction
    ({ m with polygons := polygons, stopStamp := stopStamp, robotActionPrev := robotAction },
      [.command now cmdVelIn robotAction state cmdVelOut])

/-- The node once it is configured. -/
def start (polygons : List (Polygon R)) (sources : List (Source R D)) (statePub : Bool)
    (stopPubTimeout : R) : CollisionMonitor R D where
  polygons := polygons
  sources := sources
  statePub := statePub
  stopPubTimeout := stopPubTimeout
  processActive := false
  robotActionPrev := .default
  stopStamp := 0

end CollisionMonitor

/-- The node with its log. -/
structure Session (R D : Type*) [Zero R] [LT R] where
  node : CollisionMonitor R D
  log : List (Record R)

namespace Session

variable [FloorRing R]

def step (env : Env R D) (s : Session R D) : Call R D → Option (Session R D)
  | .cmdVelIn currTime now vertices cmdVelIn =>
      let (node, out) := s.node.process env currTime now vertices cmdVelIn
      some { node := node, log := s.log ++ out }
  | .data name stamp data =>
      some { s with node.sources := s.node.sources.map fun src => src.dataCallback name stamp data }
  | .polygonShape name poly =>
      some { s with node.polygons := s.node.polygons.map fun p => p.polygonCallback name poly }
  | .parameter name value =>
      some { s with
        node.sources := s.node.sources.map fun src => src.dynamicParametersCallback name value
        node.polygons := s.node.polygons.map fun p => p.dynamicParametersCallback name value }
  | .activate => some { s with node.processActive := true }
  | .deactivate =>
      some { node := { s.node with processActive := false, robotActionPrev := .default }
             log := s.log ++ [.deactivated] }

end Session

/-! ## What goes out -/

namespace Record

/-- The time of a command that was answered with standing still. -/
def stoppedAt : Record R → Option R
  | command now _ robotAction _ _ => if robotAction.reqVel.isZero then some now else none
  | deactivated => none

def isCommand : Record R → Bool
  | command _ _ _ _ _ => true
  | deactivated => false

def state : Record R → Option (String × ActionType)
  | command _ _ _ state _ => state
  | deactivated => none

def cmdVelOut : Record R → Option (Velocity R)
  | command _ _ _ _ cmdVelOut => cmdVelOut
  | deactivated => none

end Record

/-- Since when every command was answered with standing still. -/
def stoppedSince (log : List (Record R)) : Option R :=
  (log.rtakeWhile fun r => r.stoppedAt.isSome).head?.bind Record.stoppedAt

/-- The last message on the state topic since the node was last deactivated. -/
def lastState (log : List (Record R)) : Option (String × ActionType) :=
  ((log.rtakeWhile Record.isCommand).filterMap Record.state).getLast?

/-- A command is answered by a velocity that is no faster, unless the robot has been standing still
for longer than the timeout. -/
def Answered (timeout : R) (pre : List (Record R)) : Record R → Prop
  | .command now cmdVelIn robotAction _ cmdVelOut =>
      robotAction.reqVel.vel ≤ cmdVelIn.vel ∧
        (cmdVelOut = none ∨ cmdVelOut = some robotAction.reqVel) ∧
        (cmdVelOut = none ↔ robotAction.reqVel.isZero = true ∧
          ∃ since, stoppedSince pre = some since ∧ timeout < now - since)
  | .deactivated => True

theorem stoppedSince_snoc (log : List (Record R)) (r : Record R) :
    stoppedSince (log ++ [r]) = r.stoppedAt.map fun now => (stoppedSince log).getD now := by
  rw [stoppedSince, List.rtakeWhile_concat]
  cases hr : r.stoppedAt with
  | none => rfl
  | some now =>
      simp only [Option.isSome_some, if_true, Option.map_some]
      rw [stoppedSince]
      cases hold : log.rtakeWhile fun r => r.stoppedAt.isSome with
      | nil => simp [hr]
      | cons first rest =>
          have hfirst : first ∈ log.rtakeWhile fun r => r.stoppedAt.isSome := by
            rw [hold]
            exact List.mem_cons_self
          have hstopped : first.stoppedAt.isSome = true :=
            List.mem_rtakeWhile_imp (p := fun r : Record R => r.stoppedAt.isSome) hfirst
          obtain ⟨since, hsince⟩ := Option.isSome_iff_exists.mp hstopped
          simp [hsince]

omit [Field R] [LinearOrder R] in
theorem lastState_snoc (log : List (Record R)) (r : Record R) :
    lastState (log ++ [r]) = if r.isCommand then r.state.or (lastState log) else none := by
  rw [lastState, List.rtakeWhile_concat]
  cases r.isCommand with
  | false => rfl
  | true =>
      rw [if_pos rfl, if_pos rfl, List.filterMap_append]
      cases hr : r.state with
      | none => simp [hr, lastState]
      | some st => simp [hr]

variable {m : CollisionMonitor R D} {env : Env R D}

/-- Silence is for a robot that was already standing still, longer ago than the timeout. -/
theorem CollisionMonitor.publishVelocity_spec (now : R) (a : Action R) :
    ((m.publishVelocity now a).2 = none ∨ (m.publishVelocity now a).2 = some a.reqVel) ∧
      ((m.publishVelocity now a).2 = none ↔ a.reqVel.isZero = true ∧
        m.robotActionPrev.reqVel.isZero = true ∧ m.stopPubTimeout < now - m.stopStamp) ∧
      (a.reqVel.isZero = true → (m.publishVelocity now a).1 =
        if m.robotActionPrev.reqVel.isZero then m.stopStamp else now) := by
  rw [publishVelocity]
  cases hzero : a.reqVel.isZero with
  | false => simp
  | true =>
      cases hprev : m.robotActionPrev.reqVel.isZero with
      | false => simp
      | true => by_cases hlate : m.stopPubTimeout < now - m.stopStamp <;> simp [hlate]

/-- The loop over the polygons changes no name and no type. -/
theorem processPolygons_names [FloorRing R] {fns : MathFns R}
    {vertices : String → Option (List (Point R))} {points : List (Point R)}
    {velocity : Velocity R} (ps : List (Polygon R)) (a : Action R) :
    ∀ q ∈ (processPolygons fns vertices points velocity ps a).1,
      ∃ p ∈ ps, q.name = p.name ∧ q.actionType = p.actionType := by
  induction ps generalizing a with
  | nil => exact fun q hq => absurd hq List.not_mem_nil
  | cons p rest ih =>
      have hrest : ∀ a, ∀ q ∈ (processPolygons fns vertices points velocity rest a).1,
          ∃ p' ∈ p :: rest, q.name = p'.name ∧ q.actionType = p'.actionType := by
        intro a q hq
        obtain ⟨p', hp', hsame⟩ := ih a q hq
        exact ⟨p', List.mem_cons_of_mem _ hp', hsame⟩
      rw [processPolygons]
      split
      · intro q hq
        rcases List.mem_cons.mp hq with rfl | hq
        · exact ⟨q, List.mem_cons_self, rfl, rfl⟩
        · exact hrest _ q hq
      · split
        · exact fun q hq => ⟨q, hq, rfl, rfl⟩
        · intro q hq
          rcases List.mem_cons.mp hq with rfl | hq
          · obtain ⟨hname, htype⟩ := p.updatePolygon_fields vertices
            exact ⟨p, List.mem_cons_self, hname, htype⟩
          · exact hrest _ q hq

/-- The name in an action tells its type. -/
structure Typed (typeOf : String → ActionType) (m : CollisionMonitor R D) : Prop where
  free : typeOf "" = .doNothing
  polygons : ∀ p ∈ m.polygons, typeOf p.name = p.actionType
  sources : ∀ s ∈ m.sources, typeOf ("source_timeout:" ++ s.name) = .stop

variable [IsStrictOrderedRing R]

/-- The log and the state of the node agree. -/
structure Faithful (timeout : R) (s : Session R D) : Prop where
  timeout_eq : s.node.stopPubTimeout = timeout
  answered : Logged (Answered timeout) s.log
  stopped : stoppedSince s.log =
    if s.node.robotActionPrev.reqVel.isZero then some s.node.stopStamp else none

theorem Action.default_not_zero : (Action.default : Action R).reqVel.isZero = false := by
  simp [Action.default, Velocity.isZero]

variable [FloorRing R]

/-- A command: it is answered as the log up to it demands. -/
theorem Faithful.process {timeout : R} {s : Session R D} (h : Faithful timeout s)
    (currTime now : R) (vertices : String → Option (List (Point R))) (cmdVelIn : Velocity R) :
    Faithful timeout { node := (s.node.process env currTime now vertices cmdVelIn).1
                       log := s.log ++ (s.node.process env currTime now vertices cmdVelIn).2 } := by
  rw [CollisionMonitor.process]
  split
  · rw [List.append_nil]
    exact h
  · obtain ⟨a, ha⟩ : ∃ a, a = (s.node.decision env currTime vertices cmdVelIn).2 := ⟨_, rfl⟩
    have hslow : a.reqVel.vel ≤ cmdVelIn.vel :=
      ha ▸ s.node.decision_le vertices env currTime cmdVelIn
    obtain ⟨hout, hsilent, hstamp⟩ := s.node.publishVelocity_spec now a
    simp only [← ha]
    refine ⟨h.timeout_eq, Logged.snoc h.answered ⟨hslow, hout, hsilent.trans ?_⟩, ?_⟩
    · rw [h.stopped, h.timeout_eq]
      refine and_congr_right fun _ => ?_
      cases s.node.robotActionPrev.reqVel.isZero <;> simp
    · rw [stoppedSince_snoc, h.stopped, Record.stoppedAt]
      cases hzero : a.reqVel.isZero with
      | false => rfl
      | true =>
          rw [hstamp hzero]
          cases s.node.robotActionPrev.reqVel.isZero <;> rfl

theorem Faithful.step {timeout : R} {s t : Session R D} {c : Call R D} (h : Faithful timeout s)
    (hs : s.step env c = some t) : Faithful timeout t := by
  cases c with
  | cmdVelIn currTime now vertices cmdVelIn =>
      obtain rfl := Option.some.inj hs
      exact h.process currTime now vertices cmdVelIn
  | data | polygonShape | parameter | activate =>
      obtain rfl := Option.some.inj hs
      exact ⟨h.timeout_eq, h.answered, h.stopped⟩
  | deactivate =>
      obtain rfl := Option.some.inj hs
      refine ⟨h.timeout_eq, Logged.snoc h.answered trivial, ?_⟩
      rw [stoppedSince_snoc, Action.default_not_zero]
      rfl

/-- In every run, a command that is answered is answered by the velocity decided for it, never
faster than the command; it goes without an answer only when the decision is to stand still and all
decisions for longer than the timeout, within the same activation, were. -/
theorem velocities_sent {polygons : List (Polygon R)} {sources : List (Source R D)}
    {statePub : Bool} {timeout : R} {calls : List (Call R D)} {u : Session R D}
    (hr : exec (Session.step env)
      { node := .start polygons sources statePub timeout, log := [] } calls = some u) :
    Logged (Answered timeout) u.log := by
  have hstart : Faithful timeout
      { node := CollisionMonitor.start (D := D) polygons sources statePub timeout, log := [] } := by
    refine ⟨rfl, Logged.nil, ?_⟩
    rw [CollisionMonitor.start, Action.default_not_zero]
    rfl
  exact (invariant_of_step (I := Faithful timeout) (fun s c t h hs => Faithful.step h hs) hstart
    hr).answered

/-- The state that the topic tells, which is silent about a free robot after an activation. -/
def toldState (log : List (Record R)) : String × ActionType :=
  (lastState log).getD ("", .doNothing)

/-- After a command the state topic tells the action on it, and a message goes out only for that. -/
def Announced (pre : List (Record R)) : Record R → Prop
  | .command now cmdVelIn robotAction state cmdVelOut =>
      toldState (pre ++ [.command now cmdVelIn robotAction state cmdVelOut]) =
          (robotAction.polygonName, robotAction.actionType) ∧
        (state = none ↔ toldState pre = (robotAction.polygonName, robotAction.actionType))
  | .deactivated => True

/-- The state topic and the node agree. -/
structure Told (typeOf : String → ActionType) (s : Session R D) : Prop where
  statePub : s.node.statePub = true
  typed : Typed typeOf s.node
  announced : Logged Announced s.log
  told : toldState s.log =
    (s.node.robotActionPrev.polygonName, s.node.robotActionPrev.actionType)
  prev : typeOf s.node.robotActionPrev.polygonName = s.node.robotActionPrev.actionType

variable (env) in
/-- The action decided on has the type that its name tells. -/
theorem Typed.decision {typeOf : String → ActionType} (h : Typed typeOf m) (currTime : R)
    (vertices : String → Option (List (Point R))) (cmdVelIn : Velocity R) :
    typeOf (m.decision env currTime vertices cmdVelIn).2.polygonName =
      (m.decision env currTime vertices cmdVelIn).2.actionType := by
  obtain ⟨a, ha⟩ : ∃ a, a = (m.decision env currTime vertices cmdVelIn).2 := ⟨_, rfl⟩
  have hfrom := m.decision_origin vertices env currTime cmdVelIn ha
  rw [← ha]
  rcases hfrom with rfl | ⟨s, hs, _, _, _, rfl⟩ | ⟨p, hp, _, _, _, rfl⟩
  · exact h.free
  · exact h.sources s hs
  · exact h.polygons p hp

theorem Told.process {typeOf : String → ActionType} {s : Session R D} (h : Told typeOf s)
    (currTime now : R) (vertices : String → Option (List (Point R))) (cmdVelIn : Velocity R) :
    Told typeOf { node := (s.node.process env currTime now vertices cmdVelIn).1
                  log := s.log ++ (s.node.process env currTime now vertices cmdVelIn).2 } := by
  rw [CollisionMonitor.process]
  split
  · rw [List.append_nil]
    exact h
  · have htype := h.typed.decision env currTime vertices cmdVelIn
    have hkept : Typed typeOf
        { s.node with polygons := (s.node.decision env currTime vertices cmdVelIn).1 } := by
      refine ⟨h.typed.free, fun q hq => ?_, h.typed.sources⟩
      obtain ⟨p, hp, hname, hsame⟩ := processPolygons_names s.node.polygons _ q hq
      rw [hname, hsame]
      exact h.typed.polygons p hp
    have hprev := h.prev
    have htold := h.told
    generalize s.node.decision env currTime vertices cmdVelIn = d at htype hkept ⊢
    simp only [CollisionMonitor.notifyActionState, h.statePub, if_true]
    by_cases hname : d.2.polygonName = s.node.robotActionPrev.polygonName
    · have hsame : toldState s.log = (d.2.polygonName, d.2.actionType) := by
        rw [htold, ← htype, hname, hprev]
      rw [if_neg (not_not.mpr hname)]
      have hnow : ∀ out, toldState (s.log ++ [.command now cmdVelIn d.2 none out]) =
          (d.2.polygonName, d.2.actionType) := by
        intro out
        rw [toldState, lastState_snoc]
        exact hsame
      refine ⟨rfl, ⟨hkept.free, hkept.polygons, hkept.sources⟩,
        Logged.snoc h.announced ⟨hnow _, fun _ => hsame, fun _ => rfl⟩, hnow _, htype⟩
    · have hother : toldState s.log ≠ (d.2.polygonName, d.2.actionType) := by
        rw [htold]
        exact fun heq => hname (congrArg Prod.fst heq).symm
      rw [if_pos hname]
      have hnow : ∀ out, toldState (s.log ++ [.command now cmdVelIn d.2
          (some (d.2.polygonName, d.2.actionType)) out]) =
          (d.2.polygonName, d.2.actionType) := by
        intro out
        rw [toldState, lastState_snoc]
        rfl
      refine ⟨rfl, ⟨hkept.free, hkept.polygons, hkept.sources⟩,
        Logged.snoc h.announced ⟨hnow _, fun hnone => ?_, fun heq => absurd heq hother⟩,
        hnow _, htype⟩
      cases hnone

omit [IsStrictOrderedRing R] [FloorRing R] in
/-- What a callback does to each polygon and each source leaves names and types alone. -/
theorem Typed.map {typeOf : String → ActionType} (h : Typed typeOf m) {f : Polygon R → Polygon R}
    {g : Source R D → Source R D}
    (hf : ∀ p, (f p).name = p.name ∧ (f p).actionType = p.actionType)
    (hg : ∀ s, (g s).name = s.name) :
    Typed typeOf { m with polygons := m.polygons.map f, sources := m.sources.map g } where
  free := h.free
  polygons q hq := by
    obtain ⟨p, hp, rfl⟩ := List.mem_map.mp hq
    rw [(hf p).1, (hf p).2]
    exact h.polygons p hp
  sources q hq := by
    obtain ⟨s, hs, rfl⟩ := List.mem_map.mp hq
    rw [hg s]
    exact h.sources s hs

theorem Told.step {typeOf : String → ActionType} {s t : Session R D} {c : Call R D}
    (h : Told typeOf s) (hs : s.step env c = some t) : Told typeOf t := by
  cases c with
  | cmdVelIn currTime now vertices cmdVelIn =>
      obtain rfl := Option.some.inj hs
      exact h.process currTime now vertices cmdVelIn
  | data name stamp data =>
      obtain rfl := Option.some.inj hs
      have htyped := h.typed.map (f := id) (g := fun s => s.dataCallback name stamp data)
        (fun _ => ⟨rfl, rfl⟩) fun s => by rw [Source.dataCallback]; split <;> rfl
      rw [List.map_id] at htyped
      exact ⟨h.statePub, htyped, h.announced, h.told, h.prev⟩
  | polygonShape name poly =>
      obtain rfl := Option.some.inj hs
      have htyped := h.typed.map (f := fun p => p.polygonCallback name poly) (g := id)
        (fun p => by
          rw [Polygon.polygonCallback]
          split
          · split <;> exact ⟨rfl, rfl⟩
          · exact ⟨rfl, rfl⟩) fun _ => rfl
      rw [List.map_id] at htyped
      exact ⟨h.statePub, htyped, h.announced, h.told, h.prev⟩
  | parameter name value =>
      obtain rfl := Option.some.inj hs
      have htyped := h.typed.map (f := fun p => p.dynamicParametersCallback name value)
        (g := fun s => s.dynamicParametersCallback name value)
        (fun p => by rw [Polygon.dynamicParametersCallback]; split <;> exact ⟨rfl, rfl⟩)
        fun s => by
          rw [Source.dynamicParametersCallback]
          split
          · rfl
          · split <;> rfl
      exact ⟨h.statePub, htyped, h.announced, h.told, h.prev⟩
  | activate =>
      obtain rfl := Option.some.inj hs
      exact ⟨h.statePub, ⟨h.typed.free, h.typed.polygons, h.typed.sources⟩, h.announced, h.told,
        h.prev⟩
  | deactivate =>
      obtain rfl := Option.some.inj hs
      refine ⟨h.statePub, ⟨h.typed.free, h.typed.polygons, h.typed.sources⟩,
        Logged.snoc h.announced trivial, ?_, h.typed.free⟩
      rw [toldState, lastState_snoc]
      rfl

/-- In every run, the last message on the state topic since the activation tells the action on the
last command, none meaning that the robot is free, and no message repeats what was told. -/
theorem state_told {polygons : List (Polygon R)} {sources : List (Source R D)} {timeout : R}
    (typeOf : String → ActionType) {calls : List (Call R D)} {u : Session R D}
    (hfree : typeOf "" = .doNothing) (hpolygons : ∀ p ∈ polygons, typeOf p.name = p.actionType)
    (hsources : ∀ s ∈ sources, typeOf ("source_timeout:" ++ s.name) = .stop)
    (hr : exec (Session.step env)
      { node := .start polygons sources true timeout, log := [] } calls = some u) :
    Logged Announced u.log := by
  have hstart : Told typeOf
      { node := CollisionMonitor.start (D := D) polygons sources true timeout, log := [] } :=
    ⟨rfl, ⟨hfree, hpolygons, hsources⟩, Logged.nil, rfl, hfree⟩
  exact (invariant_of_step (I := Told typeOf) (fun s c t h hs => Told.step h hs) hstart hr).announced

end

def lookout : Session ℚ (List (Point ℚ)) where
  node := .start
    [{ name := "ahead", actionType := .approach, enabled := true, minPoints := 1, slowdownRatio := 1
       linearLimit := 1, angularLimit := 1, timeBeforeCollision := 2, simulationTimeStep := 1 / 10
       shape := .circle (1 / 4), simulationTimeStep_pos _ := by norm_num }]
    [{ name := "scan", enabled := true, stopOnTimeout := true, sourceTimeout := 2, data := none }]
    true 1
  log := []

/-- A wall is scanned once, and the robot is driven on. -/
def scannedOnce : List (Call ℚ (List (Point ℚ))) :=
  let drive (t : ℚ) : Call ℚ (List (Point ℚ)) := .cmdVelIn t t (fun _ => none) ⟨1, 0, 0⟩
  [.activate, .data "scan" 0 [⟨1, 0⟩], drive 1, drive 3, drive 4, drive (9 / 2), .deactivate,
    .activate, drive 5]

theorem velocities_sent_scannedOnce :
    ∃ u, exec (Session.step .onAxis) lookout scannedOnce = some u ∧ Logged (Answered 1) u.log ∧
      u.log.map Record.cmdVelOut =
        [some ⟨1 / 4, 0, 0⟩, some .zero, some .zero, none, none, some .zero] := by
  obtain ⟨u, hu, hout⟩ : ∃ u, exec (Session.step .onAxis) lookout scannedOnce = some u ∧
      u.log.map Record.cmdVelOut =
        [some ⟨1 / 4, 0, 0⟩, some .zero, some .zero, none, none, some .zero] :=
    exists_exec (by decide +kernel)
  exact ⟨u, hu, velocities_sent hu, hout⟩

theorem state_told_scannedOnce :
    ∃ u, exec (Session.step .onAxis) lookout scannedOnce = some u ∧ Logged Announced u.log ∧
      u.log.map Record.state = [some ("ahead", .approach), some ("source_timeout:scan", .stop),
        none, none, none, some ("source_timeout:scan", .stop)] := by
  obtain ⟨u, hu, hstates⟩ : ∃ u, exec (Session.step .onAxis) lookout scannedOnce = some u ∧
      u.log.map Record.state = [some ("ahead", .approach), some ("source_timeout:scan", .stop),
        none, none, none, some ("source_timeout:scan", .stop)] :=
    exists_exec (by decide +kernel)
  let typeOf (name : String) : ActionType :=
    if name = "" then .doNothing else if name = "ahead" then .approach else .stop
  refine ⟨u, hu, state_told typeOf rfl ?_ ?_ hu, hstates⟩
  · intro p hp
    obtain rfl := List.mem_singleton.mp hp
    rfl
  · intro s hs
    obtain rfl := List.mem_singleton.mp hs
    rfl

end MgRobot.Nav2CollisionMonitor
