import MgRobot.Drivers.SerialDriver

/-!
# WheelOdometryNode

The node of `wheel_odometry_node.cpp` on top of `SerialDriverNode`: it polls the odometry
and publishes the last reply it could use, as a message and as a transform.
-/

namespace MgRobot.Drivers

set_option autoImplicit false

open MgRobot.Lib.Frames MgRobot.Lib.Runs Output

/-- The pose and the speed of `nav_msgs/Odometry`; the orientation is that of `yaw`. -/
structure OdometryMsg (R : Type*) where
  stamp : R
  frameId : String
  childFrameId : String
  x : R
  y : R
  yaw : R
  linearX : R
  angularZ : R
  covarianceX : R
  covarianceY : R
  covarianceYaw : R
  covarianceVx : R
  covarianceVyaw : R
  deriving DecidableEq

structure TransformMsg (R : Type*) where
  stamp : R
  frameId : String
  childFrameId : String
  x : R
  y : R
  yaw : R
  deriving DecidableEq

/-- What the node says. A message of fields that never got a value is `none`; `received` is what
`get_data` found in its buffer for the node itself, `probed` what it found for a health check. -/
inductive OdometryOutput (R : Type*) where
  | sent (bytes : List Byte)
  | received (raw : List Byte)
  | probed (raw : List Byte)
  | odometry (msg : Option (OdometryMsg R))
  | transform (msg : Option (TransformMsg R))

structure WheelOdometryConfig (R : Type*) where
  frameId : String
  childFrameId : String
  publishTf : Bool
  alwaysPublish : Bool
  invX : Bool
  invY : Bool
  invTh : Bool
  covarianceX : R
  covarianceY : R
  covarianceYaw : R
  covarianceVx : R
  covarianceVyaw : R
  sqrt : R → R

structure WheelOdometryNode (R : Type*) where
  base : SerialDriverNode
  lastValidData : OdometryData R
  currentData : OdometryData R

section OdometryRuns

variable {R : Type*} [Field R] (cfg : WheelOdometryConfig R)

/-- The axes of the sensor turned as configured. -/
def WheelOdometryConfig.invert (m : Motion R) : Motion R :=
  { m with
    x := if cfg.invX then m.x * -1 else m.x
    y := if cfg.invY then m.y * -1 else m.y
    th := if cfg.invTh then m.th * -1 else m.th }

def WheelOdometryConfig.odometryMsg (now : R) (m : Motion R) : OdometryMsg R where
  stamp := now
  frameId := cfg.frameId
  childFrameId := cfg.childFrameId
  x := m.x
  y := m.y
  yaw := m.th
  linearX := cfg.sqrt (m.vx ^ 2 + m.vy ^ 2)
  angularZ := m.vth
  covarianceX := cfg.covarianceX
  covarianceY := cfg.covarianceY
  covarianceYaw := cfg.covarianceYaw
  covarianceVx := cfg.covarianceVx
  covarianceVyaw := cfg.covarianceVyaw

def WheelOdometryConfig.transformMsg (now : R) (m : Motion R) : TransformMsg R where
  stamp := now
  frameId := cfg.frameId
  childFrameId := cfg.childFrameId
  x := m.x
  y := m.y
  yaw := m.th

namespace WheelOdometryNode

variable (n : WheelOdometryNode R)

def updateOdometry (opens : Bool) (x : Exchange) :
    WheelOdometryNode R × List (Output (OdometryOutput R)) :=
  let (data, sent) := WheelOdometry.getData (R := R) n.base.port.isOpenSerial x
  let n :=
    if data.error = .noError then
      let data := { data with motion := data.motion.map cfg.invert }
      { n with currentData := data, lastValidData := data }
    else { n with currentData := data }
  let (base, out) := n.base.handleSerialError opens n.currentData.error
  ({ n with base := base },
    (sent.map fun bytes => .own (.sent bytes)) ++ .own (.received data.raw) :: out)

def publishOdometry (now : R) : List (Output (OdometryOutput R)) :=
  if n.currentData.error = .noError ∨ cfg.alwaysPublish then
    [.own (.odometry (n.lastValidData.motion.map (cfg.odometryMsg now)))]
  else []

def publishTf (now : R) : List (Output (OdometryOutput R)) :=
  if n.currentData.error = .noError ∨ cfg.alwaysPublish then
    [.own (.transform (n.lastValidData.motion.map (cfg.transformMsg now)))]
  else []

def publish (now : R) (opens : Bool) (x : Exchange) :
    WheelOdometryNode R × List (Output (OdometryOutput R)) :=
  let (n, out) := n.updateOdometry cfg opens x
  (n, out ++ n.publishOdometry cfg now ++ if cfg.publishTf then n.publishTf cfg now else [])

/-- The probe of the wheel odometry, as the base class calls it: a `get_data` of which only the
error is kept. -/
def probe (isOpenSerial : Bool) (x : Exchange) : SerialError × List (OdometryOutput R) :=
  let (error, sent) := WheelOdometry.probe isOpenSerial x
  (error, sent.map .sent ++ [.probed (WheelOdometry.getData (R := R) isOpenSerial x).1.raw])

end WheelOdometryNode

/-- What reaches the node: the device file comes or goes, its two timers fire. -/
inductive OdometryCall (R : Type*) where
  | present (data : Bool)
  | publish (now : R) (opens : Bool) (x : Exchange)
  | healthCheck (i : HealthInput)

structure Odometer (R : Type*) where
  node : WheelOdometryNode R
  log : List (Output (OdometryOutput R))

namespace Odometer

def after (w : Odometer R) (r : WheelOdometryNode R × List (Output (OdometryOutput R))) :
    Odometer R where
  node := r.1
  log := w.log ++ r.2

def step (w : Odometer R) : OdometryCall R → Option (Odometer R)
  | .present data => some { w with node.base.port.present := data }
  | .publish now opens x => some (w.after (w.node.publish cfg now opens x))
  | .healthCheck i =>
      let (base, out) := w.node.base.healthCheck WheelOdometryNode.probe i
      some (w.after ({ w.node with base := base }, out))

/-- The part of the base class. -/
def driver (w : Odometer R) : Driver (OdometryOutput R) where
  node := w.node.base
  log := w.log

/-- The node once it is built: its two records hold no motion yet. -/
def start (base : SerialDriverNode) : Odometer R where
  node :=
    { base := base
      lastValidData := { motion := none, raw := [], error := .noError }
      currentData := { motion := none, raw := [], error := .noError } }
  log := []

end Odometer

/-! ## What is published -/

/-- The reads of `update_odometry`. -/
def Output.received : Output (OdometryOutput R) → Option (List Byte)
  | .own (.received raw) => some raw
  | _ => none

/-- The reads of `get_data`, those of the probes too. -/
def Output.read : Output (OdometryOutput R) → Option (List Byte)
  | .own (.received raw) => some raw
  | .own (.probed raw) => some raw
  | _ => none

/-- A reply that passes the check. -/
def passes (raw : List Byte) : Bool :=
  SerialCommunicator2.checkError raw WheelOdometry.odomBuf WheelOdometry.getOdomRetSize = .noError

/-- The last reply to a poll that passes the check. -/
def lastReply (log : List (Output (OdometryOutput R))) : Option (List Byte) :=
  ((log.filterMap Output.received).filter passes).getLast?

/-- The motion that a reply carries, with the axes turned. -/
def WheelOdometryConfig.motionOf (raw : List Byte) : Option (Motion R) :=
  (WheelOdometry.decode raw).motion.map cfg.invert

/-- A message built from the last reply in the log so far: the last one read at all, unless the node
publishes always. -/
def Current {β : Type*} (pre : List (Output (OdometryOutput R))) (build : R → Motion R → β)
    (msg : Option β) : Prop :=
  (∃ now, msg = ((lastReply pre).bind cfg.motionOf).map (build now)) ∧
    (cfg.alwaysPublish = false → lastReply pre ≠ none ∧
      lastReply pre = (pre.filterMap Output.read).getLast?)

/-- What the log says before a message about what the message says. -/
def Sourced (pre : List (Output (OdometryOutput R))) : Output (OdometryOutput R) → Prop
  | .own (.odometry msg) => Current cfg pre cfg.odometryMsg msg
  | .own (.transform msg) => Current cfg pre cfg.transformMsg msg
  | _ => True

variable {cfg} {w w' : Odometer R}

omit [Field R] in
theorem Output.received_eq_none {o : Output (OdometryOutput R)} (h : o.read = none) :
    o.received = none := by
  cases o with
  | own o => cases o <;> first | rfl | cases h
  | _ => rfl

omit [Field R] in
theorem lastReply_append {log outs : List (Output (OdometryOutput R))}
    (h : outs.filterMap Output.received = []) : lastReply (log ++ outs) = lastReply log := by
  rw [lastReply, List.filterMap_append, h, List.append_nil, lastReply]

omit [Field R] in
theorem lastReply_read {log outs : List (Output (OdometryOutput R))} {raw : List Byte}
    (h : outs.filterMap Output.received = [raw]) :
    lastReply (log ++ outs) = if passes raw then some raw else lastReply log := by
  rw [lastReply, List.filterMap_append, h, List.filter_append, List.filter_singleton]
  cases passes raw with
  | true => exact List.getLast?_concat
  | false => rw [cond_false, List.append_nil, if_neg Bool.noConfusion, lastReply]

/-- The answer of `get_data` is good exactly when what it read passes the check. -/
theorem WheelOdometry.getData_raw (isOpenSerial : Bool) (x : Exchange) :
    ((WheelOdometry.getData (R := R) isOpenSerial x).1.error = .noError ↔
      passes (WheelOdometry.getData (R := R) isOpenSerial x).1.raw = true) ∧
      ((WheelOdometry.getData (R := R) isOpenSerial x).1.error = .noError →
        (WheelOdometry.getData (R := R) isOpenSerial x).1.motion =
          (WheelOdometry.decode (WheelOdometry.getData (R := R) isOpenSerial x).1.raw).motion) := by
  have hempty : SerialCommunicator2.checkError [] WheelOdometry.odomBuf
      WheelOdometry.getOdomRetSize ≠ .noError := by decide
  rw [passes, decide_eq_true_iff]
  simp only [WheelOdometry.getData]
  split
  · exact ⟨⟨fun h => SerialError.noConfusion h, fun h => absurd h hempty⟩,
      fun h => SerialError.noConfusion h⟩
  · split <;> rename_i hcheck
    · exact ⟨Iff.rfl, fun h => absurd h hcheck⟩
    · exact ⟨Iff.rfl, fun _ => rfl⟩

namespace WheelOdometryNode

variable (cfg) (n : WheelOdometryNode R) (opens : Bool) (x : Exchange)

/-- What one poll of the odometry says and keeps. -/
theorem updateOdometry_spec :
    ∃ data, data = (WheelOdometry.getData (R := R) n.base.port.isOpenSerial x).1 ∧
      (n.updateOdometry cfg opens x).2.filterMap Output.received = [data.raw] ∧
      (n.updateOdometry cfg opens x).2.filterMap Output.read = [data.raw] ∧
      (∀ o ∈ (n.updateOdometry cfg opens x).2, ∀ pre, Sourced cfg pre o) ∧
      (n.updateOdometry cfg opens x).1.currentData.error = data.error ∧
      (n.updateOdometry cfg opens x).1.lastValidData.motion =
        if data.error = .noError then data.motion.map cfg.invert else n.lastValidData.motion := by
  have hreport : ∀ (m : SerialDriverNode) (error : SerialError),
      ∀ o ∈ (m.handleSerialError (δ := OdometryOutput R) opens error).2,
        o.read = none ∧ ∀ pre, Sourced cfg pre o := by
    intro m error o ho
    cases o with
    | own o => exact absurd ho m.not_own_handleSerialError
    | _ => exact ⟨rfl, fun _ => trivial⟩
  have hsent : ∀ o ∈ ((WheelOdometry.getData (R := R) n.base.port.isOpenSerial x).2.map
      fun bytes => (.own (.sent bytes) : Output (OdometryOutput R))),
        o.read = none ∧ ∀ pre, Sourced cfg pre o := by
    intro o ho
    obtain ⟨bytes, _, rfl⟩ := List.mem_map.mp ho
    exact ⟨rfl, fun _ => trivial⟩
  have hreads : ∀ get : Output (OdometryOutput R) → Option (List Byte),
      (∀ o, o.read = none → get o = none) → (∀ raw, get (.own (.received raw)) = some raw) →
      (n.updateOdometry cfg opens x).2.filterMap get =
        [(WheelOdometry.getData (R := R) n.base.port.isOpenSerial x).1.raw] := by
    intro get hnone hget
    simp only [updateOdometry]
    rw [List.filterMap_append,
      List.filterMap_eq_nil_iff.mpr fun o ho => hnone o (hsent o ho).1, List.nil_append,
      List.filterMap_cons_some (hget _),
      List.filterMap_eq_nil_iff.mpr fun o ho => hnone o (hreport _ _ o ho).1]
  refine ⟨_, rfl, hreads _ (fun _ => received_eq_none) fun _ => rfl,
    hreads _ (fun _ => id) fun _ => rfl, ?_, ?_, ?_⟩
  · simp only [updateOdometry]
    intro o ho
    rcases List.mem_append.mp ho with hline | hrest
    · exact (hsent o hline).2
    · rcases List.mem_cons.mp hrest with rfl | hrest
      · exact fun _ => trivial
      · exact (hreport _ _ o hrest).2
  · simp only [updateOdometry]
    split <;> rfl
  · simp only [updateOdometry]
    split <;> rfl

end WheelOdometryNode

structure Tracked (cfg : WheelOdometryConfig R) (w : Odometer R) : Prop where
  last : w.node.lastValidData.motion = (lastReply w.log).bind (cfg.motionOf)
  sourced : Logged (Sourced cfg) w.log

namespace Tracked

theorem append_silent (h : Tracked cfg w) {n : WheelOdometryNode R}
    {outs : List (Output (OdometryOutput R))} (hn : n.lastValidData = w.node.lastValidData)
    (hr : outs.filterMap Output.received = []) (hs : ∀ o ∈ outs, ∀ pre, Sourced cfg pre o) :
    Tracked cfg (w.after (n, outs)) where
  last := by
    show n.lastValidData.motion = (lastReply (w.log ++ outs)).bind _
    rw [lastReply_append hr, hn]
    exact h.last
  sourced := by
    refine Logged.append h.sourced fun pre o post houts => hs o ?_ _
    have houts : outs = pre ++ o :: post := houts
    rw [houts]
    exact List.mem_append_right _ List.mem_cons_self

/-- A poll: what it read is the last read, and if it can be used it is the last valid record. -/
theorem update (h : Tracked cfg w) (opens : Bool) (x : Exchange) :
    ∃ u, u = w.after (w.node.updateOdometry cfg opens x) ∧ Tracked cfg u ∧
      (u.node.currentData.error = .noError → lastReply u.log ≠ none ∧
        lastReply u.log = (u.log.filterMap Output.read).getLast?) := by
  obtain ⟨data, rfl, hreceived, hreads, hsourced, herror, hmotion⟩ :=
    w.node.updateOdometry_spec cfg opens x
  obtain ⟨hgood, hdecode⟩ := WheelOdometry.getData_raw (R := R) w.node.base.port.isOpenSerial x
  have hlast : lastReply (w.log ++ (w.node.updateOdometry cfg opens x).2) = _ :=
    lastReply_read hreceived
  refine ⟨_, rfl, ⟨?_, ?_⟩, fun hok => ?_⟩
  · show (w.node.updateOdometry cfg opens x).1.lastValidData.motion =
      (lastReply (w.log ++ (w.node.updateOdometry cfg opens x).2)).bind cfg.motionOf
    rw [hlast, hmotion]
    by_cases hok : (WheelOdometry.getData (R := R) w.node.base.port.isOpenSerial x).1.error = .noError
    · rw [if_pos hok, if_pos (hgood.mp hok), hdecode hok]
      rfl
    · rw [if_neg hok, if_neg (mt hgood.mpr hok)]
      exact h.last
  · refine Logged.append h.sourced fun pre o post houts => hsourced o ?_ _
    rw [houts]
    exact List.mem_append_right _ List.mem_cons_self
  · have hok : (w.node.updateOdometry cfg opens x).1.currentData.error = .noError := hok
    rw [herror] at hok
    show lastReply (w.log ++ (w.node.updateOdometry cfg opens x).2) ≠ none ∧
      lastReply (w.log ++ (w.node.updateOdometry cfg opens x).2) =
        ((w.log ++ (w.node.updateOdometry cfg opens x).2).filterMap Output.read).getLast?
    rw [hlast, if_pos (hgood.mp hok), List.filterMap_append, hreads, List.getLast?_concat]
    exact ⟨Option.some_ne_none _, rfl⟩

/-- The last read can be used, if the last poll went well. -/
def Fresh (w : Odometer R) : Prop :=
  w.node.currentData.error = .noError →
    lastReply w.log ≠ none ∧ lastReply w.log = (w.log.filterMap Output.read).getLast?

/-- A message goes out after a poll, if it may. -/
theorem message (h : Tracked cfg w) (hf : Fresh w) {β : Type*} (build : R → Motion R → β)
    (out : Option β → Output (OdometryOutput R)) (now : R)
    (hout : ∀ pre msg, Current cfg pre build msg → Sourced cfg pre (out msg))
    (hread : ∀ msg, (out msg).read = none) :
    ∃ u, u = w.after (w.node, if w.node.currentData.error = .noError ∨ cfg.alwaysPublish = true then
        [out (w.node.lastValidData.motion.map (build now))] else []) ∧ Tracked cfg u ∧ Fresh u := by
  refine ⟨_, rfl, ?_⟩
  split <;> rename_i hmay
  · have hcurrent : Current cfg w.log build (w.node.lastValidData.motion.map (build now)) := by
      refine ⟨⟨now, by rw [h.last]⟩, fun halways => hf (hmay.resolve_right ?_)⟩
      rw [halways]
      exact Bool.noConfusion
    have hnone : [out (w.node.lastValidData.motion.map (build now))].filterMap Output.received =
        [] := List.filterMap_cons_none (Output.received_eq_none (hread _))
    have hsilent : [out (w.node.lastValidData.motion.map (build now))].filterMap Output.read =
        [] := List.filterMap_cons_none (hread _)
    refine ⟨⟨?_, Logged.snoc h.sourced (hout _ _ hcurrent)⟩, fun hok => ?_⟩
    · exact h.last.trans (by rw [Odometer.after, lastReply_append hnone])
    · have hold := hf hok
      rw [Odometer.after, lastReply_append hnone, List.filterMap_append, hsilent, List.append_nil]
      exact hold
  · have hsame : w.after (w.node, []) = w := by rw [Odometer.after, List.append_nil]
    rw [hsame]
    exact ⟨h, hf⟩

theorem publish (h : Tracked cfg w) (now : R) (opens : Bool) (x : Exchange) :
    Tracked cfg (w.after (w.node.publish cfg now opens x)) := by
  obtain ⟨u, rfl, hu, hfresh⟩ := h.update opens x
  obtain ⟨v, rfl, hv, hfresh'⟩ := hu.message hfresh cfg.odometryMsg (fun msg => .own (.odometry msg))
    now (fun _ _ hc => hc) fun _ => rfl
  have hpublish : w.after (w.node.publish cfg now opens x) =
      ((w.after (w.node.updateOdometry cfg opens x)).after
        ((w.node.updateOdometry cfg opens x).1,
          (w.node.updateOdometry cfg opens x).1.publishOdometry cfg now)).after
        ((w.node.updateOdometry cfg opens x).1,
          if cfg.publishTf then (w.node.updateOdometry cfg opens x).1.publishTf cfg now else []) := by
    simp only [Odometer.after, WheelOdometryNode.publish, List.append_assoc]
  rw [hpublish]
  by_cases htf : cfg.publishTf = true
  · obtain ⟨z, rfl, hdone, _⟩ := hv.message hfresh' cfg.transformMsg
      (fun msg => .own (.transform msg)) now (fun _ _ hc => hc) fun _ => rfl
    rw [if_pos htf]
    exact hdone
  · rw [if_neg htf, Odometer.after, List.append_nil]
    exact hv

/-- What the health check says beyond the record of the connection is its probe: a request, and a
reply that is not kept. -/
theorem healthCheck (h : Tracked cfg w) (i : HealthInput) :
    Tracked cfg (w.after ({ w.node with
      base := (w.node.base.healthCheck (δ := OdometryOutput R) WheelOdometryNode.probe i).1 },
      (w.node.base.healthCheck WheelOdometryNode.probe i).2)) := by
  have hquiet : ∀ o ∈ (w.node.base.healthCheck WheelOdometryNode.probe i).2,
      o.received = none ∧ ∀ pre, Sourced cfg pre o := by
    intro o ho
    cases o with
    | own o =>
        rcases List.mem_append.mp (w.node.base.mem_probe_of_own ho) with hsent | hprobed
        · obtain ⟨bytes, _, rfl⟩ := List.mem_map.mp hsent
          exact ⟨rfl, fun _ => trivial⟩
        · obtain rfl := List.mem_singleton.mp hprobed
          exact ⟨rfl, fun _ => trivial⟩
    | _ => exact ⟨rfl, fun _ => trivial⟩
  exact h.append_silent rfl (List.filterMap_eq_nil_iff.mpr fun o ho => (hquiet o ho).1)
    fun o ho => (hquiet o ho).2

theorem step {c : OdometryCall R} (h : Tracked cfg w) (hc : w.step cfg c = some w') :
    Tracked cfg w' := by
  cases c with
  | present data =>
      obtain rfl := Option.some.inj hc
      exact ⟨h.last, h.sourced⟩
  | publish now opens x => exact Option.some.inj hc ▸ h.publish now opens x
  | healthCheck i => exact Option.some.inj hc ▸ h.healthCheck i

theorem run {base : SerialDriverNode} {calls : List (OdometryCall R)}
    (hr : exec (Odometer.step cfg) (Odometer.start base) calls = some w) : Tracked cfg w :=
  invariant_of_step (I := Tracked cfg) (fun _ _ _ h hs => h.step hs) ⟨rfl, Logged.nil⟩ hr

end Tracked

variable (cfg) in
theorem exists_counters {raw : List Byte} {log : List (Output (OdometryOutput R))}
    (h : lastReply log = some raw) :
    ∃ c : WheelOdometry.Counters, raw = c.reply ∧
      cfg.motionOf raw = some (cfg.invert c.motion) := by
  have hpass : passes raw = true :=
    (List.mem_filter.mp (List.mem_of_getLast? h)).2
  obtain ⟨c, rfl⟩ := WheelOdometry.exists_reply (of_decide_eq_true hpass)
  refine ⟨c, rfl, ?_⟩
  rw [WheelOdometryConfig.motionOf, WheelOdometry.decode_reply, Option.map_some]

variable (cfg) in
/-- What a message says after the log `pre`: the counters in the last reply to a poll that passed its
check, with the axes turned as configured. Unless the node publishes always, that reply is the last one
read, by a poll or by a probe; if it does, the messages before the first good reply hold no values. -/
def SaysLastReply {β : Type*} (pre : List (Output (OdometryOutput R))) (build : R → Motion R → β)
    (msg : Option β) : Prop :=
  (cfg.alwaysPublish = true ∧ lastReply pre = none ∧ msg = none ∨
    ∃ now c, lastReply pre = some (WheelOdometry.Counters.reply c) ∧
      msg = some (build now (cfg.invert c.motion))) ∧
  (cfg.alwaysPublish = false → lastReply pre = (pre.filterMap Output.read).getLast?)

theorem Current.saysLastReply {β : Type*} {pre : List (Output (OdometryOutput R))}
    {build : R → Motion R → β} {msg : Option β} (h : Current cfg pre build msg) :
    SaysLastReply cfg pre build msg := by
  obtain ⟨⟨now, hmsg⟩, hfresh⟩ := h
  refine ⟨?_, fun halways => (hfresh halways).2⟩
  cases hlast : lastReply pre with
  | none =>
      refine .inl ⟨?_, rfl, by rw [hmsg, hlast]; rfl⟩
      cases halways : cfg.alwaysPublish with
      | true => rfl
      | false => exact absurd hlast (hfresh halways).1
  | some raw =>
      obtain ⟨c, rfl, hc⟩ := exists_counters cfg hlast
      refine .inr ⟨now, c, rfl, ?_⟩
      rw [hmsg, hlast, Option.bind_some, hc, Option.map_some]

/-- Every odometry message and every transform of a run says what the last good reply said. -/
theorem published_from_last_reply {base : SerialDriverNode} {calls : List (OdometryCall R)}
    (hr : exec (Odometer.step cfg) (Odometer.start base) calls = some w) :
    (∀ pre msg post, w.log = pre ++ .own (.odometry msg) :: post →
      SaysLastReply cfg pre cfg.odometryMsg msg) ∧
    ∀ pre msg post, w.log = pre ++ .own (.transform msg) :: post →
      SaysLastReply cfg pre cfg.transformMsg msg := by
  have hlogged := (Tracked.run hr).sourced
  exact ⟨fun pre msg post h => Current.saysLastReply (hlogged pre _ post h),
    fun pre msg post h => Current.saysLastReply (hlogged pre _ post h)⟩

section

open WheelOdometry

/-- A configuration that mirrors the x axis and publishes stale data too. -/
def mirrored : WheelOdometryConfig ℚ where
  frameId := "odom"
  childFrameId := "base_footprint"
  publishTf := true
  alwaysPublish := true
  invX := true
  invY := false
  invTh := false
  covarianceX := 10
  covarianceY := 10
  covarianceYaw := 2 / 5
  covarianceVx := 1 / 2
  covarianceVyaw := 39 / 50
  sqrt := id

def firstCounters : Counters := ⟨1234#32, 0xfffffff6#32, 15708#16, 250#16, 0#16, 0xff9c#16⟩

/-- A good reply, one whose check sum is wrong, a health check whose probe reads a good reply with
other counters, and a wrong check sum again. -/
def probedBetweenPolls : List (OdometryCall ℚ) :=
  let wrong := firstCounters.reply.set 18 0#8
  [.publish 0 true { written := 2, reply := some firstCounters.reply },
    .publish (1 / 20) true { written := 2, reply := some wrong },
    .healthCheck { opens := true, opensAgain := true, exchange :=
      { written := 2, reply := some { firstCounters with x := 4321#32 }.reply } },
    .publish (1 / 10) true { written := 2, reply := some wrong }]

def Output.message : Output (OdometryOutput ℚ) → Option (Option (OdometryMsg ℚ))
  | .own (.odometry msg) => some msg
  | _ => none

/-- What the probe has read is not published: the stale messages repeat the first reply. -/
theorem published_from_last_reply_probed :
    ∃ w, exec (Odometer.step mirrored) (Odometer.start (.start "odometry" ⟨true, true⟩ 4))
        probedBetweenPolls = some w ∧
      w.log.filterMap Output.message = [0, 1 / 20, 1 / 10].map
        (fun now => some (mirrored.odometryMsg now (mirrored.invert firstCounters.motion))) ∧
      (∀ pre msg post, w.log = pre ++ .own (.odometry msg) :: post →
        SaysLastReply mirrored pre mirrored.odometryMsg msg) ∧
      ∀ pre msg post, w.log = pre ++ .own (.transform msg) :: post →
        SaysLastReply mirrored pre mirrored.transformMsg msg := by
  obtain ⟨w, hw, hmessages⟩ : ∃ w, exec (Odometer.step mirrored)
      (Odometer.start (.start "odometry" ⟨true, true⟩ 4)) probedBetweenPolls = some w ∧
        w.log.filterMap Output.message = [0, 1 / 20, 1 / 10].map
          (fun now => some (mirrored.odometryMsg now (mirrored.invert firstCounters.motion))) :=
    exists_exec (by decide +kernel)
  exact ⟨w, hw, hmessages, published_from_last_reply hw⟩

end

variable (cfg) in
/-- What one poll does to the base class. -/
theorem WheelOdometryNode.updateOdometry_base (n : WheelOdometryNode R) (opens : Bool)
    (x : Exchange) :
    ∃ data, data = WheelOdometry.getData (R := R) n.base.port.isOpenSerial x ∧
      (n.updateOdometry cfg opens x).1.base =
        (n.base.handleSerialError (δ := OdometryOutput R) opens data.1.error).1 ∧
      (n.updateOdometry cfg opens x).2 =
        (data.2.map OdometryOutput.sent ++ [OdometryOutput.received data.1.raw]).map .own ++
          (n.base.handleSerialError opens data.1.error).2 := by
  refine ⟨_, rfl, ?_, ?_⟩
  · simp only [WheelOdometryNode.updateOdometry]
    split <;> rfl
  · simp only [WheelOdometryNode.updateOdometry, List.map_append, List.map_map,
      List.append_assoc]
    split <;> rfl

/-- A run of the node is a run of its base class, with the probe of the wheel odometry. -/
theorem wheel_odometry_refines {calls : List (OdometryCall R)}
    (hr : exec (Odometer.step cfg) w calls = some w') :
    ∃ calls, exec (Driver.step WheelOdometryNode.probe) (w.driver) calls = some w'.driver := by
  refine exec_matched (fun s c t h => ?_) hr
  cases c with
  | present data =>
      obtain rfl := Option.some.inj h
      exact ⟨[.present data], rfl⟩
  | healthCheck i =>
      obtain rfl := Option.some.inj h
      exact ⟨[.healthCheck i], rfl⟩
  | publish now opens x =>
      obtain rfl := Option.some.inj h
      -- the request and the read, their result, the messages
      obtain ⟨data, _, hbase, houts⟩ := s.node.updateOdometry_base cfg opens x
      let u := s.node.updateOdometry cfg opens x
      obtain ⟨msgs, hmsgs⟩ : ∃ msgs : List (OdometryOutput R), msgs.map Output.own =
          u.1.publishOdometry cfg now ++ if cfg.publishTf then u.1.publishTf cfg now else [] := by
        refine ⟨((if u.1.currentData.error = .noError ∨ cfg.alwaysPublish = true then
          [OdometryOutput.odometry (u.1.lastValidData.motion.map (cfg.odometryMsg now))] else []) ++
          if cfg.publishTf then
            (if u.1.currentData.error = .noError ∨ cfg.alwaysPublish = true then
              [.transform (u.1.lastValidData.motion.map (cfg.transformMsg now))] else [])
          else []), ?_⟩
        rw [List.map_append, WheelOdometryNode.publishOdometry, WheelOdometryNode.publishTf]
        split <;> split <;> rfl
      refine ⟨(data.2.map OdometryOutput.sent ++ [OdometryOutput.received data.1.raw]).map .own ++
        ([.report data.1.error opens] ++ msgs.map .own),
        exec_append (Driver.exec_own _ _ _) (exec_append (exec_single rfl) ?_)⟩
      rw [Driver.exec_own, hmsgs]
      refine congrArg some ?_
      have hnode : (s.after (s.node.publish cfg now opens x)).node.base =
          (s.node.base.handleSerialError (δ := OdometryOutput R) opens data.1.error).1 := hbase
      have hlog : (s.after (s.node.publish cfg now opens x)).log =
          s.log ++ (u.2 ++ u.1.publishOdometry cfg now ++
            if cfg.publishTf then u.1.publishTf cfg now else []) := rfl
      have hdriver : (s.after (s.node.publish cfg now opens x)).driver =
          { node := (s.after (s.node.publish cfg now opens x)).node.base
            log := (s.after (s.node.publish cfg now opens x)).log } := rfl
      rw [hdriver, hnode, hlog, houts]
      simp only [Driver.after, Odometer.driver, List.append_assoc]

end OdometryRuns

end MgRobot.Drivers
