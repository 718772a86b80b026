import MgRobot.Sequencer.World

/-!
# navigate_to_pose and the costmap layers

A whole `navigate_to_pose`: its first section, the service call that switches
the sensor layers of the global costmap, and its second section, with everybody
else's steps in between. The costmap takes the parameters of a request together
or refuses them, and may do so after the caller has given up waiting.
-/

namespace MgRobot.Sequencer

set_option autoImplicit false

open MgRobot.Lib.Runs

variable {R : Type*}

def globalCostmapSetParameters : String :=
  "/global_costmap/global_costmap/set_parameters_atomically"

def sensorObstacleLayers : List String := ["top_obstacle_layer", "obstacle_stvl_layer"]

/-- The parameters of the request of `set_global_obstacle_layers`. -/
def layerParameters (enabled : Bool) : List (String × Bool) :=
  sensorObstacleLayers.map fun layer => (layer ++ ".enabled", enabled)

/-- `set_global_obstacle_layers`; `response` is the `successful` of the response, or none. -/
def setGlobalObstacleLayers (enabled : Bool) (response : Option Bool) : Bool × String :=
  let value := if enabled then "True" else "False"
  if response = some true then (true, "global obstacle layers enabled: " ++ value)
  else
    (false, "failed to set global obstacle layers (enabled: " ++ value ++ "); is " ++
      globalCostmapSetParameters ++ " available?")

/-- The boolean parameters of the global costmap. -/
abbrev CostmapParameters := String → Bool

/-- The costmap's side of `SetParametersAtomically`. -/
def CostmapParameters.set (p : CostmapParameters) (parameters : List (String × Bool)) :
    CostmapParameters := fun name => (parameters.lookup name).getD (p name)

/-- The layers are enabled alike. -/
def SameLayers (p q : CostmapParameters) : Prop :=
  ∀ layer ∈ sensorObstacleLayers, p (layer ++ ".enabled") = q (layer ++ ".enabled")

/-- Both layers have the value `enabled`. -/
def LayersAre (p : CostmapParameters) (enabled : Bool) : Prop :=
  ∀ layer ∈ sensorObstacleLayers, p (layer ++ ".enabled") = enabled

instance (p q : CostmapParameters) : Decidable (SameLayers p q) :=
  inferInstanceAs (Decidable (∀ layer ∈ _, _))

instance (p : CostmapParameters) (enabled : Bool) : Decidable (LayersAre p enabled) :=
  inferInstanceAs (Decidable (∀ layer ∈ _, _))

theorem layersAre_set (p : CostmapParameters) (enabled : Bool) :
    LayersAre (p.set (layerParameters enabled)) enabled := by
  intro layer hl
  have hcases : layer = "top_obstacle_layer" ∨ layer = "obstacle_stvl_layer" := by
    simpa [sensorObstacleLayers] using hl
  rcases hcases with rfl | rfl <;> rfl

/-- The request of the call, as the costmap sees it. -/
inductive LayerRequest where
  | unsent
  | atServer
  | handled (successful : Bool)
  deriving DecidableEq, Repr

/-- Where the call is. -/
inductive CallPhase where
  | entering
  | switching  -- in `set_global_obstacle_layers`
  | switched   -- before the second section
  | returned (result : CommandResult)
  deriving DecidableEq, Repr

structure ManualCall (R : Type*) where
  world : World R
  parameters : CostmapParameters
  request : LayerRequest
  phase : CallPhase

inductive CallEvent (R : Type*) where
  | enter
  | other (e : WorldEvent R)
  | otherSwitch (enabled : Bool)  -- a request of another caller is applied
  | unavailable
  | send
  | handle (successful : Bool)
  | answer
  | timeout
  | resume (nowNs : Int)

namespace ManualCall

/-- The value `navigate_to_pose` asks for. -/
def asksFor (navigationMode : String) : Bool := decide (navigationMode ≠ "queue_wait")

def start (world : World R) (parameters : CostmapParameters) : ManualCall R where
  world := world
  parameters := parameters
  request := .unsent
  phase := .entering

section Step

variable [LinearOrder R] [Field R] (cfg : SequencerConfig R) (pose : Pose R)
  (navigationMode : String) (c : ManualCall R)

/-- What `navigate_to_pose` makes of the answer of `set_global_obstacle_layers`. -/
def layersDone (result : Bool × String) : Option (ManualCall R) :=
  if result.1 then some { c with phase := .switched }
  else
    (c.world.step cfg (.layersFailed pose navigationMode)).map fun world =>
      { c with world := world, phase := .returned ⟨false, result.2⟩ }

def step : CallEvent R → Option (ManualCall R)
  | .enter =>
      if c.phase = .entering then
        (c.world.step cfg (.navigateToPose pose navigationMode)).map fun world =>
          match c.world.sequencer.fsm.manualGoalRejection cfg.isPrintable navigationMode with
          | some rejection => { c with world := world, phase := .returned ⟨false, rejection⟩ }
          | none =>
              { c with
                world := world
                phase := if navigationMode ≠ defaultBtMode then .switching else .switched }
      else none
  | .other e => (c.world.step cfg e).map fun world => { c with world := world }
  | .otherSwitch enabled =>
      some { c with parameters := c.parameters.set (layerParameters enabled) }
  | .unavailable =>
      if c.phase = .switching ∧ c.request = .unsent then
        c.layersDone cfg pose navigationMode
          (setGlobalObstacleLayers (asksFor navigationMode) none)
      else none
  | .send =>
      if c.phase = .switching ∧ c.request = .unsent then some { c with request := .atServer }
      else none
  | .handle successful =>
      if c.request = .atServer then
        some { c with
          request := .handled successful
          parameters :=
            if successful then c.parameters.set (layerParameters (asksFor navigationMode))
            else c.parameters }
      else none
  | .answer =>
      match c.phase, c.request with
      | .switching, .handled successful =>
          c.layersDone cfg pose navigationMode
            (setGlobalObstacleLayers (asksFor navigationMode) (some successful))
      | _, _ => none
  | .timeout =>
      if c.phase = .switching ∧ c.request ≠ .unsent then
        c.layersDone cfg pose navigationMode
          (setGlobalObstacleLayers (asksFor navigationMode) none)
      else none
  | .resume now =>
      if c.phase = .switched then
        (c.world.step cfg (.operation (.sendManualGoal pose navigationMode) now)).map fun world =>
          { c with
            world := world
            phase := .returned
              (c.world.sequencer.fsm.sendManualGoal cfg.isPrintable pose navigationMode).2 }
      else none

end Step

/-- The call has returned a success. -/
def Succeeded (c : ManualCall R) : Prop := ∃ message, c.phase = .returned ⟨true, message⟩

/-- The value a step sets the layers to. -/
def switched (navigationMode : String) : CallEvent R → Option Bool
  | .otherSwitch enabled => some enabled
  | .handle true => some (asksFor navigationMode)
  | _ => none

/-- The value the layers were last set to. -/
def lastSwitch (navigationMode : String) (es : List (CallEvent R)) : Option Bool :=
  (es.filterMap (switched navigationMode)).getLast?

section LastSwitch

variable {navigationMode : String} {es : List (CallEvent R)} {e : CallEvent R}

theorem lastSwitch_snoc : lastSwitch navigationMode (es ++ [e]) =
    (switched navigationMode e).or (lastSwitch navigationMode es) := by
  rw [lastSwitch, List.filterMap_append]
  cases he : switched navigationMode e with
  | none => rw [List.filterMap_cons_none he, List.filterMap_nil, List.append_nil]; rfl
  | some b => rw [List.filterMap_cons_some he, List.filterMap_nil, List.getLast?_concat]; rfl

theorem lastSwitch_own (hown : .handle true ∈ es) (hother : ∀ enabled, .otherSwitch enabled ∉ es) :
    lastSwitch navigationMode es = some (asksFor navigationMode) := by
  have hmem : asksFor navigationMode ∈ es.filterMap (switched navigationMode) :=
    List.mem_filterMap.mpr ⟨_, hown, rfl⟩
  obtain ⟨enabled, hlast⟩ := Option.isSome_iff_exists.mp
    (List.getLast?_isSome.mpr (List.ne_nil_of_mem hmem))
  obtain ⟨e, he, hs⟩ := List.mem_filterMap.mp (List.mem_of_getLast? hlast)
  rw [lastSwitch, hlast, ← hs]
  cases e with
  | otherSwitch => exact absurd he (hother _)
  | handle successful =>
      cases successful with
      | true => rfl
      | false => cases hs
  | enter | other | unavailable | send | answer | timeout | resume => cases hs

end LastSwitch

theorem not_succeeded {c : ManualCall R} {phase : CallPhase} (h : c.phase = phase)
    (hp : ∀ r, phase ≠ .returned r) : ¬ c.Succeeded := by
  rintro ⟨message, hm⟩
  exact hp _ (h.symm.trans hm)

section Effect

variable [Field R] (navigationMode : String) (c : ManualCall R)

/-- What a step can do: `own` covers the steps of the call before its second section. -/
inductive Effect (isPrintable : Char → Bool) (pose : Pose R) : CallEvent R → ManualCall R → Prop
  | own {e world request phase} (hc : ¬ c.Succeeded)
      (hphase : ∀ message, phase ≠ .returned ⟨true, message⟩) (he : switched navigationMode e = none)
      (hne : ∀ now, e ≠ .resume now) :
      Effect isPrintable pose e { c with world := world, request := request, phase := phase }
  | other {e world} : Effect isPrintable pose (.other e) { c with world := world }
  | otherSwitch {enabled} : Effect isPrintable pose (.otherSwitch enabled)
      { c with parameters := c.parameters.set (layerParameters enabled) }
  | refused {request} :
      Effect isPrintable pose (.handle false) { c with request := request }
  | applied {request} : Effect isPrintable pose (.handle true)
      { c with
        request := request
        parameters := c.parameters.set (layerParameters (asksFor navigationMode)) }
  | resume {now world} (hc : ¬ c.Succeeded) : Effect isPrintable pose (.resume now)
      { c with
        world := world
        phase := .returned (c.world.sequencer.fsm.sendManualGoal isPrintable pose navigationMode).2 }

/-- The layers have the value they were last set to. -/
def LayersFollow (parameters : CostmapParameters) (last : Option Bool)
    (p : CostmapParameters) : Prop :=
  ∀ layer ∈ sensorObstacleLayers, p (layer ++ ".enabled") =
    last.getD (parameters (layer ++ ".enabled"))

variable {navigationMode c} {c' : ManualCall R} {e : CallEvent R} {pose : Pose R}
  {isPrintable : Char → Bool}

theorem Effect.layers {last : Option Bool} {parameters : CostmapParameters}
    (he : Effect navigationMode c isPrintable pose e c')
    (h : LayersFollow parameters last c.parameters) :
    LayersFollow parameters ((switched navigationMode e).or last) c'.parameters := by
  cases he with
  | own _ _ he => rw [he]; exact h
  | other | refused | resume => exact h
  | otherSwitch | applied => exact layersAre_set _ _

theorem Effect.succeeded (he : Effect navigationMode c isPrintable pose e c') :
    c'.Succeeded ↔ c.Succeeded ∨
      ∃ now, e = .resume now ∧ c.world.sequencer.fsm.AcceptsManualGoal navigationMode := by
  have hsame : ∀ {p : Prop}, ¬ p → (c.Succeeded ↔ c.Succeeded ∨ p) := fun hp => by simp [hp]
  cases he with
  | own hc hphase _ hne =>
      refine iff_of_false ?_ ?_
      · rintro ⟨message, hm⟩
        exact hphase message hm
      · rintro (h | ⟨now, h, _⟩)
        · exact hc h
        · exact hne now h
  | other | otherSwitch | refused | applied => exact hsame (by simp)
  | resume hc =>
      rw [or_iff_right hc]
      unfold SequencerFsm.sendManualGoal
      cases hm : c.world.sequencer.fsm.manualGoalRejection isPrintable navigationMode with
      | some rejection =>
          refine iff_of_false nofun ?_
          rintro ⟨_, _, ha⟩
          exact nomatch hm.symm.trans ((SequencerFsm.manualGoalRejection_eq_none _).mpr ha)
      | none =>
          exact iff_of_true ⟨_, rfl⟩ ⟨_, rfl, (SequencerFsm.manualGoalRejection_eq_none _).mp hm⟩

end Effect

variable [LinearOrder R] [Field R]

/-- The second section has found the goal acceptable. -/
def Accepted (cfg : SequencerConfig R) (pose : Pose R) (navigationMode : String)
    (c : ManualCall R) (es : List (CallEvent R)) : Prop :=
  ∃ pre now post u, es = pre ++ .resume now :: post ∧
    exec (step cfg pose navigationMode) c pre = some u ∧
    u.world.sequencer.fsm.AcceptsManualGoal navigationMode

variable {cfg : SequencerConfig R} {pose : Pose R} {navigationMode : String}
  {c c' u : ManualCall R} {e : CallEvent R}
  {es : List (CallEvent R)} {world : World R} {parameters : CostmapParameters}

theorem accepted_snoc (hr : exec (step cfg pose navigationMode) c es = some u) :
    Accepted cfg pose navigationMode c (es ++ [e]) ↔ Accepted cfg pose navigationMode c es ∨
      ∃ now, e = .resume now ∧ u.world.sequencer.fsm.AcceptsManualGoal navigationMode := by
  constructor
  · rintro ⟨pre, now, post, v, he, hv, ha⟩
    rcases List.eq_nil_or_concat post with rfl | ⟨post, x, rfl⟩
    · obtain ⟨rfl, hx⟩ := List.append_inj' he rfl
      obtain rfl := Option.some.inj (hr.symm.trans hv)
      exact Or.inr ⟨now, List.singleton_inj.mp hx, ha⟩
    · rw [List.concat_eq_append, ← List.cons_append, ← List.append_assoc] at he
      obtain ⟨rfl, -⟩ := List.append_inj' he rfl
      exact Or.inl ⟨pre, now, post, v, rfl, hv, ha⟩
  · rintro (⟨pre, now, post, v, rfl, hv, ha⟩ | ⟨now, rfl, ha⟩)
    · exact ⟨pre, now, post ++ [e], v, by simp, hv, ha⟩
    · exact ⟨es, now, [], u, rfl, hr, ha⟩

theorem layersDone_effect {result : Bool × String} (hc : ¬ c.Succeeded)
    (he : switched navigationMode e = none) (hne : ∀ now, e ≠ .resume now)
    (h : c.layersDone cfg pose navigationMode result = some c') :
    Effect navigationMode c cfg.isPrintable pose e c' := by
  unfold layersDone at h
  split_ifs at h
  · cases h
    exact .own hc nofun he hne
  · obtain ⟨world, -, rfl⟩ := Option.map_eq_some_iff.mp h
    exact .own hc nofun he hne

theorem step_effect (hs : step cfg pose navigationMode c e = some c') :
    Effect navigationMode c cfg.isPrintable pose e c' := by
  cases e with
  | enter =>
      simp only [step] at hs
      by_cases hp : c.phase = .entering
      · rw [if_pos hp] at hs
        obtain ⟨world, -, rfl⟩ := Option.map_eq_some_iff.mp hs
        have hc := not_succeeded hp nofun
        split
        · exact .own hc nofun rfl nofun
        · refine .own hc ?_ rfl nofun
          split_ifs <;> exact nofun
      · rw [if_neg hp] at hs
        cases hs
  | other e =>
      obtain ⟨world, -, rfl⟩ := Option.map_eq_some_iff.mp hs
      exact .other
  | otherSwitch enabled =>
      cases hs
      exact .otherSwitch
  | unavailable | timeout =>
      simp only [step] at hs
      split_ifs at hs with h
      exact layersDone_effect (not_succeeded h.1 nofun) rfl nofun hs
  | send =>
      simp only [step] at hs
      split_ifs at hs with h
      cases hs
      refine .own (not_succeeded h.1 nofun) (fun message => ?_) rfl nofun
      rw [h.1]
      exact nofun
  | handle successful =>
      simp only [step] at hs
      split_ifs at hs with h hb
      · cases hs
        rw [hb]
        exact .applied
      · cases hs
        rw [Bool.not_eq_true] at hb
        rw [hb]
        exact .refused
  | answer =>
      simp only [step] at hs
      split at hs
      · next h _ => exact layersDone_effect (not_succeeded h nofun) rfl nofun hs
      · cases hs
  | resume now =>
      simp only [step] at hs
      split_ifs at hs with h
      obtain ⟨world, -, rfl⟩ := Option.map_eq_some_iff.mp hs
      exact .resume (not_succeeded h nofun)

/-- The layers and the result after any part of a call. -/
theorem call_run (hr : exec (step cfg pose navigationMode) (start world parameters) es = some c) :
    LayersFollow parameters (lastSwitch navigationMode es) c.parameters ∧
      (c.Succeeded ↔ Accepted cfg pose navigationMode (start world parameters) es) := by
  have h := invariant_of_history (s := start world parameters) (t := c)
    (H := fun es u => exec (step cfg pose navigationMode) (start world parameters) es = some u ∧
      LayersFollow parameters (lastSwitch navigationMode es) u.parameters ∧
      (u.Succeeded ↔ Accepted cfg pose navigationMode (start world parameters) es)) ?_ ?_ hr
  · exact h.2
  · rintro es u e v ⟨hu, hlayers, hiff⟩ hs
    have he := step_effect hs
    refine ⟨exec_snoc hu hs, ?_, ?_⟩
    · rw [lastSwitch_snoc]
      exact he.layers hlayers
    · rw [accepted_snoc hu, he.succeeded, hiff]
  · refine ⟨rfl, fun _ _ => rfl, iff_of_false nofun ?_⟩
    rintro ⟨pre, now, post, _, he, _⟩
    exact nomatch (List.append_eq_nil_iff.mp he.symm).2

theorem sameLayers_iff {last : Option Bool} {p : CostmapParameters}
    (h : LayersFollow parameters last p) :
    SameLayers p parameters ↔ ∀ enabled, last = some enabled → LayersAre parameters enabled := by
  constructor
  · rintro hsame enabled rfl layer hl
    exact (hsame layer hl).symm.trans (h layer hl)
  · intro hlast layer hl
    rw [h layer hl]
    cases last with
    | none => rfl
    | some enabled => exact (hlast enabled rfl layer hl).symm

/-- Nothing undoes the call's own switch: when nobody else switches, the layers are left as the
call asked for, also where it fails. -/
theorem own_switch_stays (hown : .handle true ∈ es) (hother : ∀ enabled, .otherSwitch enabled ∉ es)
    (hr : exec (step cfg pose navigationMode) (start world parameters) es = some c) :
    SameLayers c.parameters parameters ↔ LayersAre parameters (asksFor navigationMode) := by
  rw [sameLayers_iff (call_run hr).1, lastSwitch_own hown hother]
  simp

/-- A call that returns leaves the layers as they were unless it succeeds, exactly if its second
section accepts the goal, or the last switch that was applied sets what was there before. -/
theorem failure_keeps_layers_iff (cfg : SequencerConfig R) (pose : Pose R) (navigationMode : String)
    (world : World R) (parameters : CostmapParameters) (es : List (CallEvent R)) (c : ManualCall R)
    (r : CommandResult)
    (hr : exec (step cfg pose navigationMode) (start world parameters) es = some c)
    (hret : c.phase = .returned r) :
    (r.success = false → SameLayers c.parameters parameters) ↔
      Accepted cfg pose navigationMode (start world parameters) es ∨
        ∀ enabled, lastSwitch navigationMode es = some enabled → LayersAre parameters enabled := by
  obtain ⟨hlayers, hiff⟩ := call_run hr
  have hsucc : c.Succeeded ↔ r.success = true := by
    obtain ⟨success, message⟩ := r
    constructor
    · rintro ⟨text, ht⟩
      have := CallPhase.returned.inj (hret.symm.trans ht)
      exact congrArg CommandResult.success this
    · rintro rfl
      exact ⟨message, hret⟩
  rw [← hiff, hsucc, ← sameLayers_iff hlayers]
  cases r.success <;> simp

/-- The costmap refuses: the manual goal fails and nothing has changed. -/
theorem failure_keeps_layers_refused :
    let w : World ℚ := .boot ⟨[.stop 1]⟩ (1 / 2)
    ∃ c : ManualCall ℚ,
      exec (step .axes ⟨0, 0⟩ "queue_wait") (start w fun _ => true)
        [.enter, .send, .handle false, .answer] = some c ∧
      SameLayers c.parameters fun _ => true := by
  intro w
  obtain ⟨c, hc, hphase⟩ : ∃ c : ManualCall ℚ,
      exec (step .axes ⟨0, 0⟩ "queue_wait") (start w fun _ => true)
        [.enter, .send, .handle false, .answer] = some c ∧
      c.phase = .returned ⟨false, (setGlobalObstacleLayers false none).2⟩ :=
    exists_exec (by rfl)
  refine ⟨c, hc, (failure_keeps_layers_iff .axes ⟨0, 0⟩ "queue_wait" w _ _ c _ hc hphase).mpr ?_ rfl⟩
  exact Or.inr nofun

/-- The sequence starts while the layers are switched: the goal is rejected after all and the
layers stay disabled. -/
theorem layers_left_switched :
    let w : World ℚ := .boot ⟨[.stop 1]⟩ (1 / 2)
    ∃ c : ManualCall ℚ,
      exec (step .axes ⟨0, 0⟩ "queue_wait") (start w fun _ => true)
        [.enter, .send, .handle true, .other (.operation (.start 600000 0) 0), .answer,
          .resume 0] = some c ∧
      c.phase = .returned
        ⟨false, "Cannot send a manual goal in state ON_STARTING; stop the sequence first"⟩ ∧
      ¬ SameLayers c.parameters fun _ => true :=
  exists_exec (by rfl)

end ManualCall

end MgRobot.Sequencer
