import MgRobot.Sequencer.CostmapMode

/-!
# The actions of a waypoint and the costmap layers

`ActionExecutor.execute` runs a list of actions on a thread of its own, one after the other and
on after a failure, and calls `_on_arriving_done` at the end. Here the state machine runs next to
these threads and to the costmap, which may handle a request after its caller has given up. There
are no manual goals, and of the actions only `set_navigation_mode` switches the layers.
-/

namespace MgRobot.Sequencer

set_option autoImplicit false

open SequencerFsm

variable {R : Type*}

/-- What becomes of the service call of a layer switch. -/
inductive SwitchCall where
  | unavailable
  | answered (successful : Bool)
  | unanswered (handled : Option Bool)  -- `none`: the costmap still has the request
  deriving DecidableEq, Repr

namespace SwitchCall

/-- `call_service`: the `successful` of the response. -/
def response : SwitchCall → Option Bool
  | .answered successful => some successful
  | .unavailable | .unanswered _ => none

def TakesEffect (call : SwitchCall) : Prop := call = .answered true ∨ call = .unanswered (some true)

instance (call : SwitchCall) : Decidable call.TakesEffect := inferInstanceAs (Decidable (_ ∨ _))

end SwitchCall

/-- `SetNavigationModeAction.execute`: the message of the `ActionFailed` that it raises. -/
def SetNavigationModeAction.execute (mode : String) (call : SwitchCall) : Option String :=
  if (setGlobalObstacleLayers (ManualCall.asksFor mode) call.response).1 then none
  else some ("failed to set navigation mode to '" ++ mode ++ "'")

/-- The check that the loader makes of the mode of every `set_navigation_mode` action. -/
def WaypointList.ModesChecked (l : WaypointList R) : Prop :=
  ∀ w ∈ l.waypoints, ∀ mode ∈ modesOf w.onReachedActions, mode ∈ navigationModes

instance (l : WaypointList R) : Decidable l.ModesChecked :=
  inferInstanceAs (Decidable (∀ w ∈ l.waypoints, ∀ mode ∈ modesOf w.onReachedActions, _))

/-- A thread of `ActionExecutor.execute`; `failures` are the errors of its `action.failed` events. -/
structure ActionThread where
  actions : List ActionConfig
  remaining : List ActionConfig
  failures : List String := []
  deriving DecidableEq, Repr

/-- The thread that the call starts. -/
def Call.thread? : Call R → Option ActionThread
  | .execute actions _ => some ⟨actions, actions, []⟩
  | _ => none

/-- The mode of the goal that the call sends for the sequence. -/
def Call.goalMode? : Call R → Option String
  | .sendGoal _ .sequence mode => some mode
  | _ => none

/-- `requests` are with the costmap and have no caller any more. `switches` took effect since
actions last completed, and `settled` is the last one from before; no object of the source
records these two. -/
structure ModeRun (R : Type*) where
  sequencer : TimedFsm R
  threads : List ActionThread
  requests : Multiset Bool
  switches : List Bool
  settled : Option Bool

inductive ModeEvent (R : Type*) where
  | operation (e : FsmEvent R)
  | action (i : Nat) (call : SwitchCall)
  | actionsDone (i : Nat)
  | late (enabled successful : Bool)

namespace ModeRun

/-- The operations that come from outside. Lists come from the loader. -/
def Outside : FsmEvent R → Prop
  | .sendManualGoal _ _ | .onManualGoalResult _ | .onArrivingDone => False
  | .reloadWaypoints waypoints => waypoints.ModesChecked
  | _ => True

instance : (e : FsmEvent R) → Decidable (Outside e)
  | .sendManualGoal _ _ | .onManualGoalResult _ | .onArrivingDone => isFalse id
  | .reloadWaypoints waypoints => inferInstanceAs (Decidable waypoints.ModesChecked)
  | .setNextIndex _ | .start _ _ | .stop | .pauseRequest _ _ _ | .onStartingDone _
  | .onNavigationResult _ => isTrue trivial

variable (s : ModeRun R)

abbrev fsm : SequencerFsm R := s.sequencer.fsm

/-- The last switch that took effect. -/
def lastSwitch : Option Bool := s.switches.getLast?.or s.settled

/-- One action, whether it fails or not. -/
def runAction (th : ActionThread) (action : ActionConfig) (rest : List ActionConfig) (i : Nat)
    (call : SwitchCall) : ModeRun R :=
  if action.type = "set_navigation_mode" then
    let enabled := ManualCall.asksFor action.mode
    { s with
      threads := s.threads.set i
        { th with
          remaining := rest
          failures := th.failures ++
            (SetNavigationModeAction.execute action.mode call).toList }
      switches := s.switches ++ if call.TakesEffect then [enabled] else []
      requests := if call = .unanswered none then enabled ::ₘ s.requests else s.requests }
  else { s with threads := s.threads.set i { th with remaining := rest } }

variable [Field R] (isPrintable : Char → Bool)

/-- An operation of the state machine, with the threads that it starts. -/
def operate (e : FsmEvent R) : Option (ModeRun R) :=
  (s.sequencer.step isPrintable e).map fun sequencer =>
    { s with
      sequencer := sequencer
      threads := s.threads ++ (s.fsm.handle isPrintable e).calls.filterMap Call.thread? }

def step (s : ModeRun R) : ModeEvent R → Option (ModeRun R)
  | .operation e => if Outside e then s.operate isPrintable e else none
  | .action i call =>
      match s.threads[i]? with
      | some th =>
          match th.remaining with
          | action :: rest => some (s.runAction th action rest i call)
          | [] => none
      | none => none
  | .actionsDone i =>
      match s.threads[i]? with
      | some th =>
          if th.remaining = [] then
            operate { s with
              threads := s.threads.eraseIdx i, settled := s.lastSwitch, switches := [] }
              isPrintable .onArrivingDone
          else none
      | none => none
  | .late enabled successful =>
      if enabled ∈ s.requests then
        some { s with
          requests := s.requests.erase enabled
          switches := s.switches ++ if successful then [enabled] else [] }
      else none

omit [Field R] in
/-- The sequencer with its waypoints loaded; no layer has been switched. -/
def boot (waypoints : { l : WaypointList R // l.ModesChecked }) : ModeRun R where
  sequencer := .boot waypoints.val
  threads := []
  requests := 0
  switches := []
  settled := none

end ModeRun

namespace SequencerFsm

/-! ## What an operation does to the mode -/

variable {f : SequencerFsm R} {t : Turn R} {e : FsmEvent R}

/-- No thread is started, and the mode stays. -/
structure KeepsMode (f : SequencerFsm R) (t : Turn R) : Prop where
  mode : t.fsm.navigationMode = f.navigationMode
  threads : t.calls.filterMap Call.thread? = []
  goals : ∀ mode ∈ t.calls.filterMap Call.goalMode?, mode = f.navigationMode

theorem Enters.keepsMode (h : Enters f t) : KeepsMode f t ∧ t.fsm.waypoints = f.waypoints := by
  cases h with
  | raised => exact ⟨⟨rfl, rfl, nofun⟩, rfl⟩
  | sent => exact ⟨⟨rfl, rfl, fun mode hm => List.mem_singleton.mp hm⟩, rfl⟩

theorem Advances.keepsMode (h : Advances f t) : KeepsMode f t ∧ t.fsm.waypoints = f.waypoints := by
  cases h with
  | stopped | raised | goalReached | waitTrigger | paused => exact ⟨⟨rfl, rfl, nofun⟩, rfl⟩
  | next _ _ _ ht =>
      obtain ⟨⟨hmode, hthreads, hgoals⟩, hw⟩ := ht.keepsMode
      exact ⟨⟨hmode, hthreads, hgoals⟩, hw⟩

/-- A turn that only cancels, or asks for nothing. -/
theorem KeepsMode.of_cancels (hm : t.fsm.navigationMode = f.navigationMode)
    (hc : ∀ c ∈ t.calls, c = .cancel) : KeepsMode f t := by
  refine ⟨hm, ?_, ?_⟩
  · refine List.filterMap_eq_nil_iff.mpr fun c hmem => ?_
    rw [hc c hmem]
    rfl
  · intro mode hmode
    obtain ⟨c, hmem, hsome⟩ := List.mem_filterMap.mp hmode
    rw [hc c hmem] at hsome
    exact absurd hsome nofun

/-- A waypoint has been reached: its actions set the mode and are handed to a thread. -/
structure Arrives (f : SequencerFsm R) (t : Turn R) (actions : List ActionConfig) : Prop where
  before : f.state = .navigating
  after : t.fsm.state = .onArriving
  reached : ∃ w ∈ f.waypoints.waypoints, w.onReachedActions = actions
  waypoints : t.fsm.waypoints = f.waypoints
  mode : t.fsm.navigationMode = (modesOf actions).getLastD f.navigationMode
  threads : t.calls.filterMap Call.thread? = [⟨actions, actions, []⟩]
  goals : t.calls.filterMap Call.goalMode? = []

end SequencerFsm

theorem WaypointList.mem_of_get {l : WaypointList R} {index : Int} {w : Waypoint R}
    (h : l.get index = some w) : w ∈ l.waypoints := by
  unfold WaypointList.get at h
  split at h
  · exact List.mem_of_getElem? h
  · split at h
    · exact List.mem_of_getElem? h
    · exact absurd h nofun

namespace SequencerFsm

variable {f : SequencerFsm R} {t : Turn R} {e : FsmEvent R} [Field R]

/-- The completion of the actions leaves the mode to the next goal. -/
theorem Effect.arrivingDone_keepsMode (he : Effect f .onArrivingDone t) :
    KeepsMode f t ∧ t.fsm.waypoints = f.waypoints := by
  cases he with
  | arrivingIgnored => exact ⟨⟨rfl, rfl, nofun⟩, rfl⟩
  | arrivingDone _ ht => exact ht.keepsMode

/-- Nothing from outside ends the wait for the actions. -/
theorem Effect.onArriving (he : Effect f e t) (ho : ModeRun.Outside e) (hs : f.state = .onArriving) :
    t.fsm.state = .onArriving ∧ t.calls.filterMap Call.goalMode? = [] := by
  have hne : ∀ {s : SequencerState}, f.state = s → s ≠ .onArriving → False :=
    fun h hs' => hs' (h.symm.trans hs)
  cases he with
  | setNextIndexRejected | reloadRejected | startRejected | pause | unpause | startingStale
  | resultIgnored => exact ⟨hs, rfl⟩
  | setNextIndex h => rcases h with h | h <;> exact (hne h nofun).elim
  | reload h => rcases h with h | h | h <;> exact (hne h nofun).elim
  | startIdle h | startAgain h | stopIdle h | stopStarting h | stopNavigating h | pauseStarting h
  | pauseNavigating h | resumeStarting _ h | resumeNavigating _ h | startingDone h
  | resultFailed h | resultRaised h | arrived h | reached h => exact (hne h nofun).elim
  | stopDeferred =>
      refine ⟨hs, ?_⟩
      dsimp only
      split <;> rfl
  | stopResting h => rcases h with h | h | h <;> exact (hne h nofun).elim
  | manualRejected | manual | manualResult | arrivingIgnored | arrivingDone => exact ho.elim

/-- An operation from outside keeps the mode, or it is the one that reaches a waypoint with
actions. -/
theorem Effect.keepsMode (he : Effect f e t) (ho : ModeRun.Outside e) :
    KeepsMode f t ∧ (f.waypoints.ModesChecked → t.fsm.waypoints.ModesChecked) ∨
      ∃ actions, Arrives f t actions := by
  cases he with
  | setNextIndexRejected | setNextIndex | reloadRejected | startRejected | pauseStarting
  | pauseNavigating | pause | unpause | startingStale | resultIgnored | resultFailed
  | resultRaised => exact .inl ⟨⟨rfl, rfl, nofun⟩, id⟩
  | reload => exact .inl ⟨⟨rfl, rfl, nofun⟩, fun _ => ho⟩
  | startIdle | startAgain | resumeStarting => exact .inl ⟨⟨rfl, rfl, nofun⟩, id⟩
  | stopIdle | stopStarting | stopNavigating | stopDeferred | stopResting =>
      refine .inl ⟨.of_cancels rfl fun c hc => ?_, id⟩
      split at hc <;> simp only [List.mem_cons, List.not_mem_nil, or_false, or_self] at hc <;>
        exact hc
  | resumeNavigating _ _ _ ht =>
      obtain ⟨⟨hmode, hthreads, hgoals⟩, hw⟩ := ht.keepsMode
      exact .inl ⟨⟨hmode, hthreads, hgoals⟩, fun h => hw ▸ h⟩
  | startingDone _ _ ht =>
      obtain ⟨hkeeps, hw⟩ := ht.keepsMode
      exact .inl ⟨hkeeps, fun h => hw ▸ h⟩
  | reached _ _ ht =>
      obtain ⟨hkeeps, hw⟩ := ht.keepsMode
      exact .inl ⟨hkeeps, fun h => hw ▸ h⟩
  | @arrived _ w hs _ hg =>
      refine .inr ⟨w.onReachedActions, hs, rfl, ⟨w, WaypointList.mem_of_get hg, rfl⟩, rfl, rfl, ?_, ?_⟩
      · simp [List.filterMap_cons, List.filterMap_map, Call.thread?, Function.comp_def]
      · simp [List.filterMap_cons, List.filterMap_map, Call.goalMode?, Function.comp_def]
  | manualRejected | manual | manualResult | arrivingIgnored | arrivingDone => exact ho.elim

end SequencerFsm

end MgRobot.Sequencer
