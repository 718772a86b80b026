import MgRobot.Localization.Rollback
import Mathlib.Data.List.Induction

/-!
# What a rollback is built from

Over a run of timer callbacks the history is the end of the list of all samples
ever recorded, and the time of the suspicion is the time of the callback that
opened the present episode.
-/

namespace MgRobot.Localization

set_option autoImplicit false

open MgRobot.Lib.Runs

namespace SupervisorMachine

variable {R : Type*} {cfg : MachineConfig R} {m : SupervisorMachine R} {now : R} {checks : Checks}
  {r : SupervisorMachine R × Decision}

theorem Effect.state_eq (he : Effect cfg m now checks r) : r.2.state = r.1.state := by
  cases he with
  | watched hs | alertHeld hs => simp [hs]
  | held hs | degradedHeld hs => simp [hs]
  | confirming hs => simp [hs]
  | _ => rfl

/-- NORMAL is left to SUSPECT only. -/
theorem Effect.leaves_normal (he : Effect cfg m now checks r) (hs : m.state = .normal) :
    r.1.state = .normal ∨ r.1.state = .suspect := by
  cases he with
  | calm => exact Or.inl rfl
  | suspected => exact Or.inr rfl
  | recoveryStarted h => rcases h with h | ⟨h, _⟩ <;> rw [hs] at h <;> cases h
  | alerted h | isolated h | cleared h | watched h | held h | recovered h | retried h | gaveUp h
  | confirming h | alertCleared h | alertHeld h | degradedHeld h => rw [hs] at h; cases h

/-- A REINIT is made inside an episode. -/
theorem Effect.reinit (he : Effect cfg m now checks r) (h : .reinit ∈ r.2.actions) :
    m.state ≠ .normal ∧ r.1.state = .recovering := by
  cases he with
  | recoveryStarted hs => rcases hs with hs | ⟨hs, _⟩ <;> exact ⟨by simp [hs], rfl⟩
  | retried hs => exact ⟨by simp [hs], rfl⟩
  | calm | suspected | alerted | isolated | cleared | watched | held | recovered | gaveUp
  | confirming | alertCleared | alertHeld | degradedHeld => simp at h

end SupervisorMachine

section History

variable {R : Type*} [Sub R] {l : List (R × Pose2 R)}

section Rollback

variable [LE R] [DecidableLE R] {margin since : R}

/-- The loop over the history keeps the last sample that is old enough. -/
theorem rollbackMapOdom_eq : rollbackMapOdom margin (some since) l =
    (l.filter fun e => e.1 ≤ since - margin).getLast?.map Prod.snd := by
  show l.foldl _ none = _
  induction l using List.reverseRecOn with
  | nil => rfl
  | append_singleton l e ih =>
      rw [List.foldl_append, ih, List.filter_append, List.foldl_cons, List.foldl_nil]
      split_ifs with he
      · rw [List.filter_singleton, decide_eq_true he, cond_true, List.getLast?_concat]
        rfl
      · rw [List.filter_singleton, decide_eq_false he, cond_false, List.append_nil]

/-- The last match in the end of a list is the last match in the whole list. -/
theorem getLast?_filter_of_suffix {α : Type*} {p : α → Bool} {l l' : List α} {x : α}
    (h : l <:+ l') (hx : (l.filter p).getLast? = some x) : (l'.filter p).getLast? = some x := by
  obtain ⟨front, rfl⟩ := h
  rw [List.filter_append, List.getLast?_append, hx]
  rfl

end Rollback

variable [LT R] [DecidableLT R]

/-- The queue is shortened from the front, and only a NORMAL machine lets it grow. -/
theorem recordMapOdom_suffix {historySec now : R} {state : State} {mapOdom : Option (Pose2 R)}
    {samples : List (R × Pose2 R)} (h : l <:+ samples) :
    recordMapOdom historySec state now mapOdom l <:+
      samples ++ if state = .normal then (mapOdom.map fun pose => (now, pose)).toList else [] := by
  cases mapOdom with
  | none => simpa [recordMapOdom] using h
  | some pose =>
      unfold recordMapOdom
      dsimp only
      split_ifs
      · have happ : l ++ [(now, pose)] <:+ samples ++ [(now, pose)] := by
          obtain ⟨front, rfl⟩ := h
          exact ⟨front, by rw [List.append_assoc]⟩
        exact (List.dropWhile_suffix _).trans happ
      · simpa using h

end History

namespace RecoverableNode

section Run

variable {R : Type*} [Field R] [LinearOrder R] [FloorRing R] (m : PlaneMath R)
  (format : R → String) (cfg : SupervisorConfig R) (rc : ReinitConfig R)

/-- `onTimer` as a step of a run; it is enabled in every state. -/
def next (s : RecoverableNode R) (i : TimerInputs R) : Option (RecoverableNode R) :=
  some (s.onTimer m format cfg rc i).1

/-- The sample of a callback after which the machine is NORMAL. -/
def sample (s : RecoverableNode R) (i : TimerInputs R) : List (R × Pose2 R) :=
  if i.now ≠ 0 ∧ (s.onTimer m format cfg rc i).1.node.machine.state = .normal then
    (i.mapOdom.map fun pose => (i.now, pose)).toList
  else []

/-- All the samples of a run, in order. -/
def samples (is : List (TimerInputs R)) : List (R × Pose2 R) :=
  outputs (next m format cfg rc) (sample m format cfg rc) init is

/-- The machine is NORMAL. -/
def Normal (s : RecoverableNode R) : Prop := s.node.machine.state = .normal

/-- The callback `o` after the run `pre` opens an episode that lasts over `mid`: the machine was
NORMAL before it and SUSPECT after it, and since then it has not been NORMAL. -/
def Episode (pre : List (TimerInputs R)) (o : TimerInputs R) (mid : List (TimerInputs R)) :
    Prop :=
  ∃ u v, exec (next m format cfg rc) init pre = some u ∧ u.Normal ∧
    next m format cfg rc u o = some v ∧ v.node.machine.state = .suspect ∧
    Always (next m format cfg rc) (fun w => ¬ w.Normal) v mid

end Run

variable {R : Type*} [Field R] [LinearOrder R] [FloorRing R] {m : PlaneMath R}
  {format : R → String} {cfg : SupervisorConfig R} {rc : ReinitConfig R} {s : RecoverableNode R}
  {i o : TimerInputs R} {is pre mid : List (TimerInputs R)}

theorem Episode.snoc (h : Episode m format cfg rc pre o mid)
    (hr : exec (next m format cfg rc) init (pre ++ o :: mid) = some s)
    (hn : ¬ (s.onTimer m format cfg rc i).1.Normal) :
    Episode m format cfg rc pre o (mid ++ [i]) := by
  obtain ⟨u, v, hpre, hu, hv, hsus, hmid⟩ := h
  have hvs : exec (next m format cfg rc) v mid = some s := by
    obtain ⟨v', hv', hr⟩ := exec_after_cons hr hpre
    obtain rfl := Option.some.inj (hv.symm.trans hv')
    exact hr
  refine ⟨u, v, hpre, hu, hv, hsus, hmid.snoc hvs fun w hw => ?_⟩
  obtain rfl := Option.some.inj hw
  exact hn

/-- Nothing is recorded while the machine is not NORMAL. -/
theorem outputs_sample_eq_nil (h : Always (next m format cfg rc) (fun w => ¬ w.Normal) s is) :
    outputs (next m format cfg rc) (sample m format cfg rc) s is = [] := by
  induction is generalizing s with
  | nil => rfl
  | cons i rest ih =>
      have hnext : next m format cfg rc s i = some (s.onTimer m format cfg rc i).1 := rfl
      have hrest := h.2 _ hnext
      have hsample : sample m format cfg rc s i = [] := if_neg fun hc => hrest.head hc.2
      rw [outputs_cons hnext, hsample, ih hrest, List.append_nil]

/-- All the samples of a run are older than the episode it ends in. -/
theorem Episode.samples_eq (h : Episode m format cfg rc pre o mid) :
    samples m format cfg rc (pre ++ o :: mid) = samples m format cfg rc pre := by
  obtain ⟨u, v, hpre, _, hv, hsus, hmid⟩ := h
  have hsample : sample m format cfg rc u o = [] := by
    obtain rfl := Option.some.inj hv
    exact if_neg fun hc => by rw [hsus] at hc; cases hc.2
  rw [samples, outputs_append hpre, outputs_cons hv, hsample, outputs_sample_eq_nil hmid,
    List.append_nil, List.append_nil]
  rfl

/-- What a run leaves in the history and in `_suspect_since`. -/
structure Remembers (m : PlaneMath R) (format : R → String) (cfg : SupervisorConfig R)
    (rc : ReinitConfig R) (is : List (TimerInputs R)) (s : RecoverableNode R) : Prop where
  run : exec (next m format cfg rc) init is = some s
  history : s.mapOdomHistory <:+ samples m format cfg rc is
  episode : ¬ s.Normal → ∃ pre o mid, is = pre ++ o :: mid ∧ Episode m format cfg rc pre o mid ∧
    s.suspectSince = some o.now

theorem remembers_init : Remembers m format cfg rc [] (init : RecoverableNode R) where
  run := rfl
  history := List.suffix_refl _
  episode h := absurd rfl h

theorem Remembers.snoc (h : Remembers m format cfg rc is s) :
    Remembers m format cfg rc (is ++ [i]) (s.onTimer m format cfg rc i).1 := by
  have hnext : next m format cfg rc s i = some (s.onTimer m format cfg rc i).1 := rfl
  have hsamples : samples m format cfg rc (is ++ [i]) =
      samples m format cfg rc is ++ sample m format cfg rc s i := outputs_snoc h.run hnext
  refine ⟨exec_snoc h.run hnext, ?_, ?_⟩
  · rw [hsamples, sample]
    by_cases ht : i.now = 0
    · rw [onTimer_zero ht, if_neg (fun hc => hc.1 ht), List.append_nil]
      exact h.history
    · simp only [history_onTimer ht, machine_onTimer ht, ne_eq, ht, not_false_eq_true, true_and]
      exact recordMapOdom_suffix h.history
  · intro hn
    have hlater (h' : ¬ s.Normal) : ∃ pre o mid, is ++ [i] = pre ++ o :: mid ∧
        Episode m format cfg rc pre o mid ∧ s.suspectSince = some o.now := by
      obtain ⟨pre, o, mid, rfl, ho, hsince⟩ := h.episode h'
      exact ⟨pre, o, mid ++ [i], by simp, ho.snoc h.run hn, hsince⟩
    by_cases ht : i.now = 0
    · rw [onTimer_zero ht] at hn ⊢
      exact hlater hn
    · have he : SupervisorMachine.Effect cfg.machine s.node.machine i.now _
          (stepMachine cfg i s.node) := SupervisorMachine.step_effect
      rw [suspectSince_onTimer ht]
      by_cases hs : s.Normal
      · -- the callback itself opens the episode
        have hsus : (stepMachine cfg i s.node).1.state = .suspect := by
          refine (he.leaves_normal hs).resolve_left fun hst => hn ?_
          rw [Normal, machine_onTimer ht]
          exact hst
        rw [if_pos ⟨hs, he.state_eq.trans hsus⟩]
        refine ⟨is, i, [], rfl, ⟨s, _, h.run, hs, hnext, ?_, hn⟩, rfl⟩
        rw [machine_onTimer ht]
        exact hsus
      · rw [if_neg (fun hc => hs hc.1)]
        exact hlater hs

theorem remembers_run (hr : exec (next m format cfg rc) init is = some s) :
    Remembers m format cfg rc is s := by
  refine invariant_of_history (H := Remembers m format cfg rc) ?_ remembers_init hr
  intro is s i t h hn
  obtain rfl := Option.some.inj hn
  exact h.snoc

/-- A candidate of the rollback comes from the history. -/
theorem mem_candidatePoses_rollback {c : Candidate R} (h : c ∈ s.candidatePoses m rc i)
    (hname : c.name = .rollback) : ∃ pose odomBase, i.odomBase = some odomBase ∧
      rollbackMapOdom rc.rollbackMarginSec s.suspectSince s.mapOdomHistory = some pose ∧
      c.pose = m.compose pose odomBase := by
  simp only [candidatePoses, List.mem_append, Option.mem_toList, Option.map_eq_some_iff] at h
  rcases h with (⟨pose, _, rfl⟩ | h) | h
  · cases hname
  · split at h
    next pose odomBase hroll hodom =>
      obtain rfl := List.mem_singleton.mp h
      exact ⟨pose, odomBase, hodom, hroll, rfl⟩
    next => cases h
  · split at h
    next =>
      split_ifs at h
      · obtain rfl := List.mem_singleton.mp h
        cases hname
      · cases h
    next => cases h

/-- In every run of the timer, a rollback that is offered at a REINIT moves the last of the samples
that were recorded by a callback after which the machine was NORMAL and whose time is at most
`rollback_margin_sec` before the callback that opened the episode. All samples of the run are from
before that callback. -/
theorem rollback_before_suspicion (m : PlaneMath R) (format : R → String)
    (cfg : SupervisorConfig R) (rc : ReinitConfig R) (is : List (TimerInputs R))
    (i : TimerInputs R) (s : RecoverableNode R) (c : Candidate R)
    (hr : exec (next m format cfg rc) init is = some s) (hc : c ∈ s.offered m cfg rc i)
    (hname : c.name = .rollback) :
    ∃ pre o mid e odomBase, is ++ [i] = pre ++ o :: mid ∧ Episode m format cfg rc pre o mid ∧
      samples m format cfg rc (is ++ [i]) = samples m format cfg rc pre ∧
      ((samples m format cfg rc (is ++ [i])).filter
        fun e => e.1 ≤ o.now - rc.rollbackMarginSec).getLast? = some e ∧
      i.odomBase = some odomBase ∧ c.pose = m.compose e.2 odomBase := by
  rw [offered] at hc
  split_ifs at hc with hre
  · obtain ⟨ht, hre⟩ := hre
    have he : SupervisorMachine.Effect cfg.machine s.node.machine i.now _
        (stepMachine cfg i s.node) := SupervisorMachine.step_effect
    obtain ⟨_, hrec⟩ := he.reinit hre
    have hafter : Remembers m format cfg rc (is ++ [i]) (s.onTimer m format cfg rc i).1 :=
      (remembers_run hr).snoc
    have hn : ¬ (s.onTimer m format cfg rc i).1.Normal := by
      rw [Normal, machine_onTimer ht, hrec]
      decide
    obtain ⟨pre, o, mid, his, ho, hsince⟩ := hafter.episode hn
    obtain ⟨pose, odomBase, hodom, hroll, hpose⟩ := mem_candidatePoses_rollback hc hname
    -- the candidates are looked for in what the callback itself keeps
    have hkept : (s.remember cfg rc i).suspectSince = (s.onTimer m format cfg rc i).1.suspectSince
        ∧ (s.remember cfg rc i).mapOdomHistory =
          (s.onTimer m format cfg rc i).1.mapOdomHistory := by
      rw [suspectSince_onTimer ht, history_onTimer ht]
      exact ⟨rfl, rfl⟩
    rw [hkept.1, hkept.2, hsince, rollbackMapOdom_eq, Option.map_eq_some_iff] at hroll
    obtain ⟨e, hlast, rfl⟩ := hroll
    refine ⟨pre, o, mid, e, odomBase, his, ho, ?_, ?_, hodom, hpose⟩
    · rw [his]
      exact ho.samples_eq
    · exact getLast?_filter_of_suffix hafter.history hlast
  · cases hc

section DriftingTransform

/-- The functions of `math` at the angle zero. -/
def straightMath : PlaneMath ℚ := ⟨3, fun _ => 1, fun _ => 0, fun x => x⟩

def recoveringNode : SupervisorConfig ℚ :=
  { SupervisorConfig.defaults with
    startupGraceSec := 0
    machine := { SupervisorConfig.defaults.machine with recoveryEnabled := true } }

/-- The transform drifts by a metre a second; GNSS disagrees from the fifth second on. -/
def jumpedRun : List (TimerInputs ℚ) :=
  (List.range 7).map fun k =>
    { now := k + 1, mapOdom := some ⟨k + 1, 0, 0⟩, checks := { gnss := some (decide (3 < k)) } }

/-- AMCL is reinitialised three seconds after it was isolated, ten metres down the road. -/
def reinitTick : TimerInputs ℚ :=
  { now := 10, mapOdom := some ⟨10, 0, 0⟩, odomBase := some ⟨10, 0, 0⟩ }

theorem rollback_before_suspicion_jumped :
    let samples := samples straightMath toString recoveringNode .defaults (jumpedRun ++ [reinitTick])
    let episode := Episode straightMath toString recoveringNode .defaults
    ∃ s, exec (next straightMath toString recoveringNode .defaults) init jumpedRun = some s ∧
      ⟨.rollback, ⟨13, 0, 0⟩, 5 / 10⟩ ∈ s.offered straightMath recoveringNode .defaults reinitTick ∧
      ∃ pre o mid e odomBase, jumpedRun ++ [reinitTick] = pre ++ o :: mid ∧ episode pre o mid ∧
        (samples.filter fun e => e.1 ≤ o.now - 3).getLast? = some e ∧
        reinitTick.odomBase = some odomBase ∧ ⟨13, 0, 0⟩ = straightMath.compose e.2 odomBase := by
  obtain ⟨s, hr, hc⟩ : ∃ s, exec (next straightMath toString recoveringNode .defaults) init
      jumpedRun = some s ∧ (⟨.rollback, ⟨13, 0, 0⟩, 5 / 10⟩ : Candidate ℚ) ∈
        s.offered straightMath recoveringNode .defaults reinitTick :=
    exists_exec (by decide +kernel)
  obtain ⟨pre, o, mid, e, odomBase, his, ho, _, hlast, hodom, hpose⟩ :=
    rollback_before_suspicion _ _ _ _ jumpedRun reinitTick s _ hr hc rfl
  exact ⟨s, hr, hc, pre, o, mid, e, odomBase, his, ho, hlast, hodom, hpose⟩

end DriftingTransform

end RecoverableNode

end MgRobot.Localization
