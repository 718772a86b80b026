import MgRobot.Lib.Numerals
import Mathlib.Algebra.Order.Field.Basic
import Mathlib.Tactic.Linarith

/-!
# Topic activity

`RateEstimator`, `ActivityMonitor` and `TickGuard` of
`mg_utils/monitoring/activity.py`, and `evaluate_topic_health` of `health.py`.
The caller gives the time.
-/

namespace MgRobot.Watchdog

set_option autoImplicit false

variable {R : Type*} [Field R] [LinearOrder R]

/-- The stamps of the last `window` messages. -/
structure RateEstimator (R : Type*) where
  window : Nat
  stamps : List R

namespace RateEstimator

def tick (r : RateEstimator R) (now : R) : RateEstimator R :=
  { r with stamps := (r.stamps ++ [now]).drop (r.stamps.length + 1 - r.window) }

def hz (r : RateEstimator R) (now : R) (maxAgeSec : Option R) : R :=
  match r.stamps.head?, r.stamps.getLast? with
  | some first, some last =>
      if r.stamps.length < 2 then 0
      else if maxAgeSec.any fun age => age < now - last then 0
      else if last - first ≤ 0 then 0
      else ((r.stamps.length - 1 : Nat) : R) / (last - first)
  | _, _ => 0

end RateEstimator

structure ActivityMonitor (R : Type*) where
  staleTimeout : R
  recoverHold : R
  startTime : R
  startupGrace : R
  armedOnFirst : Bool
  rate : RateEstimator R
  lastRx : Option R
  ok : Bool
  faulted : Bool
  goodSince : Option R

namespace ActivityMonitor

variable (m : ActivityMonitor R)

def create (staleTimeout recoverHold startTime startupGrace : R) (armedOnFirst : Bool) :
    ActivityMonitor R where
  staleTimeout := staleTimeout
  recoverHold := recoverHold
  startTime := startTime
  startupGrace := startupGrace
  armedOnFirst := armedOnFirst
  rate := ⟨10, []⟩
  lastRx := none
  ok := true
  faulted := false
  goodSince := none

def disconnected : Bool := !m.ok

def received : Bool := m.lastRx.isSome

def onMessage (now : R) (ok : Bool) : ActivityMonitor R :=
  { m with lastRx := some now, ok := ok, rate := m.rate.tick now }

def forgive (now : R) : ActivityMonitor R := { m with lastRx := m.lastRx.map fun rx => max rx now }

def staleSec (now : R) : R :=
  match m.lastRx with
  | none => if m.armedOnFirst then 0 else max 0 (now - (m.startTime + m.startupGrace))
  | some rx => max 0 (now - rx)

def hz (now : R) : R := m.rate.hz now (some m.staleTimeout)

/-- The condition that `update` calls bad. -/
def Bad (now : R) : Prop := m.staleTimeout < m.staleSec now ∨ m.ok = false

instance (now : R) : Decidable (m.Bad now) := inferInstanceAs (Decidable (_ ∨ _))

/-- `update`; what it returns is `faulted` of the result. -/
def update (now : R) : ActivityMonitor R :=
  if m.Bad now then { m with faulted := true, goodSince := none }
  else if m.faulted then
    let since := m.goodSince.getD now
    if m.recoverHold ≤ now - since then { m with faulted := false, goodSince := none }
    else { m with goodSince := some since }
  else m

variable {m} {now : R}

theorem staleSec_nonneg [IsStrictOrderedRing R] (m : ActivityMonitor R) (now : R) :
    0 ≤ m.staleSec now := by
  unfold staleSec
  split
  · split_ifs
    · exact le_refl 0
    · exact le_max_left _ _
  · exact le_max_left _ _

theorem update_bad (h : m.Bad now) : m.update now = { m with faulted := true, goodSince := none } :=
  if_pos h

theorem update_good (h : ¬ m.Bad now) (hf : m.faulted = false) : m.update now = m := by
  rw [update, if_neg h, hf]
  rfl

/-- A good update releases a monitor that has held for long enough. -/
theorem update_recovered (h : ¬ m.Bad now) (hf : m.faulted = true)
    (hhold : m.recoverHold ≤ now - m.goodSince.getD now) :
    m.update now = { m with faulted := false, goodSince := none } := by
  rw [update, if_neg h, if_pos hf]
  exact if_pos hhold

theorem update_holding (h : ¬ m.Bad now) (hf : m.faulted = true)
    (hhold : ¬ m.recoverHold ≤ now - m.goodSince.getD now) :
    m.update now = { m with goodSince := some (m.goodSince.getD now) } := by
  rw [update, if_neg h, if_pos hf]
  exact if_neg hhold

/-- What an update leaves as it is. -/
theorem update_frame (m : ActivityMonitor R) (now : R) :
    ∃ faulted goodSince, m.update now = { m with faulted := faulted, goodSince := goodSince } := by
  by_cases h : m.Bad now
  · exact ⟨_, _, update_bad h⟩
  · cases hf : m.faulted with
    | false => exact ⟨m.faulted, m.goodSince, update_good h hf⟩
    | true =>
        by_cases hhold : m.recoverHold ≤ now - m.goodSince.getD now
        · exact ⟨_, _, update_recovered h hf hhold⟩
        · exact ⟨m.faulted, _, update_holding h hf hhold⟩

/-- A monitor that an update leaves unfaulted has seen nothing bad. -/
theorem not_bad_of_update (h : (m.update now).faulted = false) : ¬ m.Bad now := by
  intro hbad
  rw [update_bad hbad] at h
  exact nomatch h

/-- A verdict held back since some time is held back since a time that has passed. -/
theorem update_goodSince_le (hsince : m.faulted = true → ∀ g ∈ m.goodSince, g ≤ now)
    (hf : (m.update now).faulted = true) : ∀ g ∈ (m.update now).goodSince, g ≤ now := by
  by_cases hbad : m.Bad now
  · rw [update_bad hbad]
    exact nofun
  · cases hfaulted : m.faulted with
    | false =>
        rw [update_good hbad hfaulted] at hf
        exact absurd (hfaulted.symm.trans hf) nofun
    | true =>
        by_cases hhold : m.recoverHold ≤ now - m.goodSince.getD now
        · rw [update_recovered hbad hfaulted hhold]
          exact nofun
        · rw [update_holding hbad hfaulted hhold]
          rintro g ⟨⟩
          cases hg : m.goodSince with
          | none => exact le_refl now
          | some g => exact hsince hfaulted g hg

end ActivityMonitor

structure TickGuard (R : Type*) where
  maxGap : R
  last : Option R

/-- `check`: the guard afterwards, and whether the tick lagged. -/
def TickGuard.check (g : TickGuard R) (now : R) : TickGuard R × Bool :=
  ({ g with last := some now }, g.last.any fun last => g.maxGap < now - last)

/-- `FAULT_LEVELS`. -/
inductive FaultLevel where
  | ok
  | warn
  | error
  deriving DecidableEq, Repr

structure TopicHealth where
  level : FaultLevel
  message : String
  values : List (String × String)
  deriving DecidableEq, Repr

/-- `evaluate_topic_health`, which updates the monitor; `fixed n x` is `format(x, '.nf')`. -/
def evaluateTopicHealth (fixed : Nat → R → String) (monitor : ActivityMonitor R)
    (now expectedHz hzWarnRatio : R) (faultLevel : FaultLevel) :
    ActivityMonitor R × TopicHealth :=
  let monitor := monitor.update now
  let hz := monitor.hz now
  let stale := monitor.staleSec now
  let (level, message) :=
    if monitor.faulted then
      (faultLevel,
        if monitor.disconnected then "reports disconnected"
        else "no data for " ++ fixed 1 stale ++ " s")
    else if !monitor.received then (.ok, "waiting for first message")
    else if 0 < expectedHz ∧ hz < expectedHz * hzWarnRatio then
      (.warn, "low rate: " ++ fixed 1 hz ++ " Hz (expected " ++ fixed 1 expectedHz ++ ")")
    else (.ok, if 0 < expectedHz then fixed 1 hz ++ " Hz" else "ok")
  (monitor,
    { level := if faultLevel = .ok then .ok else level
      message := message
      values := [("hz", fixed 2 hz)] ++
        (if 0 < expectedHz then [("expected_hz", fixed 2 expectedHz)] else []) ++
          [("stale_sec", fixed 1 stale)] })

end MgRobot.Watchdog
