import MgRobot.Lib.Runs
import MgRobot.Watchdog.Activity

/-!
# The hysteresis of a monitor

What `faulted` says over a whole history of messages, forgiven silences and
updates: when it is raised, how long the updates have been good when it is
released, and what happens before the first message.
-/

namespace MgRobot.Watchdog

set_option autoImplicit false

open MgRobot.Lib.Runs

/-- A call on a monitor. -/
inductive MonitorCall (R : Type*) where
  | onMessage (now : R) (ok : Bool)
  | forgive (now : R)
  | update (now : R)

namespace ActivityMonitor

variable {R : Type*} [Field R] [LinearOrder R]

/-- `__init__` with a `rate_window` of its own. -/
def new (staleTimeout recoverHold startTime startupGrace : R) (armedOnFirst : Bool)
    (rateWindow : Nat) : ActivityMonitor R :=
  { create staleTimeout recoverHold startTime startupGrace armedOnFirst with
    rate := ⟨rateWindow, []⟩ }

def call (m : ActivityMonitor R) : MonitorCall R → ActivityMonitor R
  | .onMessage now ok => m.onMessage now ok
  | .forgive now => m.forgive now
  | .update now => m.update now

/-- A call as a step of a run; a monitor takes every call. -/
def next (m : ActivityMonitor R) (c : MonitorCall R) : Option (ActivityMonitor R) := some (m.call c)

/-- An update whose condition is good; the other calls are not judged. -/
def Good (m : ActivityMonitor R) : MonitorCall R → Prop
  | .update now => ¬ m.Bad now
  | _ => True

/-- Among the calls `cs` is an update at `t0` from which on every update is good. -/
def GoodFrom (m₀ : ActivityMonitor R) (cs : List (MonitorCall R)) (t0 : R) : Prop :=
  ∃ pre mid m, cs = pre ++ .update t0 :: mid ∧ exec next m₀ pre = some m ∧
    Meets next Good m (.update t0 :: mid)

/-- `faulted` is raised by the bad updates and by nothing else. -/
def RaisedByBad (m₀ : ActivityMonitor R) : Prop :=
  ∀ cs c m, exec next m₀ cs = some m → m.faulted = false →
    ((m.call c).faulted = true ↔ ∃ now, c = .update now ∧ m.Bad now)

/-- `faulted` is released by an update only, after `recover_hold` of good updates. -/
def ReleasedAfterHold (m₀ : ActivityMonitor R) : Prop :=
  ∀ cs c m, exec next m₀ cs = some m → m.faulted = true → (m.call c).faulted = false →
    ∃ now t0, c = .update now ∧ t0 ≤ now - m₀.recoverHold ∧ GoodFrom m₀ (cs ++ [c]) t0

/-- Until something is received, `faulted` is not raised if the monitor is armed by its first
message, and else not before the grace and the timeout are over. -/
def QuietUnheard (m₀ : ActivityMonitor R) : Prop :=
  ∀ cs c m, exec next m₀ cs = some m → (∀ now ok, .onMessage now ok ∉ cs) → m.faulted = false →
    (m.call c).faulted = true → m₀.armedOnFirst = false ∧
      ∃ now, c = .update now ∧ m₀.startTime + m₀.startupGrace + m₀.staleTimeout ≤ now

variable {m₀ m m' : ActivityMonitor R} {c : MonitorCall R} {cs : List (MonitorCall R)} {t0 now : R}

section Frame

/-- What no call changes. -/
structure SameConfig (m m' : ActivityMonitor R) : Prop where
  staleTimeout : m'.staleTimeout = m.staleTimeout
  recoverHold : m'.recoverHold = m.recoverHold
  startTime : m'.startTime = m.startTime
  startupGrace : m'.startupGrace = m.startupGrace
  armedOnFirst : m'.armedOnFirst = m.armedOnFirst

omit [Field R] [LinearOrder R] in
theorem SameConfig.refl (m : ActivityMonitor R) : SameConfig m m := ⟨rfl, rfl, rfl, rfl, rfl⟩

theorem SameConfig.call (h : SameConfig m₀ m) (c : MonitorCall R) : SameConfig m₀ (m.call c) := by
  cases c with
  | onMessage now ok => exact ⟨h.1, h.2, h.3, h.4, h.5⟩
  | forgive now => exact ⟨h.1, h.2, h.3, h.4, h.5⟩
  | update now =>
      obtain ⟨faulted, goodSince, hframe⟩ := m.update_frame now
      rw [ActivityMonitor.call, hframe]
      exact ⟨h.1, h.2, h.3, h.4, h.5⟩

theorem sameConfig_run (hr : exec next m₀ cs = some m) : SameConfig m₀ m :=
  invariant_of_step (I := SameConfig m₀)
    (fun m c m' h hm => by
      obtain rfl := Option.some.inj hm
      exact h.call c)
    (SameConfig.refl m₀) hr

end Frame

section Raised

theorem raisedByBad : RaisedByBad m₀ := by
  intro cs c m _ hf
  cases c with
  | onMessage now ok =>
      refine iff_of_false ?_ (by rintro ⟨now, h, -⟩; cases h)
      rw [call, onMessage, hf]
      exact Bool.false_ne_true
  | forgive now =>
      refine iff_of_false ?_ (by rintro ⟨now, h, -⟩; cases h)
      rw [call, forgive, hf]
      exact Bool.false_ne_true
  | update now =>
      by_cases hbad : m.Bad now
      · rw [call, update_bad hbad]
        exact iff_of_true rfl ⟨now, rfl, hbad⟩
      · rw [call, update_good hbad hf, hf]
        refine iff_of_false Bool.false_ne_true ?_
        intro hupdate
        obtain ⟨t, ht, hb⟩ := hupdate
        cases ht
        exact hbad hb

end Raised

section Released

/-- The updates stay good over one more call that is good. -/
theorem GoodFrom.snoc (h : GoodFrom m₀ cs t0) (hr : exec next m₀ cs = some m) (hc : m.Good c) :
    GoodFrom m₀ (cs ++ [c]) t0 := by
  obtain ⟨pre, mid, m₁, rfl, hpre, hmeets⟩ := h
  refine ⟨pre, mid ++ [c], m₁, by simp, hpre, ?_⟩
  rw [← List.cons_append]
  refine hmeets.append fun m' hm' => ⟨?_, fun _ _ => trivial⟩
  have hrun := exec_append hpre hm'
  obtain rfl := Option.some.inj (hr.symm.trans hrun)
  exact hc

theorem goodFrom_update (hr : exec next m₀ cs = some m) (hgood : ¬ m.Bad now) :
    GoodFrom m₀ (cs ++ [.update now]) now :=
  ⟨cs, [], m, rfl, hr, hgood, fun _ _ => trivial⟩

/-- `_good_since` is an update from which on every update has been good. -/
theorem goodSince_run (h0 : m₀.goodSince = none) (hr : exec next m₀ cs = some m) :
    exec next m₀ cs = some m ∧ ∀ t0 ∈ m.goodSince, GoodFrom m₀ cs t0 := by
  refine invariant_of_history
    (H := fun cs m => exec next m₀ cs = some m ∧ ∀ t0 ∈ m.goodSince, GoodFrom m₀ cs t0)
    ?_ ⟨rfl, by rw [h0]; exact nofun⟩ hr
  intro cs m c m' hinv hstep
  obtain ⟨hrun, hsince⟩ := hinv
  refine ⟨exec_snoc hrun hstep, ?_⟩
  obtain rfl := Option.some.inj hstep
  cases c with
  | onMessage now ok => exact fun t0 ht => (hsince t0 ht).snoc hrun trivial
  | forgive now => exact fun t0 ht => (hsince t0 ht).snoc hrun trivial
  | update now =>
      rw [call]
      by_cases hbad : m.Bad now
      · rw [update_bad hbad]
        exact nofun
      · cases hf : m.faulted with
        | false =>
            rw [update_good hbad hf]
            exact fun t0 ht => (hsince t0 ht).snoc hrun hbad
        | true =>
            by_cases hhold : m.recoverHold ≤ now - m.goodSince.getD now
            · rw [update_recovered hbad hf hhold]
              exact nofun
            · rw [update_holding hbad hf hhold]
              intro t0 ht
              obtain rfl := Option.some.inj ht
              cases hg : m.goodSince with
              | none => exact goodFrom_update hrun hbad
              | some g => exact (hsince g hg).snoc hrun hbad

theorem releasedAfterHold [IsStrictOrderedRing R] (h0 : m₀.goodSince = none) :
    ReleasedAfterHold m₀ := by
  intro cs c m hr hf hc
  cases c with
  | onMessage now ok => exact absurd (hf.symm.trans hc) nofun
  | forgive now => exact absurd (hf.symm.trans hc) nofun
  | update now =>
      have hgood := not_bad_of_update hc
      have hhold : m.recoverHold ≤ now - m.goodSince.getD now := by
        by_contra hnot
        rw [call, update_holding hgood hf hnot] at hc
        exact absurd (hf.symm.trans hc) nofun
      rw [(sameConfig_run hr).recoverHold] at hhold
      cases hg : m.goodSince with
      | none =>
          rw [hg] at hhold
          exact ⟨now, now, rfl, le_sub_comm.mp hhold, goodFrom_update hr hgood⟩
      | some g =>
          rw [hg] at hhold
          exact ⟨now, g, rfl, le_sub_comm.mp hhold, ((goodSince_run h0 hr).2 g hg).snoc hr hgood⟩

end Released

section Unheard

/-- What is left as it was until something is received. -/
theorem unheard_run (hrx : m₀.lastRx = none) (hcs : ∀ now ok, .onMessage now ok ∉ cs)
    (hr : exec next m₀ cs = some m) : m.lastRx = none ∧ m.ok = m₀.ok := by
  refine invariant_of_mem (I := fun m => m.lastRx = none ∧ m.ok = m₀.ok) ?_ ⟨hrx, rfl⟩ hr
  intro m c m' hc hinv hstep
  obtain ⟨hnone, hok⟩ := hinv
  obtain rfl := Option.some.inj hstep
  cases c with
  | onMessage now ok => exact absurd hc (hcs now ok)
  | forgive now => exact ⟨by rw [call, forgive, hnone]; rfl, hok⟩
  | update now =>
      obtain ⟨faulted, goodSince, hframe⟩ := m.update_frame now
      rw [call, hframe]
      exact ⟨hnone, hok⟩

variable [IsStrictOrderedRing R]

theorem quietUnheard (hrx : m₀.lastRx = none) (hok : m₀.ok = true) (ht : 0 ≤ m₀.staleTimeout) :
    QuietUnheard m₀ := by
  intro cs c m hr hcs hf hraised
  obtain ⟨now, rfl, hbad⟩ := (raisedByBad cs c m hr hf).mp hraised
  obtain ⟨hnone, hsame⟩ := unheard_run hrx hcs hr
  have hcfg := sameConfig_run hr
  have hstale : m.staleTimeout < m.staleSec now := by
    refine hbad.resolve_right ?_
    rw [hsame, hok]
    exact nofun
  rw [staleSec, hnone, hcfg.staleTimeout, hcfg.startTime, hcfg.startupGrace,
    hcfg.armedOnFirst] at hstale
  dsimp only at hstale
  cases harmed : m₀.armedOnFirst with
  | true =>
      rw [harmed, if_pos rfl] at hstale
      exact absurd hstale (not_lt.mpr ht)
  | false =>
      rw [harmed, if_neg Bool.false_ne_true, lt_max_iff] at hstale
      have hlate := hstale.resolve_left (not_lt.mpr ht)
      refine ⟨rfl, now, rfl, ?_⟩
      linarith

/-- No silence is short enough for a negative timeout. -/
theorem bad_of_neg (ht : m.staleTimeout < 0) (now : R) : m.Bad now :=
  .inl (ht.trans_le (m.staleSec_nonneg now))

theorem quietUnheard_iff (hrx : m₀.lastRx = none) (hok : m₀.ok = true)
    (hf : m₀.faulted = false) : QuietUnheard m₀ ↔ 0 ≤ m₀.staleTimeout := by
  refine ⟨fun h => ?_, quietUnheard hrx hok⟩
  by_contra hneg
  rw [not_le] at hneg
  have hbad := bad_of_neg hneg (m₀.startTime + m₀.startupGrace + m₀.staleTimeout - 1)
  have hraised : (m₀.call (.update _)).faulted = true := congrArg faulted (update_bad hbad)
  obtain ⟨-, now, hnow, hle⟩ := h [] _ m₀ rfl (fun _ _ => List.not_mem_nil) hf hraised
  cases hnow
  linarith

/-- The monitor is raised and released as its hysteresis says in every configuration, and is
quiet until it has heard something exactly if its timeout is not negative. -/
theorem hysteresis (staleTimeout recoverHold startTime startupGrace : R) (armedOnFirst : Bool)
    (rateWindow : Nat) :
    RaisedByBad (new staleTimeout recoverHold startTime startupGrace armedOnFirst rateWindow) ∧
      ReleasedAfterHold
        (new staleTimeout recoverHold startTime startupGrace armedOnFirst rateWindow) ∧
      (QuietUnheard (new staleTimeout recoverHold startTime startupGrace armedOnFirst rateWindow) ↔
        0 ≤ staleTimeout) :=
  ⟨raisedByBad, releasedAfterHold rfl, quietUnheard_iff rfl rfl rfl⟩

theorem hysteresis_armed :
    RaisedByBad (new (5 : ℚ) 2 0 30 true 10) ∧ ReleasedAfterHold (new (5 : ℚ) 2 0 30 true 10) ∧
      QuietUnheard (new (5 : ℚ) 2 0 30 true 10) := by
  obtain ⟨hraised, hreleased, hquiet⟩ := hysteresis (5 : ℚ) 2 0 30 true 10
  exact ⟨hraised, hreleased, hquiet.mpr (by decide)⟩

/-- With a negative timeout, a monitor armed by its first message faults without one. -/
theorem not_quietUnheard_negative : ¬ QuietUnheard (new (-1 : ℚ) 2 0 30 true 10) := by
  intro h
  obtain ⟨harmed, -⟩ := h [] (.update 0) _ rfl (fun _ _ => List.not_mem_nil) rfl (by decide)
  cases harmed

end Unheard

end ActivityMonitor

end MgRobot.Watchdog
