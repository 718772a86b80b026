import MgRobot.Localization.AmclWatchdog
import Mathlib.Algebra.Order.Group.Int
import Mathlib.Algebra.Order.Monoid.Defs
import Mathlib.Algebra.Order.Ring.Int

/-!
# Runs of the AMCL watchdog

When two recoveries of a run overlap, or start too close to each other, is told
by the callbacks that start them: one that looked at the flag before an earlier
thread had set it, or one that follows a recovery which did not succeed.
-/

namespace MgRobot.Localization

set_option autoImplicit false

open MgRobot.Lib.Runs

theorem getElem?_set_iff {α : Type*} {l : List α} {i j : Nat} {a b x : α} (hi : l[i]? = some a) :
    (l.set i b)[j]? = some x ↔ j = i ∧ x = b ∨ j ≠ i ∧ l[j]? = some x := by
  obtain ⟨hlt, _⟩ := List.getElem?_eq_some_iff.mp hi
  rw [List.getElem?_set]
  by_cases h : i = j
  · subst h
    simp [hlt, eq_comm]
  · simp [h, Ne.symm h]

theorem getElem?_concat_iff {α : Type*} {l : List α} {j : Nat} {a x : α} :
    (l ++ [a])[j]? = some x ↔ l[j]? = some x ∨ j = l.length ∧ x = a := by
  rw [List.getElem?_append]
  split_ifs with h
  · simp [Nat.ne_of_lt h]
  · rw [List.getElem?_singleton, List.getElem?_eq_none (Nat.le_of_not_lt h)]
    by_cases hj : j = l.length
    · simp [hj, eq_comm]
    · have hne : j - l.length ≠ 0 := by omega
      simp [hj, hne]

namespace WatchdogRun

variable {R : Type*} [AddCommGroup R] [LinearOrder R] {cfg : WatchdogConfig R}
  {s s' : WatchdogRun R} {e : R × WatchdogAct R} {a : WatchdogAct R}

section Effect

variable (cfg s)

/-- What an action can do once the clock shows its time. -/
inductive Effect : WatchdogAct R → WatchdogRun R → Prop
  | quiet {a node callback} (hflag : node.inRecovery = s.node.inRecovery)
      (hlast : node.lastRecovery = s.node.lastRecovery)
      (hcallback : callback = .idle ∨
        s.callback ≠ .idle ∧ (callback = .judged ∨ callback = .timed s.clock)) :
      Effect a { s with node := node, callback := callback }
  | looked (hflag : s.node.inRecovery = false) :
      Effect .look { s with
        callback := .looked, sawPending := s.recoveries.any fun r => r.phase == .pending }
  | started (hs : s.Starts cfg) :
      Effect .decide { s with callback := .idle, recoveries := s.recoveries ++ [{}] }
  | advanced {a i r r' node} (hi : s.recoveries[i]? = some r) (ha : r.Alive)
      (hp : r'.phase ≠ .pending)
      (hstart : r.phase = .pending ∧ r'.start = some s.clock ∨
        r.phase ≠ .pending ∧ r'.start = r.start)
      (hflag : r.Running ∧ node.inRecovery = s.node.inRecovery ∧ r'.Running ∨
        node.inRecovery = decide r'.Running)
      (hlast : node.lastRecovery = s.node.lastRecovery ∧ r'.succeeded = r.succeeded ∨
        node.lastRecovery = s.clock) :
      Effect a { s.setRecovery i r' with node := node }

end Effect

theorem judge_quiet {n : AmclWatchdogNode R} {now : R} {value : Option R} :
    (n.judge cfg now value).1.inRecovery = n.inRecovery ∧
      (n.judge cfg now value).1.lastRecovery = n.lastRecovery := by
  cases value with
  | none => exact ⟨rfl, rfl⟩
  | some value =>
      simp only [AmclWatchdogNode.judge, AmclWatchdogNode.isAnomaly]
      split_ifs <;> exact ⟨rfl, rfl⟩

/-- A running thread goes on, and the node's flag and its last recovery stay. -/
theorem effect_goesOn {i : Nat} {r r' : Recovery R} {node : AmclWatchdogNode R}
    (hi : s.recoveries[i]? = some r) (hrun : r.Running) (hrun' : r'.Running)
    (hstart : r'.start = r.start) (hsucc : r'.succeeded = r.succeeded)
    (hflag : node.inRecovery = s.node.inRecovery)
    (hlast : node.lastRecovery = s.node.lastRecovery) :
    Effect cfg s a { s.setRecovery i r' with node := node } :=
  .advanced hi hrun.2 hrun'.1 (Or.inr ⟨hrun.1, hstart⟩) (Or.inl ⟨hrun, hflag, hrun'⟩)
    (Or.inl ⟨hlast, hsucc⟩)

theorem act_effect (h : s.act cfg a = some s') : Effect cfg s a s' := by
  cases a with
  | look =>
      simp only [act, Option.ite_none_right_eq_some, Option.some.injEq] at h
      obtain ⟨hidle, rfl⟩ := h
      rw [look]
      split_ifs with hf
      · exact .quiet rfl rfl (Or.inl hidle)
      · exact .looked (by simpa using hf)
  | judge value =>
      simp only [act, Option.ite_none_right_eq_some, Option.some.injEq] at h
      obtain ⟨hlooked, rfl⟩ := h
      refine .quiet judge_quiet.1 judge_quiet.2 ?_
      split_ifs
      · exact Or.inr ⟨by simp [hlooked], Or.inl rfl⟩
      · exact Or.inl rfl
  | readClock =>
      simp only [act, Option.ite_none_right_eq_some, Option.some.injEq] at h
      obtain ⟨hjudged, rfl⟩ := h
      exact .quiet rfl rfl (Or.inr ⟨by simp [hjudged], Or.inr rfl⟩)
  | decide =>
      simp only [act] at h
      split at h
      next now htimed =>
        obtain rfl := Option.some.inj h
        rw [checkBackoff]
        split_ifs with hb
        · exact .quiet rfl rfl (Or.inl rfl)
        · exact .started ⟨now, htimed, hb⟩
      next => cases h
  | enter i =>
      simp only [act] at h
      split at h
      next r hi =>
        rw [Option.ite_none_right_eq_some, Option.some.injEq] at h
        obtain ⟨hp, rfl⟩ := h
        rw [enter]
        split_ifs
        all_goals
          refine .advanced hi (by simp [Recovery.Alive, hp]) (by simp) (Or.inl ⟨hp, rfl⟩)
            (Or.inr ?_) (Or.inl ⟨rfl, rfl⟩)
          simp [Recovery.Running]
      next => cases h
  | answer i outcome =>
      simp only [act] at h
      split at h
      next r hi =>
        split at h
        next attempt hp =>
          obtain rfl := Option.some.inj h
          have hrun : r.Running := by simp [Recovery.Running, hp]
          cases outcome with
          | ok =>
              exact .advanced hi hrun.2 (by simp) (Or.inr ⟨hrun.1, rfl⟩)
                (Or.inl ⟨hrun, rfl, by simp [Recovery.Running]⟩) (Or.inr rfl)
          | raised => exact effect_goesOn hi hrun (by simp [Recovery.Running]) rfl rfl rfl rfl
          | failed =>
              rw [answer]
              split_ifs
              · exact effect_goesOn hi hrun (by simp [Recovery.Running]) rfl rfl rfl rfl
              · exact effect_goesOn hi hrun (by simp [Recovery.Running]) rfl rfl rfl rfl
        next => cases h
      next => cases h
  | retry i =>
      simp only [act] at h
      split at h
      next r hi =>
        split at h
        next attempt hp =>
          obtain rfl := Option.some.inj h
          have hrun : r.Running := by simp [Recovery.Running, hp]
          exact effect_goesOn hi hrun (by simp [Recovery.Running]) rfl rfl rfl rfl
        next => cases h
      next => cases h
  | leave i =>
      simp only [act] at h
      split at h
      next r hi =>
        rw [Option.ite_none_right_eq_some, Option.some.injEq] at h
        obtain ⟨hp, rfl⟩ := h
        exact .advanced hi (by simp [Recovery.Alive, hp]) (by simp)
          (Or.inr ⟨by simp [hp], rfl⟩) (Or.inr (by simp [Recovery.Running]))
          (Or.inl ⟨rfl, rfl⟩)
      next => cases h

/-- At most one recovery is running, and two of them start at least the backoff apart. -/
structure Apart (cfg : WatchdogConfig R) (s : WatchdogRun R) : Prop where
  one : ∀ (i j : Nat) (r r' : Recovery R), s.recoveries[i]? = some r →
    s.recoveries[j]? = some r' → r.Running → r'.Running → i = j
  backoff : ∀ (i j : Nat) (r r' : Recovery R) (t t' : R), s.recoveries[i]? = some r →
    s.recoveries[j]? = some r' → i ≠ j → r.start = some t → r'.start = some t' →
    t + cfg.backoff ≤ t' ∨ t' + cfg.backoff ≤ t

/-- The callback that starts a thread looked at the flag when every earlier thread that is still
alive had set it, and every recovery that has not succeeded began at least the backoff ago. -/
def Seen (cfg : WatchdogConfig R) (s : WatchdogRun R) (e : R × WatchdogAct R) : Prop :=
  e.2 = .decide → s.Starts cfg →
    (s.sawPending = true → ∀ r ∈ s.recoveries, ¬ r.Alive) ∧
    ∀ r ∈ s.recoveries, r.succeeded = false → ∀ t, r.start = some t → t + cfg.backoff ≤ e.1

/-- The invariant of the runs in which every thread is started so: only the last thread may be
alive, and it is then the one that the flag speaks of. -/
structure Orderly (cfg : WatchdogConfig R) (s : WatchdogRun R) : Prop where
  alone : ∀ (i j : Nat) (r r' : Recovery R), i < j → s.recoveries[i]? = some r →
    s.recoveries[j]? = some r' → ¬ r.Alive
  started : ∀ (i : Nat) (r : Recovery R), s.recoveries[i]? = some r →
    (r.start = none ↔ r.phase = .pending)
  fresh : ∀ (i : Nat) (r : Recovery R), s.recoveries[i]? = some r → r.start = none →
    r.succeeded = false
  apart : ∀ (i j : Nat) (r r' : Recovery R) (t : R), i < j → s.recoveries[i]? = some r →
    s.recoveries[j]? = some r' → r.start = some t → t + cfg.backoff ≤ r'.start.getD s.clock
  past : ∀ (i : Nat) (r : Recovery R) (t : R), s.recoveries[i]? = some r → r.start = some t →
    t ≤ s.clock
  flag : s.node.inRecovery = true ↔
    ∃ (i : Nat) (r : Recovery R), s.recoveries[i]? = some r ∧ r.Running
  success : ∀ (i : Nat) (r : Recovery R) (t : R), s.recoveries[i]? = some r →
    r.succeeded = true → r.start = some t → t ≤ s.node.lastRecovery
  looked : s.callback ≠ .idle → s.sawPending = false → ∀ r ∈ s.recoveries, ¬ r.Alive
  timed : ∀ now, s.callback = .timed now → now ≤ s.clock

theorem orderly_init : Orderly cfg init := by
  constructor <;> simp [init, AmclWatchdogNode.init]

theorem Orderly.tick (h : Orderly cfg s) {now : R} (hle : s.clock ≤ now) :
    Orderly cfg { s with clock := now } where
  alone := h.alone
  started := h.started
  fresh := h.fresh
  apart i j r r' t hij hi hj ht := by
    refine (h.apart i j r r' t hij hi hj ht).trans ?_
    cases r'.start with
    | none => exact hle
    | some t' => exact le_rfl
  past i r t hi ht := (h.past i r t hi ht).trans hle
  flag := h.flag
  success := h.success
  looked := h.looked
  timed now' hc := (h.timed now' hc).trans hle

theorem Orderly.quiet (h : Orderly cfg s) {node : AmclWatchdogNode R} {callback : PoseCallback R}
    (hflag : node.inRecovery = s.node.inRecovery) (hlast : node.lastRecovery = s.node.lastRecovery)
    (hcallback : callback = .idle ∨
      s.callback ≠ .idle ∧ (callback = .judged ∨ callback = .timed s.clock)) :
    Orderly cfg { s with node := node, callback := callback } where
  alone := h.alone
  started := h.started
  fresh := h.fresh
  apart := h.apart
  past := h.past
  flag := by rw [← h.flag, hflag]
  success i r t hi hs ht := by
    show t ≤ node.lastRecovery
    rw [hlast]
    exact h.success i r t hi hs ht
  looked hc := by
    rcases hcallback with rfl | ⟨hne, _⟩
    · exact absurd rfl hc
    · exact h.looked hne
  timed now hc := by
    rcases hcallback with rfl | ⟨_, rfl | rfl⟩ <;> cases hc
    exact le_rfl

/-- With the flag down, a thread that is alive has yet to take its first step. -/
theorem Orderly.looking (h : Orderly cfg s) (hflag : s.node.inRecovery = false) :
    Orderly cfg { s with
      callback := .looked, sawPending := s.recoveries.any fun r => r.phase == .pending } where
  alone := h.alone
  started := h.started
  fresh := h.fresh
  apart := h.apart
  past := h.past
  flag := h.flag
  success := h.success
  looked _ hsaw r hr halive := by
    have hpend : r.phase ≠ .pending := by simpa using List.any_eq_false.mp hsaw r hr
    obtain ⟨i, hi⟩ := List.mem_iff_getElem?.mp hr
    rw [h.flag.mpr ⟨i, r, hi, hpend, halive⟩] at hflag
    cases hflag
  timed _ hc := by cases hc

theorem Orderly.starting [IsOrderedAddMonoid R] (h : Orderly cfg s) (hs : s.Starts cfg)
    (hseen : s.Seen cfg (s.clock, .decide)) :
    Orderly cfg { s with callback := .idle, recoveries := s.recoveries ++ [{}] } := by
  obtain ⟨hsaw, hfail⟩ := hseen rfl hs
  obtain ⟨now, htimed, hb⟩ := hs
  have hdead : ∀ r ∈ s.recoveries, ¬ r.Alive := by
    cases hsp : s.sawPending with
    | true => exact hsaw hsp
    | false => exact h.looked (by simp [htimed]) hsp
  have hpast (i : Nat) (r : Recovery R) (t : R) (hi : s.recoveries[i]? = some r)
      (ht : r.start = some t) : t + cfg.backoff ≤ s.clock := by
    cases hsucc : r.succeeded with
    | false => exact hfail r (List.mem_of_getElem? hi) hsucc t ht
    | true =>
        have hle := h.success i r t hi hsucc ht
        rw [not_lt] at hb
        calc t + cfg.backoff ≤ s.node.lastRecovery + (now - s.node.lastRecovery) :=
              add_le_add hle hb
          _ = now := add_sub_cancel _ _
          _ ≤ s.clock := h.timed now htimed
  constructor
  case alone =>
    intro i j r r' hij hi hj
    rw [getElem?_concat_iff] at hi hj
    rcases hi with hi | ⟨rfl, rfl⟩
    · exact hdead r (List.mem_of_getElem? hi)
    · rcases hj with hj | ⟨rfl, _⟩
      · have hlt := (List.getElem?_eq_some_iff.mp hj).1
        omega
      · exact absurd hij (Nat.lt_irrefl _)
  case started =>
    intro i r hi
    rcases getElem?_concat_iff.mp hi with hi | ⟨_, rfl⟩
    · exact h.started i r hi
    · exact ⟨fun _ => rfl, fun _ => rfl⟩
  case fresh =>
    intro i r hi
    rcases getElem?_concat_iff.mp hi with hi | ⟨_, rfl⟩
    · exact h.fresh i r hi
    · exact fun _ => rfl
  case apart =>
    intro i j r r' t hij hi hj ht
    rcases getElem?_concat_iff.mp hi with hi | ⟨_, rfl⟩
    · rcases getElem?_concat_iff.mp hj with hj | ⟨_, rfl⟩
      · exact h.apart i j r r' t hij hi hj ht
      · exact hpast i r t hi ht
    · cases ht
  case past =>
    intro i r t hi ht
    rcases getElem?_concat_iff.mp hi with hi | ⟨_, rfl⟩
    · exact h.past i r t hi ht
    · cases ht
  case flag =>
    rw [h.flag]
    constructor
    · intro hex
      obtain ⟨i, r, hi, hr⟩ := hex
      exact ⟨i, r, getElem?_concat_iff.mpr (Or.inl hi), hr⟩
    · intro hex
      obtain ⟨i, r, hi, hr⟩ := hex
      rcases getElem?_concat_iff.mp hi with hi | ⟨_, rfl⟩
      · exact ⟨i, r, hi, hr⟩
      · exact absurd rfl hr.1
  case success =>
    intro i r t hi hs ht
    rcases getElem?_concat_iff.mp hi with hi | ⟨_, rfl⟩
    · exact h.success i r t hi hs ht
    · cases ht
  case looked => exact fun hc => absurd rfl hc
  case timed =>
    intro now hc
    cases hc

/-- The steps of a thread that is alive: it is the last one, and what it sets is its own. -/
theorem Orderly.advancing (h : Orderly cfg s) {i : Nat} {r r' : Recovery R}
    {node : AmclWatchdogNode R} (hi : s.recoveries[i]? = some r) (ha : r.Alive)
    (hp : r'.phase ≠ .pending)
    (hstart : r.phase = .pending ∧ r'.start = some s.clock ∨
      r.phase ≠ .pending ∧ r'.start = r.start)
    (hflag : r.Running ∧ node.inRecovery = s.node.inRecovery ∧ r'.Running ∨
      node.inRecovery = decide r'.Running)
    (hlast : node.lastRecovery = s.node.lastRecovery ∧ r'.succeeded = r.succeeded ∨
      node.lastRecovery = s.clock) :
    Orderly cfg { s.setRecovery i r' with node := node } := by
  have hlater {j : Nat} {x : Recovery R} (hj : s.recoveries[j]? = some x) : ¬ i < j :=
    fun hij => h.alone i j r x hij hi hj ha
  have hdead {j : Nat} {x : Recovery R} (hne : j ≠ i) (hj : s.recoveries[j]? = some x) :
      ¬ x.Alive :=
    h.alone j i x r (lt_of_le_of_ne (not_lt.mp (hlater hj)) hne) hj hi
  have hstart' : r'.start = some (r.start.getD s.clock) := by
    rcases hstart with ⟨hpend, hst⟩ | ⟨hpend, hst⟩
    · rw [hst, (h.started i r hi).mpr hpend]
      rfl
    · rw [hst]
      cases ht : r.start with
      | none => exact absurd ((h.started i r hi).mp ht) hpend
      | some t => rfl
  have hclock : r.start.getD s.clock ≤ s.clock := by
    cases ht : r.start with
    | none => exact le_rfl
    | some t => exact h.past i r t hi ht
  have hrunning : node.inRecovery = true ↔ r'.Running := by
    rcases hflag with ⟨hr, hin, hr'⟩ | hin
    · rw [hin]
      exact ⟨fun _ => hr', fun _ => h.flag.mpr ⟨i, r, hi, hr⟩⟩
    · rw [hin, decide_eq_true_iff]
  have hset {j : Nat} {x : Recovery R} : (s.recoveries.set i r')[j]? = some x ↔
      j = i ∧ x = r' ∨ j ≠ i ∧ s.recoveries[j]? = some x := getElem?_set_iff hi
  constructor
  case alone =>
    intro k j x y hkj hk hj
    rcases hset.mp hk with ⟨rfl, _⟩ | ⟨hki, hk⟩
    · rcases hset.mp hj with ⟨rfl, _⟩ | ⟨_, hj⟩
      · exact absurd hkj (Nat.lt_irrefl _)
      · exact absurd hkj (hlater hj)
    · exact hdead hki hk
  case started =>
    intro j x hj
    rcases hset.mp hj with ⟨_, rfl⟩ | ⟨_, hj⟩
    · simp [hstart', hp]
    · exact h.started j x hj
  case fresh =>
    intro j x hj hnone
    rcases hset.mp hj with ⟨_, rfl⟩ | ⟨_, hj⟩
    · rw [hstart'] at hnone
      cases hnone
    · exact h.fresh j x hj hnone
  case apart =>
    intro k j x y t hkj hk hj ht
    rcases hset.mp hk with ⟨rfl, _⟩ | ⟨hki, hk'⟩
    · rcases hset.mp hj with ⟨rfl, _⟩ | ⟨_, hj'⟩
      · exact absurd hkj (Nat.lt_irrefl _)
      · exact absurd hkj (hlater hj')
    · rcases hset.mp hj with ⟨hji, rfl⟩ | ⟨_, hj'⟩
      · rw [hji] at hkj
        rw [hstart']
        exact h.apart k i x r t hkj hk' hi ht
      · exact h.apart k j x y t hkj hk' hj' ht
  case past =>
    intro j x t hj ht
    rcases hset.mp hj with ⟨_, rfl⟩ | ⟨_, hj⟩
    · obtain rfl := Option.some.inj (hstart'.symm.trans ht)
      exact hclock
    · exact h.past j x t hj ht
  case flag =>
    rw [hrunning]
    refine ⟨fun hr => ⟨i, r', hset.mpr (Or.inl ⟨rfl, rfl⟩), hr⟩, fun hex => ?_⟩
    obtain ⟨j, x, hj, hx⟩ := hex
    rcases hset.mp hj with ⟨_, rfl⟩ | ⟨hji, hj⟩
    · exact hx
    · exact absurd hx.2 (hdead hji hj)
  case success =>
    intro j x t hj hs ht
    rcases hlast with ⟨hl, hsucc⟩ | hl <;> rw [hl]
    · rcases hset.mp hj with ⟨_, rfl⟩ | ⟨_, hj⟩
      · rw [hsucc] at hs
        rcases hstart with ⟨hpend, _⟩ | ⟨_, hst⟩
        · rw [h.fresh i r hi ((h.started i r hi).mpr hpend)] at hs
          cases hs
        · exact h.success i r t hi hs (hst.symm.trans ht)
      · exact h.success j x t hj hs ht
    · rcases hset.mp hj with ⟨_, rfl⟩ | ⟨_, hj⟩
      · obtain rfl := Option.some.inj (hstart'.symm.trans ht)
        exact hclock
      · exact h.past j x t hj ht
  case looked =>
    exact fun hc hsaw => absurd ha (h.looked hc hsaw r (List.mem_of_getElem? hi))
  case timed => exact h.timed

theorem Orderly.step [IsOrderedAddMonoid R] (h : Orderly cfg s) (hseen : s.Seen cfg e)
    (hs : s.step cfg e = some s') : Orderly cfg s' := by
  rw [WatchdogRun.step, Option.ite_none_left_eq_some] at hs
  have htick : Orderly cfg { s with clock := e.1 } := h.tick (not_lt.mp hs.1)
  have hact := act_effect hs.2
  generalize he : e.2 = a at hact
  cases hact with
  | quiet hflag hlast hcallback => exact htick.quiet hflag hlast hcallback
  | looked hflag => exact htick.looking hflag
  | started hst => exact htick.starting hst fun _ hst => hseen he hst
  | advanced hi ha hp hstart hflag hlast => exact htick.advancing hi ha hp hstart hflag hlast

theorem Orderly.apart_all (h : Orderly cfg s) : Apart cfg s where
  one i j r r' hi hj hr hr' := by
    rcases Nat.lt_trichotomy i j with hij | hij | hij
    · exact absurd hr.2 (h.alone i j r r' hij hi hj)
    · exact hij
    · exact absurd hr'.2 (h.alone j i r' r hij hj hi)
  backoff i j r r' t t' hi hj hne ht ht' := by
    rcases Nat.lt_or_gt_of_ne hne with hij | hij
    · have hle := h.apart i j r r' t hij hi hj ht
      rw [ht'] at hle
      exact Or.inl hle
    · have hle := h.apart j i r' r t' hij hj hi ht'
      rw [ht] at hle
      exact Or.inr hle

theorem orderly_run [IsOrderedAddMonoid R] {es : List (R × WatchdogAct R)}
    (hm : Meets (step cfg) (Seen cfg) init es) (hr : exec (step cfg) init es = some s) :
    Orderly cfg s :=
  invariant (fun _ _ _ h hseen hs => h.step hseen hs) orderly_init hm hr

variable (cfg) in
/-- A thread that is started can take its first step at once. -/
theorem step_enter {i : Nat} {r : Recovery R} (hi : s.recoveries[i]? = some r)
    (hp : r.phase = .pending) : ∃ s' r', s.step cfg (s.clock, .enter i) = some s' ∧ r'.Running ∧
      r'.start = some s.clock ∧ s'.recoveries = s.recoveries.set i r' := by
  refine ⟨s.enter cfg i r, ?_⟩
  have hstep : s.step cfg (s.clock, .enter i) = some (s.enter cfg i r) := by
    rw [WatchdogRun.step, if_neg (lt_irrefl _)]
    simp only [act, hi, hp, if_true]
  rw [hstep, enter]
  split_ifs
  all_goals exact ⟨_, rfl, by simp [Recovery.Running], rfl, rfl⟩

variable (cfg) in
/-- Two threads that are alive soon overlap. -/
theorem not_apart_of_alive {i : Nat} {r : Recovery R} (hi : s.recoveries[i]? = some r)
    (ha : r.Alive) {n : Nat} (hn : s.recoveries[n]? = some {}) (hne : i ≠ n) :
    ∃ enters s', (∀ e ∈ enters, ∃ i, e.2 = .enter i) ∧ exec (step cfg) s enters = some s' ∧
      ¬ Apart cfg s' := by
  have hover : ∀ {u : WatchdogRun R} {x : Recovery R}, u.recoveries[i]? = some x → x.Running →
      u.recoveries[n]? = some {} →
      ∃ u', u.step cfg (u.clock, .enter n) = some u' ∧ ¬ Apart cfg u' := by
    intro u x hx hrun hun
    obtain ⟨u', r', hstep, hr', _, hrec⟩ := step_enter cfg hun rfl
    refine ⟨u', hstep, fun h => hne ?_⟩
    refine h.one i n x r' ?_ ?_ hrun hr'
    · rw [hrec]
      exact (getElem?_set_iff hun).mpr (Or.inr ⟨hne, hx⟩)
    · rw [hrec]
      exact (getElem?_set_iff hun).mpr (Or.inl ⟨rfl, rfl⟩)
  by_cases hp : r.phase = .pending
  · obtain ⟨v, r', hv, hr', _, hrec⟩ := step_enter cfg hi hp
    have hvi : v.recoveries[i]? = some r' := by
      rw [hrec]
      exact (getElem?_set_iff hi).mpr (Or.inl ⟨rfl, rfl⟩)
    have hvn : v.recoveries[n]? = some {} := by
      rw [hrec]
      exact (getElem?_set_iff hi).mpr (Or.inr ⟨hne.symm, hn⟩)
    obtain ⟨w, hw, hnot⟩ := hover hvi hr' hvn
    exact ⟨[(s.clock, .enter i), (v.clock, .enter n)], w, by simp,
      exec_cons_iff.mpr ⟨v, hv, exec_single hw⟩, hnot⟩
  · obtain ⟨w, hw, hnot⟩ := hover hi ⟨hp, ha⟩ hn
    exact ⟨[(s.clock, .enter n)], w, by simp, exec_single hw, hnot⟩

/-- A thread that starts within the backoff of another one soon is too close to it. -/
theorem not_apart_of_early [IsOrderedAddMonoid R] {i : Nat} {r : Recovery R} {t : R}
    (hi : s.recoveries[i]? = some r) (ht : r.start = some t) (hpast : t ≤ s.clock)
    (hearly : ¬ t + cfg.backoff ≤ s.clock) {n : Nat} (hn : s.recoveries[n]? = some {})
    (hne : i ≠ n) : ∃ s', s.step cfg (s.clock, .enter n) = some s' ∧ ¬ Apart cfg s' := by
  obtain ⟨s', r', hstep, _, hstart, hrec⟩ := step_enter cfg hn rfl
  refine ⟨s', hstep, fun h => ?_⟩
  have hi' : s'.recoveries[i]? = some r := by
    rw [hrec]
    exact (getElem?_set_iff hn).mpr (Or.inr ⟨hne, hi⟩)
  have hn' : s'.recoveries[n]? = some r' := by
    rw [hrec]
    exact (getElem?_set_iff hn).mpr (Or.inl ⟨rfl, rfl⟩)
  rcases h.backoff i n r r' t s.clock hi' hn' hne ht hstart with hle | hle
  · exact hearly hle
  · have hneg : cfg.backoff ≤ 0 := by
      have hle' : s.clock + cfg.backoff ≤ s.clock + 0 := by
        rw [add_zero]
        exact hle.trans hpast
      exact le_of_add_le_add_left hle'
    exact hearly ((add_le_of_nonpos_right hneg).trans hpast)

/-- A start that does not meet `Seen` can be followed by first steps that come too early. -/
theorem seen_of_apart [IsOrderedAddMonoid R] (h : Orderly cfg s) (hs : s.step cfg e = some s')
    (hall : ∀ enters t, (∀ e ∈ enters, ∃ i, e.2 = .enter i) →
      exec (step cfg) s' enters = some t → Apart cfg t) : s.Seen cfg e := by
  intro he hst
  rw [WatchdogRun.step, Option.ite_none_left_eq_some, he] at hs
  obtain ⟨hclock, hs⟩ := hs
  obtain ⟨now, htimed, hb⟩ := hst
  have hs' : s' =
      { s with clock := e.1, callback := .idle, recoveries := s.recoveries ++ [{}] } := by
    simp only [act, htimed, checkBackoff, if_neg hb, Option.some.injEq] at hs
    exact hs.symm
  have hnew : s'.recoveries[s.recoveries.length]? = some {} := by
    rw [hs']
    exact getElem?_concat_iff.mpr (Or.inr ⟨rfl, rfl⟩)
  have hold {i : Nat} {r : Recovery R} (hi : s.recoveries[i]? = some r) :
      s'.recoveries[i]? = some r ∧ i ≠ s.recoveries.length := by
    rw [hs']
    have hlt := (List.getElem?_eq_some_iff.mp hi).1
    exact ⟨getElem?_concat_iff.mpr (Or.inl hi), Nat.ne_of_lt hlt⟩
  refine ⟨fun _ r hr ha => ?_, fun r hr _ t ht => ?_⟩
  · obtain ⟨i, hi⟩ := List.mem_iff_getElem?.mp hr
    obtain ⟨enters, t, hen, hrun, hnot⟩ :=
      not_apart_of_alive cfg (hold hi).1 ha hnew (hold hi).2
    exact hnot (hall enters t hen hrun)
  · obtain ⟨i, hi⟩ := List.mem_iff_getElem?.mp hr
    have hs'clock : s'.clock = e.1 := by rw [hs']
    by_contra hearly
    obtain ⟨v, hv, hnot⟩ := not_apart_of_early (hold hi).1 ht
      (by rw [hs'clock]; exact (h.past i r t hi ht).trans (not_lt.mp hclock))
      (by rw [hs'clock]; exact hearly) hnew (hold hi).2
    exact hnot (hall [_] v (by simp) (exec_single hv))

/-- The recoveries of a run stay apart, however soon the threads that are started take their first
steps, exactly if every start of the run meets `Seen`. -/
theorem recoveries_apart_iff [IsOrderedAddMonoid R] (cfg : WatchdogConfig R)
    (es : List (R × WatchdogAct R)) (s : WatchdogRun R)
    (hr : exec (step cfg) init es = some s) :
    Meets (step cfg) (Seen cfg) init es ↔ ∀ pre post enters t, es = pre ++ post →
      (∀ e ∈ enters, ∃ i, e.2 = .enter i) → exec (step cfg) init (pre ++ enters) = some t →
      Apart cfg t := by
  constructor
  · intro hm pre post enters t hes hen hrun
    rw [hes] at hm
    have henters : ∀ u, Meets (step cfg) (Seen cfg) u enters := by
      refine fun u => Meets.of_forall_mem fun e he v hdecide => ?_
      obtain ⟨i, hi⟩ := hen e he
      rw [hi] at hdecide
      cases hdecide
    exact (orderly_run (hm.left.append fun u _ => henters u) hrun).apart_all
  · intro hall
    refine meets_of_prefixes (I := Orderly cfg) (fun _ _ _ h hseen hs => h.step hseen hs)
      orderly_init hr ?_
    intro pre e post u v hes hpre hv hu
    refine seen_of_apart hu hv fun enters t hen hrun => ?_
    refine hall (pre ++ [e]) post enters t (by rw [hes, List.append_assoc]; rfl) hen ?_
    exact exec_append (exec_snoc hpre hv) hrun

section OverlappingRecoveries

/-- The actions of one pose callback at the time `now`, with the value 3 above the threshold. -/
def anomalousPose (now : ℤ) : List (ℤ × WatchdogAct ℤ) := [(now, .look), (now, .judge (some 3))]

/-- Three anomalous poses, after which a thread is started. -/
def startAt (now : ℤ) : List (ℤ × WatchdogAct ℤ) :=
  anomalousPose now ++ anomalousPose (now + 1) ++ anomalousPose (now + 2) ++
    [(now + 2, .readClock), (now + 2, .decide)]

/-- The first thread takes its first step after the callback has started a second one. -/
def overlappingRun : List (ℤ × WatchdogAct ℤ) :=
  startAt 100 ++ startAt 103 ++ [(106, .enter 0), (106, .enter 1)]

/-- A recovery fails three times, and three poses later the next one starts. -/
def failingRun : List (ℤ × WatchdogAct ℤ) :=
  startAt 100 ++ [(102, .enter 0), (103, .answer 0 .failed), (104, .retry 0),
    (105, .answer 0 .failed), (106, .retry 0), (107, .answer 0 .failed), (107, .leave 0)] ++
    startAt 108 ++ [(110, .enter 1)]

/-- The first recovery succeeds, and the next one starts when the backoff is over. -/
def backedOffRun : List (ℤ × WatchdogAct ℤ) :=
  startAt 100 ++ [(102, .enter 0), (103, .answer 0 .ok), (103, .leave 0)] ++ startAt 121 ++
    [(123, .enter 1)]

theorem recoveries_apart_iff_backedOff : ∃ s : WatchdogRun ℤ,
    exec (step .defaults) init backedOffRun = some s ∧ s.recoveries.length = 2 ∧
      (Meets (step .defaults) (Seen .defaults) init backedOffRun ↔
        ∀ pre post enters t, backedOffRun = pre ++ post → (∀ e ∈ enters, ∃ i, e.2 = .enter i) →
          exec (step .defaults) init (pre ++ enters) = some t → Apart .defaults t) := by
  obtain ⟨s, hr, hlen⟩ : ∃ s : WatchdogRun ℤ, exec (step .defaults) init backedOffRun = some s ∧
      s.recoveries.length = 2 := exists_exec (by decide +kernel)
  exact ⟨s, hr, hlen, recoveries_apart_iff .defaults backedOffRun s hr⟩

/-- Two recoveries run at a time, and a recovery follows a failed one after eight seconds. -/
theorem recoveries_not_apart :
    (∃ s : WatchdogRun ℤ, exec (step .defaults) init overlappingRun = some s ∧
      ¬ Apart .defaults s) ∧
    ∃ s : WatchdogRun ℤ, exec (step .defaults) init failingRun = some s ∧ ¬ Apart .defaults s := by
  constructor
  · obtain ⟨s, hr, hs⟩ : ∃ s : WatchdogRun ℤ, exec (step .defaults) init overlappingRun = some s ∧
        s.recoveries = [⟨.attempting 1, some 106, false⟩, ⟨.attempting 1, some 106, false⟩] :=
      exists_exec (by decide +kernel)
    refine ⟨s, hr, fun h => ?_⟩
    have heq : (0 : Nat) = 1 :=
      h.one 0 1 _ _ (by rw [hs]; rfl) (by rw [hs]; rfl) (by decide) (by decide)
    cases heq
  · obtain ⟨s, hr, hs⟩ : ∃ s : WatchdogRun ℤ, exec (step .defaults) init failingRun = some s ∧
        s.recoveries = [⟨.left, some 102, false⟩, ⟨.attempting 1, some 110, false⟩] :=
      exists_exec (by decide +kernel)
    refine ⟨s, hr, fun h => ?_⟩
    have hor : (102 : ℤ) + 20 ≤ 110 ∨ (110 : ℤ) + 20 ≤ 102 :=
      h.backoff 0 1 _ _ 102 110 (by rw [hs]; rfl) (by rw [hs]; rfl) (by decide) rfl rfl
    omega

end OverlappingRecoveries

end WatchdogRun

end MgRobot.Localization
