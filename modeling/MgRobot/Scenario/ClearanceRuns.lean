import Mathlib.Data.List.Induction
import Mathlib.Tactic.Linarith
import Mathlib.Tactic.Positivity
import MgRobot.Scenario.ObstacleClearance

/-!
# Runs observed by obstacle_clearance

What the monitor has recorded after a run, in terms of the messages: the body of the loop
over the obstacles, the loop, a message, all messages.
-/

namespace MgRobot.Scenario.ClearanceMonitor

set_option autoImplicit false

variable {R : Type*} [Field R] [LinearOrder R] {m : PyMath R} {monitor : ClearanceMonitor R}
  {msg msg' : Reception R} {msgs : List (Reception R)} {robot : Pose R} {s : ClearanceState R}
  {o : String × Shape R} {before : Previous R} {x : R}

section Step

def AtMost (least : Option R) (x : R) : Prop := ∃ d ∈ least, d ≤ x

omit [Field R] in
theorem atMost_min (least : Option R) (d x : R) :
    AtMost (some ((least.map fun e => min e d).getD d)) x ↔ AtMost least x ∨ d ≤ x := by
  cases least with
  | none => simp [AtMost]
  | some e => simp [AtMost]

/-- What a callback records about an obstacle. -/
def current (m : PyMath R) (monitor : ClearanceMonitor R) (msg : Reception R) (robot : Pose R)
    (o : String × Shape R) : Option (Previous R) :=
  (monitor.obstaclePose m msg o.1).map fun obstacle =>
    ⟨robot, obstacle, monitor.distance m o.2 obstacle robot⟩

/-- The motion of the robot since `before` is counted, with a distance of at most `x`. -/
def Counts (m : PyMath R) (monitor : ClearanceMonitor R) (msg : Reception R) (robot : Pose R)
    (o : String × Shape R) (before : Previous R) (x : R) : Prop :=
  monitor.moving m msg = true ∧
    monitor.distance m o.2 before.obstacle robot < before.distance - CLOSING_EPSILON ∧
    monitor.distance m o.2 before.obstacle robot ≤ x

theorem count_minCaused : AtMost (monitor.count m msg robot o s before).minCaused x ↔
    AtMost s.minCaused x ∨ Counts m monitor msg robot o before x := by
  unfold count Counts
  cases hmoving : monitor.moving m msg with
  | false => simp
  | true =>
      by_cases hclose : before.distance - CLOSING_EPSILON ≤
          monitor.distance m o.2 before.obstacle robot
      · simp [hclose, not_lt.mpr hclose]
      · have hlt := not_le.mp hclose
        simp only [Bool.not_true, Bool.false_or, decide_eq_true_eq, hclose, ↓reduceIte, hlt,
          true_and]
        cases hleast : s.minCaused with
        | none => simp [AtMost]
        | some least =>
            simp only [Option.all_some, decide_eq_true_eq]
            split_ifs with hless
            · simp only [AtMost, Option.mem_some_iff, exists_eq_left']
              constructor
              · intro h
                exact Or.inr h
              · intro h
                rcases h with h | h
                · exact hless.le.trans h
                · exact h
            · simp only [hleast, AtMost, Option.mem_some_iff, exists_eq_left']
              constructor
              · intro h
                exact Or.inl h
              · intro h
                rcases h with h | h
                · exact h
                · exact (not_lt.mp hless).trans h

/-- Counting touches nothing else. -/
theorem count_frame : (monitor.count m msg robot o s before).previous = s.previous ∧
    (monitor.count m msg robot o s before).minAll = s.minAll ∧
    (monitor.count m msg robot o s before).observed = s.observed ∧
    (monitor.count m msg robot o s before).received = s.received := by
  unfold count
  dsimp only
  split_ifs
  · exact ⟨rfl, rfl, rfl, rfl⟩
  · exact ⟨rfl, rfl, rfl, rfl⟩
  · exact ⟨rfl, rfl, rfl, rfl⟩

theorem watch_previous : (monitor.watch m msg robot s o).previous =
    Function.update s.previous o.1 (current m monitor msg robot o) := by
  unfold watch current
  cases hpose : monitor.obstaclePose m msg o.1 with
  | none => rfl
  | some obstacle =>
      cases hbefore : s.previous o.1 with
      | none => rfl
      | some before => exact count_frame.1

theorem watch_received : (monitor.watch m msg robot s o).received = s.received := by
  unfold watch
  cases monitor.obstaclePose m msg o.1 with
  | none => rfl
  | some obstacle =>
      cases s.previous o.1 with
      | none => rfl
      | some before => exact count_frame.2.2.2

theorem watch_minAll : AtMost (monitor.watch m msg robot s o).minAll x ↔
    AtMost s.minAll x ∨ ∃ p ∈ current m monitor msg robot o, p.distance ≤ x := by
  unfold watch current
  cases hpose : monitor.obstaclePose m msg o.1 with
  | none => simp
  | some obstacle =>
      have hmin := atMost_min s.minAll (monitor.distance m o.2 obstacle robot) x
      simp only [Option.map_some, Option.mem_some_iff, exists_eq_left']
      cases hbefore : s.previous o.1 with
      | none => exact hmin
      | some before =>
          dsimp only
          rw [count_frame.2.1]
          exact hmin

theorem watch_observed (h : s.observed = s.minAll.isSome) :
    (monitor.watch m msg robot s o).observed = (monitor.watch m msg robot s o).minAll.isSome := by
  unfold watch
  cases monitor.obstaclePose m msg o.1 with
  | none => exact h
  | some obstacle =>
      cases s.previous o.1 with
      | none => rfl
      | some before =>
          dsimp only
          rw [count_frame.2.2.1, count_frame.2.1]
          rfl

theorem watch_minCaused : AtMost (monitor.watch m msg robot s o).minCaused x ↔
    AtMost s.minCaused x ∨ ∃ p ∈ current m monitor msg robot o, ∃ before ∈ s.previous o.1,
      Counts m monitor msg robot o before x := by
  unfold watch current
  cases hpose : monitor.obstaclePose m msg o.1 with
  | none => simp
  | some obstacle =>
      simp only [Option.map_some, Option.mem_some_iff, exists_eq_left']
      cases hbefore : s.previous o.1 with
      | none => simp
      | some before =>
          dsimp only
          rw [count_minCaused]
          simp

variable [IsStrictOrderedRing R]

/-- Against the pose it has just recorded, nothing has come closer. -/
theorem not_counts_current (h : before ∈ current m monitor msg robot o) :
    ¬Counts m monitor msg robot o before x := by
  intro hcounts
  obtain ⟨obstacle, -, rfl⟩ := Option.mem_map.mp h
  have hlt := hcounts.2.1
  have hpos : (0 : R) < CLOSING_EPSILON := by
    unfold CLOSING_EPSILON
    positivity
  dsimp only at hlt
  linarith

end Step

section Loop

variable {l : List (String × Shape R)}

theorem loop_received : (l.foldl (monitor.watch m msg robot) s).received = s.received := by
  induction l generalizing s with
  | nil => rfl
  | cons o l ih => rw [List.foldl_cons, ih, watch_received]

theorem loop_observed (h : s.observed = s.minAll.isSome) :
    (l.foldl (monitor.watch m msg robot) s).observed =
      (l.foldl (monitor.watch m msg robot) s).minAll.isSome := by
  induction l generalizing s with
  | nil => exact h
  | cons o l ih => exact ih (watch_observed h)

theorem loop_minAll : AtMost (l.foldl (monitor.watch m msg robot) s).minAll x ↔
    AtMost s.minAll x ∨ ∃ o ∈ l, ∃ p ∈ current m monitor msg robot o, p.distance ≤ x := by
  induction l generalizing s with
  | nil => simp
  | cons o l ih =>
      rw [List.foldl_cons, ih, watch_minAll]
      simp only [List.exists_mem_cons_iff, or_assoc]

theorem loop_previous_of_ne {name : String} (h : ∀ o ∈ l, o.1 ≠ name) :
    (l.foldl (monitor.watch m msg robot) s).previous name = s.previous name := by
  induction l generalizing s with
  | nil => rfl
  | cons o l ih =>
      rw [List.foldl_cons, ih fun o' ho' => h o' (List.mem_cons_of_mem _ ho'), watch_previous,
        Function.update_of_ne (h o List.mem_cons_self).symm]

theorem loop_previous (hfun : ∀ o ∈ l, ∀ o' ∈ l, o.1 = o'.1 → o = o') (ho : o ∈ l) :
    (l.foldl (monitor.watch m msg robot) s).previous o.1 = current m monitor msg robot o := by
  induction l generalizing s with
  | nil => exact absurd ho List.not_mem_nil
  | cons o' l ih =>
      have hfun' : ∀ o ∈ l, ∀ o' ∈ l, o.1 = o'.1 → o = o' := fun p hp q hq =>
        hfun p (List.mem_cons_of_mem _ hp) q (List.mem_cons_of_mem _ hq)
      by_cases hl : o ∈ l
      · exact ih hfun' hl
      · obtain rfl : o = o' := (List.mem_cons.mp ho).resolve_right hl
        have hne : ∀ p ∈ l, p.1 ≠ o.1 := by
          intro p hp hname
          rw [hfun p (List.mem_cons_of_mem _ hp) o List.mem_cons_self hname] at hp
          exact hl hp
        rw [List.foldl_cons, loop_previous_of_ne hne, watch_previous, Function.update_self]

variable [IsStrictOrderedRing R]

/-- An obstacle listed twice is counted at most once, against what was recorded before. -/
theorem loop_minCaused (hfun : ∀ o ∈ l, ∀ o' ∈ l, o.1 = o'.1 → o = o') :
    AtMost (l.foldl (monitor.watch m msg robot) s).minCaused x ↔
      AtMost s.minCaused x ∨ ∃ o ∈ l, ∃ p ∈ current m monitor msg robot o,
        ∃ before ∈ s.previous o.1, Counts m monitor msg robot o before x := by
  induction l generalizing s with
  | nil => simp
  | cons o l ih =>
      have hfun' : ∀ o ∈ l, ∀ o' ∈ l, o.1 = o'.1 → o = o' := fun p hp q hq =>
        hfun p (List.mem_cons_of_mem _ hp) q (List.mem_cons_of_mem _ hq)
      rw [List.foldl_cons, ih hfun', watch_minCaused, watch_previous]
      simp only [List.exists_mem_cons_iff, or_assoc]
      refine or_congr_right ?_
      constructor
      · intro h
        rcases h with h | ⟨o', ho', p, hp, before, hbefore, hcounts⟩
        · exact Or.inl h
        · by_cases hname : o'.1 = o.1
          · obtain rfl := hfun o' (List.mem_cons_of_mem _ ho') o List.mem_cons_self hname
            rw [Function.update_self] at hbefore
            exact absurd hcounts (not_counts_current hbefore)
          · rw [Function.update_of_ne hname] at hbefore
            exact Or.inr ⟨o', ho', p, hp, before, hbefore, hcounts⟩
      · intro h
        rcases h with h | ⟨o', ho', p, hp, before, hbefore, hcounts⟩
        · exact Or.inl h
        · by_cases hname : o'.1 = o.1
          · obtain rfl := hfun o' (List.mem_cons_of_mem _ ho') o List.mem_cons_self hname
            exact Or.inl ⟨p, hp, before, hbefore, hcounts⟩
          · refine Or.inr ⟨o', ho', p, hp, before, ?_, hcounts⟩
            rw [Function.update_of_ne hname]
            exact hbefore

end Loop

section Run

/-- What the evaluation of a message records about an obstacle. -/
def seen (m : PyMath R) (monitor : ClearanceMonitor R) (msg : Reception R)
    (o : String × Shape R) : Option (Previous R) :=
  (monitor.robotPose m msg).bind fun robot => current m monitor msg robot o

theorem seen_of_robotPose (h : monitor.robotPose m msg = some robot) :
    seen m monitor msg o = current m monitor msg robot o := by
  rw [seen, h, Option.bind_some]

theorem robot_of_mem_seen (h : before ∈ seen m monitor msg o) :
    monitor.robotPose m msg = some before.robot := by
  obtain ⟨robot, hrobot, h⟩ := Option.bind_eq_some_iff.mp h
  obtain ⟨obstacle, -, rfl⟩ := Option.map_eq_some_iff.mp h
  exact hrobot

theorem robot_eq_of_mem_seen (hrobot : monitor.robotPose m msg = some robot)
    (h : before ∈ seen m monitor msg o) : before.robot = robot := by
  have := robot_of_mem_seen h
  rw [hrobot] at this
  exact (Option.some.inj this).symm

theorem distance_of_mem_seen (h : before ∈ seen m monitor msg o) :
    before.distance = monitor.distance m o.2 before.obstacle before.robot := by
  obtain ⟨robot, -, h⟩ := Option.bind_eq_some_iff.mp h
  obtain ⟨obstacle, -, rfl⟩ := Option.map_eq_some_iff.mp h
  rfl

theorem infix_pair_concat {α : Type*} {a b z : α} {l : List α} :
    [a, b] <:+: l ++ [z] ↔ [a, b] <:+: l ∨ l.getLast? = some a ∧ b = z := by
  rw [List.infix_concat_iff, List.suffix_concat_iff, or_comm]
  refine or_congr_right ?_
  constructor
  · intro h
    rcases h with h | ⟨t, ht, hsuf⟩
    · exact absurd h (List.cons_ne_nil _ _)
    · have hsplit : [a] ++ [b] = t ++ [z] := ht
      obtain ⟨rfl, hbz⟩ := List.append_inj' hsplit rfl
      obtain ⟨front, rfl⟩ := hsuf
      exact ⟨List.getLast?_concat, (List.cons.inj hbz).1⟩
  · intro h
    obtain ⟨hlast, rfl⟩ := h
    obtain ⟨front, rfl⟩ := List.getLast?_eq_some_iff.mp hlast
    exact Or.inr ⟨[a], rfl, List.suffix_append front [a]⟩

/-- The state of the monitor, in terms of the messages received. -/
structure Recorded (m : PyMath R) (monitor : ClearanceMonitor R) (msgs : List (Reception R))
    (s : ClearanceState R) : Prop where
  received : s.received = msgs.length
  observed : s.observed = s.minAll.isSome
  previous : ∀ o ∈ monitor.watched,
    s.previous o.1 = msgs.getLast?.bind fun msg => seen m monitor msg o
  minAll : ∀ x, AtMost s.minAll x ↔ ∃ msg ∈ msgs, ∃ o ∈ monitor.watched,
    ∃ p ∈ seen m monitor msg o, p.distance ≤ x
  minCaused : ∀ x, AtMost s.minCaused x ↔ ∃ msg msg', [msg, msg'] <:+: msgs ∧
    ∃ o ∈ monitor.watched, ∃ before ∈ seen m monitor msg o, ∃ p ∈ seen m monitor msg' o,
      Counts m monitor msg' p.robot o before x

theorem recorded_init : Recorded m monitor [] ClearanceState.init where
  received := rfl
  observed := rfl
  previous := fun _ _ => rfl
  minAll := by simp [AtMost, ClearanceState.init]
  minCaused := by simp [AtMost, ClearanceState.init]

variable [IsStrictOrderedRing R]

theorem Recorded.onMsg (h : Recorded m monitor msgs s)
    (hrobot : monitor.robotPose m msg = some robot) :
    Recorded m monitor (msgs ++ [msg]) (monitor.onMsg m s msg) := by
  have heq : monitor.onMsg m s msg = monitor.watched.foldl (monitor.watch m msg robot)
      { s with received := s.received + 1 } := by
    rw [ClearanceMonitor.onMsg, hrobot]
  have hseen : ∀ o, seen m monitor msg o = current m monitor msg robot o :=
    fun o => seen_of_robotPose hrobot
  constructor
  · rw [heq, loop_received, h.received, List.length_append, List.length_singleton]
  · rw [heq]
    exact loop_observed h.observed
  · intro o ho
    rw [heq, loop_previous monitor.functional ho, List.getLast?_concat, Option.bind_some, hseen]
  · intro x
    have hold : AtMost ({ s with received := s.received + 1 } : ClearanceState R).minAll x ↔ _ :=
      h.minAll x
    rw [heq, loop_minAll, hold]
    simp only [List.mem_append, List.mem_singleton, or_and_right, exists_or, exists_eq_left, hseen]
  · intro x
    have hold : AtMost ({ s with received := s.received + 1 } : ClearanceState R).minCaused x ↔ _ :=
      h.minCaused x
    rw [heq, loop_minCaused monitor.functional, hold]
    simp only [infix_pair_concat]
    constructor
    · intro hcases
      rcases hcases with ⟨a, b, hab, hcounts⟩ | ⟨o, ho, p, hp, before, hbefore, hcounts⟩
      · exact ⟨a, b, Or.inl hab, hcounts⟩
      · rw [h.previous o ho] at hbefore
        obtain ⟨a, hlast, hbefore⟩ := Option.bind_eq_some_iff.mp hbefore
        rw [← hseen o] at hp
        have hpr := robot_eq_of_mem_seen hrobot hp
        exact ⟨a, msg, Or.inr ⟨hlast, rfl⟩, o, ho, before, hbefore, p, hp, hpr ▸ hcounts⟩
    · intro hcases
      obtain ⟨a, b, hab | ⟨hlast, rfl⟩, o, ho, before, hbefore, p, hp, hcounts⟩ := hcases
      · exact Or.inl ⟨a, b, hab, o, ho, before, hbefore, p, hp, hcounts⟩
      · refine Or.inr ⟨o, ho, p, hseen o ▸ hp, before, ?_, ?_⟩
        · rw [h.previous o ho, hlast, Option.bind_some]
          exact hbefore
        · exact robot_eq_of_mem_seen hrobot hp ▸ hcounts

theorem recorded_run (h : ∀ msg ∈ msgs, (monitor.robotPose m msg).isSome) :
    Recorded m monitor msgs (monitor.run m msgs) := by
  induction msgs using List.reverseRecOn with
  | nil => exact recorded_init
  | append_singleton msgs msg ih =>
      obtain ⟨robot, hrobot⟩ := Option.isSome_iff_exists.mp (h msg (by simp))
      rw [run, List.foldl_append, List.foldl_cons, List.foldl_nil]
      exact (ih fun msg hmsg => h msg (List.mem_append_left _ hmsg)).onMsg hrobot

end Run

end MgRobot.Scenario.ClearanceMonitor
