import MgRobot.BtPlugins.ClearanceTracker
import MgRobot.Lib.Runs
import MgRobot.Lib.Numerals
import Mathlib.Algebra.Field.Rat
import Mathlib.Algebra.Order.Field.Rat

/-!
# IsPathClearCondition

The condition node over the tracker. A tick brings what the monitor gives it:
whether it is ready, how its evaluation ends, and the number and the arrival
time of its costmap.
-/

namespace MgRobot.BtPlugins

set_option autoImplicit false

variable {T : Type*} [Field T] [LinearOrder T]

def kEpisodeGap : T := 1
def kMinClearMaps : Int := 2

/-- `PathClearanceMonitor::Status`, with `lastBlocked` where it is evaluated. -/
inductive Evaluation where
  | unavailable
  | noCostmap
  | unchanged
  | evaluated (blocked : Bool)
  deriving DecidableEq, Repr

structure Tick (T : Type*) where
  now : T
  ready : Bool
  useCollisionDetection : Bool
  evaluation : Evaluation
  costmapSeq : Nat
  costmapReceived : T
  deriving DecidableEq, Repr

structure IsPathClearCondition (T : Type*) where
  tracker : ClearanceTracker T
  lastTick : Option T
  episodeStart : T

namespace IsPathClearCondition

def init : IsPathClearCondition T := ⟨.init, none, 0⟩

variable (c : IsPathClearCondition T) (clearDuration : T) (t : Tick T)

omit [Field T] [LinearOrder T] in
def startEpisode (now : T) : IsPathClearCondition T :=
  { c with tracker := c.tracker.reset, episodeStart := now }

omit [Field T] in
def evaluate : IsPathClearCondition T :=
  match t.evaluation with
  | .unavailable => { c with tracker := c.tracker.invalidate }
  | .noCostmap | .unchanged => c
  | .evaluated blocked =>
      if blocked ∨ c.episodeStart ≤ t.costmapReceived then
        { c with tracker := c.tracker.observe blocked t.costmapSeq t.now }
      else c

/-- Whether the tick starts a new episode. -/
def startsEpisode : Bool :=
  match c.lastTick with
  | none => true
  | some lastTick => decide (kEpisodeGap < t.now - lastTick)

/-- The node after a tick, and whether the tick returns SUCCESS. -/
def tick : IsPathClearCondition T × Bool :=
  let c := if c.startsEpisode t then c.startEpisode t.now else c
  let c := { c with lastTick := some t.now }
  if !t.ready then (c, false)
  else if !t.useCollisionDetection then (c, false)
  else
    let c := c.evaluate t
    (c, c.tracker.isClear t.now clearDuration kMinClearMaps)

def run (ticks : List (Tick T)) : IsPathClearCondition T :=
  ticks.foldl (fun c t => (c.tick clearDuration t).1) c

end IsPathClearCondition

/-! ## Episodes -/

/-- What a tick tells the tracker in an episode that began at `start`. -/
def Tick.event (start : T) (t : Tick T) : Option (TrackerEvent T) :=
  if t.ready && t.useCollisionDetection then
    match t.evaluation with
    | .unavailable => some .invalidate
    | .noCostmap | .unchanged => none
    | .evaluated blocked =>
        if blocked ∨ start ≤ t.costmapReceived then some (.observe blocked t.costmapSeq t.now)
        else none
  else none

omit [Field T] in
theorem Tick.event_observe {start : T} {t : Tick T} {blocked : Bool} {s : Nat} {now : T}
    (h : t.event start = some (.observe blocked s now)) :
    t.ready = true ∧ t.useCollisionDetection = true ∧ t.evaluation = .evaluated blocked ∧
      (blocked = true ∨ start ≤ t.costmapReceived) ∧ s = t.costmapSeq ∧ now = t.now := by
  unfold Tick.event at h
  split at h
  · rename_i hchecks
    obtain ⟨hready, huse⟩ := Bool.and_eq_true_iff.mp hchecks
    split at h
    · exact nomatch h
    · exact nomatch h
    · exact nomatch h
    · rename_i blocked' hevaluation
      split at h
      · rename_i hcounts
        cases h
        exact ⟨hready, huse, hevaluation, hcounts, rfl, rfl⟩
      · exact nomatch h
  · exact nomatch h

def Tick.recording (start : T) : Recording (Tick T) T where
  event := Tick.event start
  mapSeq := Tick.costmapSeq
  time := Tick.now
  observed _ _ _ _ h := (Tick.event_observe h).2.2.2.2

/-- The ticks since the last one that came after a gap, or since the first one. -/
structure IsEpisode (earlier episode : List (Tick T)) : Prop where
  opens : ∀ last ∈ earlier.getLast?, ∀ first ∈ episode.head?, kEpisodeGap < first.now - last.now
  within : episode.IsChain fun t t' => t'.now - t.now ≤ kEpisodeGap

namespace IsPathClearCondition

variable {c : IsPathClearCondition T} {clearDuration : T} {ticks earlier episode : List (Tick T)}
  {t : Tick T}

/-- What the node knows of its ticks. -/
structure Follows (ticks : List (Tick T)) (c : IsPathClearCondition T) : Prop where
  last : ticks.getLast?.map Tick.now = c.lastTick
  episode : ticks ≠ [] → ∃ earlier first rest, ticks = earlier ++ first :: rest ∧
    IsEpisode earlier (first :: rest) ∧ c.episodeStart = first.now ∧
    c.tracker = (Tick.recording first.now).run (first :: rest) .init

theorem follows_init : Follows ([] : List (Tick T)) init := ⟨rfl, fun h => absurd rfl h⟩

/-- A tick acts on the tracker by its event. -/
theorem tick_tracker (c : IsPathClearCondition T) (clearDuration : T) (t : Tick T) :
    let c' := if c.startsEpisode t then c.startEpisode t.now else c
    (c.tick clearDuration t).1.tracker = (Tick.recording c'.episodeStart).play c'.tracker t ∧
      (c.tick clearDuration t).1.episodeStart = c'.episodeStart ∧
      (c.tick clearDuration t).1.lastTick = some t.now := by
  intro c'
  have htick : c.tick clearDuration t =
      if !t.ready then ({ c' with lastTick := some t.now }, false)
      else if !t.useCollisionDetection then ({ c' with lastTick := some t.now }, false)
      else
        ({ c' with lastTick := some t.now }.evaluate t,
          ({ c' with lastTick := some t.now }.evaluate t).tracker.isClear t.now clearDuration
            kMinClearMaps) := rfl
  rw [htick]
  unfold Recording.play
  simp only [Tick.recording, Tick.event]
  cases hready : t.ready with
  | false => exact ⟨rfl, rfl, rfl⟩
  | true =>
      cases huse : t.useCollisionDetection with
      | false => exact ⟨rfl, rfl, rfl⟩
      | true =>
          simp only [Bool.not_true, Bool.false_eq_true, if_false, Bool.and_self, if_true,
            evaluate]
          cases hevaluation : t.evaluation with
          | unavailable => exact ⟨rfl, rfl, rfl⟩
          | noCostmap => exact ⟨rfl, rfl, rfl⟩
          | unchanged => exact ⟨rfl, rfl, rfl⟩
          | evaluated blocked =>
              dsimp only
              split_ifs with hcounts
              · exact ⟨rfl, rfl, rfl⟩
              · exact ⟨rfl, rfl, rfl⟩

theorem Follows.tick (h : Follows ticks c) (clearDuration : T) (t : Tick T) :
    Follows (ticks ++ [t]) (c.tick clearDuration t).1 := by
  obtain ⟨htracker, hstart, hlast⟩ := c.tick_tracker clearDuration t
  refine ⟨by rw [List.getLast?_concat, hlast]; rfl, fun _ => ?_⟩
  cases hnew : c.startsEpisode t with
  | true =>
      rw [hnew, if_pos rfl] at htracker hstart
      refine ⟨ticks, t, [], rfl, ⟨fun last hlast' first hfirst => ?_, List.isChain_singleton _⟩,
        hstart, htracker⟩
      obtain rfl := Option.some.inj hfirst
      have hgap : c.lastTick = some last.now := by
        rw [← h.last, Option.mem_def.mp hlast']
        rfl
      unfold startsEpisode at hnew
      rw [hgap] at hnew
      exact of_decide_eq_true hnew
  | false =>
      rw [hnew, if_neg (Bool.false_ne_true)] at htracker hstart
      have hne : ticks ≠ [] := by
        rintro rfl
        unfold startsEpisode at hnew
        rw [← h.last] at hnew
        exact nomatch hnew
      obtain ⟨earlier, first, rest, rfl, hepisode, hstart', htracker'⟩ := h.episode hne
      refine ⟨earlier, first, rest ++ [t], by simp, ⟨?_, ?_⟩, hstart.trans hstart', ?_⟩
      · exact fun last hlast' first' hfirst => hepisode.opens last hlast' first' hfirst
      · rw [← List.cons_append]
        refine hepisode.within.append (List.isChain_singleton _) fun last hlast' next hnext => ?_
        obtain rfl := Option.some.inj hnext
        have hgap : c.lastTick = some last.now := by
          rw [← h.last, List.getLast?_append_of_ne_nil _ (List.cons_ne_nil _ _),
            Option.mem_def.mp hlast']
          rfl
        unfold startsEpisode at hnew
        rw [hgap] at hnew
        exact not_lt.mp (of_decide_eq_false hnew)
      · rw [htracker, hstart', htracker', ← List.cons_append, Recording.run, Recording.run,
          List.foldl_append]
        rfl

theorem follows_run (clearDuration : T) (ticks : List (Tick T)) :
    Follows ticks (init.run clearDuration ticks) := by
  induction ticks using List.reverseRecOn with
  | nil => exact follows_init
  | append_singleton ticks t ih =>
      rw [IsPathClearCondition.run, List.foldl_append]
      exact ih.tick clearDuration t

/-- A tick that returns SUCCESS has asked the tracker. -/
theorem isClear_of_success (h : (c.tick clearDuration t).2 = true) :
    (c.tick clearDuration t).1.tracker.isClear t.now clearDuration kMinClearMaps = true := by
  unfold IsPathClearCondition.tick at h ⊢
  dsimp only at h ⊢
  split at h
  · exact nomatch h
  · rename_i hready
    rw [if_neg hready]
    split at h
    · exact nomatch h
    · rename_i huse
      rw [if_neg huse]
      exact h

end IsPathClearCondition

/-! ## What SUCCESS means -/

/-- The tick has asked the monitor, and that was the answer. -/
def Tick.Answered (t : Tick T) (evaluation : Evaluation) : Prop :=
  t.ready = true ∧ t.useCollisionDetection = true ∧ t.evaluation = evaluation

variable {start : T} {t : Tick T}

omit [Field T] in
theorem Tick.answered_of_blocked (h : (Tick.recording start).Blocked t) :
    t.Answered (.evaluated true) := by
  obtain ⟨s, now, hevent⟩ := h
  obtain ⟨hready, huse, hevaluation, -⟩ := Tick.event_observe hevent
  exact ⟨hready, huse, hevaluation⟩

omit [Field T] in
theorem Tick.answered_of_clear (h : (Tick.recording start).Clear t) :
    t.Answered (.evaluated false) ∧ start ≤ t.costmapReceived := by
  obtain ⟨s, now, hevent⟩ := h
  obtain ⟨hready, huse, hevaluation, hcounts, -⟩ := Tick.event_observe hevent
  exact ⟨⟨hready, huse, hevaluation⟩, hcounts.resolve_left nofun⟩

omit [Field T] in
theorem Tick.not_answered_of_quiet (h : (Tick.recording start).Quiet t) :
    ¬t.Answered (.evaluated true) ∧ ¬t.Answered .unavailable := by
  obtain ⟨hblocked, hinvalidate, -⟩ := h
  constructor
  · rintro ⟨hready, huse, hevaluation⟩
    refine hblocked ⟨t.costmapSeq, t.now, ?_⟩
    simp [Tick.recording, Tick.event, hready, huse, hevaluation]
  · rintro ⟨hready, huse, hevaluation⟩
    refine hinvalidate ?_
    simp [Tick.recording, Tick.event, hready, huse, hevaluation]

/-- The ticks show that the path was blocked in their last episode, and that it has been clear
since the last blocked or unavailable answer: on as many different costmaps as it takes, all of
them received in the episode, from a time on that is long enough ago. -/
def PathBecameClear (clearDuration now : T) (ticks : List (Tick T)) : Prop :=
  ∃ earlier first rest, ticks = earlier ++ first :: rest ∧ IsEpisode earlier (first :: rest) ∧
    (∃ b ∈ first :: rest, b.Answered (.evaluated true)) ∧
    ∃ before after, ∃ counted : List (Tick T), first :: rest = before ++ after ∧
      (∀ e ∈ after, ¬e.Answered (.evaluated true) ∧ ¬e.Answered .unavailable) ∧
      counted.Sublist after ∧
      (∀ e ∈ counted, e.Answered (.evaluated false) ∧ first.now ≤ e.costmapReceived) ∧
      (counted.Pairwise fun e e' => e.costmapSeq < e'.costmapSeq) ∧
      kMinClearMaps ≤ counted.length ∧ ∃ e ∈ counted.head?, e.now ≤ now - clearDuration

theorem pathBecameClear [IsStrictOrderedRing T] {clearDuration : T} {ticks : List (Tick T)}
    (horder : (ticks ++ [t]).Pairwise fun a b => a.costmapSeq ≤ b.costmapSeq)
    (hsuccess : ((IsPathClearCondition.init.run clearDuration ticks).tick clearDuration t).2 = true) :
    PathBecameClear clearDuration t.now (ticks ++ [t]) := by
  have hfollows := (IsPathClearCondition.follows_run clearDuration ticks).tick clearDuration t
  obtain ⟨earlier, first, rest, heq, hepisode, -, htracker⟩ := hfollows.episode (by simp)
  have hclear := IsPathClearCondition.isClear_of_success hsuccess
  rw [htracker] at hclear
  have hinorder : (Tick.recording first.now).InOrder (first :: rest) := by
    rw [heq] at horder
    exact (List.pairwise_append.mp horder).2.1.imp fun hle _ _ => hle
  obtain ⟨⟨before', b, after', hb, hblocked, -⟩, counted, hcounts, hmaps, e, he, hduration⟩ :=
    (Recording.Explains.run hinorder).showsClear hclear
  obtain ⟨before, after, hsince, hquiet, hsub⟩ := hcounts.since
  refine ⟨earlier, first, rest, heq, hepisode, ⟨b, ?_, Tick.answered_of_blocked hblocked⟩,
    before, after, counted, hsince, fun x hx => Tick.not_answered_of_quiet (hquiet x hx), hsub,
    fun x hx => Tick.answered_of_clear (hcounts.clear x hx), hcounts.increasing, hmaps, e, he,
    le_sub_comm.mp hduration⟩
  rw [hb]
  simp

/-- SUCCESS is returned only after a path that was blocked has become clear; and a tracker is
clear only if its own events show it. -/
theorem clear_only_if [IsStrictOrderedRing T] (clearDuration : T) :
    (∀ (ticks : List (Tick T)) (t : Tick T),
      ((ticks ++ [t]).Pairwise fun a b => a.costmapSeq ≤ b.costmapSeq) →
      ((IsPathClearCondition.init.run clearDuration ticks).tick clearDuration t).2 = true →
      PathBecameClear clearDuration t.now (ticks ++ [t])) ∧
    ∀ (events : List (TrackerEvent T)) (now : T) (minClearMaps : Int),
      (TrackerEvent.recording T).InOrder events →
      ((TrackerEvent.recording T).run events .init).isClear now clearDuration minClearMaps = true →
      (TrackerEvent.recording T).ShowsClear events now clearDuration minClearMaps :=
  ⟨fun _ _ => pathBecameClear, fun _ _ _ horder => (Recording.Explains.run horder).showsClear⟩

/-- A blocked path that becomes clear on two costmaps. -/
def clearedTicks : List (Tick ℚ) :=
  [⟨0, true, true, .evaluated true, 1, 0⟩, ⟨1 / 2, true, true, .evaluated false, 2, 1 / 4⟩,
    ⟨1, true, true, .unchanged, 2, 1 / 4⟩]

theorem clear_only_if_cleared :
    PathBecameClear (1 : ℚ) (3 / 2)
      (clearedTicks ++ [⟨3 / 2, true, true, .evaluated false, 3, 5 / 4⟩]) ∧
    (TrackerEvent.recording ℚ).ShowsClear
      [.observe true 1 0, .observe false 2 (1 / 2), .observe false 3 1] 2 1 2 := by
  constructor
  · exact (clear_only_if (1 : ℚ)).1 clearedTicks ⟨3 / 2, true, true, .evaluated false, 3, 5 / 4⟩
      (by decide +kernel) (by decide +kernel)
  · refine (clear_only_if (1 : ℚ)).2 _ 2 2 ?_ (by decide +kernel)
    simp [Recording.InOrder, TrackerEvent.recording]

end MgRobot.BtPlugins
