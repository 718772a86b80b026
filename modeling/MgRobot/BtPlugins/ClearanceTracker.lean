import Mathlib.Algebra.Order.Group.Defs
import Mathlib.Data.List.Chain

/-!
# ClearanceTracker

The tracker of `path_clearance.cpp`, and what its state says about the
observations it has seen. The results are about histories of any kind of event
that may or may not act on a tracker, as the ticks of a condition do too.
-/

namespace MgRobot.BtPlugins

set_option autoImplicit false

variable {T : Type*}

structure ClearanceTracker (T : Type*) where
  seenBlocked : Bool
  clearSince : Option T
  clearMaps : Nat
  lastCountedMap : Option Nat
  deriving DecidableEq, Repr

namespace ClearanceTracker

def init : ClearanceTracker T := ⟨false, none, 0, none⟩

variable (tracker : ClearanceTracker T)

def invalidate : ClearanceTracker T :=
  { tracker with clearSince := none, clearMaps := 0, lastCountedMap := none }

def reset : ClearanceTracker T := { tracker with seenBlocked := false }.invalidate

def observe (blocked : Bool) (mapSeq : Nat) (now : T) : ClearanceTracker T :=
  if blocked then { tracker with seenBlocked := true }.invalidate
  else if !tracker.seenBlocked then tracker
  else
    let tracker := { tracker with clearSince := some (tracker.clearSince.getD now) }
    if tracker.lastCountedMap ≠ some mapSeq then
      { tracker with clearMaps := tracker.clearMaps + 1, lastCountedMap := some mapSeq }
    else tracker

def isClear [Sub T] [LE T] [DecidableLE T] (now clearDuration : T) (minClearMaps : Int) : Bool :=
  match tracker.clearSince with
  | none => false
  | some since =>
      tracker.seenBlocked && decide (clearDuration ≤ now - since) &&
        decide (minClearMaps ≤ tracker.clearMaps)

end ClearanceTracker

inductive TrackerEvent (T : Type*) where
  | observe (blocked : Bool) (mapSeq : Nat) (now : T)
  | invalidate
  | reset
  deriving DecidableEq, Repr

def ClearanceTracker.apply (tracker : ClearanceTracker T) : TrackerEvent T → ClearanceTracker T
  | .observe blocked mapSeq now => tracker.observe blocked mapSeq now
  | .invalidate => tracker.invalidate
  | .reset => tracker.reset

/-! ## Histories -/

/-- What the elements of a history do to a tracker, with the costmap and the time of those that
observe. -/
structure Recording (ι T : Type*) where
  event : ι → Option (TrackerEvent T)
  mapSeq : ι → Nat
  time : ι → T
  observed : ∀ e blocked s t, event e = some (.observe blocked s t) → s = mapSeq e ∧ t = time e

namespace Recording

variable {ι : Type*} (r : Recording ι T)

def play (tracker : ClearanceTracker T) (e : ι) : ClearanceTracker T :=
  match r.event e with
  | some event => tracker.apply event
  | none => tracker

def run (es : List ι) (tracker : ClearanceTracker T) : ClearanceTracker T :=
  es.foldl r.play tracker

def Blocked (e : ι) : Prop := ∃ s t, r.event e = some (.observe true s t)

def Clear (e : ι) : Prop := ∃ s t, r.event e = some (.observe false s t)

/-- Nothing that ends a clear period. -/
def Quiet (e : ι) : Prop :=
  ¬r.Blocked e ∧ r.event e ≠ some .invalidate ∧ r.event e ≠ some .reset

/-- Costmaps are observed in the order of their numbers. -/
def InOrder (es : List ι) : Prop :=
  es.Pairwise fun e e' => (∃ b s t, r.event e = some (.observe b s t)) →
    (∃ b s t, r.event e' = some (.observe b s t)) → r.mapSeq e ≤ r.mapSeq e'

/-- After the last element that is not quiet come clear ones, of costmaps that all differ. -/
structure Counts (es counted : List ι) : Prop where
  since : ∃ before after, es = before ++ after ∧ (∀ e ∈ after, r.Quiet e) ∧ counted.Sublist after
  clear : ∀ e ∈ counted, r.Clear e
  increasing : counted.Pairwise fun e e' => r.mapSeq e < r.mapSeq e'

/-- A blocked element comes after the last reset. -/
def SawBlocked (es : List ι) : Prop :=
  ∃ before b after, es = before ++ b :: after ∧ r.Blocked b ∧
    ∀ e ∈ after, r.event e ≠ some .reset

/-- What the state of a tracker says about its history. -/
structure Explains (es : List ι) (tracker : ClearanceTracker T) : Prop where
  seen : tracker.seenBlocked = true → r.SawBlocked es
  counted : ∃ counted, r.Counts es counted ∧ counted.length = tracker.clearMaps ∧
    counted.head?.map r.time = tracker.clearSince ∧
    counted.getLast?.map r.mapSeq = tracker.lastCountedMap

variable {r} {es counted : List ι} {e : ι} {tracker : ClearanceTracker T}

theorem quiet_of_none (hevent : r.event e = none) : r.Quiet e := by
  refine ⟨?_, ?_, ?_⟩
  · rintro ⟨s, t, hblocked⟩
    exact absurd (hevent.symm.trans hblocked) nofun
  · rw [hevent]
    exact nofun
  · rw [hevent]
    exact nofun

theorem Clear.quiet (he : r.Clear e) : r.Quiet e := by
  obtain ⟨s, t, hevent⟩ := he
  refine ⟨?_, ?_, ?_⟩
  · rintro ⟨s', t', hblocked⟩
    rw [hevent] at hblocked
    exact nomatch hblocked
  · rw [hevent]
    exact nofun
  · rw [hevent]
    exact nofun

theorem SawBlocked.snoc (h : r.SawBlocked es) (he : r.event e ≠ some .reset) :
    r.SawBlocked (es ++ [e]) := by
  obtain ⟨before, b, after, rfl, hb, hafter⟩ := h
  refine ⟨before, b, after ++ [e], by simp, hb, fun x hx => ?_⟩
  rcases List.mem_append.mp hx with hx | hx
  · exact hafter x hx
  · rw [List.mem_singleton.mp hx]
    exact he

theorem Counts.quiet (h : r.Counts es counted) (he : r.Quiet e) : r.Counts (es ++ [e]) counted := by
  obtain ⟨before, after, rfl, hquiet, hsub⟩ := h.since
  refine ⟨⟨before, after ++ [e], by simp, fun x hx => ?_, ?_⟩, h.clear, h.increasing⟩
  · rcases List.mem_append.mp hx with hx | hx
    · exact hquiet x hx
    · rw [List.mem_singleton.mp hx]
      exact he
  · exact hsub.trans (List.sublist_append_left _ _)

theorem Counts.nil (r : Recording ι T) (es : List ι) : r.Counts es [] :=
  ⟨⟨es, [], by simp, nofun, List.Sublist.refl _⟩, nofun, List.Pairwise.nil⟩

/-- A clear element of another costmap is counted. -/
theorem Counts.snoc (h : r.Counts es counted) (he : r.Clear e) (horder : r.InOrder (es ++ [e]))
    (hnew : counted.getLast?.map r.mapSeq ≠ some (r.mapSeq e)) :
    r.Counts (es ++ [e]) (counted ++ [e]) := by
  obtain ⟨before, after, rfl, hafter, hsub⟩ := h.since
  refine ⟨⟨before, after ++ [e], by simp, fun x hx => ?_, hsub.append (List.Sublist.refl _)⟩,
    fun x hx => ?_, ?_⟩
  · rcases List.mem_append.mp hx with hx | hx
    · exact hafter x hx
    · rw [List.mem_singleton.mp hx]
      exact he.quiet
  · rcases List.mem_append.mp hx with hx | hx
    · exact h.clear x hx
    · rw [List.mem_singleton.mp hx]
      exact he
  · have hle : ∀ x ∈ counted, r.mapSeq x ≤ r.mapSeq e := by
      intro x hx
      refine (List.pairwise_append.mp horder).2.2 x ?_ e (List.mem_singleton_self e)
        ⟨false, h.clear x hx⟩ ⟨false, he⟩
      exact List.mem_append_right _ (hsub.subset hx)
    refine List.pairwise_append.mpr ⟨h.increasing, List.pairwise_singleton _ _, ?_⟩
    rintro x hx _ hmem
    rw [List.mem_singleton.mp hmem]
    -- the last one counted is the largest, and of another costmap than `e`
    rcases List.eq_nil_or_concat counted with rfl | ⟨init, last, rfl⟩
    · exact absurd hx List.not_mem_nil
    · rw [List.concat_eq_append] at hx hnew hle h
      have hlast : r.mapSeq last < r.mapSeq e := by
        refine lt_of_le_of_ne (hle last (by simp)) fun heq => hnew ?_
        rw [List.getLast?_concat, Option.map_some, heq]
      rcases List.mem_append.mp hx with hx | hx
      · exact ((List.pairwise_append.mp h.increasing).2.2 x hx last (by simp)).trans hlast
      · rw [List.mem_singleton.mp hx]
        exact hlast

theorem Explains.init : r.Explains [] ClearanceTracker.init :=
  ⟨nofun, [], Counts.nil r [], rfl, rfl, rfl⟩

/-- What one element adds. -/
theorem Explains.play (h : r.Explains es tracker) (horder : r.InOrder (es ++ [e])) :
    r.Explains (es ++ [e]) (r.play tracker e) := by
  obtain ⟨hseen, counted, hcounts, hlength, hhead, hlast⟩ := h
  unfold Recording.play
  cases hevent : r.event e with
  | none =>
      refine ⟨fun hs => (hseen hs).snoc ?_, counted, hcounts.quiet (quiet_of_none hevent), hlength,
        hhead, hlast⟩
      rw [hevent]
      exact nofun
  | some event =>
      cases event with
      | invalidate =>
          refine ⟨fun hs => (hseen hs).snoc ?_, [], Counts.nil r _, rfl, rfl, rfl⟩
          rw [hevent]
          exact nofun
      | reset => exact ⟨nofun, [], Counts.nil r _, rfl, rfl, rfl⟩
      | observe blocked s t =>
          obtain ⟨rfl, rfl⟩ := r.observed e blocked s t hevent
          have hnoreset : r.event e ≠ some .reset := by
            rw [hevent]
            exact nofun
          cases blocked with
          | true =>
              refine ⟨fun _ => ⟨es, e, [], by simp, ⟨_, _, hevent⟩, nofun⟩, [],
                Counts.nil r _, rfl, rfl, rfl⟩
          | false =>
              have hclear : r.Clear e := ⟨_, _, hevent⟩
              simp only [ClearanceTracker.apply, ClearanceTracker.observe, Bool.false_eq_true,
                if_false]
              cases hb : tracker.seenBlocked with
              | false =>
                  refine ⟨fun hs => (hseen ?_).snoc hnoreset, counted, hcounts.quiet hclear.quiet,
                    hlength, hhead, hlast⟩
                  exact hs
              | true =>
                  have hsaw := (hseen hb).snoc hnoreset
                  simp only [Bool.not_true, Bool.false_eq_true, if_false]
                  by_cases hnew : tracker.lastCountedMap = some (r.mapSeq e)
                  · rw [if_neg (not_not.mpr hnew)]
                    refine ⟨fun _ => hsaw, counted, hcounts.quiet hclear.quiet, hlength, ?_, hlast⟩
                    cases counted with
                    | nil =>
                        rw [hnew] at hlast
                        exact nomatch hlast
                    | cons first rest =>
                        rw [← hhead]
                        rfl
                  · rw [if_pos hnew]
                    rw [← hlast] at hnew
                    refine ⟨fun _ => hsaw, counted ++ [e], hcounts.snoc hclear horder hnew, ?_, ?_, ?_⟩
                    · rw [List.length_append, hlength]
                      rfl
                    · rw [← hhead]
                      cases counted with
                      | nil => rfl
                      | cons first rest => rfl
                    · rw [List.getLast?_concat]
                      rfl

theorem Explains.run (horder : r.InOrder es) : r.Explains es (r.run es .init) := by
  induction es using List.reverseRecOn with
  | nil => exact Explains.init
  | append_singleton es e ih =>
      rw [Recording.run, List.foldl_append]
      exact (ih (List.pairwise_append.mp horder).1).play horder

/-- A history that shows a blocked path and, afterwards, clear observations of enough different
costmaps, the first of them early enough. -/
def ShowsClear [Sub T] [LE T] (r : Recording ι T) (es : List ι) (now clearDuration : T)
    (minClearMaps : Int) : Prop :=
  r.SawBlocked es ∧ ∃ counted, r.Counts es counted ∧ minClearMaps ≤ counted.length ∧
    ∃ first ∈ counted.head?, clearDuration ≤ now - r.time first

theorem Explains.showsClear [Sub T] [LE T] [DecidableLE T] (h : r.Explains es tracker)
    {now clearDuration : T} {minClearMaps : Int}
    (hclear : tracker.isClear now clearDuration minClearMaps = true) :
    r.ShowsClear es now clearDuration minClearMaps := by
  obtain ⟨hseen, counted, hcounts, hlength, hhead, -⟩ := h
  unfold ClearanceTracker.isClear at hclear
  cases hsince : tracker.clearSince with
  | none =>
      rw [hsince] at hclear
      exact nomatch hclear
  | some since =>
      rw [hsince] at hclear hhead
      obtain ⟨first, hfirst, rfl⟩ := Option.map_eq_some_iff.mp hhead
      obtain ⟨⟨hb, hduration⟩, hmaps⟩ : (tracker.seenBlocked = true ∧
          clearDuration ≤ now - r.time first) ∧ minClearMaps ≤ tracker.clearMaps := by
        simpa using hclear
      refine ⟨hseen hb, counted, hcounts, ?_, first, hfirst, hduration⟩
      rw [hlength]
      exact hmaps

end Recording

/-- A history of the tracker's own events. -/
def TrackerEvent.recording (T : Type*) [Zero T] : Recording (TrackerEvent T) T where
  event := some
  mapSeq
    | .observe _ mapSeq _ => mapSeq
    | .invalidate | .reset => 0
  time
    | .observe _ _ now => now
    | .invalidate | .reset => 0
  observed := by
    rintro e blocked s t heq
    obtain rfl := Option.some.inj heq
    exact ⟨rfl, rfl⟩

end MgRobot.BtPlugins
