import MgRobot.Lib.Rounding
import MgRobot.Lib.SortedSearch
import MgRobot.Slam.ExactHeading

/-!
# Time series

`input/time_series`: the sample next to a query time, and the interpolation of
odometry and GNSS samples. Every operation is rounded.
-/

namespace MgRobot.Slam

set_option autoImplicit false

open MgRobot.Lib MgRobot.Lib.SortedSearch MgRobot.Lib.Plane

/-- A fix with its geographic coordinates. -/
structure GeoGnssData (R : Type*) extends GnssData R where
  latitude : R
  longitude : R

section Definitions

variable {R T : Type*} [Field R] [LinearOrder R] (m : Numerics R) (r : Rounding R)

def nearestByTimestamp (items : List T) (timestamps : List R) (timestamp : R)
    (maxDt : Option R) : Option T :=
  if items.isEmpty || timestamps.isEmpty || items.length != timestamps.length then none
  else
    let idx := lowerBound timestamps timestamp
    let sample (i : Nat) : Option (T × R) :=
      (items[i]?).bind fun item => (timestamps[i]?).map fun s => (item, |r.fl (timestamp - s)|)
    let best :=
      if idx = 0 then sample 0
      else if timestamps.length ≤ idx then sample (timestamps.length - 1)
      else
        match sample (idx - 1), sample idx with
        | some prev, some next => if prev.2 ≤ next.2 then some prev else some next
        | _, _ => none
    best.bind fun b => if maxDt.any (fun dt => decide (dt < b.2)) then none else some b.1

/-- `prev + alpha * diff` -/
def advance (alpha prev diff : R) : R := r.fl (prev + r.fl (alpha * diff))

/-- `prev + alpha * (next - prev)` -/
def interpolate (alpha prev next : R) : R := advance r alpha prev (r.fl (next - prev))

/-- `core::angle_diff` -/
def roundedAngleDiff (a b : R) : R := m.normalizeAngle (r.fl (a - b))

def interpolateOdom (odomList : List (OdomData R)) (timestamps : List R) (timestamp : R) :
    Option (OdomData R) :=
  if odomList.isEmpty || timestamps.isEmpty || odomList.length != timestamps.length then none
  else
    let idx := lowerBound timestamps timestamp
    if idx = 0 then odomList[0]?
    else if odomList.length ≤ idx then odomList.getLast?
    else
      match odomList[idx - 1]?, odomList[idx]? with
      | some prev, some next =>
          let tSpan := r.fl (next.timestamp - prev.timestamp)
          if tSpan < r.fl (1 / 10 ^ 9) then some prev
          else
            let alpha := r.fl (r.fl (timestamp - prev.timestamp) / tSpan)
            some
              { timestamp := timestamp
                x := interpolate r alpha prev.x next.x
                y := interpolate r alpha prev.y next.y
                yaw := advance r alpha prev.yaw (roundedAngleDiff m r next.yaw prev.yaw) }
      | _, _ => none

def interpolateGnss (gnssList : List (GeoGnssData R)) (timestamps : List R) (timestamp : R)
    (maxDt : Option R) : Option (GeoGnssData R) :=
  if gnssList.isEmpty || timestamps.isEmpty || gnssList.length != timestamps.length then none
  else
    let idx := lowerBound timestamps timestamp
    let tooFar (s : R) : Bool := maxDt.any fun dt => decide (dt < |r.fl (timestamp - s)|)
    if idx = 0 then if timestamps[0]?.any tooFar then none else gnssList[0]?
    else if gnssList.length ≤ idx then
      if timestamps.getLast?.any tooFar then none else gnssList.getLast?
    else
      match gnssList[idx - 1]?, gnssList[idx]? with
      | some prev, some next =>
          let tSpan := r.fl (next.timestamp - prev.timestamp)
          if tSpan < r.fl (1 / 10 ^ 9) then some prev
          else if maxDt.any (fun dt => decide (dt < tSpan)) || tooFar prev.timestamp ||
              tooFar next.timestamp then none
          else
            let alpha := r.fl (r.fl (timestamp - prev.timestamp) / tSpan)
            some
              { timestamp := timestamp
                x := interpolate r alpha prev.x next.x
                y := interpolate r alpha prev.y next.y
                covariance := fun i j =>
                  interpolate r alpha (prev.covariance i j) (next.covariance i j)
                fixStatus := prev.fixStatus
                latitude := interpolate r alpha prev.latitude next.latitude
                longitude := interpolate r alpha prev.longitude next.longitude }
      | _, _ => none

end Definitions

section Nearest

variable {R T : Type*} [LinearOrder R]

/-- Sorted timestamps, one for each item. -/
structure Series (items : List T) (timestamps : List R) : Prop where
  sorted : timestamps.Pairwise (· ≤ ·)
  length : items.length = timestamps.length
  nonempty : items ≠ []

variable {items : List T} {timestamps : List R}

theorem Series.guard (h : Series items timestamps) :
    (items.isEmpty || timestamps.isEmpty || items.length != timestamps.length) = false := by
  have hpos := List.length_pos_iff.mpr h.nonempty
  have hts : timestamps ≠ [] := List.length_pos_iff.mp (h.length ▸ hpos)
  rw [List.isEmpty_eq_false_iff.mpr h.nonempty, List.isEmpty_eq_false_iff.mpr hts, h.length]
  simp

theorem Series.get (h : Series items timestamps) {i : Nat} (hi : i < timestamps.length) :
    ∃ item s, items[i]? = some item ∧ timestamps[i]? = some s :=
  ⟨_, _, List.getElem?_eq_getElem (h.length.symm ▸ hi), List.getElem?_eq_getElem hi⟩

variable [Field R] [IsStrictOrderedRing R]

omit [Field R] [IsStrictOrderedRing R] in
theorem bind_within (item : T) (dist maxDt : R) :
    ((some (item, dist)).bind fun b : T × R =>
      if (some maxDt).any (fun dt => decide (dt < b.2)) then none else some b.1) =
      if dist ≤ maxDt then some item else none := by
  by_cases hle : dist ≤ maxDt
  · simp [hle, not_lt_of_ge hle]
  · simp [hle, lt_of_not_ge hle]

/-- The answer is a sample at the least distance, if that is within `max_dt`. -/
theorem nearestByTimestamp_spec (r : Rounding R) (h : Series items timestamps)
    (timestamp maxDt : R) :
    ∃ (k : Nat) (item : T) (s : R), items[k]? = some item ∧ timestamps[k]? = some s ∧
      (∀ (j : Nat) (u : R), timestamps[j]? = some u →
        |r.fl (timestamp - s)| ≤ |r.fl (timestamp - u)|) ∧
      nearestByTimestamp r items timestamps timestamp (some maxDt) =
        if |r.fl (timestamp - s)| ≤ maxDt then some item else none := by
  have hpos : 0 < timestamps.length := h.length ▸ List.length_pos_iff.mpr h.nonempty
  unfold nearestByTimestamp
  rw [h.guard, if_neg Bool.false_ne_true]
  dsimp only
  by_cases h0 : lowerBound timestamps timestamp = 0
  · -- before the first sample
    obtain ⟨item, s, hi, hs⟩ := h.get hpos
    refine ⟨0, item, s, hi, hs, ?_, ?_⟩
    · exact fun j u hj =>
        r.abs_fl_le (abs_sub_le_of_lowerBound_le h.sorted h0.le hs (Nat.zero_le j) hj)
    · rw [if_pos h0, hi, hs]
      exact bind_within item _ maxDt
  · rw [if_neg h0]
    by_cases hn : timestamps.length ≤ lowerBound timestamps timestamp
    · -- after the last one
      obtain ⟨item, s, hi, hs⟩ := h.get (show timestamps.length - 1 < timestamps.length by omega)
      refine ⟨timestamps.length - 1, item, s, hi, hs, ?_, ?_⟩
      · intro j u hj
        have hjn := (List.getElem?_eq_some_iff.mp hj).1
        exact r.abs_fl_le (abs_sub_le_of_lt_lowerBound h.sorted (by omega) hs (by omega) hj)
      · rw [if_pos hn, hi, hs]
        exact bind_within item _ maxDt
    · rw [if_neg hn]
      obtain ⟨prev, p, hip, hsp⟩ := h.get
        (show lowerBound timestamps timestamp - 1 < timestamps.length by omega)
      obtain ⟨next, q, hin, hsn⟩ := h.get
        (show lowerBound timestamps timestamp < timestamps.length by omega)
      have hbefore : ∀ (j : Nat) (u : R), j < lowerBound timestamps timestamp →
          timestamps[j]? = some u → |r.fl (timestamp - p)| ≤ |r.fl (timestamp - u)| :=
        fun j u hj hu =>
          r.abs_fl_le (abs_sub_le_of_lt_lowerBound h.sorted (by omega) hsp (by omega) hu)
      have hafter : ∀ (j : Nat) (u : R), lowerBound timestamps timestamp ≤ j →
          timestamps[j]? = some u → |r.fl (timestamp - q)| ≤ |r.fl (timestamp - u)| :=
        fun j u hj hu => r.abs_fl_le (abs_sub_le_of_lowerBound_le h.sorted le_rfl hsn hj hu)
      rw [hip, hsp, hin, hsn]
      by_cases hle : |r.fl (timestamp - p)| ≤ |r.fl (timestamp - q)|
      · refine ⟨_, prev, p, hip, hsp, ?_, ?_⟩
        · intro j u hu
          rcases lt_or_ge j (lowerBound timestamps timestamp) with hj | hj
          · exact hbefore j u hj hu
          · exact hle.trans (hafter j u hj hu)
        · dsimp only [Option.bind_some, Option.map_some]
          rw [if_pos hle]
          exact bind_within prev _ maxDt
      · refine ⟨_, next, q, hin, hsn, ?_, ?_⟩
        · intro j u hu
          rcases lt_or_ge j (lowerBound timestamps timestamp) with hj | hj
          · exact (le_of_not_ge hle).trans (hbefore j u hj hu)
          · exact hafter j u hj hu
        · dsimp only [Option.bind_some, Option.map_some]
          rw [if_neg hle]
          exact bind_within next _ maxDt

end Nearest

section ExactQueries

variable {R : Type*} [Field R] [LinearOrder R] {m : Numerics R} {r : Rounding R}
  {odoms : List (OdomData R)} {gnss : List (GeoGnssData R)} {maxDt : R}

/-- `next` is `prev` and the rounded difference of the two. -/
def Recovers (r : Rounding R) (prev next : R) : Prop := r.fl (prev + r.fl (next - prev)) = next

instance (r : Rounding R) (prev next : R) : Decidable (Recovers r prev next) :=
  inferInstanceAs (Decidable (_ = _))

/-- The next sample of the odometry repeats this one, or is at least `1e-9` s later and recovered
from this one, its heading over the difference of the angles. -/
def OdomFollows (m : Numerics R) (r : Rounding R) (a b : OdomData R) : Prop :=
  if a.timestamp = b.timestamp then a = b
  else r.fl (1 / 10 ^ 9) ≤ r.fl (b.timestamp - a.timestamp) ∧
    Recovers r a.x b.x ∧ Recovers r a.y b.y ∧
      r.fl (a.yaw + r.fl (roundedAngleDiff m r b.yaw a.yaw)) = b.yaw

/-- The next fix repeats this one, or has the same status after a gap from `1e-9` s to `max_dt` and
is recovered from this one. -/
def GnssFollows (r : Rounding R) (maxDt : R) (a b : GeoGnssData R) : Prop :=
  if a.timestamp = b.timestamp then a = b
  else r.fl (1 / 10 ^ 9) ≤ r.fl (b.timestamp - a.timestamp) ∧
    r.fl (b.timestamp - a.timestamp) ≤ maxDt ∧ b.fixStatus = a.fixStatus ∧
      Recovers r a.x b.x ∧ Recovers r a.y b.y ∧
        (∀ i j, Recovers r (a.covariance i j) (b.covariance i j)) ∧
          Recovers r a.latitude b.latitude ∧ Recovers r a.longitude b.longitude

omit [Field R] in
theorem stamps_series {S : Type*} {stamp : S → R} {l : List S}
    (hs : (l.map stamp).Pairwise (· ≤ ·)) (hne : l ≠ []) : Series l (l.map stamp) :=
  ⟨hs, (List.length_map stamp).symm, hne⟩

omit [Field R] in
theorem lowerBound_first {S : Type*} {stamp : S → R} {l : List S} {b : S}
    (hs : (l.map stamp).Pairwise (· ≤ ·)) (hb : l[0]? = some b) :
    lowerBound (l.map stamp) (stamp b) = 0 :=
  lowerBound_eq hs (by rw [List.getElem?_map, hb]; rfl) le_rfl
    fun u h => absurd h (lt_irrefl 0)

omit [Field R] in
theorem lowerBound_next {S : Type*} {stamp : S → R} {l : List S} {i : Nat} {a b : S}
    (hs : (l.map stamp).Pairwise (· ≤ ·)) (ha : l[i]? = some a) (hb : l[i + 1]? = some b)
    (hlt : stamp a < stamp b) : lowerBound (l.map stamp) (stamp b) = i + 1 := by
  refine lowerBound_eq hs (by rw [List.getElem?_map, hb]; rfl) le_rfl fun u _ hu => ?_
  rw [Nat.add_sub_cancel, List.getElem?_map, ha] at hu
  obtain rfl := Option.some.inj hu
  exact hlt

/-- At the end of the interval the whole difference is added. -/
theorem advance_one (prev diff : R) : advance r 1 prev diff = r.fl (prev + r.fl diff) := by
  unfold advance
  rw [one_mul]

theorem interpolate_one (prev next : R) :
    interpolate r 1 prev next = r.fl (prev + r.fl (next - prev)) := by
  unfold interpolate
  rw [advance_one, r.idem]

/-- What `interpolate_odom` answers at the stamp of the later of two samples. -/
def odomBetween (m : Numerics R) (r : Rounding R) (a b : OdomData R) : Option (OdomData R) :=
  if r.fl (b.timestamp - a.timestamp) < r.fl (1 / 10 ^ 9) then some a
  else some
    { timestamp := b.timestamp
      x := interpolate r 1 a.x b.x
      y := interpolate r 1 a.y b.y
      yaw := advance r 1 a.yaw (roundedAngleDiff m r b.yaw a.yaw) }

theorem odomFollows_iff (a b : OdomData R) : OdomFollows m r a b ↔
    if a.timestamp = b.timestamp then a = b else odomBetween m r a b = some b := by
  unfold OdomFollows
  by_cases heq : a.timestamp = b.timestamp
  · rw [if_pos heq, if_pos heq]
  · rw [if_neg heq, if_neg heq]
    unfold odomBetween
    by_cases hspan : r.fl (b.timestamp - a.timestamp) < r.fl (1 / 10 ^ 9)
    · rw [if_pos hspan]
      refine iff_of_false (fun hc => absurd hspan (not_lt_of_ge hc.1)) fun hab => ?_
      exact heq (congrArg OdomData.timestamp (Option.some.inj hab))
    · rw [if_neg hspan, and_iff_right (le_of_not_gt hspan), Option.some.injEq]
      obtain ⟨t, x, y, yaw⟩ := b
      rw [OdomData.mk.injEq, interpolate_one, interpolate_one, advance_one]
      exact (and_iff_right rfl).symm

section Answers

variable [IsStrictOrderedRing R]

/-- Samples that are not too close are not at the same time, after rounding. -/
theorem span_pos {span : R} (h : ¬ span < r.fl (1 / 10 ^ 9)) : 0 < span :=
  (r.fl_pos (k := 30) (by omega) (by norm_num)).trans_le (le_of_not_gt h)

omit [IsStrictOrderedRing R] in
theorem interpolateOdom_first (hs : (odoms.map (·.timestamp)).Pairwise (· ≤ ·)) {b : OdomData R}
    (hb : odoms[0]? = some b) :
    interpolateOdom m r odoms (odoms.map (·.timestamp)) b.timestamp = some b := by
  have hne : odoms ≠ [] := by
    rintro rfl
    cases hb
  unfold interpolateOdom
  rw [(stamps_series hs hne).guard, if_neg Bool.false_ne_true]
  dsimp only
  rw [if_pos (lowerBound_first hs hb), hb]

theorem interpolateOdom_next (hs : (odoms.map (·.timestamp)).Pairwise (· ≤ ·)) {i : Nat}
    {a b : OdomData R} (ha : odoms[i]? = some a) (hb : odoms[i + 1]? = some b)
    (hlt : a.timestamp < b.timestamp) :
    interpolateOdom m r odoms (odoms.map (·.timestamp)) b.timestamp = odomBetween m r a b := by
  have hne : odoms ≠ [] := by
    rintro rfl
    cases ha
  have hi := (List.getElem?_eq_some_iff.mp hb).1
  unfold interpolateOdom odomBetween
  rw [(stamps_series hs hne).guard, if_neg Bool.false_ne_true]
  dsimp only
  rw [lowerBound_next hs ha hb hlt, if_neg (Nat.succ_ne_zero i), if_neg (not_le_of_gt hi),
    Nat.add_sub_cancel, ha, hb]
  dsimp only
  by_cases hspan : r.fl (b.timestamp - a.timestamp) < r.fl (1 / 10 ^ 9)
  · rw [if_pos hspan, if_pos hspan]
  · rw [if_neg hspan, if_neg hspan, div_self (span_pos hspan).ne', r.fl_one]

/-- What `interpolate_gnss` answers at the stamp of the later of two samples. -/
def gnssBetween (r : Rounding R) (maxDt : R) (a b : GeoGnssData R) : Option (GeoGnssData R) :=
  if r.fl (b.timestamp - a.timestamp) < r.fl (1 / 10 ^ 9) then some a
  else if maxDt < r.fl (b.timestamp - a.timestamp) then none
  else some
    { timestamp := b.timestamp
      x := interpolate r 1 a.x b.x
      y := interpolate r 1 a.y b.y
      covariance := fun i j => interpolate r 1 (a.covariance i j) (b.covariance i j)
      fixStatus := a.fixStatus
      latitude := interpolate r 1 a.latitude b.latitude
      longitude := interpolate r 1 a.longitude b.longitude }

omit [IsStrictOrderedRing R] in
theorem gnssBetween_iff {a b : GeoGnssData R} (hne : a.timestamp ≠ b.timestamp) :
    gnssBetween r maxDt a b = some b ↔ r.fl (1 / 10 ^ 9) ≤ r.fl (b.timestamp - a.timestamp) ∧
      r.fl (b.timestamp - a.timestamp) ≤ maxDt ∧ b.fixStatus = a.fixStatus ∧
        Recovers r a.x b.x ∧ Recovers r a.y b.y ∧
          (∀ i j, Recovers r (a.covariance i j) (b.covariance i j)) ∧
            Recovers r a.latitude b.latitude ∧ Recovers r a.longitude b.longitude := by
  unfold gnssBetween
  by_cases hspan : r.fl (b.timestamp - a.timestamp) < r.fl (1 / 10 ^ 9)
  · rw [if_pos hspan]
    refine iff_of_false ?_ fun hc => absurd hspan (not_lt_of_ge hc.1)
    intro heq
    exact hne (congrArg (fun g => g.timestamp) (Option.some.inj heq))
  · rw [if_neg hspan, and_iff_right (le_of_not_gt hspan)]
    by_cases hgap : maxDt < r.fl (b.timestamp - a.timestamp)
    · rw [if_pos hgap]
      exact iff_of_false nofun fun hc => absurd hgap (not_lt_of_ge hc.1)
    · rw [if_neg hgap, and_iff_right (le_of_not_gt hgap), Option.some.injEq]
      unfold Recovers
      simp only [interpolate_one]
      constructor
      · intro heq
        have hfield (field : GeoGnssData R → R) := congrArg field heq
        exact ⟨(congrArg (fun g => g.fixStatus) heq).symm, hfield fun g => g.x, hfield fun g => g.y,
          fun i j => hfield fun g => g.covariance i j, hfield fun g => g.latitude,
          hfield fun g => g.longitude⟩
      · intro h
        obtain ⟨⟨t, x, y, covariance, fixStatus⟩, latitude, longitude⟩ := b
        obtain ⟨hstatus, hx, hy, hc, hlat, hlon⟩ := h
        have hcovariance : _ = covariance := funext fun i => funext fun j => hc i j
        exact congr (congr (congrArg GeoGnssData.mk (by rw [hx, hy, hcovariance, ← hstatus])) hlat) hlon

omit [IsStrictOrderedRing R] in
theorem gnssFollows_iff (a b : GeoGnssData R) : GnssFollows r maxDt a b ↔
    if a.timestamp = b.timestamp then a = b else gnssBetween r maxDt a b = some b := by
  unfold GnssFollows
  by_cases heq : a.timestamp = b.timestamp
  · rw [if_pos heq, if_pos heq]
  · rw [if_neg heq, if_neg heq, gnssBetween_iff heq]

theorem interpolateGnss_first (hdt : 0 ≤ maxDt)
    (hs : (gnss.map (·.timestamp)).Pairwise (· ≤ ·)) {b : GeoGnssData R}
    (hb : gnss[0]? = some b) :
    interpolateGnss r gnss (gnss.map (·.timestamp)) b.timestamp (some maxDt) = some b := by
  have hne : gnss ≠ [] := by
    rintro rfl
    cases hb
  unfold interpolateGnss
  rw [(stamps_series hs hne).guard, if_neg Bool.false_ne_true]
  dsimp only
  rw [if_pos (lowerBound_first hs hb), List.getElem?_map, hb]
  simp [hdt]

theorem interpolateGnss_next (hdt : 0 ≤ maxDt)
    (hs : (gnss.map (·.timestamp)).Pairwise (· ≤ ·)) {i : Nat}
    {a b : GeoGnssData R} (ha : gnss[i]? = some a) (hb : gnss[i + 1]? = some b)
    (hlt : a.timestamp < b.timestamp) :
    interpolateGnss r gnss (gnss.map (·.timestamp)) b.timestamp (some maxDt) =
      gnssBetween r maxDt a b := by
  have hne : gnss ≠ [] := by
    rintro rfl
    cases ha
  have hi := (List.getElem?_eq_some_iff.mp hb).1
  unfold interpolateGnss gnssBetween
  rw [(stamps_series hs hne).guard, if_neg Bool.false_ne_true]
  dsimp only
  rw [lowerBound_next hs ha hb hlt, if_neg (Nat.succ_ne_zero i), if_neg (not_le_of_gt hi),
    Nat.add_sub_cancel, ha, hb]
  dsimp only
  by_cases hspan : r.fl (b.timestamp - a.timestamp) < r.fl (1 / 10 ^ 9)
  · rw [if_pos hspan, if_pos hspan]
  · have hpos := span_pos hspan
    rw [if_neg hspan, if_neg hspan, div_self hpos.ne', r.fl_one]
    simp only [abs_of_pos hpos, sub_self, r.fl_zero, abs_zero, Option.any_some, Bool.or_self,
      not_lt_of_ge hdt, decide_false, Bool.or_false, decide_eq_true_eq]

/-- The nearest sample is always found. A query at a stored stamp answers the sample, exactly if
every sample follows the one before it. -/
theorem exact_queries_iff {T : Type*} {items : List T} {timestamps : List R}
    (hitems : Series items timestamps) (hodoms : (odoms.map (·.timestamp)).Pairwise (· ≤ ·))
    (hgnss : (gnss.map (·.timestamp)).Pairwise (· ≤ ·)) (hdt : 0 ≤ maxDt) :
    ((∀ timestamp : R, ∃ (k : Nat) (item : T) (s : R),
        items[k]? = some item ∧ timestamps[k]? = some s ∧
        (∀ (j : Nat) (u : R), timestamps[j]? = some u →
          |r.fl (timestamp - s)| ≤ |r.fl (timestamp - u)|) ∧
        nearestByTimestamp r items timestamps timestamp (some maxDt) =
          if |r.fl (timestamp - s)| ≤ maxDt then some item else none) ∧
      (∀ o ∈ odoms, interpolateOdom m r odoms (odoms.map (·.timestamp)) o.timestamp = some o) ∧
      ∀ g ∈ gnss, interpolateGnss r gnss (gnss.map (·.timestamp)) g.timestamp (some maxDt) =
        some g) ↔
      odoms.IsChain (OdomFollows m r) ∧ gnss.IsChain (GnssFollows r maxDt) := by
  rw [and_iff_right fun timestamp => nearestByTimestamp_spec r hitems timestamp maxDt]
  refine and_congr ?_ ?_
  · rw [answers_at_stamps_iff
      (fun t => interpolateOdom m r odoms (odoms.map (·.timestamp)) t) (odomBetween m r) hodoms
      (fun b hb => interpolateOdom_first hodoms hb)
      (fun i a b ha hb hlt => interpolateOdom_next hodoms ha hb hlt)]
    exact ⟨fun hc => hc.imp fun a b => (odomFollows_iff a b).mpr,
      fun hc => hc.imp fun a b => (odomFollows_iff a b).mp⟩
  · rw [answers_at_stamps_iff
      (fun t => interpolateGnss r gnss (gnss.map (·.timestamp)) t (some maxDt))
      (gnssBetween r maxDt) hgnss
      (fun b hb => interpolateGnss_first hdt hgnss hb)
      (fun i a b ha hb hlt => interpolateGnss_next hdt hgnss ha hb hlt)]
    exact ⟨fun hc => hc.imp fun a b => (gnssFollows_iff a b).mpr,
      fun hc => hc.imp fun a b => (gnssFollows_iff a b).mp⟩

end Answers

/-- An RTK fix `t` metres along the axis at time `t`. -/
def fixAt (t : ℚ) : GeoGnssData ℚ := ⟨⟨t, t, 0, diag2 1 1, 2⟩, 0, 0⟩

/-- Odometry `x` metres along the axis at time `t`. -/
def odomAt (t x : ℚ) : OdomData ℚ := ⟨t, x, 0, 0⟩

/-- Without a gap that is too long, the fixes and the odometry are answered. -/
theorem exact_queries_iff_close :
    (∀ o ∈ [odomAt 0 (1 / 4), odomAt 1 (1 / 2), odomAt 2 (1 / 2)],
      interpolateOdom .axis .binary64 [odomAt 0 (1 / 4), odomAt 1 (1 / 2), odomAt 2 (1 / 2)]
        [0, 1, 2] o.timestamp = some o) ∧
    ∀ g ∈ [fixAt 0, fixAt 4],
      interpolateGnss .binary64 [fixAt 0, fixAt 4] [0, 4] g.timestamp (some 5) = some g := by
  have hodoms : [odomAt 0 (1 / 4), odomAt 1 (1 / 2), odomAt 2 (1 / 2)].IsChain
      (OdomFollows .axis .binary64) := by
    rw [List.isChain_cons_cons, List.isChain_pair]
    unfold OdomFollows
    decide +kernel
  have hgnss : [fixAt 0, fixAt 4].IsChain (GnssFollows .binary64 5) := by
    rw [List.isChain_pair]
    unfold GnssFollows
    rw [if_neg (by decide +kernel)]
    refine ⟨by decide +kernel, by decide +kernel, rfl, by decide +kernel, by decide +kernel,
      fun i j => ?_, by decide +kernel, by decide +kernel⟩
    fin_cases i <;> fin_cases j <;> decide +kernel
  have hiff := @exact_queries_iff ℚ _ _ .axis .binary64
    [odomAt 0 (1 / 4), odomAt 1 (1 / 2), odomAt 2 (1 / 2)] [fixAt 0, fixAt 4] 5 _ ℚ [0] [0]
    ⟨by decide +kernel, rfl, List.cons_ne_nil _ _⟩ (by decide +kernel) (by decide +kernel)
    (by norm_num)
  exact (hiff.mpr ⟨hodoms, hgnss⟩).2

/-- The fix at 20 s is not answered at 20 s, because the one before it is more than 5 s away; and
the double next to 0.9 is not recovered from the one next to 0.2. -/
theorem exact_hit_rejected :
    (∃ gnss : List (GeoGnssData ℚ), ∃ g ∈ gnss, (gnss.map (·.timestamp)).Pairwise (· ≤ ·) ∧
      interpolateGnss .binary64 gnss (gnss.map (·.timestamp)) g.timestamp (some 5) = none) ∧
    ∃ odoms : List (OdomData ℚ), ∃ o ∈ odoms, (odoms.map (·.timestamp)).Pairwise (· ≤ ·) ∧
      interpolateOdom .axis .binary64 odoms (odoms.map (·.timestamp)) o.timestamp ≠ some o := by
  refine ⟨⟨[fixAt 0, fixAt 20], fixAt 20, by simp, by decide +kernel, ?_⟩,
    [odomAt 0 (Rounding.toDouble (1 / 5)), odomAt 1 (Rounding.toDouble (9 / 10))],
    odomAt 1 (Rounding.toDouble (9 / 10)), by simp, by decide +kernel, by decide +kernel⟩
  have hnone : (interpolateGnss .binary64 [fixAt 0, fixAt 20] [0, 20] 20 (some 5)).isNone = true :=
    by decide +kernel
  exact Option.isNone_iff_eq_none.mp hnone

end ExactQueries

section ExactArithmetic

variable {m : Numerics ℝ}

/-- `angle_diff` is the difference itself for less than half a turn. -/
theorem Numerics.Exact.angleDiff_eq_iff (h : m.Exact) (a b : ℝ) :
    roundedAngleDiff m .exact a b = a - b ↔ -Real.pi < a - b ∧ a - b ≤ Real.pi := by
  have harg : roundedAngleDiff m .exact a b = heading (Real.cos (a - b), Real.sin (a - b)) := by
    unfold roundedAngleDiff Numerics.normalizeAngle
    rw [h.atan2, h.sin, h.cos]
    rfl
  have hz : (⟨Real.cos (a - b), Real.sin (a - b)⟩ : ℂ) =
      Complex.cos (a - b : ℝ) + Complex.sin (a - b : ℝ) * Complex.I := by
    rw [← Complex.ofReal_cos, ← Complex.ofReal_sin]
    exact Complex.mk_eq_add_mul_I _ _
  rw [harg]
  constructor
  · intro heq
    rw [← heq]
    exact Complex.arg_mem_Ioc _
  · intro hrange
    unfold heading
    rw [hz, Complex.arg_cos_add_sin_mul_I hrange]

/-- Without rounding only time and turn decide about the odometry. -/
theorem odomFollows_exact_iff (h : m.Exact) (a b : OdomData ℝ) : OdomFollows m .exact a b ↔
    if a.timestamp = b.timestamp then a = b
    else 1 / 10 ^ 9 ≤ b.timestamp - a.timestamp ∧ -Real.pi < b.yaw - a.yaw ∧
      b.yaw - a.yaw ≤ Real.pi := by
  have hrecovers (p q : ℝ) : Recovers .exact p q := add_sub_cancel p q
  unfold OdomFollows
  split
  · exact Iff.rfl
  · rw [and_iff_right (hrecovers _ _), and_iff_right (hrecovers _ _), ← h.angleDiff_eq_iff,
      eq_sub_iff_add_eq']
    exact Iff.rfl

/-- Without rounding every later fix is recovered. -/
theorem gnssFollows_exact_iff (maxDt : ℝ) (a b : GeoGnssData ℝ) : GnssFollows .exact maxDt a b ↔
    if a.timestamp = b.timestamp then a = b
    else 1 / 10 ^ 9 ≤ b.timestamp - a.timestamp ∧ b.timestamp - a.timestamp ≤ maxDt ∧
      b.fixStatus = a.fixStatus := by
  have hrecovers (p q : ℝ) : Recovers .exact p q := add_sub_cancel p q
  unfold GnssFollows
  split
  · exact Iff.rfl
  · refine and_congr_right fun _ => and_congr_right fun _ => and_iff_left ?_
    exact ⟨hrecovers _ _, hrecovers _ _, fun _ _ => hrecovers _ _, hrecovers _ _, hrecovers _ _⟩

end ExactArithmetic

end MgRobot.Slam
