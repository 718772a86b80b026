import Mathlib.Tactic.Linarith
import Mathlib.Algebra.Order.Floor.Ring
import MgRobot.Lib.Polyline
import MgRobot.BtPlugins.ArcTermination

/-!
# The resampled path covers the path ahead

`resamplePathAhead` walks the segments from the closest vertex on. On each it starts
again at offset zero, and it stops by the length it has travelled. The samples are
named by their arc lengths past the closest vertex: within a segment by the offsets,
over the segments by induction.
-/

namespace MgRobot.BtPlugins

set_option autoImplicit false

open MgRobot.Lib.Polyline

variable {R : Type*}

def Pose2D.position (p : Pose2D R) : R × R := (p.x, p.y)

/-- `distance` of positions. -/
def Cmath.apart [Field R] (m : Cmath R) (a b : R × R) : R := m.hypot (a.1 - b.1) (a.2 - b.2)

namespace PathClearanceChecker

variable [Field R] [LinearOrder R] [FloorRing R]

/-! ### The offsets on one segment -/

section Offsets

variable [IsStrictOrderedRing R] {step seg length travelled : R}

omit [FloorRing R] [IsStrictOrderedRing R] in
theorem offsets_of_ge {s : R} (h : seg ≤ s) (n : Nat) :
    offsets step seg length travelled n s = [] := by
  cases n with
  | zero => rfl
  | succ n => exact if_neg fun hlt => not_lt.mpr h hlt.1

omit [FloorRing R] in
/-- Rounds beyond the end of the segment add nothing. -/
theorem offsets_stop (n extra : Nat) :
    ∀ {s : R}, seg ≤ s + n * step →
      offsets step seg length travelled (n + extra) s = offsets step seg length travelled n s := by
  induction n with
  | zero =>
      intro s h
      rw [Nat.cast_zero, zero_mul, add_zero] at h
      rw [offsets_of_ge h, offsets_of_ge h]
  | succ n ih =>
      intro s h
      rw [Nat.succ_add, offsets, offsets, ih]
      push_cast at h
      linarith

omit [FloorRing R] in
theorem mem_offsets (hstep : 0 < step) (n : Nat) :
    ∀ {s e : R}, e ∈ offsets step seg length travelled n s →
      s ≤ e ∧ e < seg ∧ travelled + e ≤ length := by
  induction n with
  | zero =>
      intro s e h
      exact absurd h List.not_mem_nil
  | succ n ih =>
      intro s e h
      unfold offsets at h
      split at h
      next hin =>
        rcases List.mem_cons.mp h with rfl | h
        · exact ⟨le_rfl, hin⟩
        · obtain ⟨hle, hrest⟩ := ih h
          exact ⟨by linarith, hrest⟩
      next => exact absurd h List.not_mem_nil

omit [FloorRing R] in
theorem offsets_sorted (hstep : 0 < step) (n : Nat) :
    ∀ s : R, (offsets step seg length travelled n s).Pairwise (· ≤ ·) := by
  induction n with
  | zero => exact fun _ => List.Pairwise.nil
  | succ n ih =>
      intro s
      unfold offsets
      split
      next =>
        refine List.pairwise_cons.mpr ⟨fun e he => ?_, ih _⟩
        have hle := (mem_offsets hstep n he).1
        linarith
      next => exact List.Pairwise.nil

omit [FloorRing R] in
theorem offsets_cover (n : Nat) :
    ∀ {s u : R}, s ≤ u → u < seg → travelled + u ≤ length → u < s + n * step →
      ∃ e ∈ offsets step seg length travelled n s, e ≤ u ∧ u < e + step := by
  induction n with
  | zero =>
      intro s u hs _ _ hu
      rw [Nat.cast_zero, zero_mul, add_zero] at hu
      exact absurd hs (not_le.mpr hu)
  | succ n ih =>
      intro s u hs hseg hlength hu
      unfold offsets
      rw [if_pos ⟨by linarith, by linarith⟩]
      by_cases hnext : u < s + step
      · exact ⟨s, List.mem_cons_self, hs, hnext⟩
      · push_cast at hu
        obtain ⟨e, he, hcover⟩ := ih (not_lt.mp hnext) hseg hlength (by linarith)
        exact ⟨e, List.mem_cons_of_mem _ he, hcover⟩

theorem seg_le_rounds (hstep : 0 < step) : seg ≤ 0 + (⌈seg / step⌉.toNat : R) * step := by
  rw [zero_add]
  have hceil : seg / step ≤ (⌈seg / step⌉.toNat : R) := by
    calc seg / step ≤ (⌈seg / step⌉ : R) := Int.le_ceil _
      _ ≤ ((⌈seg / step⌉.toNat : ℤ) : R) := by exact_mod_cast Int.self_le_toNat _
      _ = (⌈seg / step⌉.toNat : R) := Int.cast_natCast _
  calc seg = seg / step * step := (div_mul_cancel₀ _ hstep.ne').symm
    _ ≤ (⌈seg / step⌉.toNat : R) * step := by gcongr

/-- The rounds that are modelled are all that the loop makes. -/
theorem offsets_rounds (hstep : 0 < step) (extra : Nat) :
    offsets step seg length travelled (⌈seg / step⌉.toNat + extra) 0 =
      offsets step seg length travelled ⌈seg / step⌉.toNat 0 :=
  offsets_stop _ extra (seg_le_rounds hstep)

end Offsets

/-! ### The segments -/

variable (m : Cmath R)

/-- No segment is skipped. -/
abbrev Spaced (path : List (Pose2D R)) : Prop :=
  path.IsChain fun a b => kMinSegment ≤ distance m a b

variable {m}

omit [FloorRing R] in
theorem Spaced.apart [IsStrictOrderedRing R] {path : List (Pose2D R)} (h : Spaced m path) :
    Apart m.apart (path.map Pose2D.position) := by
  refine (List.isChain_map _).mpr (h.imp fun a b hab => lt_of_lt_of_le ?_ hab)
  unfold kMinSegment
  positivity

theorem position_sampleSegment (step length travelled : R) (a b : Pose2D R) :
    (sampleSegment m step length travelled a b).map Pose2D.position =
      (offsets step (distance m a b) length travelled ⌈distance m a b / step⌉.toNat 0).map
        fun s => between a.position b.position (s / distance m a b) := by
  unfold sampleSegment
  rw [List.map_map]
  refine List.map_congr_left fun s _ => ?_
  simp only [Function.comp_apply, Pose2D.position, between, mul_div_assoc]

variable [IsStrictOrderedRing R] {step length : R}

omit [FloorRing R] [LinearOrder R] [IsStrictOrderedRing R] in
theorem distance_eq (a b : Pose2D R) : distance m a b = m.apart a.position b.position := rfl

/-- The samples from a vertex on, by their arc lengths past it. -/
theorem resampleSegments_covers (length : R) (hstep : 0 < step) :
    ∀ (path : List (Pose2D R)) (travelled : R), Spaced m path →
      ∃ arcs : List R,
        (resampleSegments m step length travelled path).1.map Pose2D.position =
          arcs.map (along m.apart (path.map Pose2D.position)) ∧
        arcs.Pairwise (· ≤ ·) ∧
        (∀ t ∈ arcs, 0 ≤ t ∧ t < arcLength m.apart (path.map Pose2D.position)) ∧
        ∀ t, 0 ≤ t → t < arcLength m.apart (path.map Pose2D.position) →
          travelled + t ≤ length → ∃ t' ∈ arcs, t' ≤ t ∧ t < t' + step
  | [], _, _ => ⟨[], rfl, List.Pairwise.nil, fun _ h => absurd h List.not_mem_nil,
      fun _ h0 h => absurd h0 (not_le.mpr h)⟩
  | [_], _, _ => ⟨[], rfl, List.Pairwise.nil, fun _ h => absurd h List.not_mem_nil,
      fun _ h0 h => absurd h0 (not_le.mpr h)⟩
  | a :: b :: rest, travelled, hspaced => by
      have hseg := (List.isChain_cons_cons.mp hspaced).1
      have htail := (List.isChain_cons_cons.mp hspaced).2
      have hnonneg := arcLength_nonneg (Spaced.apart htail)
      have hpos : 0 < distance m a b := (List.isChain_cons_cons.mp (Spaced.apart hspaced)).1
      have htotal : arcLength m.apart ((a :: b :: rest).map Pose2D.position) =
          distance m a b + arcLength m.apart ((b :: rest).map Pose2D.position) := rfl
      rw [htotal]
      unfold resampleSegments
      split
      next hwithin =>
        rw [if_neg (not_lt.mpr hseg)]
        obtain ⟨arcs, hpositions, hsorted, hrange, hcover⟩ :=
          resampleSegments_covers length hstep (b :: rest) (travelled + distance m a b) htail
        obtain ⟨first, hfirst⟩ : ∃ first, first = offsets step (distance m a b) length travelled
          ⌈distance m a b / step⌉.toNat 0 := ⟨_, rfl⟩
        have hmem : ∀ e ∈ first, 0 ≤ e ∧ e < distance m a b := by
          intro e he
          rw [hfirst] at he
          exact ⟨(mem_offsets hstep _ he).1, (mem_offsets hstep _ he).2.1⟩
        refine ⟨first ++ arcs.map (distance m a b + ·), ?_, ?_, ?_, ?_⟩
        · dsimp only
          rw [List.map_append, List.map_append, hpositions, position_sampleSegment, ← hfirst,
            List.map_map]
          congr 1
          · refine List.map_congr_left fun e he => ?_
            rw [distance_eq] at hmem ⊢
            exact (along_of_lt (hmem e he).2).symm
          · refine List.map_congr_left fun t ht => ?_
            have hle : m.apart a.position b.position ≤ distance m a b + t :=
              le_add_of_nonneg_right (hrange t ht).1
            simp only [Function.comp_apply, List.map_cons]
            rw [along_of_le hle, distance_eq, add_sub_cancel_left]
        · refine List.pairwise_append.mpr ⟨?_, ?_, ?_⟩
          · rw [hfirst]
            exact offsets_sorted hstep _ _
          · exact hsorted.map _ fun _ _ h => add_le_add_right h _
          · intro e he t ht
            obtain ⟨past, hpast, rfl⟩ := List.mem_map.mp ht
            have hlt := (hmem e he).2
            have hge := (hrange past hpast).1
            linarith
        · intro t ht
          rcases List.mem_append.mp ht with ht | ht
          · have hin := hmem t ht
            exact ⟨hin.1, by linarith⟩
          · obtain ⟨past, hpast, rfl⟩ := List.mem_map.mp ht
            have hin := hrange past hpast
            exact ⟨by linarith, by linarith⟩
        · intro t h0 hlt hlength
          by_cases hon : t < distance m a b
          · obtain ⟨e, he, hcovers⟩ := offsets_cover _ h0 hon hlength
              (lt_of_lt_of_le hon (seg_le_rounds hstep))
            exact ⟨e, List.mem_append_left _ (hfirst ▸ he), hcovers⟩
          · obtain ⟨t', ht', hle, hcovers⟩ := hcover (t - distance m a b)
              (by linarith) (by linarith) (by linarith)
            exact ⟨distance m a b + t', List.mem_append_right _ (List.mem_map_of_mem ht'),
              by linarith, by linarith⟩
      next hbeyond =>
        refine ⟨[], rfl, List.Pairwise.nil, fun _ h => absurd h List.not_mem_nil, ?_⟩
        intro t h0 _ hlength
        exact absurd (show travelled ≤ length by linarith) hbeyond

/-- The walk has come to the end of the path when it has not gone beyond the length. -/
theorem resampleSegments_total (step length : R) :
    ∀ (path : List (Pose2D R)) (travelled : R), Spaced m path →
      ((resampleSegments m step length travelled path).2 ≤ length ↔
        travelled + arcLength m.apart (path.map Pose2D.position) ≤ length)
  | [], travelled, _ => by rw [show travelled + arcLength m.apart ([].map Pose2D.position) =
      travelled from add_zero _]; rfl
  | [a], travelled, _ => by rw [show travelled + arcLength m.apart ([a].map Pose2D.position) =
      travelled from add_zero _]; rfl
  | a :: b :: rest, travelled, hspaced => by
      have hseg := (List.isChain_cons_cons.mp hspaced).1
      have htail := (List.isChain_cons_cons.mp hspaced).2
      have hnonneg := arcLength_nonneg (Spaced.apart hspaced)
      have htotal : arcLength m.apart ((a :: b :: rest).map Pose2D.position) =
          distance m a b + arcLength m.apart ((b :: rest).map Pose2D.position) := rfl
      unfold resampleSegments
      split
      next hwithin =>
        rw [if_neg (not_lt.mpr hseg), htotal, ← add_assoc]
        exact resampleSegments_total step length (b :: rest) (travelled + distance m a b) htail
      next hbeyond =>
        constructor
        · exact fun h => absurd h hbeyond
        · exact fun h => absurd (show travelled ≤ length by linarith) hbeyond

/-! ### The closest vertex -/

omit [FloorRing R] [IsStrictOrderedRing R] in
/-- How far along the path vertex `i` is. -/
def vertexArc (m : Cmath R) (path : List (Pose2D R)) (i : Nat) : R :=
  arcLength m.apart ((path.take (i + 1)).map Pose2D.position)

/-- Vertex `k` is the first of the nearest to the robot, among the first vertex and those within
the search distance along the path. -/
structure Nearest (m : Cmath R) (robotPose : Pose2D R) (searchDist : R) (path : List (Pose2D R))
    (k : Nat) : Prop where
  onPath : k < path.length
  inSearch : k = 0 ∨ vertexArc m path k ≤ searchDist
  nearest : ∀ i p q, path[k]? = some p → path[i]? = some q →
    (i = 0 ∨ vertexArc m path i ≤ searchDist) →
      distance m p robotPose ≤ distance m q robotPose ∧
        (i < k → distance m p robotPose < distance m q robotPose)

section Nearest

variable {robotPose : Pose2D R} {searchDist : R} {path : List (Pose2D R)}

omit [FloorRing R] [IsStrictOrderedRing R] [LinearOrder R] in
theorem vertexArc_succ {n : Nat} {p q : Pose2D R} (hp : path[n]? = some p)
    (hq : path[n + 1]? = some q) :
    vertexArc m path (n + 1) = vertexArc m path n + distance m p q := by
  unfold vertexArc
  rw [List.take_add_one (i := n + 1), hq, List.take_add_one (i := n), hp]
  simp only [Option.toList_some, List.map_append, List.map_cons, List.map_nil]
  exact arcLength_concat _ _ _

omit [FloorRing R] in
theorem vertexArc_mono (hspaced : Spaced m path) : Monotone (vertexArc m path) := by
  refine monotone_nat_of_le_succ fun n => ?_
  by_cases hn : n + 1 < path.length
  · rw [vertexArc_succ (List.getElem?_eq_getElem (Nat.lt_of_succ_lt hn))
      (List.getElem?_eq_getElem hn)]
    have hstep := List.isChain_iff_getElem.mp hspaced n hn
    have hmin : (0 : R) < kMinSegment := by
      unfold kMinSegment
      positivity
    linarith
  · unfold vertexArc
    rw [List.take_of_length_le (by omega : path.length ≤ n + 1),
      List.take_of_length_le (by omega : path.length ≤ n + 1 + 1)]

/-- The search has seen the first `n` vertices, and `k` is the best of them. -/
structure Best (m : Cmath R) (robotPose : Pose2D R) (searchDist : R) (path : List (Pose2D R))
    (n k : Nat) (best : R) : Prop where
  seen : k < n
  inSearch : ∀ i < n, i = 0 ∨ vertexArc m path i ≤ searchDist
  at_k : ∀ p, path[k]? = some p → best = distance m p robotPose
  nearest : ∀ i < n, ∀ q, path[i]? = some q →
    best ≤ distance m q robotPose ∧ (i < k → best < distance m q robotPose)

omit [FloorRing R] [IsStrictOrderedRing R] in
theorem Best.next {n k : Nat} {best : R} (h : Best m robotPose searchDist path n k best)
    {q : Pose2D R} (hq : path[n]? = some q) (hin : vertexArc m path n ≤ searchDist) :
    Best m robotPose searchDist path (n + 1)
      (if distance m q robotPose < best then n else k)
      (if distance m q robotPose < best then distance m q robotPose else best) := by
  have hsearch : ∀ i < n + 1, i = 0 ∨ vertexArc m path i ≤ searchDist := by
    intro i hi
    rcases Nat.lt_succ_iff_lt_or_eq.mp hi with hi | rfl
    · exact h.inSearch i hi
    · exact .inr hin
  have hseen := h.seen
  split
  next hbetter =>
    refine ⟨Nat.lt_succ_self n, hsearch, fun p hp => ?_, fun i hi p hp => ?_⟩
    · rw [hq] at hp
      rw [Option.some.inj hp]
    · rcases Nat.lt_succ_iff_lt_or_eq.mp hi with hi | rfl
      · have hlt := lt_of_lt_of_le hbetter (h.nearest i hi p hp).1
        exact ⟨hlt.le, fun _ => hlt⟩
      · rw [hq] at hp
        rw [Option.some.inj hp]
        exact ⟨le_rfl, fun hlt => absurd hlt (lt_irrefl _)⟩
  next hworse =>
    refine ⟨by omega, hsearch, h.at_k, fun i hi p hp => ?_⟩
    rcases Nat.lt_succ_iff_lt_or_eq.mp hi with hi | rfl
    · exact h.nearest i hi p hp
    · rw [hq] at hp
      rw [← Option.some.inj hp]
      exact ⟨not_lt.mp hworse, fun hlt => by omega⟩

omit [FloorRing R] [IsStrictOrderedRing R] in
/-- No vertex beyond the first `n` is in the search. -/
theorem Best.done {n k : Nat} {best : R} (h : Best m robotPose searchDist path n k best)
    (hn : n ≤ path.length)
    (hrest : ∀ i, n ≤ i → i < path.length → searchDist < vertexArc m path i) (hpos : 0 < n) :
    Nearest m robotPose searchDist path k := by
  have hseen := h.seen
  refine ⟨by omega, h.inSearch k hseen, fun i p q hp hq hin => ?_⟩
  have hi : i < n := by
    by_contra hge
    have hlt := hrest i (not_lt.mp hge) (List.getElem?_eq_some_iff.mp hq).1
    rcases hin with rfl | hin
    · omega
    · exact absurd hin (not_le.mpr hlt)
  rw [← h.at_k p hp]
  exact h.nearest i hi q hq

omit [FloorRing R] in
theorem closestFrom_nearest (hspaced : Spaced m path) :
    ∀ (rest : List (Pose2D R)) {n k : Nat} {best : R} {p : Pose2D R},
      path.drop (n + 1) = rest → path[n]? = some p →
      Best m robotPose searchDist path (n + 1) k best →
      Nearest m robotPose searchDist path
        (closestFrom m robotPose searchDist (n + 1) (some p) (vertexArc m path n)
          (k, some best) rest)
  | [], n, k, best, p, hdrop, hp, hbest => by
      have hlength := List.drop_eq_nil_iff.mp hdrop
      have hn := (List.getElem?_eq_some_iff.mp hp).1
      exact hbest.done hn (fun i hle hlt => by omega) (Nat.succ_pos n)
  | q :: rest, n, k, best, p, hdrop, hp, hbest => by
      have hq : path[n + 1]? = some q := by
        rw [← List.head?_drop, hdrop]
        rfl
      have hn := (List.getElem?_eq_some_iff.mp hp).1
      unfold closestFrom
      dsimp only
      rw [← vertexArc_succ hp hq]
      split
      next hbeyond =>
        refine hbest.done hn (fun i hle hlt => ?_) (Nat.succ_pos n)
        exact lt_of_lt_of_le hbeyond.2 (vertexArc_mono hspaced hle)
      next hwithin =>
        have hin : vertexArc m path (n + 1) ≤ searchDist :=
          not_lt.mp fun hlt => hwithin ⟨rfl, hlt⟩
        have hnext := hbest.next hq hin
        have htail : path.drop (n + 1 + 1) = rest := by
          rw [← List.drop_drop, hdrop]
          rfl
        split
        next hbetter =>
          rw [if_pos hbetter, if_pos hbetter] at hnext
          exact closestFrom_nearest hspaced rest htail hq hnext
        next hworse =>
          rw [if_neg hworse, if_neg hworse] at hnext
          exact closestFrom_nearest hspaced rest htail hq hnext

end Nearest

omit [FloorRing R] in
theorem closestIndex_nearest (c : PathClearanceChecker R) (robotPose : Pose2D R)
    {path : List (Pose2D R)} (hspaced : Spaced m path) (hne : path ≠ []) :
    Nearest m robotPose c.params.maxRobotPoseSearchDist path (c.closestIndex m robotPose path) := by
  obtain ⟨p, rest, rfl⟩ := List.exists_cons_of_ne_nil hne
  have hfirst : vertexArc m (p :: rest) 0 = 0 := rfl
  have hloop : c.closestIndex m robotPose (p :: rest) =
      closestFrom m robotPose c.params.maxRobotPoseSearchDist 1 (some p)
        (vertexArc m (p :: rest) 0) (0, some (distance m p robotPose)) rest := by
    rw [hfirst]
    unfold closestIndex
    rw [closestFrom]
    exact if_neg fun h => Bool.false_ne_true h.1
  rw [hloop]
  refine closestFrom_nearest hspaced rest rfl rfl ⟨Nat.one_pos, ?_, ?_, ?_⟩
  · exact fun i hi => .inl (Nat.lt_one_iff.mp hi)
  · intro q hq
    rw [← Option.some.inj hq]
  · intro i hi q hq
    obtain rfl := Nat.lt_one_iff.mp hi
    rw [← Option.some.inj hq]
    exact ⟨le_rfl, fun hlt => absurd hlt (lt_irrefl 0)⟩

/-! ### The whole list -/

omit [FloorRing R] [IsStrictOrderedRing R] in
theorem position_lastPose (path : List (Pose2D R)) (last : Pose2D R) :
    (lastPose m path last).position = last.position := by
  unfold lastPose
  split
  · rfl
  · split
    · rfl
    · rfl

theorem resamplePathAhead_covers (c : PathClearanceChecker R) (robotPose : Pose2D R)
    {path : List (Pose2D R)} (hspaced : Spaced m path) (hne : path ≠ []) (hlength : 0 ≤ length)
    (hresolution : 0 < c.costmap.resolution) :
    Covers m.apart ((path.drop (c.closestIndex m robotPose path)).map Pose2D.position) length
      c.costmap.resolution
      ((c.resamplePathAhead m robotPose path length).map Pose2D.position) := by
  obtain ⟨ahead, hahead⟩ : ∃ ahead, ahead = path.drop (c.closestIndex m robotPose path) := ⟨_, rfl⟩
  have haheadNe : ahead ≠ [] := by
    rw [hahead]
    exact fun h => absurd (List.drop_eq_nil_iff.mp h)
      (not_le.mpr (c.closestIndex_nearest robotPose hspaced hne).onPath)
  have haheadSpaced : Spaced m ahead := hahead ▸ hspaced.drop _
  have hapart := haheadSpaced.apart
  have hlast : path.getLast? = some (ahead.getLast haheadNe) := by
    rw [← List.getLast?_eq_some_getLast haheadNe, hahead, List.getLast?_drop, if_neg]
    exact not_le.mpr (c.closestIndex_nearest robotPose hspaced hne).onPath
  have htotal := resampleSegments_total c.costmap.resolution length ahead 0 haheadSpaced
  rw [zero_add] at htotal
  obtain ⟨arcs, hpositions, hsorted, hrange, hcover⟩ :=
    resampleSegments_covers length hresolution ahead 0 haheadSpaced
  unfold resamplePathAhead
  rw [hlast, ← hahead]
  dsimp only
  obtain ⟨total, htot⟩ : ∃ total, total = arcLength m.apart (ahead.map Pose2D.position) := ⟨_, rfl⟩
  have hnonneg : 0 ≤ total := htot ▸ arcLength_nonneg hapart
  rw [← htot] at hrange hcover htotal
  split
  next hend =>
    -- also where nothing was sampled the end is within the length
    have hwithin : total ≤ length := by
      rcases hend with hend | hend
      · exact htotal.mp hend
      · by_contra hlt
        obtain ⟨t', ht', _⟩ := hcover 0 le_rfl (by linarith) (by linarith)
        rw [hend] at hpositions
        have hnil := List.map_eq_nil_iff.mp hpositions.symm
        rw [hnil] at ht'
        exact absurd ht' List.not_mem_nil
    refine ⟨arcs ++ [total], ?_, ?_, ?_, ?_⟩
    · rw [List.map_append, List.map_append, hpositions]
      congr 1
      simp only [List.map_cons, List.map_nil]
      rw [position_lastPose, htot, along_arcLength (by simpa using haheadNe) hapart,
        List.getLast_map]
    · refine List.pairwise_append.mpr ⟨hsorted, List.pairwise_singleton _ _, fun t ht e he => ?_⟩
      rw [List.mem_singleton.mp he]
      exact (hrange t ht).2.le
    · intro t ht
      rcases List.mem_append.mp ht with ht | ht
      · exact ⟨(hrange t ht).1, htot ▸ (hrange t ht).2.le⟩
      · rw [List.mem_singleton.mp ht]
        exact ⟨hnonneg, htot.le⟩
    · intro t h0 hle
      have hreach := (le_min_iff.mp hle).1
      have hpath := (le_min_iff.mp hle).2
      rw [← htot] at hpath
      rcases lt_or_eq_of_le hpath with hlt | rfl
      · obtain ⟨t', ht', hbefore, hafter⟩ := hcover t h0 hlt (by linarith)
        refine ⟨t', List.mem_append_left _ ht', abs_le.mpr ⟨?_, ?_⟩⟩
        · linarith
        · linarith
      · refine ⟨t, List.mem_append_right _ (List.mem_singleton.mpr rfl), ?_⟩
        rw [sub_self, abs_zero]
        exact hresolution.le
  next hmore =>
    have hbeyond : length < total := not_le.mp fun hle => hmore (.inl (htotal.mpr hle))
    refine ⟨arcs, hpositions, hsorted, ?_, ?_⟩
    · exact fun t ht => ⟨(hrange t ht).1, htot ▸ (hrange t ht).2.le⟩
    · intro t h0 hle
      have hreach := (le_min_iff.mp hle).1
      obtain ⟨t', ht', hbefore, hafter⟩ := hcover t h0 (by linarith) (by linarith)
      refine ⟨t', ht', abs_le.mpr ⟨?_, ?_⟩⟩
      · linarith
      · linarith

omit [FloorRing R] [IsStrictOrderedRing R] in
theorem resamplePathAhead_ne_nil [FloorRing R] (c : PathClearanceChecker R) (robotPose : Pose2D R)
    {path : List (Pose2D R)} (hne : path ≠ []) :
    c.resamplePathAhead m robotPose path length ≠ [] := by
  unfold resamplePathAhead
  rw [List.getLast?_eq_some_getLast hne]
  dsimp only
  split
  next => exact List.append_ne_nil_of_right_ne_nil _ (List.cons_ne_nil _ _)
  next h => exact fun hnil => h (.inr hnil)

/-- With exact distances, the poses cover the path from the nearest vertex on. -/
theorem resampled_path_covers (c : PathClearanceChecker ℝ) (robotPose : Pose2D ℝ)
    (path : List (Pose2D ℝ)) (length : ℝ)
    (hspaced : path.IsChain fun a b => kMinSegment ≤ distance Cmath.exact a b) (hne : path ≠ [])
    (hlength : 0 ≤ length) (hresolution : 0 < c.costmap.resolution) :
    c.resamplePathAhead Cmath.exact robotPose path length ≠ [] ∧
      Nearest Cmath.exact robotPose c.params.maxRobotPoseSearchDist path
        (c.closestIndex Cmath.exact robotPose path) ∧
      Covers Cmath.exact.apart
        ((path.drop (c.closestIndex Cmath.exact robotPose path)).map Pose2D.position) length
        c.costmap.resolution
        ((c.resamplePathAhead Cmath.exact robotPose path length).map Pose2D.position) :=
  ⟨c.resamplePathAhead_ne_nil robotPose hne, c.closestIndex_nearest robotPose hspaced hne,
    c.resamplePathAhead_covers robotPose hspaced hne hlength hresolution⟩

section Hook

/-- A metre ahead, a metre to the left, and a jump of four metres. -/
def hookPath : List (Pose2D ℝ) := [⟨0, 2, 0⟩, ⟨1, 2, 0⟩, ⟨1, 3, 0⟩, ⟨5, 3, 0⟩]

/-- Cells of 5 cm, and a search over ten metres. -/
noncomputable def hookChecker : PathClearanceChecker ℝ :=
  ⟨⟨100, 100, 5 / 100, 0, 0, fun _ => 0⟩, ⟨[⟨1, 0⟩, ⟨0, 1⟩, ⟨-1, 0⟩], le_rfl⟩,
    ⟨false, 1, 1, 1, false, 1, 10, true, 0⟩⟩

theorem distance_exact_pos {p q : Pose2D ℝ} (h : p.x ≠ q.x ∨ p.y ≠ q.y) :
    0 < distance Cmath.exact p q := by
  refine Real.sqrt_pos.mpr ?_
  rcases h with h | h
  · exact add_pos_of_pos_of_nonneg (mul_self_pos.mpr (sub_ne_zero.mpr h)) (mul_self_nonneg _)
  · exact add_pos_of_nonneg_of_pos (mul_self_nonneg _) (mul_self_pos.mpr (sub_ne_zero.mpr h))

theorem distance_exact_along_x (x x' y t t' : ℝ) :
    distance Cmath.exact ⟨x, y, t⟩ ⟨x', y, t'⟩ = |x - x'| := by
  show Real.sqrt ((x - x') * (x - x') + (y - y) * (y - y)) = |x - x'|
  rw [sub_self, mul_zero, add_zero, Real.sqrt_mul_self_eq_abs]

theorem distance_exact_along_y (x y y' t t' : ℝ) :
    distance Cmath.exact ⟨x, y, t⟩ ⟨x, y', t'⟩ = |y - y'| := by
  show Real.sqrt ((x - x) * (x - x) + (y - y') * (y - y')) = |y - y'|
  rw [sub_self, mul_zero, zero_add, Real.sqrt_mul_self_eq_abs]

theorem hookPath_spaced :
    hookPath.IsChain fun a b => kMinSegment ≤ distance Cmath.exact a b := by
  refine .cons_cons ?_ (.cons_cons ?_ (.cons_cons ?_ (.singleton _)))
  · rw [distance_exact_along_x]
    norm_num [kMinSegment]
  · rw [distance_exact_along_y]
    norm_num [kMinSegment]
  · rw [distance_exact_along_x]
    norm_num [kMinSegment]

/-- Only the second vertex is where the robot is. -/
theorem eq_one_of_nearest {k : Nat} (h : Nearest Cmath.exact ⟨1, 2, 0⟩ 10 hookPath k) : k = 1 := by
  have harc : vertexArc Cmath.exact hookPath 1 ≤ 10 := by
    have hzero : vertexArc Cmath.exact hookPath 0 = 0 := arcLength_singleton
    rw [vertexArc_succ (n := 0) rfl rfl, hzero, zero_add, distance_exact_along_x]
    norm_num
  have hhere : distance Cmath.exact ⟨1, 2, 0⟩ ⟨1, 2, 0⟩ = 0 := by
    rw [distance_exact_along_x, sub_self, abs_zero]
  have hnot {p : Pose2D ℝ} (hp : hookPath[k]? = some p) (hne : p.x ≠ 1 ∨ p.y ≠ 2) : False := by
    have hle := (h.nearest 1 p ⟨1, 2, 0⟩ hp rfl (.inr harc)).1
    rw [hhere] at hle
    exact absurd (distance_exact_pos hne) (not_lt.mpr hle)
  have hlt : k < 4 := h.onPath
  obtain rfl | rfl | rfl | rfl : k = 0 ∨ k = 1 ∨ k = 2 ∨ k = 3 := by omega
  · exact (hnot rfl (.inl zero_ne_one)).elim
  · rfl
  · exact (hnot rfl (.inr (by norm_num))).elim
  · exact (hnot rfl (.inl (by norm_num))).elim

/-- The samples run from the second vertex into the jump. -/
theorem resampled_path_covers_hook :
    let c := hookChecker
    c.closestIndex Cmath.exact ⟨1, 2, 0⟩ hookPath = 1 ∧
      c.resamplePathAhead Cmath.exact ⟨1, 2, 0⟩ hookPath 3 ≠ [] ∧
      Nearest Cmath.exact ⟨1, 2, 0⟩ 10 hookPath 1 ∧
      Covers Cmath.exact.apart [(1, 2), (1, 3), (5, 3)] 3 (5 / 100)
        ((c.resamplePathAhead Cmath.exact ⟨1, 2, 0⟩ hookPath 3).map Pose2D.position) := by
  intro c
  obtain ⟨hne, hnearest, hcovers⟩ := resampled_path_covers c ⟨1, 2, 0⟩ hookPath 3 hookPath_spaced
    (List.cons_ne_nil _ _) zero_le_three (by norm_num [c, hookChecker])
  have hone := eq_one_of_nearest hnearest
  rw [hone] at hnearest hcovers
  exact ⟨hone, hne, hnearest, hcovers⟩

end Hook

end PathClearanceChecker

end MgRobot.BtPlugins
