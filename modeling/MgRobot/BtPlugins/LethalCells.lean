import MgRobot.BtPlugins.FootprintEdges
import MgRobot.BtPlugins.ResampleCoverage

/-!
# Lethal cells under the footprint

The result is blocked exactly when one of the poses that the checker tests is in
collision, and those poses do not depend on the costs. Cells that become lethal
never clear a pose. A lethal cell under an edge does not always block: where
unknown space is tracked, an unknown cell on an earlier edge hides it.
-/

namespace MgRobot.BtPlugins

set_option autoImplicit false

namespace PathClearanceChecker

variable {R : Type*} [Field R] [LinearOrder R] [FloorRing R] {m : Cmath R} {line : LineIterator}
  {c : PathClearanceChecker R}

/-! ### One pose -/

/-- The footprint at a pose. -/
def outline (m : Cmath R) (c : PathClearanceChecker R) (p : Pose2D R) : List (Point R) :=
  orient m p.x p.y p.theta c.footprint.points

def edges (m : Cmath R) (line : LineIterator) (c : PathClearanceChecker R) (p : Pose2D R) :
    List (List Cell) :=
  c.costmap.edges line (c.outline m p)

def InMap (c : PathClearanceChecker R) (p : Pose2D R) : Prop :=
  (c.costmap.worldToMap p.x p.y).isSome

/-- An edge of the footprint crosses a lethal cell. -/
def CrossesLethal (m : Cmath R) (line : LineIterator) (c : PathClearanceChecker R)
    (p : Pose2D R) : Prop :=
  ∃ e ∈ c.edges m line p, c.costmap.HasCost LETHAL_OBSTACLE e

/-- What makes a pose in the map a collision: a vertex outside the map; or the first edge that has
lethal or unknown cells has a lethal one; or an unknown cell where unknown space is not tracked. -/
def Noticed (m : Cmath R) (line : LineIterator) (c : PathClearanceChecker R)
    (p : Pose2D R) : Prop :=
  c.costmap.VertexOutside (c.outline m p) ∨ c.costmap.lethalFirst (c.edges m line p) = true ∨
    (c.params.trackUnknownSpace = false ∧
      ∃ e ∈ c.edges m line p, c.costmap.HasCost NO_INFORMATION e)

omit [LinearOrder R] [FloorRing R] in
theorem outline_ne_nil (c : PathClearanceChecker R) (p : Pose2D R) : c.outline m p ≠ [] := by
  intro hnil
  have hthree := c.footprint.three
  rw [List.map_eq_nil_iff.mp hnil] at hthree
  exact absurd hthree (Nat.not_succ_le_zero 2)

theorem inCollision_iff (p : Pose2D R) :
    c.inCollision m line p = true ↔ c.InMap p ∧ c.Noticed m line p := by
  have hcost : footprintCostAtPose m line c.costmap c.footprint p.x p.y p.theta =
    c.costmap.footprintCost line (c.outline m p) := rfl
  unfold inCollision InMap
  cases hmap : c.costmap.worldToMap p.x p.y with
  | none => simp
  | some cell =>
      rw [hcost]
      simp only [Option.isSome_some, true_and]
      unfold Noticed
      by_cases hout : c.costmap.VertexOutside (c.outline m p)
      · rw [Costmap2D.footprintCost_outside hout]
        exact iff_of_true rfl (.inl hout)
      · rw [or_iff_right hout]
        rcases Costmap2D.footprintCost_cases line (c.outline_ne_nil p) hout with
          ⟨hfirst, hcost⟩ | ⟨hfirst, hunknown, hcost⟩ | ⟨hfirst, hknown, hcost⟩
        · rw [hcost]
          exact iff_of_true rfl (.inl hfirst)
        · rw [hcost, edges, hfirst]
          cases htrack : c.params.trackUnknownSpace with
          | true => simp
          | false =>
              exact iff_of_true rfl (.inr ⟨rfl, hunknown⟩)
        · have hne : c.costmap.footprintCost line (c.outline m p) ≠ NO_INFORMATION :=
            (lt_trans hcost (by decide)).ne
          rw [if_neg fun h => hne h.1, edges, hfirst]
          refine iff_of_false (by simpa using hcost) ?_
          rintro (h | ⟨_, h⟩)
          · cases h
          · exact hknown h

/-- With no unknown cell under the footprint, or unknown space not tracked, no lethal cell is
overlooked. -/
theorem CrossesLethal.noticed {p : Pose2D R} (h : c.CrossesLethal m line p)
    (hknown : c.params.trackUnknownSpace = false ∨
      ¬ ∃ e ∈ c.edges m line p, c.costmap.HasCost NO_INFORMATION e) :
    c.Noticed m line p := by
  by_cases hunknown : ∃ e ∈ c.edges m line p, c.costmap.HasCost NO_INFORMATION e
  · exact .inr (.inr ⟨hknown.resolve_right (not_not_intro hunknown), hunknown⟩)
  · exact .inr (.inl (Costmap2D.lethalFirst_of_not_unknown h hunknown))

/-! ### Cells raised to lethal -/

def raise (c : PathClearanceChecker R) (cells : Cell → Bool) : PathClearanceChecker R :=
  { c with costmap := c.costmap.raise cells }

variable {cells : Cell → Bool}

theorem edges_raise (p : Pose2D R) : (c.raise cells).edges m line p = c.edges m line p := by
  have hfrom : ∀ (start q : Point R) (rest : List (Point R)),
      (c.costmap.raise cells).edgesFrom line start q rest =
        c.costmap.edgesFrom line start q rest := by
    intro start q rest
    induction rest generalizing q with
    | nil => rfl
    | cons r rest ih =>
        rw [Costmap2D.edgesFrom, ih]
        rfl
  unfold edges
  show Costmap2D.edges (c.costmap.raise cells) line (c.outline m p) = _
  cases c.outline m p with
  | nil => rfl
  | cons q rest => exact hfrom q q rest

theorem Noticed.raise {p : Pose2D R} (h : c.Noticed m line p) :
    (c.raise cells).Noticed m line p := by
  unfold Noticed
  rw [edges_raise]
  rcases h with hout | hfirst | ⟨htrack, e, he, hunknown⟩
  · exact .inl hout
  · exact .inr (.inl (Costmap2D.lethalFirst_raise hfirst))
  · by_cases hany : ∃ e ∈ c.edges m line p, (c.costmap.raise cells).HasCost NO_INFORMATION e
    · exact .inr (.inr ⟨htrack, hany⟩)
    · refine .inr (.inl (Costmap2D.lethalFirst_of_not_unknown ⟨e, he, ?_⟩ hany))
      exact hunknown.raise_unknown.resolve_right fun hstill => hany ⟨e, he, hstill⟩

theorem inCollision_raise {p : Pose2D R} (h : c.inCollision m line p = true) :
    (c.raise cells).inCollision m line p = true := by
  rw [inCollision_iff] at h ⊢
  exact ⟨h.1, h.2.raise⟩

/-! ### The motion to a carrot -/

/-- The loop along the arc has left the range of the carrot in round `n`. -/
def ArcOut (m : Cmath R) (robotPose : Pose2D R) (step curvature carrotDist : R) (pose : Pose2D R)
    (n : Nat) : Prop :=
  carrotDist < distance m ((advance m step curvature)^[n + 1] pose) robotPose

section Arc

variable {robotPose : Pose2D R} {step curvature carrotDist : R}

theorem arcBlocked_true {fuel : Nat} : ∀ {pose : Pose2D R},
    c.arcBlocked m line robotPose step curvature carrotDist fuel pose = some true →
    ∃ n, (∀ j ≤ n, ¬ ArcOut m robotPose step curvature carrotDist pose j) ∧
      c.inCollision m line ((advance m step curvature)^[n + 1] pose) = true := by
  induction fuel with
  | zero =>
      intro pose h
      cases h
  | succ fuel ih =>
      intro pose h
      unfold arcBlocked at h
      dsimp only at h
      split at h
      next => cases h
      next hin =>
        split at h
        next hhit =>
          refine ⟨0, fun j hj => ?_, hhit⟩
          rw [Nat.le_zero.mp hj]
          exact hin
        next =>
          obtain ⟨n, hwithin, hhit⟩ := ih h
          refine ⟨n + 1, fun j hj => ?_, hhit⟩
          cases j with
          | zero => exact hin
          | succ j => exact hwithin j (Nat.le_of_succ_le_succ hj)

theorem arcBlocked_false {fuel : Nat} : ∀ {pose : Pose2D R},
    c.arcBlocked m line robotPose step curvature carrotDist fuel pose = some false →
    ∃ n, ArcOut m robotPose step curvature carrotDist pose n := by
  induction fuel with
  | zero =>
      intro pose h
      cases h
  | succ fuel ih =>
      intro pose h
      unfold arcBlocked at h
      dsimp only at h
      split at h
      next hout => exact ⟨0, hout⟩
      next =>
        split at h
        next => cases h
        next =>
          obtain ⟨n, hout⟩ := ih h
          exact ⟨n + 1, hout⟩

theorem arcBlocked_of_hit (n : Nat) : ∀ {pose : Pose2D R},
    (∀ j ≤ n, ¬ ArcOut m robotPose step curvature carrotDist pose j) →
    c.inCollision m line ((advance m step curvature)^[n + 1] pose) = true →
    c.arcBlocked m line robotPose step curvature carrotDist (n + 1) pose = some true := by
  induction n with
  | zero =>
      intro pose hwithin hhit
      have hin : ¬ carrotDist < distance m (advance m step curvature pose) robotPose :=
        hwithin 0 le_rfl
      have hhit' : c.inCollision m line (advance m step curvature pose) = true := hhit
      unfold arcBlocked
      dsimp only
      rw [if_neg hin, if_pos hhit']
  | succ n ih =>
      intro pose hwithin hhit
      have hin : ¬ carrotDist < distance m (advance m step curvature pose) robotPose :=
        hwithin 0 (Nat.zero_le _)
      unfold arcBlocked
      dsimp only
      rw [if_neg hin]
      split
      · rfl
      · exact ih (fun j hj => hwithin (j + 1) (Nat.succ_le_succ hj)) hhit

end Arc

/-- The robot turns in place towards the carrot. -/
def Rotates (m : Cmath R) (c : PathClearanceChecker R) (robotPose carrot : Pose2D R) : Prop :=
  c.params.useRotateToHeading = true ∧ c.params.rotateToHeadingMinAngle <
    |m.atan2 (carrotInRobotFrame m robotPose carrot).2 (carrotInRobotFrame m robotPose carrot).1|

/-- `ArcOut` for the arc to a carrot. -/
def ArcOutTo (m : Cmath R) (c : PathClearanceChecker R) (robotPose carrot : Pose2D R) (n : Nat) :
    Prop :=
  let (x, y) := carrotInRobotFrame m robotPose carrot
  ArcOut m robotPose c.costmap.resolution (curvatureTo x y) (m.sqrt (x * x + y * y)) robotPose n

/-- The poses that are tested on the way to a carrot. -/
def OnMotion (m : Cmath R) (c : PathClearanceChecker R) (robotPose carrot p : Pose2D R) : Prop :=
  let (x, y) := carrotInRobotFrame m robotPose carrot
  (c.Rotates m robotPose carrot ∧ p ∈ rotationPoses robotPose (m.atan2 y x)
      ⌈|m.atan2 y x| / kRotationStep⌉.toNat) ∨
    (¬ c.Rotates m robotPose carrot ∧ ∃ n, (∀ j ≤ n, ¬ c.ArcOutTo m robotPose carrot j) ∧
      p = (advance m c.costmap.resolution (curvatureTo x y))^[n + 1] robotPose)

/-- The sweep to a carrot comes to its end. -/
def MotionEnds (m : Cmath R) (c : PathClearanceChecker R) (robotPose carrot : Pose2D R) : Prop :=
  c.Rotates m robotPose carrot ∨ ∃ n, c.ArcOutTo m robotPose carrot n

section Motion

variable {robotPose carrot : Pose2D R}

theorem isMotionToCarrotBlocked_true {fuel : Nat}
    (h : c.isMotionToCarrotBlocked m line fuel robotPose carrot = some true) :
    ∃ p, c.OnMotion m robotPose carrot p ∧ c.inCollision m line p = true := by
  unfold isMotionToCarrotBlocked at h
  dsimp only at h
  split at h
  next hrotates =>
    obtain ⟨p, hp, hhit⟩ := List.any_eq_true.mp (Option.some.inj h)
    exact ⟨p, .inl ⟨hrotates, hp⟩, hhit⟩
  next hrotates =>
    obtain ⟨n, hwithin, hhit⟩ := arcBlocked_true h
    exact ⟨_, .inr ⟨hrotates, n, hwithin, rfl⟩, hhit⟩

theorem isMotionToCarrotBlocked_of_hit {p : Pose2D R} (hp : c.OnMotion m robotPose carrot p)
    (hhit : c.inCollision m line p = true) :
    ∃ n, ∀ fuel, n ≤ fuel →
      c.isMotionToCarrotBlocked m line fuel robotPose carrot = some true := by
  unfold isMotionToCarrotBlocked
  dsimp only
  rcases hp with ⟨hrotates, hp⟩ | ⟨hrotates, n, hwithin, rfl⟩
  · refine ⟨0, fun fuel _ => ?_⟩
    rw [if_pos (show _ ∧ _ from hrotates)]
    exact congrArg some (List.any_eq_true.mpr ⟨p, hp, hhit⟩)
  · refine ⟨n + 1, fun fuel hfuel => ?_⟩
    rw [if_neg (show ¬ (_ ∧ _) from hrotates)]
    exact arcBlocked_mono m line c hfuel (arcBlocked_of_hit n hwithin hhit)

theorem isMotionToCarrotBlocked_false {fuel : Nat}
    (h : c.isMotionToCarrotBlocked m line fuel robotPose carrot = some false) :
    c.MotionEnds m robotPose carrot := by
  unfold isMotionToCarrotBlocked at h
  dsimp only at h
  split at h
  next hrotates => exact .inl hrotates
  next => exact .inr (arcBlocked_false h)

theorem isMotionToCarrotBlocked_ends (line : LineIterator) (h : c.MotionEnds m robotPose carrot) :
    ∃ n, ∀ fuel, n ≤ fuel →
      (c.isMotionToCarrotBlocked m line fuel robotPose carrot).isSome := by
  unfold isMotionToCarrotBlocked
  dsimp only
  by_cases hrotates : c.Rotates m robotPose carrot
  · refine ⟨0, fun fuel _ => ?_⟩
    rw [if_pos (show _ ∧ _ from hrotates)]
    rfl
  · obtain ⟨n, hn⟩ := h.resolve_left hrotates
    refine ⟨n + 1, fun fuel hfuel => ?_⟩
    rw [if_neg (show ¬ (_ ∧ _) from hrotates)]
    obtain ⟨result, hresult⟩ := Option.isSome_iff_exists.mp (arcBlocked_isSome m line c n hn)
    exact Option.isSome_iff_exists.mpr ⟨result, arcBlocked_mono m line c hfuel hresult⟩

end Motion

/-! ### The whole check -/

section Whole

variable {robotPose : Pose2D R} {path : List (Pose2D R)}

/-- The poses that are checked whatever the carrots are: the robot's and those of the path. -/
def OnPath (m : Cmath R) (c : PathClearanceChecker R) (robotPose : Pose2D R)
    (path : List (Pose2D R)) (p : Pose2D R) : Prop :=
  p = robotPose ∨ p ∈ c.resamplePathAhead m robotPose path c.bandLength

def carrots (m : Cmath R) (c : PathClearanceChecker R) (robotPose : Pose2D R)
    (path : List (Pose2D R)) : List (Pose2D R) :=
  c.lookaheads.filterMap
    (carrotFor m robotPose (c.resamplePathAhead m robotPose path c.bandLength))

/-- All poses that are tested as long as none of them is in collision. -/
def Tested (m : Cmath R) (c : PathClearanceChecker R) (robotPose : Pose2D R)
    (path : List (Pose2D R)) (p : Pose2D R) : Prop :=
  c.OnPath m robotPose path p ∨
    ∃ front carrot back, c.carrots m robotPose path = front ++ carrot :: back ∧
      (∀ k ∈ front, c.MotionEnds m robotPose k) ∧ c.OnMotion m robotPose carrot p

/-- The check comes to its end, and its result is blocked. -/
def Blocked (m : Cmath R) (line : LineIterator) (c : PathClearanceChecker R)
    (robotPose : Pose2D R) (path : List (Pose2D R)) : Prop :=
  ∃ fuel, c.isBlocked m line fuel robotPose path = some true

theorem anyMotionBlocked_true {fuel : Nat} : ∀ {carrots : List (Pose2D R)},
    c.anyMotionBlocked m line fuel robotPose carrots = some true →
    ∃ front carrot back, carrots = front ++ carrot :: back ∧
      (∀ k ∈ front, c.MotionEnds m robotPose k) ∧
      ∃ p, c.OnMotion m robotPose carrot p ∧ c.inCollision m line p = true
  | [], h => by cases h
  | carrot :: rest, h => by
      unfold anyMotionBlocked at h
      split at h
      next => cases h
      next hhit =>
        exact ⟨[], carrot, rest, rfl, fun _ hk => absurd hk List.not_mem_nil,
          isMotionToCarrotBlocked_true hhit⟩
      next hclear =>
        obtain ⟨front, found, back, rfl, hends, hfound⟩ := anyMotionBlocked_true h
        refine ⟨carrot :: front, found, back, rfl, fun k hk => ?_, hfound⟩
        rcases List.mem_cons.mp hk with rfl | hk
        · exact isMotionToCarrotBlocked_false hclear
        · exact hends k hk

theorem anyMotionBlocked_of_hit {carrot p : Pose2D R} (back : List (Pose2D R))
    (hp : c.OnMotion m robotPose carrot p) (hhit : c.inCollision m line p = true) :
    ∀ {front : List (Pose2D R)}, (∀ k ∈ front, c.MotionEnds m robotPose k) →
      ∃ n, ∀ fuel, n ≤ fuel →
        c.anyMotionBlocked m line fuel robotPose (front ++ carrot :: back) = some true
  | [], _ => by
      obtain ⟨n, hn⟩ := isMotionToCarrotBlocked_of_hit hp hhit
      refine ⟨n, fun fuel hfuel => ?_⟩
      rw [List.nil_append, anyMotionBlocked, hn fuel hfuel]
  | k :: front, hends => by
      obtain ⟨n, hn⟩ := isMotionToCarrotBlocked_ends line (hends k List.mem_cons_self)
      obtain ⟨n', hn'⟩ := anyMotionBlocked_of_hit back hp hhit
        fun k hk => hends k (List.mem_cons_of_mem _ hk)
      refine ⟨max n n', fun fuel hfuel => ?_⟩
      obtain ⟨result, hresult⟩ := Option.isSome_iff_exists.mp
        (hn fuel (le_trans (le_max_left _ _) hfuel))
      rw [List.cons_append, anyMotionBlocked, hresult]
      cases result with
      | true => rfl
      | false => exact hn' fuel (le_trans (le_max_right _ _) hfuel)

/-- The result is blocked for an empty path, or when a tested pose is in collision. -/
theorem blocked_iff :
    c.Blocked m line robotPose path ↔
      path = [] ∨ ∃ p, c.Tested m robotPose path p ∧ c.inCollision m line p = true := by
  constructor
  · rintro ⟨fuel, h⟩
    unfold isBlocked at h
    dsimp only at h
    split at h
    next hhere => exact .inr ⟨robotPose, .inl (.inl rfl), hhere⟩
    next =>
      split at h
      next hempty =>
        refine .inl ?_
        by_contra hne
        exact c.resamplePathAhead_ne_nil robotPose hne hempty
      next =>
        split at h
        next hahead =>
          obtain ⟨p, hp, hhit⟩ := List.any_eq_true.mp hahead
          exact .inr ⟨p, .inl (.inr hp), hhit⟩
        next =>
          obtain ⟨front, carrot, back, hsplit, hends, p, hp, hhit⟩ := anyMotionBlocked_true h
          exact .inr ⟨p, .inr ⟨front, carrot, back, hsplit, hends, hp⟩, hhit⟩
  · intro h
    by_cases hhere : c.inCollision m line robotPose = true
    · exact ⟨0, if_pos hhere⟩
    · by_cases hempty : c.resamplePathAhead m robotPose path c.bandLength = []
      · exact ⟨0, (if_neg hhere).trans (if_pos hempty)⟩
      · by_cases hahead : (c.resamplePathAhead m robotPose path c.bandLength).any
            (c.inCollision m line) = true
        · exact ⟨0, (if_neg hhere).trans ((if_neg hempty).trans (if_pos hahead))⟩
        · rcases h with rfl | ⟨p, (rfl | hp) | ⟨front, carrot, back, hsplit, hends, hp⟩, hhit⟩
          · exact absurd rfl hempty
          · exact absurd hhit hhere
          · exact absurd (List.any_eq_true.mpr ⟨p, hp, hhit⟩) hahead
          · obtain ⟨n, hn⟩ := anyMotionBlocked_of_hit back hp hhit hends
            have hrun := hn n le_rfl
            rw [← hsplit] at hrun
            exact ⟨n, (if_neg hhere).trans ((if_neg hempty).trans ((if_neg hahead).trans hrun))⟩

/-- Cells that become lethal never clear the path. -/
theorem Blocked.raise (h : c.Blocked m line robotPose path) :
    (c.raise cells).Blocked m line robotPose path := by
  rw [blocked_iff] at h ⊢
  rcases h with hempty | ⟨p, htested, hhit⟩
  · exact .inl hempty
  · exact .inr ⟨p, htested, inCollision_raise hhit⟩

/-- A result does not depend on the fuel that is left. -/
theorem isBlocked_mono {fuel fuel' : Nat} {result : Bool} (hfuel : fuel ≤ fuel')
    (h : c.isBlocked m line fuel robotPose path = some result) :
    c.isBlocked m line fuel' robotPose path = some result := by
  have hmotion : ∀ {carrot : Pose2D R} {result : Bool},
      c.isMotionToCarrotBlocked m line fuel robotPose carrot = some result →
      c.isMotionToCarrotBlocked m line fuel' robotPose carrot = some result := by
    intro carrot result h
    unfold isMotionToCarrotBlocked at h ⊢
    dsimp only at h ⊢
    split
    next hrotates => rwa [if_pos hrotates] at h
    next hrotates =>
      rw [if_neg hrotates] at h
      exact arcBlocked_mono m line c hfuel h
  have hany : ∀ {carrots : List (Pose2D R)},
      c.anyMotionBlocked m line fuel robotPose carrots = some result →
      c.anyMotionBlocked m line fuel' robotPose carrots = some result := by
    intro carrots
    induction carrots with
    | nil => exact id
    | cons carrot rest ih =>
        intro h
        unfold anyMotionBlocked at h ⊢
        cases hfirst : c.isMotionToCarrotBlocked m line fuel robotPose carrot with
        | none =>
            rw [hfirst] at h
            cases h
        | some first =>
            rw [hfirst] at h
            rw [hmotion hfirst]
            cases first with
            | true => exact h
            | false => exact ih h
  unfold isBlocked at h ⊢
  dsimp only at h ⊢
  split
  next hhere => rwa [if_pos hhere] at h
  next hhere =>
    rw [if_neg hhere] at h
    split
    next hempty => rwa [if_pos hempty] at h
    next hempty =>
      rw [if_neg hempty] at h
      split
      next hahead => rwa [if_pos hahead] at h
      next hahead =>
        rw [if_neg hahead] at h
        exact hany h

theorem not_blocked {fuel : Nat} (h : c.isBlocked m line fuel robotPose path = some false) :
    ¬ c.Blocked m line robotPose path := by
  rintro ⟨fuel', h'⟩
  have hlow := isBlocked_mono (le_max_left fuel fuel') h
  rw [isBlocked_mono (le_max_right fuel fuel') h'] at hlow
  exact absurd hlow (by decide)

/-- Lethal cells added never clear the path, and one under an edge of the footprint at a pose of
the path in the map blocks it. -/
def LethalBlocks (m : Cmath R) (line : LineIterator) (c : PathClearanceChecker R)
    (robotPose : Pose2D R) (path : List (Pose2D R)) : Prop :=
  (∀ cells, c.Blocked m line robotPose path → (c.raise cells).Blocked m line robotPose path) ∧
    ∀ p, c.OnPath m robotPose path p → c.InMap p → c.CrossesLethal m line p →
      c.Blocked m line robotPose path

theorem lethalBlocks_iff (m : Cmath R) (line : LineIterator) (c : PathClearanceChecker R)
    (robotPose : Pose2D R) (path : List (Pose2D R)) :
    c.LethalBlocks m line robotPose path ↔
      path = [] ∨
        ((∃ p, c.OnPath m robotPose path p ∧ c.InMap p ∧ c.CrossesLethal m line p) →
          ∃ q, c.Tested m robotPose path q ∧ c.InMap q ∧ c.Noticed m line q) := by
  unfold LethalBlocks
  simp only [blocked_iff, inCollision_iff]
  constructor
  · rintro ⟨_, hlethal⟩
    by_cases hempty : path = []
    · exact .inl hempty
    · refine .inr fun ⟨p, hp, hmap, hcrosses⟩ => ?_
      exact (hlethal p hp hmap hcrosses).resolve_left hempty
  · intro h
    refine ⟨fun cells hblocked => ?_, fun p hp hmap hcrosses => ?_⟩
    · rcases hblocked with hempty | ⟨q, hq, hmap, hnoticed⟩
      · exact .inl hempty
      · exact .inr ⟨q, hq, hmap, hnoticed.raise⟩
    · exact h.imp_right fun h => h ⟨p, hp, hmap, hcrosses⟩

/-- Where unknown space is not tracked nothing is overlooked. -/
theorem lethalBlocks_of_not_tracked (htrack : c.params.trackUnknownSpace = false) :
    c.LethalBlocks m line robotPose path := by
  refine (lethalBlocks_iff m line c robotPose path).mpr (.inr fun ⟨p, hp, hmap, hcrosses⟩ => ?_)
  exact ⟨p, .inl hp, hmap, hcrosses.noticed (.inl htrack)⟩

end Whole

/-! ### An unknown cell that hides a lethal one -/

/-- Exact for heading zero and along the axes. -/
def axisCmath : Cmath ℚ := ⟨id, fun _ => 0, fun _ => 1, fun _ _ => 0, fun x y => |x| + |y|⟩

def axisLine : LineIterator := fun c₀ c₁ =>
  let cells := fun i j : Nat =>
    if i ≤ j then List.range' i (j - i + 1) else (List.range' j (i - j + 1)).reverse
  if c₀.2 = c₁.2 then (cells c₀.1 c₁.1).map fun x => (x, c₀.2)
  else (cells c₀.2 c₁.2).map fun y => (c₀.1, y)

/-- A square footprint, an unknown cell under its first edge and a lethal one under the third. -/
def hiddenLethal : PathClearanceChecker ℚ where
  costmap := ⟨10, 10, 1, 0, 0, fun cell =>
    if cell = (6, 4) then 255 else if cell = (2, 4) then 254 else 0⟩
  footprint := ⟨[⟨2, 2⟩, ⟨2, -2⟩, ⟨-2, -2⟩, ⟨-2, 2⟩], by decide⟩
  params := ⟨false, 1, 1, 1, false, 0, 10, true, 0⟩

theorem hiddenLethal_not_lethalBlocks :
    ¬ hiddenLethal.LethalBlocks axisCmath axisLine ⟨9 / 2, 9 / 2, 0⟩ [⟨9 / 2, 9 / 2, 0⟩] := by
  intro h
  have hclear : hiddenLethal.isBlocked axisCmath axisLine 1 ⟨9 / 2, 9 / 2, 0⟩
      [⟨9 / 2, 9 / 2, 0⟩] = some false := by decide +kernel
  have hmap : (hiddenLethal.costmap.worldToMap (9 / 2) (9 / 2)).isSome := by decide +kernel
  refine not_blocked hclear (h.2 _ (.inl rfl) hmap ?_)
  exact ⟨hiddenLethal.costmap.edgeCells axisLine ⟨5 / 2, 5 / 2⟩ ⟨5 / 2, 13 / 2⟩, by decide +kernel,
    (2, 4), by decide +kernel, by decide +kernel⟩

end PathClearanceChecker

end MgRobot.BtPlugins
