import MgRobot.Slam.RelativePoses

/-!
# The odometry along the sequential edges

`OdomOnlyBuilder`, and `ScanMatchingBuilder` when every match is rejected: the
sequential edges compose to the motion of the odometry between the first and the last
keyframe, whatever was dropped in between.
-/

namespace MgRobot.Slam

set_option autoImplicit false

open MgRobot.Lib.Plane MgRobot.Lib.Runs

/-- The pose that a chain of edges leads to from the origin. -/
def composeEdges {R : Type*} [Field R] (m : Numerics R) (es : List (PoseEdge R)) : Pose R :=
  es.foldl (fun p e => m.composePose p e.delta) ⟨0, 0, 0⟩

namespace PoseGraphBuilder

variable {R : Type*}

@[simp] theorem track_nodes (b : PoseGraphBuilder R) : b.track.nodes = b.getNodes := by
  cases b <;> rfl

@[simp] theorem track_edges (b : PoseGraphBuilder R) : b.track.edges = b.innerEdges := by
  cases b <;> rfl

@[simp] theorem replaceNodes_lastOdom (b : PoseGraphBuilder R) (nodes : List (PoseNode R)) :
    (b.replaceNodes nodes).track.lastOdom = b.track.lastOdom := by
  cases b <;> rfl

theorem isOdomOnly_replaceNodes {b : PoseGraphBuilder R} (nodes : List (PoseNode R))
    (h : b.isOdomOnly) : (b.replaceNodes nodes).isOdomOnly := by
  cases b with
  | odomOnly b => trivial
  | scanMatching b => exact h
  | loopClosure b => exact h

variable [Field R] [LinearOrder R] (cfg : SlamConfig R) (m : Numerics R)

theorem isOdomOnly_addScan {b : PoseGraphBuilder R} (a : Matchers R) (scan : Option (ScanData R))
    (odom : OdomData R) (h : b.isOdomOnly) : (b.addScan cfg m a scan odom).1.isOdomOnly := by
  cases b with
  | odomOnly b => trivial
  | scanMatching b => exact h.elim
  | loopClosure b => exact h.elim

end PoseGraphBuilder

variable {m : Numerics ℝ}

theorem Numerics.Exact.composeEdges (h : m.Exact) (es : List (PoseEdge ℝ)) :
    (Slam.composeEdges m es).motion = (es.map fun e => e.delta.motion).prod := by
  have hfold : ∀ p : Pose ℝ, (es.foldl (fun p e => m.composePose p e.delta) p).motion =
      p.motion * (es.map fun e => e.delta.motion).prod := by
    induction es with
    | nil => exact fun p => (mul_one _).symm
    | cons e rest ih =>
        intro p
        rw [List.foldl_cons, ih, h.composePose, List.map_cons, List.prod_cons, mul_assoc]
  exact (hfold _).trans (one_mul _)

theorem OdometryEdge.motion (h : m.Exact) {prev : PoseNode ℝ} {index : Nat} {last odom : OdomData ℝ}
    {e : PoseEdge ℝ} (he : OdometryEdge m prev index last odom e) :
    e.delta.motion = last.pose.motion⁻¹ * odom.pose.motion := by
  rw [he.delta]
  exact h.worldDeltaToLocal last odom _ (h.angleDiff _ _)

/-- The edges are the chain of the nodes, and compose to the odometry between the first and the
last keyframe. -/
structure Carried (t : Track ℝ) (keyframes : List (OdomData ℝ)) : Prop where
  length : t.nodes.length = keyframes.length
  lastOdom : t.lastOdom = keyframes.getLast?
  ends : t.edges.map (·.ends) = (List.range (keyframes.length - 1)).map fun i => (i, i + 1)
  motion : ∀ first last, keyframes.head? = some first → keyframes.getLast? = some last →
    (t.edges.map fun e => e.delta.motion).prod = first.pose.motion⁻¹ * last.pose.motion

variable {t t' : Track ℝ} {keyframes : List (OdomData ℝ)} {odom : OdomData ℝ} {node : PoseNode ℝ}

theorem Carried.extend (h : m.Exact) (hi : Indexed t.nodes) (hc : Carried t keyframes)
    (he : Track.Extends m odom node t t') : Carried t' (keyframes ++ [odom]) := by
  cases he with
  | first empty =>
      have hk : keyframes = [] := by
        rw [← List.length_eq_zero_iff, ← hc.length, empty]
        rfl
      subst hk
      have hedges : t.edges = [] := List.map_eq_nil_iff.mp hc.ends
      refine ⟨rfl, rfl, hc.ends, ?_⟩
      intro first last hf hl
      obtain rfl := Option.some.inj hf
      obtain rfl := Option.some.inj hl
      rw [hedges]
      exact (inv_mul_cancel _).symm
  | @next prev last e back hlast edge =>
      have hpos : 0 < keyframes.length := by
        rw [← hc.length]
        exact List.length_pos_of_mem (List.mem_of_getLast? back)
      have hback : keyframes.getLast? = some last := hc.lastOdom.symm.trans hlast
      refine ⟨?_, ?_, ?_, ?_⟩
      · rw [List.length_append, List.length_append, hc.length]
        rfl
      · rw [List.getLast?_concat]
      · have hlen : (keyframes ++ [odom]).length - 1 = (keyframes.length - 1) + 1 := by
          rw [List.length_append, List.length_singleton]
          omega
        rw [hlen, List.range_succ, List.map_append, List.map_append, hc.ends, List.map_singleton,
          List.map_singleton, edge.ends, hi.getLast? back, hc.length, Nat.sub_add_cancel hpos]
      · intro first last' hf hl
        rw [List.head?_append_of_ne_nil _ (List.ne_nil_of_length_pos hpos)] at hf
        rw [List.getLast?_concat] at hl
        obtain rfl := Option.some.inj hl
        rw [List.map_append, List.prod_append, hc.motion first last hf hback, List.map_singleton,
          List.prod_singleton, edge.motion h, Motion.inv_mul_mul_inv_mul]

namespace BuilderRun

variable {cfg : SlamConfig ℝ} {w w' : BuilderRun ℝ} {call : BuilderCall ℝ}

/-- The builder is `OdomOnlyBuilder`. -/
def OdomOnly (cfg : SlamConfig ℝ) : Prop :=
  cfg.loopClosure.enabled = false ∧ cfg.scanMatching.enabled = false

/-- The matchers of a call find nothing. -/
def Rejected : BuilderCall ℝ → Prop
  | .addScan a _ _ => a.Rejects
  | .replaceNodes _ => True

structure Inv (cfg : SlamConfig ℝ) (w : BuilderRun ℝ) : Prop where
  indexed : w.builder.WellIndexed
  odomOnly : OdomOnly cfg → w.builder.isOdomOnly
  carried : Carried w.builder.track w.keyframes

theorem inv_init (cfg : SlamConfig ℝ) : Inv cfg (init cfg) := by
  refine ⟨PoseGraphBuilder.wellIndexed_new, ?_, ?_⟩
  · rintro ⟨hl, hs⟩
    show (PoseGraphBuilder.new cfg).isOdomOnly
    unfold PoseGraphBuilder.new
    rw [hl, hs]
    trivial
  · have htrack : (init cfg).builder.track = ⟨[], [], none⟩ := by
      show (PoseGraphBuilder.new cfg).track = _
      unfold PoseGraphBuilder.new
      split
      · rfl
      · split
        · rfl
        · rfl
    rw [htrack]
    exact ⟨rfl, rfl, rfl, fun first last hf => absurd hf nofun⟩

theorem Inv.addScan (h : m.Exact) (hi : Inv cfg w) {a : Matchers ℝ} {scan : Option (ScanData ℝ)}
    {odom : OdomData ℝ} (hq : OdomOnly cfg ∨ Rejected (.addScan a scan odom))
    (hs : w.step cfg m (.addScan a scan odom) = some w') : Inv cfg w' := by
  obtain rfl := Option.some.inj hs
  have hm : w.builder.isOdomOnly ∨ a.Rejects := hq.imp hi.odomOnly id
  have hodom := fun hc => PoseGraphBuilder.isOdomOnly_addScan cfg m a scan odom (hi.odomOnly hc)
  rcases w.builder.addScan_track cfg m hm scan odom with hn | ⟨b', node, hb, ht⟩
  · refine ⟨?_, hodom, ?_⟩
    · rw [hn]
      exact hi.indexed
    · rw [hn]
      simpa using hi.carried
  · have hidx : b'.WellIndexed := by
      rcases w.builder.addScan_spec cfg m a scan odom hi.indexed with
        hn | ⟨b'', node', seq, near, loops, hb', hg⟩
      · rw [hb] at hn
        cases hn
      · obtain ⟨rfl, _⟩ := Prod.mk.inj (hb.symm.trans hb')
        exact hi.indexed.grow hg
    rw [hb] at hodom ⊢
    refine ⟨hidx, hodom, ?_⟩
    refine hi.carried.extend h ?_ ht
    rw [PoseGraphBuilder.track_nodes]
    exact hi.indexed.nodes

theorem Inv.replaceNodes (hi : Inv cfg w) {nodes : List (PoseNode ℝ)}
    (hs : w.step cfg m (.replaceNodes nodes) = some w') : Inv cfg w' := by
  unfold BuilderRun.step at hs
  dsimp only at hs
  split at hs
  · rename_i hn
    obtain rfl := Option.some.inj hs
    have hlen : nodes.length = w.builder.getNodes.length := by
      simpa using congrArg List.length hn
    have hc := hi.carried
    refine ⟨hi.indexed.replaceNodes hn, fun ho => ?_, ?_, ?_, ?_, ?_⟩
    · exact PoseGraphBuilder.isOdomOnly_replaceNodes nodes (hi.odomOnly ho)
    · rw [PoseGraphBuilder.track_nodes, PoseGraphBuilder.replaceNodes_getNodes, hlen,
        ← PoseGraphBuilder.track_nodes, hc.length]
    · rw [PoseGraphBuilder.replaceNodes_lastOdom]
      exact hc.lastOdom
    · rw [PoseGraphBuilder.track_edges, PoseGraphBuilder.replaceNodes_innerEdges,
        ← PoseGraphBuilder.track_edges]
      exact hc.ends
    · rw [PoseGraphBuilder.track_edges, PoseGraphBuilder.replaceNodes_innerEdges,
        ← PoseGraphBuilder.track_edges]
      exact hc.motion
  · cases hs

theorem Inv.step (h : m.Exact) (hi : Inv cfg w) (hq : OdomOnly cfg ∨ Rejected call)
    (hs : w.step cfg m call = some w') : Inv cfg w' := by
  cases call with
  | addScan a scan odom => exact hi.addScan h hq hs
  | replaceNodes nodes => exact hi.replaceNodes hs

/-- The sequential edges lead from node to node and compose to the motion from the first to the
last odometry that made a node. -/
theorem sequential_edges_carry_odometry (h : m.Exact) {calls : List (BuilderCall ℝ)}
    (hr : exec (step cfg m) (init cfg) calls = some w)
    (hq : OdomOnly cfg ∨ ∀ call ∈ calls, Rejected call) {first last : OdomData ℝ}
    (hf : w.keyframes.head? = some first) (hl : w.keyframes.getLast? = some last) :
    w.builder.getNodes.length = w.keyframes.length ∧
      w.builder.innerEdges.map (·.ends) =
        (List.range (w.builder.getNodes.length - 1)).map (fun i => (i, i + 1)) ∧
      (composeEdges m w.builder.innerEdges).motion =
        (m.deltaPose first.pose last.pose).motion := by
  have hi : Inv cfg w := invariant_of_mem
    (fun s call t hmem hi hs => hi.step h (hq.imp id fun hall => hall call hmem) hs)
    (inv_init cfg) hr
  obtain ⟨hlen, _, hends, hmotion⟩ := hi.carried
  rw [PoseGraphBuilder.track_nodes] at hlen
  rw [PoseGraphBuilder.track_edges] at hends hmotion
  refine ⟨hlen, ?_, ?_⟩
  · rw [hlen]
    exact hends
  · rw [h.composeEdges, h.deltaPose]
    exact hmotion first last hf hl

section Dropped

/-- The defaults with `ScanMatchingBuilder`. -/
noncomputable def matchingConfig : SlamConfig ℝ :=
  let d : SlamConfig ℝ := .defaults
  { d with loopClosure := { d.loopClosure with enabled := false } }

/-- The defaults with `OdomOnlyBuilder`. -/
noncomputable def odomOnlyConfig : SlamConfig ℝ :=
  { matchingConfig with scanMatching := { matchingConfig.scanMatching with enabled := false } }

/-- Matchers that answer a metre off and have not converged. -/
noncomputable def astray : Matchers ℝ :=
  { (.agreeing [] [] : Matchers ℝ) with
    seqMatch := fun guess => ⟨guess.x + 1, guess.y, guess.yaw, false, diag3 100 100 100, 0⟩ }

/-- A scan at `x` metres along the axis. -/
noncomputable def scanAt (x : ℝ) : BuilderCall ℝ := .addScan astray (some ⟨x⟩) ⟨x, x, 0, 0⟩

theorem scanAt_rejected (x : ℝ) : Rejected (scanAt x) := ⟨fun _ => rfl, fun _ _ => rfl⟩

theorem belowKeyframe_exact_iff {cfg : SlamConfig ℝ} (hcfg : cfg.keyframe = matchingConfig.keyframe)
    (a b : ℝ) : belowKeyframe cfg .exact ⟨a, a, 0, 0⟩ ⟨b, b, 0, 0⟩ ↔ |b - a| < 1 / 2 := by
  have hyaw : Numerics.exact.angleDiff 0 0 = 0 := by
    simp [Numerics.angleDiff, Numerics.exact, heading, show (⟨1, 0⟩ : ℂ) = 1 from rfl]
  have hhypot : Numerics.exact.hypot (b - a) (0 - 0) = |b - a| := by
    show Real.sqrt ((b - a) * (b - a) + (0 - 0) * (0 - 0)) = _
    rw [sub_zero, mul_zero, add_zero, Real.sqrt_mul_self_eq_abs]
  unfold belowKeyframe
  rw [hhypot, hyaw, abs_zero, hcfg]
  exact and_iff_left (by norm_num [matchingConfig, SlamConfig.defaults])

/-- The last keyframe is `x` metres along the axis, and no loops are searched. -/
structure At (w : BuilderRun ℝ) (x : ℝ) : Prop where
  noLoops : ∀ b, w.builder ≠ .loopClosure b
  last : ∃ prev, w.builder.getNodes.getLast? = some prev
  lastOdom : w.builder.track.lastOdom = some ⟨x, x, 0, 0⟩

variable {x y : ℝ}

theorem exists_at_first (hcfg : cfg.loopClosure.enabled = false) :
    ∃ w, (init cfg).step cfg .exact (scanAt x) = some w ∧ At w x ∧
      w.keyframes = [⟨x, x, 0, 0⟩] := by
  unfold init PoseGraphBuilder.new
  rw [hcfg]
  cases cfg.scanMatching.enabled with
  | false => exact ⟨_, rfl, ⟨nofun, ⟨_, rfl⟩, rfl⟩, rfl⟩
  | true => exact ⟨_, rfl, ⟨nofun, ⟨_, rfl⟩, rfl⟩, rfl⟩

/-- Less than half a metre makes no node. -/
theorem At.near (hw : At w x) (hcfg : cfg.keyframe = matchingConfig.keyframe)
    (hxy : |y - x| < 1 / 2) : w.step cfg .exact (scanAt y) = some w := by
  have hbelow := (belowKeyframe_exact_iff hcfg x y).mpr hxy
  obtain ⟨b, keyframes⟩ := w
  obtain ⟨hloops, ⟨prev, hprev⟩, hodom⟩ := hw
  have hadd : b.addScan cfg .exact astray (some ⟨y⟩) ⟨y, y, 0, 0⟩ = (b, none) := by
    cases b with
    | loopClosure b => exact absurd rfl (hloops b)
    | odomOnly b =>
        have hb : b.addScan cfg .exact (some ⟨y⟩) ⟨y, y, 0, 0⟩ = (b, none) := by
          unfold OdomOnlyBuilder.addScan
          rw [show b.nodes.getLast? = some prev from hprev,
            show b.lastOdom = some ⟨x, x, 0, 0⟩ from hodom]
          exact if_pos hbelow
        exact congrArg (Prod.map PoseGraphBuilder.odomOnly id) hb
    | scanMatching b =>
        have hb : b.addScan cfg .exact astray (some ⟨y⟩) ⟨y, y, 0, 0⟩ = (b, none) := by
          unfold ScanMatchingBuilder.addScan
          rw [show b.nodes.getLast? = some prev from hprev,
            show b.lastOdom = some ⟨x, x, 0, 0⟩ from hodom]
          exact if_pos hbelow
        exact congrArg (Prod.map PoseGraphBuilder.scanMatching id) hb
  unfold step scanAt
  dsimp only
  rw [hadd]
  exact congrArg some (congrArg (BuilderRun.mk b) (List.append_nil keyframes))

/-- Half a metre and more makes one, whatever the matchers answer. -/
theorem At.far (hw : At w x) (hcfg : cfg.keyframe = matchingConfig.keyframe)
    (hxy : 1 / 2 ≤ |y - x|) : ∃ w', w.step cfg .exact (scanAt y) = some w' ∧ At w' y ∧
      w'.keyframes = w.keyframes ++ [⟨y, y, 0, 0⟩] := by
  have hfar := (belowKeyframe_exact_iff hcfg x y).not.mpr (not_lt.mpr hxy)
  obtain ⟨b, keyframes⟩ := w
  obtain ⟨hloops, ⟨prev, hprev⟩, hodom⟩ := hw
  cases b with
  | loopClosure b => exact absurd rfl (hloops b)
  | odomOnly b =>
      obtain ⟨b', node, hb, hlast, hodom'⟩ : ∃ b' node,
          b.addScan cfg .exact (some ⟨y⟩) ⟨y, y, 0, 0⟩ = (b', some node) ∧
            b'.nodes.getLast? = some node ∧ b'.lastOdom = some ⟨y, y, 0, 0⟩ := by
        unfold OdomOnlyBuilder.addScan
        rw [show b.nodes.getLast? = some prev from hprev,
          show b.lastOdom = some ⟨x, x, 0, 0⟩ from hodom]
        exact ⟨_, _, if_neg hfar, List.getLast?_concat, rfl⟩
      refine ⟨⟨.odomOnly b', keyframes ++ [⟨y, y, 0, 0⟩]⟩, ?_,
        ⟨(fun _ h => by cases h), ⟨node, hlast⟩, hodom'⟩, rfl⟩
      simp only [step, scanAt, PoseGraphBuilder.addScan, hb]
      rfl
  | scanMatching b =>
      obtain ⟨b', node, hb, hlast, hodom'⟩ : ∃ b' node,
          b.addScan cfg .exact astray (some ⟨y⟩) ⟨y, y, 0, 0⟩ = (b', some node) ∧
            b'.nodes.getLast? = some node ∧ b'.lastOdom = some ⟨y, y, 0, 0⟩ := by
        unfold ScanMatchingBuilder.addScan
        rw [show b.nodes.getLast? = some prev from hprev,
          show b.lastOdom = some ⟨x, x, 0, 0⟩ from hodom]
        exact ⟨_, _, if_neg hfar, List.getLast?_concat, rfl⟩
      refine ⟨⟨.scanMatching b', keyframes ++ [⟨y, y, 0, 0⟩]⟩, ?_,
        ⟨(fun _ h => by cases h), ⟨node, hlast⟩, hodom'⟩, rfl⟩
      simp only [step, scanAt, PoseGraphBuilder.addScan, hb]
      rfl

/-- Three keyframes, and a scan in between that is none. -/
theorem exec_scans (cfg : SlamConfig ℝ) (hloops : cfg.loopClosure.enabled = false)
    (hcfg : cfg.keyframe = matchingConfig.keyframe) :
    ∃ w, exec (step cfg .exact) (init cfg) [scanAt 0, scanAt (1 / 4), scanAt 1, scanAt 3] = some w ∧
      w.keyframes = [⟨0, 0, 0, 0⟩, ⟨1, 1, 0, 0⟩, ⟨3, 3, 0, 0⟩] := by
  obtain ⟨w₁, h₁, hat₁, hk₁⟩ := exists_at_first (x := 0) hloops
  have h₂ := hat₁.near (y := 1 / 4) hcfg (by norm_num)
  obtain ⟨w₃, h₃, hat₃, hk₃⟩ := hat₁.far (y := 1) hcfg (by norm_num)
  obtain ⟨w₄, h₄, _, hk₄⟩ := hat₃.far (y := 3) hcfg (by norm_num)
  refine ⟨w₄, exec_cons_iff.mpr ⟨w₁, h₁, exec_cons_iff.mpr ⟨w₁, h₂, exec_cons_iff.mpr ⟨w₃, h₃,
    exec_single h₄⟩⟩⟩, ?_⟩
  rw [hk₄, hk₃, hk₁]
  rfl

theorem deltaPose_scans : (Numerics.exact.deltaPose (OdomData.pose ⟨0, 0, 0, 0⟩)
    (OdomData.pose ⟨3, 3, 0, 0⟩)).motion = ⟨(3, 0), 0⟩ := by
  rw [Numerics.exact_exact.deltaPose]
  apply Motion.ext
  · rw [Motion.inv_mul_shift]
    norm_num [Pose.motion, OdomData.pose]
  · rw [Motion.inv_mul_angle]
    exact sub_self _

/-- The motion of a scan that makes no node is in the edge to the next one, without matching and
where every match is rejected. -/
theorem sequential_edges_carry_odometry_dropped :
    (∃ w, exec (step odomOnlyConfig .exact) (init odomOnlyConfig)
        [scanAt 0, scanAt (1 / 4), scanAt 1, scanAt 3] = some w ∧
      w.builder.getNodes.length = 3 ∧
      (composeEdges .exact w.builder.innerEdges).motion = ⟨(3, 0), 0⟩) ∧
    ∃ w, exec (step matchingConfig .exact) (init matchingConfig)
        [scanAt 0, scanAt (1 / 4), scanAt 1, scanAt 3] = some w ∧
      w.builder.getNodes.length = 3 ∧
      (composeEdges .exact w.builder.innerEdges).motion = ⟨(3, 0), 0⟩ := by
  constructor
  · obtain ⟨w, hr, hk⟩ := exec_scans odomOnlyConfig rfl rfl
    obtain ⟨hlen, _, hmotion⟩ := sequential_edges_carry_odometry Numerics.exact_exact hr
      (Or.inl ⟨rfl, rfl⟩) (by rw [hk]; rfl) (by rw [hk]; rfl)
    exact ⟨w, hr, hlen.trans (by rw [hk]; rfl), hmotion.trans deltaPose_scans⟩
  · obtain ⟨w, hr, hk⟩ := exec_scans matchingConfig rfl rfl
    have hrejected : ∀ call ∈ [scanAt 0, scanAt (1 / 4), scanAt 1, scanAt 3], Rejected call := by
      simp [scanAt_rejected]
    obtain ⟨hlen, _, hmotion⟩ := sequential_edges_carry_odometry Numerics.exact_exact hr
      (Or.inr hrejected) (by rw [hk]; rfl) (by rw [hk]; rfl)
    exact ⟨w, hr, hlen.trans (by rw [hk]; rfl), hmotion.trans deltaPose_scans⟩

end Dropped

end BuilderRun

end MgRobot.Slam
