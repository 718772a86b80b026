import Mathlib.Data.List.GetD
import MgRobot.Slam.NearLinkBatches

/-!
# Runs with batched links

A builder with the cache of its matcher, over scans, poses from the optimizer and resets.
The builder that judges the candidates one by one goes through the same states.
-/

namespace MgRobot.Slam

set_option autoImplicit false

open MgRobot.Lib.Runs MgRobot.Lib.RecentCache

/-- A scan comes with its cloud as a target, if it is not empty, and as a source. -/
inductive LinkCall (R T S : Type*) where
  | addScan (matchers : Matchers R) (scan : Option (ScanData R)) (odom : OdomData R)
      (cloud : Option T) (source : S)
  | replaceNodes (nodes : List (PoseNode R))
  | reset

/-- A builder and the clouds of its nodes, by index. -/
structure CloudBuilder (R T : Type*) where
  builder : ScanMatchingBuilder R
  clouds : List (Option T)

/-- With the cache of the matcher and all batches so far. -/
structure LinkRun (R T : Type*) extends CloudBuilder R T where
  cache : TargetCache T
  rounds : List (LinkRound R T)

variable {R T S : Type*} [Field R] [LinearOrder R]
variable (cfg : SlamConfig R) (m : Numerics R) (M : NearMatcher R T S)

/-- The target cloud of the node with an index. -/
def cloudOf (clouds : List (Option T)) (i : Nat) : Option T := clouds.getD i none

namespace CloudBuilder

def init : CloudBuilder R T := ⟨.new, []⟩

/-- The candidates are judged one by one, against their clouds. -/
def step (w : CloudBuilder R T) : LinkCall R T S → Option (CloudBuilder R T)
  | .addScan a scan odom cloud source =>
      let clouds := w.clouds ++ [cloud]
      let added := w.builder.addScan cfg m (a.against M (cloudOf clouds) source) scan odom
      some ⟨added.1, if added.2.isSome then clouds else w.clouds⟩
  | .replaceNodes nodes =>
      if nodes.map (·.index) = w.builder.nodes.map (·.index) then
        some { w with builder := { w.builder with nodes := nodes } }
      else none
  | .reset => some ⟨{ w.builder with nodes := [], edges := [], lastOdom := none }, []⟩

end CloudBuilder

/-- The configuration without near-keyframe links. -/
def SlamConfig.withoutLinks : SlamConfig R :=
  { cfg with
    scanMatching := { cfg.scanMatching with
      nearLinks := { cfg.scanMatching.nearLinks with enabled := false } } }

namespace LinkRun

def init : LinkRun R T := ⟨.init, [], []⟩

/-- A node that is not the first one gets its edge, then its links in batches. -/
def step (w : LinkRun R T) : LinkCall R T S → Option (LinkRun R T)
  | .addScan a scan odom cloud source =>
      match w.builder.addScan cfg.withoutLinks m a scan odom with
      | (b, none) => some { w with builder := b }
      | (b, some node) =>
          let clouds := w.clouds ++ [cloud]
          if w.builder.nodes.isEmpty then some { w with builder := b, clouds := clouds }
          else
            let linked := ScanMatchingBuilder.batchedLinks cfg m a M (cloudOf clouds) source node
              b.nodes w.cache
            some
              { builder := { b with edges := b.edges ++ linked.1.flatMap (·.links) }
                clouds := clouds
                cache := linked.2
                rounds := w.rounds ++ linked.1 }
  | .replaceNodes nodes =>
      if nodes.map (·.index) = w.builder.nodes.map (·.index) then
        some { w with builder := { w.builder with nodes := nodes } }
      else none
  | .reset =>
      some { w with
        builder := { w.builder with nodes := [], edges := [], lastOdom := none }
        clouds := []
        cache := [] }

/-- The cache holds the clouds of the nodes, and every target of a batch was found. -/
structure Inv (w : LinkRun R T) : Prop where
  agrees : Agrees (cloudOf w.clouds) w.cache
  found : ∀ round ∈ w.rounds, ∀ t ∈ round.targets, t.isSome

end LinkRun

/-- A further cloud leaves those of the earlier nodes. -/
theorem agrees_append {clouds : List (Option T)} {cache : TargetCache T}
    (h : Agrees (cloudOf clouds) cache) (cloud : Option T) :
    Agrees (cloudOf (clouds ++ [cloud])) cache := by
  intro e he
  have hcloud := h e he
  unfold cloudOf at hcloud ⊢
  have hlt : e.1 < clouds.length := by
    by_contra hge
    rw [List.getD_eq_default _ _ (not_lt.mp hge)] at hcloud
    cases hcloud
  rw [List.getD_append _ _ _ _ hlt, hcloud]

namespace ScanMatchingBuilder

variable {a a' : Matchers R}

/-- A node gets its edge first and its links afterwards. -/
theorem addScan_withoutLinks (href : a'.reference = a.reference) (hseq : a'.seqMatch = a.seqMatch)
    (b : ScanMatchingBuilder R) (scan : Option (ScanData R)) (odom : OdomData R) :
    b.addScan cfg m a' scan odom =
      match b.addScan cfg.withoutLinks m a scan odom with
      | (b', none) => (b', none)
      | (b', some node) =>
          (if b.nodes.isEmpty then b'
            else { b' with edges := b'.edges ++ nearLinks cfg m a' b'.nodes node }, some node) := by
  have hmatch : ∀ guess, sequentialMatch cfg m a' guess =
      sequentialMatch cfg.withoutLinks m a guess := by
    intro guess
    unfold sequentialMatch
    rw [href, hseq]
    rfl
  have hkey : belowKeyframe cfg.withoutLinks m = belowKeyframe cfg m := rfl
  have hnone : ∀ nodes current, nearLinks cfg.withoutLinks m a nodes current = [] := by
    intro nodes current
    unfold nearLinks
    split
    · rfl
    · exact if_neg fun h => Bool.false_ne_true h.1
  unfold addScan
  cases scan with
  | none => rfl
  | some scan =>
      rcases hp : b.nodes.getLast? with _ | prev
      · have hnil : b.nodes = [] := List.getLast?_eq_none_iff.mp hp
        simp [hnil]
      · have hne : b.nodes ≠ [] := fun h => by simp [h] at hp
        cases hl : b.lastOdom with
        | none => rfl
        | some last =>
            dsimp only
            by_cases hk : belowKeyframe cfg m last odom
            · simp only [hkey, if_pos hk]
            · simp only [hkey, if_neg hk, hmatch, href, hseq, hnone]
              simp [hne]

end ScanMatchingBuilder

namespace LinkRun

open ScanMatchingBuilder

/-- A step with batches is a step of the builder that judges one by one. -/
theorem step_simulates {w t : LinkRun R T} {call : LinkCall R T S} (h : w.Inv)
    (hs : step cfg m M w call = some t) :
    t.Inv ∧ CloudBuilder.step cfg m M w.toCloudBuilder call = some t.toCloudBuilder := by
  cases call with
  | addScan a scan odom cloud source =>
      unfold step at hs
      unfold CloudBuilder.step
      dsimp only at hs ⊢
      have href : (a.against M (cloudOf (w.clouds ++ [cloud])) source).reference =
          a.reference := rfl
      have hseq : (a.against M (cloudOf (w.clouds ++ [cloud])) source).seqMatch =
          a.seqMatch := rfl
      rw [addScan_withoutLinks cfg m href hseq]
      rcases hadd : w.builder.addScan cfg.withoutLinks m a scan odom with ⟨b, _ | node⟩
      · rw [hadd] at hs
        obtain rfl := Option.some.inj hs
        exact ⟨⟨h.agrees, h.found⟩, rfl⟩
      · rw [hadd] at hs
        dsimp only at hs ⊢
        have hagrees := agrees_append h.agrees cloud
        by_cases hempty : w.builder.nodes.isEmpty
        · rw [if_pos hempty] at hs ⊢
          obtain rfl := Option.some.inj hs
          exact ⟨⟨hagrees, h.found⟩, rfl⟩
        · rw [if_neg hempty] at hs ⊢
          obtain rfl := Option.some.inj hs
          obtain ⟨hlinks, hrounds, hcache⟩ :=
            batchedLinks_eq cfg m a M source node b.nodes hagrees
          refine ⟨⟨hcache, fun round hround => ?_⟩, ?_⟩
          · rcases List.mem_append.mp hround with hr | hr
            · exact h.found round hr
            · exact (hrounds round hr).2
          · rw [hlinks]
            rfl
  | replaceNodes nodes =>
      unfold step at hs
      unfold CloudBuilder.step
      dsimp only at hs ⊢
      split at hs
      · rename_i hindex
        obtain rfl := Option.some.inj hs
        rw [if_pos hindex]
        exact ⟨⟨h.agrees, h.found⟩, rfl⟩
      · cases hs
  | reset =>
      obtain rfl := Option.some.inj hs
      exact ⟨⟨fun _ he => absurd he List.not_mem_nil, h.found⟩, rfl⟩

/-- Batches, the cache and its evictions do not change a run: its builder is the one that judges
the candidates one by one, and every target of a batch is cached when it is matched. -/
theorem run_as_one_by_one {calls : List (LinkCall R T S)} {w : LinkRun R T}
    (h : exec (step cfg m M) init calls = some w) :
    exec (CloudBuilder.step cfg m M) CloudBuilder.init calls = some w.toCloudBuilder ∧
      ∀ round ∈ w.rounds, ∀ t ∈ round.targets, t.isSome := by
  have hinit : (init : LinkRun R T).Inv :=
    ⟨fun _ he => absurd he List.not_mem_nil, fun _ hr => absurd hr List.not_mem_nil⟩
  obtain ⟨hinv, hrun⟩ := exec_map_of_invariant (I := Inv) (f := LinkRun.toCloudBuilder) (g := id)
    (fun _ _ _ hi hs => step_simulates cfg m M hi hs) hinit h
  rw [List.map_id] at hrun
  exact ⟨hrun, hinv.found⟩

section FiveScans

/-- Every match agrees with the guess. -/
def agreeingMatcher (reusable : Bool) : NearMatcher ℚ Nat Nat where
  reusable := reusable
  matchTarget := fun _ _ guess => ⟨guess.x, guess.y, guess.yaw, true, diag3 100 100 100, 1⟩

/-- Three links per node, from the node before the last on. -/
def threeLinks : SlamConfig ℚ :=
  let d : SlamConfig ℚ := .defaults
  { d with
    scanMatching := { d.scanMatching with
      nearLinks := { d.scanMatching.nearLinks with
        enabled := true, minIndexDiff := 1, maxLinksPerNode := 3, maxDistance := 100 } } }

/-- No reference for the sequential match, and candidates in the order of their indices. -/
def noReference : Matchers ℚ where
  reference := false
  seqMatch := fun guess => ⟨guess.x, guess.y, guess.yaw, false, diag3 0 0 0, 0⟩
  targetCloud := fun _ => false
  nearMatch := fun _ guess => ⟨guess.x, guess.y, guess.yaw, false, diag3 0 0 0, 0⟩
  sortRank := id
  submap := fun _ => false
  loopMatch := fun _ guess => ⟨guess.x, guess.y, guess.yaw, false, diag3 0 0 0, 0⟩

/-- Five scans, a metre after another; the second one is empty. -/
def fiveScans : List (LinkCall ℚ Nat Nat) :=
  (List.range 5).map fun i : Nat =>
    .addScan noReference (some ⟨i⟩) ⟨i, i, 0, 0⟩ (if i = 1 then none else some i) i

/-- The last node gets three links in two batches, as the empty scan takes a place in the first. -/
theorem run_as_one_by_one_five :
    ∃ w, exec (step threeLinks .axis (agreeingMatcher true)) init fiveScans = some w ∧
      (w.rounds.map fun r => r.links.length) = [1, 1, 2, 2, 1] ∧
      exec (CloudBuilder.step threeLinks .axis (agreeingMatcher true)) CloudBuilder.init fiveScans =
        some w.toCloudBuilder := by
  obtain ⟨w, hw, hrounds⟩ : ∃ w,
      exec (step threeLinks .axis (agreeingMatcher true)) init fiveScans = some w ∧
        (w.rounds.map fun r => r.links.length) = [1, 1, 2, 2, 1] :=
    exists_exec (by decide +kernel)
  exact ⟨w, hw, hrounds, (run_as_one_by_one _ _ _ hw).1⟩

end FiveScans

end LinkRun

end MgRobot.Slam
