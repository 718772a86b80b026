import MgRobot.Lib.RecentCache
import MgRobot.Slam.BuilderRuns

/-!
# Near-keyframe links in batches

`add_near_keyframe_links` as it is run: the candidates are matched in batches, against
targets that the matcher caches by node index. It accepts the links of one candidate
after another, and every target of a batch is still cached when it is matched.
-/

namespace MgRobot.Slam

set_option autoImplicit false

open MgRobot.Lib.RecentCache

/-- A matcher whose answer depends on the clouds and the guess only. -/
structure NearMatcher (R T S : Type*) where
  /-- `supports_reusable_targets()`. -/
  reusable : Bool
  matchTarget : T → S → OdomData R → MatchResult R

structure ReusableMatchRequest (R : Type*) where
  candidate : PoseNode R
  guess : OdomData R

/-- The targets that a batch is matched against, and the links it adds. -/
structure LinkRound (R T : Type*) where
  requests : List (ReusableMatchRequest R)
  targets : List (Option T)
  links : List (PoseEdge R)

/-- `reusable_targets`, by node index, the most recently used one first. -/
abbrev TargetCache (T : Type*) := List (Nat × T)

def kMaxBatch : Nat := 6

def kMaxReusableTargets : Nat := 8

variable {R T S : Type*} [Field R] [LinearOrder R]
variable (cfg : SlamConfig R) (m : Numerics R) (a : Matchers R)

/-- An unresolved target does not converge. -/
def NearMatcher.answer (M : NearMatcher R T S) (source : S) (target : Option T)
    (guess : OdomData R) : MatchResult R :=
  match target with
  | some t => M.matchTarget t source guess
  | none => ⟨guess.x, guess.y, guess.yaw, false, fun _ _ => 0, 0⟩

variable (M : NearMatcher R T S) (cloud : Nat → Option T) (source : S)

/-- The matchers of a frame whose near matches are against the clouds of the nodes. -/
def Matchers.against : Matchers R :=
  { a with
    targetCloud := fun i => (cloud i).isSome
    nearMatch := fun i guess => M.answer source (cloud i) guess }

namespace ScanMatchingBuilder

variable (timestamp : R) (current : PoseNode R)

/-- The link of a match that passes the gates. -/
def acceptMatch (q : ReusableMatchRequest R) (result : MatchResult R) : Option (PoseEdge R) :=
  let links := cfg.scanMatching.nearLinks
  if result.converged ∧
      m.hypot (result.dx - q.guess.x) (result.dy - q.guess.y) ≤ links.maxTranslationDrift ∧
      |m.angleDiff result.dyaw q.guess.yaw| ≤ links.maxRotationDriftDeg * m.pi / 180 ∧
      ¬ (result.information 1 1 < links.minEigenvalue ∧
        result.information 2 2 < links.minEigenvalue) then
    some ⟨q.candidate.index, current.index, result.dx, result.dy, result.dyaw,
      setDiag result.information 0 (max (result.information 0 0) 10), result.score, false⟩
  else none

/-- The loop over the results of a batch. -/
def acceptBatch : Int → List (ReusableMatchRequest R × MatchResult R) → List (PoseEdge R)
  | _, [] => []
  | added, p :: rest =>
      if added < cfg.scanMatching.nearLinks.maxLinksPerNode then
        match acceptMatch cfg m current p.1 p.2 with
        | some e => e :: acceptBatch (added + 1) rest
        | none => acceptBatch added rest
      else []

def request (c : LinkCandidate R) : ReusableMatchRequest R :=
  ⟨c.node, relativeGuess m timestamp current c.node⟩

/-- The candidates whose target is registered, and the cache with these targets. -/
def prepareBatch : List (LinkCandidate R) → TargetCache T →
    List (ReusableMatchRequest R) × TargetCache T
  | [], cache => ([], cache)
  | c :: rest, cache =>
      let ensured := load cloud kMaxReusableTargets c.node.index cache
      let prepared := prepareBatch rest ensured.2
      (if ensured.1 then request m timestamp current c :: prepared.1 else prepared.1, prepared.2)

/-- A matcher without reusable targets gets the cloud of each candidate itself. -/
def directBatch (batch : List (LinkCandidate R)) : List (ReusableMatchRequest R) :=
  (batch.filter fun c => (cloud c.node.index).isSome).map (request m timestamp current)

/-- One batch: its targets are prepared, looked up and matched, then the results are judged. -/
def linkRound (added : Int) (batch : List (LinkCandidate R)) (cache : TargetCache T) :
    LinkRound R T × TargetCache T :=
  let judge := fun (requests : List (ReusableMatchRequest R)) (targets : List (Option T)) =>
    acceptBatch cfg m current added (requests.zip
      ((requests.zip targets).map fun p => M.answer source p.2 p.1.guess))
  if M.reusable then
    let prepared := prepareBatch m cloud timestamp current batch cache
    let found := findAll (prepared.1.map (·.candidate.index)) prepared.2
    (⟨prepared.1, found.1, judge prepared.1 found.1⟩, found.2)
  else
    let requests := directBatch m cloud timestamp current batch
    let targets := requests.map fun q => cloud q.candidate.index
    (⟨requests, targets, judge requests targets⟩, cache)

/-- As many candidates as links are missing, up to `kMaxBatch`, or one at a time. -/
def batchSize (added : Int) (remaining : Nat) : Nat :=
  if M.reusable then
    min (min (cfg.scanMatching.nearLinks.maxLinksPerNode - added).toNat kMaxBatch) remaining
  else 1

/-- The loop over the batches; every round takes at least one of at most `fuel` candidates. -/
def linkRounds : (fuel : Nat) → Int → List (LinkCandidate R) → TargetCache T →
    List (LinkRound R T) × TargetCache T
  | 0, _, _, cache => ([], cache)
  | fuel + 1, added, candidates, cache =>
      if added < cfg.scanMatching.nearLinks.maxLinksPerNode ∧ candidates ≠ [] then
        let size := batchSize cfg M added candidates.length
        let round := linkRound cfg m M cloud source timestamp current added
          (candidates.take size) cache
        let rest := linkRounds fuel (added + round.1.links.length) (candidates.drop size) round.2
        (round.1 :: rest.1, rest.2)
      else ([], cache)

/-- `add_near_keyframe_links` behind its guard. -/
def batchedLinks (nodes : List (PoseNode R)) (cache : TargetCache T) :
    List (LinkRound R T) × TargetCache T :=
  let links := cfg.scanMatching.nearLinks
  match current.scan with
  | none => ([], cache)
  | some scan =>
      if links.enabled ∧ 0 ≤ links.minIndexDiff ∧ links.minIndexDiff < nodes.length then
        let candidates := linkCandidates cfg m a nodes current
        linkRounds cfg m M cloud source scan.timestamp current candidates.length 0 candidates cache
      else ([], cache)

section Batches

theorem nearLink_against (c : LinkCandidate R) :
    nearLink cfg m (a.against M cloud source) timestamp current c.node =
      if (cloud c.node.index).isSome then
        acceptMatch cfg m current (request m timestamp current c)
          (M.answer source (cloud c.node.index) (request m timestamp current c).guess)
      else none := by
  unfold nearLink
  by_cases h : (cloud c.node.index).isSome
  · rw [if_pos h]
    have htarget : (a.against M cloud source).targetCloud c.node.index = true := h
    simp only [htarget, true_and]
    rfl
  · rw [if_neg h]
    exact if_neg fun hg => h hg.1

/-- The requests that a batch leads to, with the answers of the matcher. -/
def answered (batch : List (LinkCandidate R)) :
    List (ReusableMatchRequest R × MatchResult R) :=
  (directBatch m cloud timestamp current batch).map fun q =>
    (q, M.answer source (cloud q.candidate.index) q.guess)

/-- Judging the answers is judging the candidates one by one. -/
theorem acceptBatch_answered (added : Int) (batch : List (LinkCandidate R)) :
    acceptBatch cfg m current added (answered m M cloud source timestamp current batch) =
      acceptLinks cfg m (a.against M cloud source) timestamp current added batch := by
  induction batch generalizing added with
  | nil => rfl
  | cons c rest ih =>
      unfold acceptLinks
      rw [nearLink_against]
      by_cases h : (cloud c.node.index).isSome
      · have hcons : answered m M cloud source timestamp current (c :: rest) =
            (request m timestamp current c, M.answer source (cloud c.node.index)
              (request m timestamp current c).guess) ::
              answered m M cloud source timestamp current rest := by
          simp [answered, directBatch, h, request]
        rw [hcons, if_pos h, acceptBatch]
        dsimp only
        cases acceptMatch cfg m current (request m timestamp current c)
            (M.answer source (cloud c.node.index) (request m timestamp current c).guess) with
        | none => simp only [ih]
        | some e => simp only [ih]
      · have hskip : answered m M cloud source timestamp current (c :: rest) =
            answered m M cloud source timestamp current rest := by
          simp [answered, directBatch, h]
        rw [hskip, if_neg h, ih]
        split
        · rfl
        · rename_i hadded
          cases rest with
          | nil => rfl
          | cons d rest => exact if_neg hadded

/-- The candidates after a batch are judged with the links of the batch counted. -/
theorem acceptLinks_append (a : Matchers R) (added : Int) (xs ys : List (LinkCandidate R)) :
    acceptLinks cfg m a timestamp current added (xs ++ ys) =
      acceptLinks cfg m a timestamp current added xs ++
        acceptLinks cfg m a timestamp current
          (added + (acceptLinks cfg m a timestamp current added xs).length) ys := by
  induction xs generalizing added with
  | nil =>
      show _ = acceptLinks cfg m a timestamp current (added + 0) ys
      rw [add_zero]
      rfl
  | cons c rest ih =>
      rw [List.cons_append, acceptLinks]
      conv_rhs => rw [acceptLinks]
      by_cases hadded : added < cfg.scanMatching.nearLinks.maxLinksPerNode
      · rw [if_pos hadded, if_pos hadded]
        cases nearLink cfg m a timestamp current c.node with
        | none => exact ih added
        | some e =>
            dsimp only
            have hcount : added + ((acceptLinks cfg m a timestamp current (added + 1)
                rest).length + 1 : Nat) = added + 1 +
                  (acceptLinks cfg m a timestamp current (added + 1) rest).length := by
              omega
            rw [ih, List.cons_append, List.length_cons, hcount]
      · rw [if_neg hadded, if_neg hadded]
        cases ys with
        | nil => rfl
        | cons d ys =>
            rw [List.length_nil, Nat.cast_zero, add_zero, acceptLinks, if_neg hadded]
            rfl

variable {cloud} {cache : TargetCache T}

omit [LinearOrder R] in
/-- Preparing a batch requests the candidates with a cloud and loads all keys. -/
theorem prepareBatch_eq (ha : Agrees cloud cache) (batch : List (LinkCandidate R)) :
    prepareBatch m cloud timestamp current batch cache =
      (directBatch m cloud timestamp current batch,
        loadAll cloud kMaxReusableTargets (batch.map (·.node.index)) cache) := by
  induction batch generalizing cache with
  | nil => rfl
  | cons c rest ih =>
      rw [prepareBatch, ih (ha.load c.node.index), load_fst ha]
      by_cases h : (cloud c.node.index).isSome
      · simp [directBatch, h, loadAll]
      · simp [directBatch, h, loadAll]

omit [LinearOrder R] in
theorem mem_directBatch {batch : List (LinkCandidate R)} {q : ReusableMatchRequest R}
    (hq : q ∈ directBatch m cloud timestamp current batch) :
    (cloud q.candidate.index).isSome ∧ ∃ c ∈ batch, c.node.index = q.candidate.index := by
  obtain ⟨c, hc, rfl⟩ := List.mem_map.mp hq
  obtain ⟨hc, hsome⟩ := List.mem_filter.mp hc
  exact ⟨hsome, c, hc, rfl⟩

omit [LinearOrder R] in
/-- A batch is small enough that its targets are all cached when they are looked up. -/
theorem findAll_directBatch (ha : Agrees cloud cache) {batch : List (LinkCandidate R)}
    (hsize : batch.length ≤ kMaxReusableTargets) :
    let found := findAll ((directBatch m cloud timestamp current batch).map (·.candidate.index))
      (loadAll cloud kMaxReusableTargets (batch.map (·.node.index)) cache)
    found.1 = (directBatch m cloud timestamp current batch).map
        (fun q => cloud q.candidate.index) ∧ Agrees cloud found.2 := by
  have hloaded : ∀ key ∈ (directBatch m cloud timestamp current batch).map
      (·.candidate.index), ∃ v, (key, v) ∈
        loadAll cloud kMaxReusableTargets (batch.map (·.node.index)) cache := by
    intro key hkey
    obtain ⟨q, hq, rfl⟩ := List.mem_map.mp hkey
    obtain ⟨hsome, c, hc, hindex⟩ := mem_directBatch m timestamp current hq
    obtain ⟨v, hv⟩ := Option.isSome_iff_exists.mp hsome
    refine ⟨v, loadAll_mem ha (by rwa [List.length_map]) ?_ hv⟩
    exact hindex ▸ List.mem_map_of_mem hc
  obtain ⟨hfound, hagrees⟩ := findAll_eq (ha.loadAll (batch.map (·.node.index))) hloaded
  rw [List.map_map] at hfound
  exact ⟨hfound, hagrees⟩

omit [LinearOrder R] in
/-- Requests go with the answers against their own targets. -/
theorem zip_answers (requests : List (ReusableMatchRequest R)) :
    requests.zip ((requests.zip (requests.map fun q => cloud q.candidate.index)).map
      fun p => M.answer source p.2 p.1.guess) =
        requests.map fun q => (q, M.answer source (cloud q.candidate.index) q.guess) := by
  induction requests with
  | nil => rfl
  | cons q rest ih => simpa using ih

/-- Every target of a batch is found, and its links are those of the candidates one by one. -/
theorem linkRound_eq (ha : Agrees cloud cache) (added : Int) {batch : List (LinkCandidate R)}
    (hsize : batch.length ≤ kMaxReusableTargets) :
    let r := linkRound cfg m M cloud source timestamp current added batch cache
    r.1.links = acceptLinks cfg m (a.against M cloud source) timestamp current added batch ∧
      r.1.targets = r.1.requests.map (fun q => cloud q.candidate.index) ∧
      (∀ t ∈ r.1.targets, t.isSome) ∧ Agrees cloud r.2 := by
  have hsome : ∀ t ∈ (directBatch m cloud timestamp current batch).map
      (fun q => cloud q.candidate.index), t.isSome := by
    intro t ht
    obtain ⟨q, hq, rfl⟩ := List.mem_map.mp ht
    exact (mem_directBatch m timestamp current hq).1
  have hlinks := acceptBatch_answered cfg m a M cloud source timestamp current added batch
  unfold answered at hlinks
  rw [← zip_answers] at hlinks
  unfold linkRound
  dsimp only
  by_cases hr : M.reusable
  · rw [if_pos hr, prepareBatch_eq m timestamp current ha]
    obtain ⟨htargets, hagrees⟩ := findAll_directBatch m timestamp current ha hsize
    dsimp only
    rw [htargets]
    exact ⟨hlinks, rfl, hsome, hagrees⟩
  · rw [if_neg hr]
    exact ⟨hlinks, rfl, hsome, ha⟩

omit [Field R] [LinearOrder R] in
theorem batchSize_le (added : Int) (remaining : Nat) :
    batchSize cfg M added remaining ≤ kMaxBatch := by
  unfold batchSize kMaxBatch
  split <;> omega

omit [Field R] [LinearOrder R] in
theorem batchSize_pos {added : Int} {remaining : Nat}
    (hadded : added < cfg.scanMatching.nearLinks.maxLinksPerNode) (h : 0 < remaining) :
    0 < batchSize cfg M added remaining := by
  unfold batchSize kMaxBatch
  split <;> omega

/-- All rounds together accept the links of the candidates one by one. -/
theorem linkRounds_eq (fuel : Nat) {added : Int} {candidates : List (LinkCandidate R)}
    (hfuel : candidates.length ≤ fuel) {cache : TargetCache T} (ha : Agrees cloud cache) :
    let r := linkRounds cfg m M cloud source timestamp current fuel added candidates cache
    r.1.flatMap (·.links) =
        acceptLinks cfg m (a.against M cloud source) timestamp current added candidates ∧
      (∀ round ∈ r.1, round.targets = round.requests.map (fun q => cloud q.candidate.index) ∧
        ∀ t ∈ round.targets, t.isSome) ∧ Agrees cloud r.2 := by
  induction fuel generalizing added candidates cache with
  | zero =>
      obtain rfl := List.eq_nil_of_length_eq_zero (Nat.le_zero.mp hfuel)
      exact ⟨rfl, fun _ h => absurd h List.not_mem_nil, ha⟩
  | succ fuel ih =>
      dsimp only
      unfold linkRounds
      by_cases hgo : added < cfg.scanMatching.nearLinks.maxLinksPerNode ∧ candidates ≠ []
      · rw [if_pos hgo]
        dsimp only
        have hpos : 0 < candidates.length := List.length_pos_iff.mpr hgo.2
        have hsize := batchSize_pos cfg M hgo.1 hpos
        have hmax := batchSize_le cfg M added candidates.length
        generalize batchSize cfg M added candidates.length = size at hsize hmax ⊢
        have hbatch : (candidates.take size).length ≤ kMaxReusableTargets := by
          rw [List.length_take]
          unfold kMaxReusableTargets
          unfold kMaxBatch at hmax
          omega
        obtain ⟨hlinks, htargets, hsome, hagrees⟩ :=
          linkRound_eq cfg m a M source timestamp current ha added hbatch
        have hdrop : (candidates.drop size).length ≤ fuel := by
          rw [List.length_drop]
          omega
        obtain ⟨hrest, hrounds, hrestagrees⟩ := ih hdrop hagrees
        refine ⟨?_, ?_, hrestagrees⟩
        · rw [List.flatMap_cons, hrest, hlinks]
          conv_rhs => rw [← List.take_append_drop size candidates, acceptLinks_append]
        · intro round hround
          rcases List.mem_cons.mp hround with rfl | hround
          · exact ⟨htargets, hsome⟩
          · exact hrounds round hround
      · rw [if_neg hgo]
        refine ⟨?_, fun _ h => absurd h List.not_mem_nil, ha⟩
        cases candidates with
        | nil => rfl
        | cons c rest => exact (if_neg fun h => hgo ⟨h, List.cons_ne_nil _ _⟩).symm

/-- The links of a frame are those of the candidates one by one, from any cache that agrees with
the clouds of the nodes. -/
theorem batchedLinks_eq (nodes : List (PoseNode R)) {cache : TargetCache T}
    (ha : Agrees cloud cache) :
    let r := batchedLinks cfg m a M cloud source current nodes cache
    r.1.flatMap (·.links) = nearLinks cfg m (a.against M cloud source) nodes current ∧
      (∀ round ∈ r.1, round.targets = round.requests.map (fun q => cloud q.candidate.index) ∧
        ∀ t ∈ round.targets, t.isSome) ∧ Agrees cloud r.2 := by
  dsimp only
  unfold batchedLinks nearLinks
  cases current.scan with
  | none => exact ⟨rfl, fun _ h => absurd h List.not_mem_nil, ha⟩
  | some scan =>
      dsimp only
      split
      · exact linkRounds_eq cfg m a M source scan.timestamp current _ le_rfl ha
      · exact ⟨rfl, fun _ h => absurd h List.not_mem_nil, ha⟩

end Batches

end ScanMatchingBuilder

end MgRobot.Slam
