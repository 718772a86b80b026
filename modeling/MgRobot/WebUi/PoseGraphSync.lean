import MgRobot.Slam.SlamNode
import MgRobot.Lib.Replica

/-!
# usePoseGraph

The state of the hook and its two ways to change: `fetchFullGraph` replaces it
by a response, `handleDiff` adds to it. The maps are JavaScript `Map`s.
-/

namespace MgRobot.WebUi

set_option autoImplicit false

open MgRobot.Slam

variable {R : Type*}

/-- A field is `none` where the array it is read from is too short. -/
structure PoseGraphNode (R : Type*) where
  index : Nat
  x : Option R
  y : Option R
  yaw : Option R
  timestamp : Option R
  deriving DecidableEq, Repr

structure PoseGraphEdgeEx (R : Type*) where
  source : Nat
  target : Option Nat
  score : Option R
  type : Option Nat
  infoDiag : Option R × Option R × Option R
  deriving DecidableEq, Repr

structure GnssPriorEx (R : Type*) where
  nodeIndex : Nat
  sigmaM : Option R
  status : Option Int
  deriving DecidableEq, Repr

structure PoseGraphState (R : Type*) where
  nodes : AList fun _ : Nat => PoseGraphNode R
  seqEdges : AList fun _ : String => PoseGraphEdgeEx R
  loopEdges : AList fun _ : String => PoseGraphEdgeEx R
  gnssPriors : AList fun _ : Nat => GnssPriorEx R
  stats : GraphStats

/-- A loop of `Map.set` over the items of an array. -/
def setAll {ι κ β : Type*} [DecidableEq κ] (key : ι → κ) (value : ι → β) (items : List ι)
    (m : AList fun _ : κ => β) : AList fun _ : κ => β :=
  items.foldl (fun m i => m.insert (key i) (value i)) m

theorem mem_setAll {ι κ β : Type*} [DecidableEq κ] {key : ι → κ} {value : ι → β}
    {items : List ι} {m : AList fun _ : κ => β} {k : κ} :
    k ∈ setAll key value items m ↔ k ∈ m ∨ k ∈ items.map key := by
  induction items generalizing m with
  | nil => simp [setAll]
  | cons i rest ih =>
      have h : setAll key value (i :: rest) m =
          setAll key value rest (m.insert (key i) (value i)) := rfl
      rw [h, ih, AList.mem_insert, List.map_cons, List.mem_cons]
      tauto

namespace PoseGraphState

def setNodes (d : PoseGraphDiff R) :=
  setAll (fun p => p.1)
    (fun p => (⟨p.1, d.newNodeX[p.2]?, d.newNodeY[p.2]?, d.newNodeYaw[p.2]?,
      d.newNodeTimestamps[p.2]?⟩ : PoseGraphNode R)) d.newNodeIndices.zipIdx

/-- The loops over sequential and over loop edges; `type` is the latter's constant. -/
def setEdges (source target : List Nat) (score infoDiag : List R) (type : Nat → Option Nat) :=
  setAll (fun p => edgeKey p.1 target[p.2]?)
    (fun p => (⟨p.1, target[p.2]?, score[p.2]?, type p.2, infoDiag[p.2 * 3]?,
      infoDiag[p.2 * 3 + 1]?, infoDiag[p.2 * 3 + 2]?⟩ : PoseGraphEdgeEx R)) source.zipIdx

def setSeqEdges (d : PoseGraphDiff R) :=
  setEdges d.seqEdgeFrom d.seqEdgeTo d.seqEdgeScore d.seqEdgeInfoDiag fun i => d.seqEdgeType[i]?

def setLoopEdges (d : PoseGraphDiff R) :=
  setEdges d.loopEdgeFrom d.loopEdgeTo d.loopEdgeScore d.loopEdgeInfoDiag fun _ => some 0

def setPriors (d : PoseGraphDiff R) :=
  setAll (fun p => p.1)
    (fun p => (⟨p.1, d.priorSigmaM[p.2]?, d.priorGnssStatus[p.2]?⟩ : GnssPriorEx R))
    d.priorNodeIndices.zipIdx

/-- The state `fetchFullGraph` sets from a response. -/
def ofResponse (r : GetPoseGraphResponse R) : PoseGraphState R where
  nodes := setNodes r.graph ∅
  seqEdges := setSeqEdges r.graph ∅
  loopEdges := setLoopEdges r.graph ∅
  gnssPriors := setPriors r.graph ∅
  stats := r.stats

/-- The update of `handleDiff` for a diff without `full_refresh_needed`. -/
def applyDiff (s : PoseGraphState R) (d : PoseGraphDiff R) : PoseGraphState R :=
  let nodes := setNodes d s.nodes
  let seqEdges := setSeqEdges d s.seqEdges
  let loopEdges := setLoopEdges d s.loopEdges
  { nodes := nodes
    seqEdges := seqEdges
    loopEdges := loopEdges
    gnssPriors := setPriors d s.gnssPriors
    stats := { s.stats with
      totalNodes := nodes.keys.length
      totalSeqEdges := seqEdges.keys.length
      totalLoopEdges := loopEdges.keys.length } }

/-- The keys of the three maps. -/
def keys (s : PoseGraphState R) : Keys :=
  (s.nodes.keys.toFinset, s.seqEdges.keys.toFinset, s.loopEdges.keys.toFinset)

theorem toFinset_keys_setAll {ι κ β : Type*} [DecidableEq κ] {key : ι → κ} {value : ι → β}
    {items : List ι} {m : AList fun _ : κ => β} :
    (setAll key value items m).keys.toFinset = m.keys.toFinset ⊔ (items.map key).toFinset := by
  ext k
  rw [Finset.sup_eq_union, Finset.mem_union, List.mem_toFinset, List.mem_toFinset,
    List.mem_toFinset, ← AList.mem_keys, ← AList.mem_keys, mem_setAll]

theorem keys_applyDiff (s : PoseGraphState R) (d : PoseGraphDiff R) :
    (s.applyDiff d).keys = s.keys ⊔ d.keys := by
  have hn : (d.newNodeIndices.zipIdx.map fun p => p.1) = d.newNodeIndices :=
    List.zipIdx_map_fst 0 d.newNodeIndices
  rw [keys, applyDiff, setNodes, setSeqEdges, setLoopEdges, setEdges, setEdges,
    toFinset_keys_setAll, toFinset_keys_setAll, toFinset_keys_setAll, hn]
  rfl

theorem keys_ofResponse (r : GetPoseGraphResponse R) : (ofResponse r).keys = r.graph.keys := by
  have hn : (r.graph.newNodeIndices.zipIdx.map fun p => p.1) = r.graph.newNodeIndices :=
    List.zipIdx_map_fst 0 r.graph.newNodeIndices
  rw [keys, ofResponse, setNodes, setSeqEdges, setLoopEdges, setEdges, setEdges,
    toFinset_keys_setAll, toFinset_keys_setAll, toFinset_keys_setAll, hn]
  simp only [AList.keys_empty, List.toFinset_nil, Finset.sup_eq_union, Finset.empty_union]
  rfl

end PoseGraphState

end MgRobot.WebUi

/-!
# The hook and the SLAM node

The pose graph of the SLAM node, the diffs and responses on their way to the
browser, and the hook's state there. By its keys the hook is a replica of the
node's graph that is kept up by snapshots and differences.
-/

namespace MgRobot.WebUi

set_option autoImplicit false

open MgRobot.Lib MgRobot.Lib.Runs MgRobot.Slam

variable {R : Type*}

/-- The numbers of frames beside what is on its way are ghosts. -/
structure PoseGraphSync (R : Type*) where
  /-- What the service answers now. -/
  server : GetPoseGraphResponse R
  frames : Nat
  state : PoseGraphState R
  /-- `isFetchingRef`. -/
  isFetching : Bool
  requests : Nat
  responses : List (Nat × GetPoseGraphResponse R)
  diffs : List (Nat × PoseGraphDiff R)

namespace PoseGraphSync

inductive Event (R : Type*) where
  | frame (diff : PoseGraphDiff R) (answer : GetPoseGraphResponse R)
  | fetchFullGraph
  | handleService
  | handleDiff
  | handleResponse

/-- The frame adds to the graph, and its diff carries exactly what it adds, unless it only asks
for a refresh. -/
def Consistent (before after : GetPoseGraphResponse R) (diff : PoseGraphDiff R) : Prop :=
  if diff.fullRefreshNeeded then before.graph.keys ⊔ after.graph.keys = after.graph.keys
  else after.graph.keys = before.graph.keys ⊔ diff.keys

instance (before after : GetPoseGraphResponse R) (diff : PoseGraphDiff R) :
    Decidable (Consistent before after diff) := by
  unfold Consistent
  infer_instance

/-- The hook's effects have run on a connection: it is subscribed, and its first fetch is out. -/
def init (server : GetPoseGraphResponse R) (state : PoseGraphState R) : PoseGraphSync R :=
  ⟨server, 0, state, true, 1, [], []⟩

variable (w : PoseGraphSync R)

/-- `fetchFullGraph` up to its `await`. -/
def fetchFullGraph : PoseGraphSync R :=
  if w.isFetching then w else { w with isFetching := true, requests := w.requests + 1 }

def step : Event R → Option (PoseGraphSync R)
  | .frame diff answer =>
      if Consistent w.server answer diff then
        some { w with
          server := answer
          frames := w.frames + 1
          diffs := w.diffs ++ [(w.frames + 1, diff)] }
      else none
  | .fetchFullGraph => some w.fetchFullGraph
  | .handleService =>
      match w.requests with
      | 0 => none
      | k + 1 => some { w with requests := k, responses := w.responses ++ [(w.frames, w.server)] }
  | .handleDiff =>
      match w.diffs with
      | [] => none
      | (_, diff) :: rest =>
          if diff.fullRefreshNeeded then some (fetchFullGraph { w with diffs := rest })
          else some { w with state := w.state.applyDiff diff, diffs := rest }
  | .handleResponse =>
      match w.responses with
      | [] => none
      | (_, response) :: rest =>
          some { w with
            state := .ofResponse response
            isFetching := false
            responses := rest }

/-- A diff that is handled while a response is on its way belongs to a frame which that response
already has. -/
def DiffCovered (w : PoseGraphSync R) (e : Event R) : Prop :=
  match e with
  | .handleDiff => ∀ d ∈ w.diffs.head?, ∀ r ∈ w.responses, d.1 ≤ r.1
  | _ => True

instance : DecidableRel (DiffCovered (R := R))
  | w, .handleDiff =>
      match h : w.diffs.head? with
      | none => isTrue (by simp [DiffCovered, h])
      | some d => decidable_of_iff (∀ r ∈ w.responses, d.1 ≤ r.1) (by simp [DiffCovered, h])
  | _, .frame .. | _, .fetchFullGraph | _, .handleService | _, .handleResponse => isTrue trivial

/-- No request, response or diff is on its way. -/
def Quiet : Prop := w.requests = 0 ∧ w.responses = [] ∧ w.diffs = []

instance : Decidable w.Quiet := inferInstanceAs (Decidable (_ ∧ _))

/-- What a diff means to a replica. -/
def carried (d : PoseGraphDiff R) : Option Keys :=
  if d.fullRefreshNeeded then none else some d.keys

/-- The hook as a replica of the keys of the graph. -/
def replica : Replica Keys where
  server := w.server.graph.keys
  steps := w.frames
  client := w.state.keys
  busy := w.isFetching
  requests := w.requests
  responses := w.responses.map fun r => (r.1, r.2.graph.keys)
  diffs := w.diffs.map fun d => (d.1, carried d.2)

def Event.replica : Event R → Replica.Event Keys
  | .frame diff answer =>
      .grow (if diff.fullRefreshNeeded then answer.graph.keys else diff.keys)
        (!diff.fullRefreshNeeded)
  | .fetchFullGraph => .fetch
  | .handleService => .snapshot
  | .handleDiff => .deliverDiff
  | .handleResponse => .deliverResponse

variable {w} {w' : PoseGraphSync R} {e : Event R} {es : List (Event R)}

theorem replica_fetchFullGraph : w.fetchFullGraph.replica = w.replica.fetch := by
  unfold fetchFullGraph Replica.fetch
  cases hb : w.isFetching <;> simp [replica, hb]

theorem replica_step (hs : w.step e = some w') : w.replica.step e.replica = some w'.replica := by
  cases e with
  | frame diff answer =>
      simp only [step] at hs
      split_ifs at hs with hc
      cases hs
      unfold Consistent at hc
      cases hf : diff.fullRefreshNeeded with
      | true =>
          rw [hf, if_pos rfl] at hc
          simp [Event.replica, Replica.step, replica, carried, hf, hc]
      | false =>
          rw [hf, if_neg Bool.false_ne_true] at hc
          simp [Event.replica, Replica.step, replica, carried, hf, hc]
  | fetchFullGraph =>
      cases hs
      exact congrArg some replica_fetchFullGraph.symm
  | handleService =>
      simp only [step] at hs
      split at hs
      · cases hs
      · rename_i k hk
        cases hs
        simp [Event.replica, Replica.step, replica, hk]
  | handleDiff =>
      simp only [step] at hs
      split at hs
      · cases hs
      · rename_i k diff rest hd
        cases hf : diff.fullRefreshNeeded with
        | true =>
            rw [hf, if_pos rfl] at hs
            cases hs
            rw [replica_fetchFullGraph]
            simp [Event.replica, Replica.step, replica, hd, carried, hf]
        | false =>
            rw [hf, if_neg Bool.false_ne_true] at hs
            cases hs
            simp [Event.replica, Replica.step, replica, hd, carried, hf,
              PoseGraphState.keys_applyDiff]
  | handleResponse =>
      simp only [step] at hs
      split at hs
      · cases hs
      · rename_i k response rest hr
        cases hs
        simp [Event.replica, Replica.step, replica, hr, PoseGraphState.keys_ofResponse]

theorem DiffCovered.replica (h : DiffCovered w e) : Replica.Covered w.replica e.replica := by
  cases e with
  | handleDiff =>
      intro _ d hd r hr
      simp only [PoseGraphSync.replica, List.head?_map, Option.mem_def, Option.map_eq_some_iff,
        List.mem_map] at hd hr
      obtain ⟨d, hd, rfl⟩ := hd
      obtain ⟨r, hr, rfl⟩ := hr
      exact h d hd r hr
  | _ => exact nofun

/-- Once nothing is on its way, the hook has the keys of the node's graph, if every diff that was
handled while a response was on its way belonged to a frame which the response already had. -/
theorem keys_eq_server (server : GetPoseGraphResponse R) (state : PoseGraphState R)
    (es : List (Event R)) (w : PoseGraphSync R) (hr : exec step (init server state) es = some w)
    (hc : Meets step DiffCovered (init server state) es) (hq : w.Quiet) :
    w.state.keys = w.server.graph.keys := by
  have hstep : ∀ (w : PoseGraphSync R) e w', w.step e = some w' →
      w.replica.step e.replica = some w'.replica := fun _ _ _ => replica_step
  have hcov := hc.map hstep (fun _ _ => DiffCovered.replica) hr
  have hrun := exec_map hstep hr
  obtain ⟨hreq, hresp, hdiffs⟩ := hq
  exact Replica.client_eq_server hcov hrun ⟨hreq, by rw [replica, hresp]; rfl,
    by rw [replica, hdiffs]; rfl⟩

/-- A message with nodes only. -/
def nodesMsg (indices : List Nat) : PoseGraphDiff ℤ where
  newNodeIndices := indices
  newNodeX := indices.map fun _ => 0
  newNodeY := indices.map fun _ => 0
  newNodeYaw := indices.map fun _ => 0
  newNodeTimestamps := indices.map fun _ => 0
  seqEdgeFrom := []
  seqEdgeTo := []
  seqEdgeScore := []
  seqEdgeType := []
  seqEdgeInfoDiag := []
  priorNodeIndices := []
  priorSigmaM := []
  priorGnssStatus := []
  loopEdgeFrom := []
  loopEdgeTo := []
  loopEdgeScore := []
  loopEdgeInfoDiag := []
  loopClosed := false
  fullRefreshNeeded := false

def answerOf (indices : List Nat) : GetPoseGraphResponse ℤ where
  graph := { nodesMsg indices with fullRefreshNeeded := true }
  stats := ⟨indices.length, 0, 0, 0, 0, 0, 0, 0⟩

/-- Two frames after the first response, the second one with a refresh. -/
def refreshedRun : List (Event ℤ) :=
  [.handleService, .handleResponse, .frame (nodesMsg [0]) (answerOf [0]), .handleDiff,
    .frame { nodesMsg [1] with fullRefreshNeeded := true } (answerOf [0, 1]), .handleDiff,
    .handleService, .handleResponse]

theorem keys_eq_server_refreshed :
    ∃ w, exec step (init (answerOf []) (.ofResponse (answerOf []))) refreshedRun = some w ∧
      w.server.graph.newNodeIndices = [0, 1] ∧ w.state.keys = w.server.graph.keys := by
  have h : ∃ w, exec step (init (answerOf []) (.ofResponse (answerOf []))) refreshedRun = some w ∧
      w.server.graph.newNodeIndices = [0, 1] ∧ w.Quiet := exists_exec (by decide +kernel)
  obtain ⟨w, hr, hn, hq⟩ := h
  exact ⟨w, hr, hn, keys_eq_server _ _ _ _ hr (by decide +kernel) hq⟩

/-- The service takes its snapshot, a frame adds a node, and its diff is handled before the
response: the response takes the node away. -/
theorem response_drops_newer_diff :
    ∃ w, exec step (init (answerOf []) (.ofResponse (answerOf [])))
        [.handleService, .frame (nodesMsg [0]) (answerOf [0]), .handleDiff, .handleResponse] =
        some w ∧
      w.Quiet ∧ w.state.keys ≠ w.server.graph.keys := by
  exact exists_exec (by decide +kernel)

end PoseGraphSync

end MgRobot.WebUi
