import Mathlib.Algebra.Order.BigOperators.Group.List
import Mathlib.Data.List.Sort
import Mathlib.Data.Prod.Lex
import Mathlib.Data.Rat.Floor
import MgRobot.Slam.CorrelativeSearch

/-!
# The order of the search

The search finds what one pass over all candidates finds, whichever thread takes which
rotation and whenever it is done with it.
-/

namespace MgRobot.Slam

set_option autoImplicit false

open MgRobot.Lib.FirstBest MgRobot.Lib.ParallelFor

variable {R : Type*}

section Orders

/-- Both loops over the shifts and the loop over the rotations count up. -/
theorem order_lt {N x y j j' : Nat} (hxy : x < y) (hj : j < N) : x * N + j < y * N + j' := by
  calc x * N + j < x * N + N := Nat.add_lt_add_left hj _
    _ = (x + 1) * N := (Nat.succ_mul x N).symm
    _ ≤ y * N := Nat.mul_le_mul_right N hxy
    _ ≤ y * N + j' := Nat.le_add_right _ _

theorem zipIdx_pairwise {α : Type*} (l : List α) : l.zipIdx.Pairwise fun a b => a.2 < b.2 := by
  have hrange : (l.zipIdx.map Prod.snd).Pairwise (· < ·) := by
    rw [List.zipIdx_map_snd]
    exact List.pairwise_lt_range'
  exact List.pairwise_map.mp hrange

namespace SearchInput

variable {a : Nat} {shifts : List R} {at' : R → R → Nat → Candidate R}

theorem order_of_mem_visit (hat : ∀ dx dy o, (at' dx dy o).order = o) {c : Candidate R}
    (hc : c ∈ visit a shifts at') : ∃ x j, x < (a + 1) * shifts.length ∧
      a * shifts.length ≤ x ∧ j < shifts.length ∧ c.order = x * shifts.length + j := by
  simp only [visit, List.mem_flatMap, List.mem_map] at hc
  obtain ⟨dx, hdx, dy, hdy, rfl⟩ := hc
  have hi : dx.2 < shifts.length := List.snd_lt_of_mem_zipIdx hdx
  refine ⟨a * shifts.length + dx.2, dy.2, ?_, Nat.le_add_right _ _,
    List.snd_lt_of_mem_zipIdx hdy, hat _ _ _⟩
  rw [Nat.succ_mul]
  exact Nat.add_lt_add_left hi _

theorem visit_pairwise (hat : ∀ dx dy o, (at' dx dy o).order = o) :
    (visit a shifts at').Pairwise fun c d => c.order < d.order := by
  unfold visit
  rw [List.pairwise_flatMap]
  constructor
  · intro dx _
    rw [List.pairwise_map]
    refine (zipIdx_pairwise shifts).imp fun {dy dy'} h => ?_
    rw [hat, hat]
    exact Nat.add_lt_add_left h _
  · refine (zipIdx_pairwise shifts).imp fun {dx dx'} h c hc d hd => ?_
    obtain ⟨dy, hdy, rfl⟩ := List.mem_map.mp hc
    obtain ⟨dy', _, rfl⟩ := List.mem_map.mp hd
    rw [hat, hat]
    exact order_lt (Nat.add_lt_add_left h _) (List.snd_lt_of_mem_zipIdx hdy)

/-- The candidates of all rotations come in the order of their indices. -/
theorem visits_pairwise {β : Type*} (items : List β) {cands : β × Nat → List (Candidate R)}
    (hcands : ∀ a, ∃ at', cands a = visit a.2 shifts at' ∧
      ∀ dx dy o, (at' dx dy o).order = o) :
    (items.zipIdx.flatMap cands).Pairwise fun c d => c.order < d.order := by
  rw [List.pairwise_flatMap]
  constructor
  · intro a _
    obtain ⟨at', ha, hat⟩ := hcands a
    rw [ha]
    exact visit_pairwise hat
  · refine (zipIdx_pairwise items).imp fun {a b} h c hc d hd => ?_
    obtain ⟨ata, ha, hata⟩ := hcands a
    obtain ⟨atb, hb, hatb⟩ := hcands b
    rw [ha] at hc
    rw [hb] at hd
    obtain ⟨x, j, hx, _, hj, hcorder⟩ := order_of_mem_visit hata hc
    obtain ⟨y, j', _, hy, _, hdorder⟩ := order_of_mem_visit hatb hd
    rw [hcorder, hdorder]
    exact order_lt (hx.trans_le ((Nat.mul_le_mul_right _ h).trans hy)) hj

end SearchInput

/-- Candidates with different orders are determined by them. -/
theorem eq_of_order_eq {l : List (Candidate R)}
    (h : l.Pairwise fun c d => c.order < d.order) {c d : Candidate R} (hc : c ∈ l) (hd : d ∈ l)
    (heq : c.order = d.order) : c = d := by
  have hnodup : (l.map (·.order)).Nodup := List.pairwise_map.mpr (h.imp fun hlt => hlt.ne)
  exact List.inj_on_of_nodup_map hnodup hc hd heq

end Orders

section Keys

variable [LinearOrder R]

/-- Best score first, then first index. -/
def coarseKey (c : Candidate R) : R ×ₗ Natᵒᵈ := toLex (c.score, OrderDual.toDual c.order)

/-- A candidate of the coarse search comes before all of the fine search. -/
def fineKey (c : Candidate R) : R ×ₗ Natᵒᵈ :=
  toLex (c.score, OrderDual.toDual (if c.updated then c.order + 1 else 0))

variable {b c : Candidate R}

theorem coarseKey_lt_iff : coarseKey b < coarseKey c ↔
    b.score < c.score ∨ c.score = b.score ∧ c.order < b.order := by
  unfold coarseKey
  rw [Prod.Lex.toLex_lt_toLex, OrderDual.toDual_lt_toDual, eq_comm]

omit [LinearOrder R] in
theorem coarseKey_eq (h : coarseKey b = coarseKey c) : b.score = c.score ∧ b.order = c.order := by
  have hpair := Prod.ext_iff.mp (toLex.injective h)
  exact ⟨hpair.1, OrderDual.toDual.injective hpair.2⟩

theorem takeCoarse_eq_pick (b c : Candidate R) : takeCoarse b c = pick coarseKey b c := by
  unfold takeCoarse pick
  by_cases h : coarseKey b < coarseKey c
  · rw [if_pos h, if_pos (coarseKey_lt_iff.mp h)]
  · rw [if_neg h, if_neg fun h' => h (coarseKey_lt_iff.mpr h')]

theorem fineKey_lt_iff (hc : c.updated = true) : fineKey b < fineKey c ↔
    b.score < c.score ∨ c.score = b.score ∧ b.updated = true ∧ c.order < b.order := by
  unfold fineKey
  rw [Prod.Lex.toLex_lt_toLex, OrderDual.toDual_lt_toDual, if_pos hc]
  dsimp only
  cases b.updated <;> simp [eq_comm]

omit [LinearOrder R] in
theorem fineKey_eq (h : fineKey b = fineKey c) : (if b.updated then b.order + 1 else 0) =
    if c.updated then c.order + 1 else 0 :=
  OrderDual.toDual.injective (Prod.ext_iff.mp (toLex.injective h)).2

theorem takeFine_eq_pick (b : Candidate R) (hc : c.updated = true) :
    takeFine b c = pick fineKey b c := by
  have hlt := fineKey_lt_iff (b := b) hc
  unfold takeFine takeCoarse pick
  cases hb : b.updated with
  | true => simp [hlt, hb]
  | false => simp [hlt, hb]

end Keys

section Threads

variable [LinearOrder R] {n : Nat} {ι : Type*} {items : List ι} {cands : ι → List (Candidate R)}

/-- The merge of the coarse search finds the best of all candidates. -/
theorem isBest_mergeCoarse (s : Schedule n items) (init : Candidate R) :
    IsBest coarseKey (init :: items.flatMap cands)
      (((List.finRange n).map (threadBest coarseKey s cands init)).foldl
        (pick coarseKey) init) := by
  refine (isBest_foldl_pick init _).of_parts List.mem_cons_self ?_ ?_
  · intro p hp
    obtain ⟨t, _, rfl⟩ := List.mem_map.mp hp
    rcases List.mem_cons.mp (isBest_threadBest coarseKey s cands init t).mem with h | h
    · rw [h]
      exact List.mem_cons_self
    · exact List.mem_cons_of_mem _ ((mem_flatMap_own_iff s cands).mp ⟨t, h⟩)
  · intro y hy
    rcases List.mem_cons.mp hy with rfl | hy
    · exact ⟨y, List.mem_cons_self, le_rfl⟩
    · obtain ⟨t, ht⟩ := (mem_flatMap_own_iff s cands).mpr hy
      exact ⟨threadBest coarseKey s cands init t,
        List.mem_cons_of_mem _ (List.mem_map_of_mem (List.mem_finRange t)),
        (isBest_threadBest coarseKey s cands init t).le y (List.mem_cons_of_mem _ ht)⟩

/-- Once a candidate of the fine search is taken, the merge keeps the best one. -/
theorem foldl_mergeFine_found {b : Candidate R} (hb : b.updated = true)
    (parts : List (Candidate R)) : (parts.foldl mergeFine (b, true)).1 =
      (parts.filter (·.updated)).foldl (pick fineKey) b := by
  induction parts generalizing b with
  | nil => rfl
  | cons c rest ih =>
      by_cases hc : c.updated = true
      · have hlt := fineKey_lt_iff (b := b) hc
        rw [List.foldl_cons, List.filter_cons, if_pos hc, List.foldl_cons]
        by_cases hbetter : b.score < c.score ∨ c.score = b.score ∧ c.order < b.order
        · have hmerge : mergeFine (b, true) c = (c, true) := by simp [mergeFine, hc, hbetter]
          have hpick : pick fineKey b c = c := by
            refine if_pos (hlt.mpr ?_)
            exact hbetter.imp_right fun h => ⟨h.1, hb, h.2⟩
          rw [hmerge, hpick, ih hc]
        · have hmerge : mergeFine (b, true) c = (b, true) := by simp [mergeFine, hc, hbetter]
          have hpick : pick fineKey b c = b := by
            refine if_neg fun h => hbetter ?_
            exact (hlt.mp h).imp_right fun h' => ⟨h'.1, h'.2.2⟩
          rw [hmerge, hpick, ih hb]
      · have hmerge : mergeFine (b, true) c = (b, true) := by simp [mergeFine, hc]
        rw [List.foldl_cons, List.filter_cons, if_neg hc, hmerge, ih hb]

/-- The merge of the fine search skips the threads that found nothing better. -/
theorem foldl_mergeFine {best : Candidate R} {parts : List (Candidate R)}
    (hparts : ∀ p ∈ parts, p.updated = true → best.score < p.score) :
    (parts.foldl mergeFine (best, false)).1 =
      (parts.filter (·.updated)).foldl (pick fineKey) best := by
  induction parts with
  | nil => rfl
  | cons c rest ih =>
      have hrest := ih fun p hp => hparts p (List.mem_cons_of_mem c hp)
      by_cases hc : c.updated = true
      · have hscore := hparts c List.mem_cons_self hc
        have hmerge : mergeFine (best, false) c = (c, true) := by simp [mergeFine, hc]
        have hpick : pick fineKey best c = c := if_pos ((fineKey_lt_iff hc).mpr (Or.inl hscore))
        rw [List.foldl_cons, List.filter_cons, if_pos hc, List.foldl_cons, hmerge, hpick]
        exact foldl_mergeFine_found hc rest
      · have hmerge : mergeFine (best, false) c = (best, false) := by simp [mergeFine, hc]
        rw [List.foldl_cons, List.filter_cons, if_neg hc, hmerge, hrest]

/-- The merge of the fine search finds the best of the coarse search and all candidates. -/
theorem isBest_mergeFine (s : Schedule n items) {best init : Candidate R}
    (hbest : best.updated = false) (hinit : init.updated = false)
    (hscore : init.score = best.score) (hcands : ∀ i, ∀ c ∈ cands i, c.updated = true) :
    IsBest fineKey (best :: items.flatMap cands)
      (((List.finRange n).map (threadBest fineKey s cands init)).foldl mergeFine
        (best, false)).1 := by
  have hkey : fineKey init = fineKey best := by
    unfold fineKey
    rw [hscore, hinit, hbest]
    rfl
  have hown : ∀ t, threadBest fineKey s cands init t = init ∨
      threadBest fineKey s cands init t ∈ (own s.steps t).flatMap cands := fun t =>
    List.mem_cons.mp (isBest_threadBest fineKey s cands init t).mem
  have hupdated : ∀ t, ∀ c ∈ (own s.steps t).flatMap cands, c.updated = true := by
    intro t c hc
    obtain ⟨i, _, hi⟩ := List.mem_flatMap.mp hc
    exact hcands i c hi
  have hle : ∀ t, fineKey best ≤ fineKey (threadBest fineKey s cands init t) := fun t =>
    hkey ▸ (isBest_threadBest fineKey s cands init t).le init List.mem_cons_self
  rw [foldl_mergeFine]
  · refine (isBest_foldl_pick best _).of_parts List.mem_cons_self ?_ ?_
    · intro p hp
      obtain ⟨hp, hup⟩ := List.mem_filter.mp hp
      obtain ⟨t, _, rfl⟩ := List.mem_map.mp hp
      rcases hown t with h | h
      · rw [h, hinit] at hup
        cases hup
      · exact List.mem_cons_of_mem _ ((mem_flatMap_own_iff s cands).mp ⟨t, h⟩)
    · intro y hy
      rcases List.mem_cons.mp hy with rfl | hy
      · exact ⟨y, List.mem_cons_self, le_rfl⟩
      · obtain ⟨t, ht⟩ := (mem_flatMap_own_iff s cands).mpr hy
        have hyt := (isBest_threadBest fineKey s cands init t).le y
          (List.mem_cons_of_mem _ ht)
        rcases hown t with h | h
        · exact ⟨best, List.mem_cons_self, by rwa [h, hkey] at hyt⟩
        · refine ⟨_, List.mem_cons_of_mem _ (List.mem_filter.mpr ⟨?_, hupdated t _ h⟩), hyt⟩
          exact List.mem_map_of_mem (List.mem_finRange t)
  · intro p hp hup
    obtain ⟨t, _, rfl⟩ := List.mem_map.mp hp
    have hlt : fineKey best < fineKey (threadBest fineKey s cands init t) := by
      refine lt_of_le_of_ne (hle t) fun h => ?_
      have horder := fineKey_eq h
      simp [hbest, hup] at horder
    rcases (fineKey_lt_iff hup).mp hlt with h | h
    · exact h
    · rw [hbest] at h
      cases h.2.1

end Threads

namespace SearchInput

variable [Field R] [LinearOrder R] [FloorRing R]
variable (cfg : CsmConfig R) (m : Numerics R) (exp : Exponential R) (q : SearchInput R)

/-- One pass over the coarse candidates in the order of their indices. -/
def sequentialCoarse : Candidate R :=
  ((q.yawCandidates cfg m).flatMap (q.coarseCandidates cfg m exp)).foldl
    (pickFirst Candidate.score) (q.initCandidate m)

def sequentialFine (best : Candidate R) : Candidate R :=
  ((fineSteps cfg m).flatMap (q.fineCandidates cfg m exp best)).foldl
    (pickFirst Candidate.score) best

/-- The first best candidate of each search in turn; the fine one has to beat the coarse one. -/
def sequentialSearch : Candidate R :=
  q.sequentialFine cfg m exp (q.sequentialCoarse cfg m exp)

theorem coarseCandidates_visit (a : R × Nat) : ∃ at', q.coarseCandidates cfg m exp a =
    visit a.2 (coarseOffsets cfg) at' ∧ ∀ dx dy o, (at' dx dy o).order = o := by
  unfold coarseCandidates
  dsimp only
  refine ⟨_, rfl, ?_⟩
  intro dx dy o
  rfl

theorem fineCandidates_visit (best : Candidate R) (a : Int × Nat) :
    ∃ at', q.fineCandidates cfg m exp best a = visit a.2 (fineOffsets cfg) at' ∧
      ∀ dx dy o, (at' dx dy o).order = o := by
  unfold fineCandidates
  dsimp only
  refine ⟨_, rfl, ?_⟩
  intro dx dy o
  rfl

theorem coarse_pairwise : ((q.yawCandidates cfg m).flatMap (q.coarseCandidates cfg m exp)).Pairwise
    fun c d => c.order < d.order :=
  visits_pairwise _ (q.coarseCandidates_visit cfg m exp)

theorem fine_pairwise (best : Candidate R) :
    ((fineSteps cfg m).flatMap (q.fineCandidates cfg m exp best)).Pairwise
      fun c d => c.order < d.order :=
  visits_pairwise _ (q.fineCandidates_visit cfg m exp best)

theorem mem_fineCandidates {best c : Candidate R} {a : Int × Nat}
    (hc : c ∈ q.fineCandidates cfg m exp best a) : c.updated = true := by
  simp only [fineCandidates, visit, List.mem_flatMap, List.mem_map] at hc
  obtain ⟨_, _, _, _, rfl⟩ := hc
  rfl

theorem anglePenaltyAt_nonneg (theta : R) : 0 ≤ q.anglePenaltyAt cfg m exp theta := by
  unfold anglePenaltyAt
  split
  · exact (exp.nonneg _).trans (le_max_right _ _)
  · exact zero_le_one

theorem distancePenaltyAt_nonneg (distSq : R) : 0 ≤ distancePenaltyAt cfg exp distSq := by
  unfold distancePenaltyAt
  split
  · exact (exp.nonneg _).trans (le_max_right _ _)
  · exact zero_le_one

variable [IsStrictOrderedRing R]

theorem coarseSum_nonneg (grid : LikelihoodGrid R) (rPts : List (R × R)) (cx cy : R) :
    0 ≤ coarseSum grid rPts cx cy := by
  refine List.sum_nonneg fun v hv => ?_
  obtain ⟨p, _, rfl⟩ := List.mem_map.mp hv
  split
  · exact grid.nonneg _
  · exact le_rfl

/-- No coarse candidate has a negative score. -/
theorem mem_coarseCandidates {c : Candidate R} {a : R × Nat}
    (hc : c ∈ q.coarseCandidates cfg m exp a) : 0 ≤ c.score ∧ c.updated = false := by
  simp only [coarseCandidates, visit, List.mem_flatMap, List.mem_map] at hc
  obtain ⟨dx, _, dy, _, rfl⟩ := hc
  refine ⟨?_, rfl⟩
  have hinv : (0 : R) ≤ 1 / q.dstPts.length := div_nonneg zero_le_one (Nat.cast_nonneg _)
  exact mul_nonneg (mul_nonneg (mul_nonneg (coarseSum_nonneg _ _ _ _) hinv)
    (q.anglePenaltyAt_nonneg cfg m exp a.1)) (distancePenaltyAt_nonneg cfg exp _)

theorem searchCoarse_eq {n : Nat} (s : Schedule n (q.yawCandidates cfg m)) :
    q.searchCoarse cfg m exp s = q.sequentialCoarse cfg m exp := by
  have hscore : ∀ c ∈ (q.yawCandidates cfg m).flatMap (q.coarseCandidates cfg m exp),
      (q.initCandidate m).score < c.score := by
    intro c hc
    obtain ⟨a, _, ha⟩ := List.mem_flatMap.mp hc
    exact neg_one_lt_zero.trans_le (q.mem_coarseCandidates cfg m exp ha).1
  have hfirst : (q.initCandidate m ::
      (q.yawCandidates cfg m).flatMap (q.coarseCandidates cfg m exp)).Pairwise
        fun x y => coarseKey x < coarseKey y ↔ x.score < y.score := by
    refine List.pairwise_cons.mpr ⟨fun c hc => ?_, ?_⟩
    · exact iff_of_true (coarseKey_lt_iff.mpr (Or.inl (hscore c hc))) (hscore c hc)
    · refine (q.coarse_pairwise cfg m exp).imp fun {c d} h => ?_
      rw [coarseKey_lt_iff, or_iff_left fun hd => absurd hd.2 h.le.not_gt]
  have hseq := foldl_pickFirst_eq hfirst
  have hpar : q.searchCoarse cfg m exp s = ((List.finRange n).map (threadBest coarseKey s
      (q.coarseCandidates cfg m exp) (q.initCandidate m))).foldl (pick coarseKey)
        (q.initCandidate m) := by
    have htake : (takeCoarse : Candidate R → Candidate R → Candidate R) = pick coarseKey :=
      funext₂ takeCoarse_eq_pick
    unfold searchCoarse threadBest
    rw [htake]
  rw [hpar, sequentialCoarse, hseq]
  refine (isBest_mergeCoarse s _).eq (isBest_foldl_pick _ _) ?_
  intro c hc d hd h
  obtain ⟨hs, ho⟩ := coarseKey_eq h
  rcases List.mem_cons.mp hc with rfl | hc
  · rcases List.mem_cons.mp hd with rfl | hd
    · rfl
    · exact absurd hs (hscore d hd).ne
  · rcases List.mem_cons.mp hd with rfl | hd
    · exact absurd hs (hscore c hc).ne'
    · exact eq_of_order_eq (q.coarse_pairwise cfg m exp) hc hd ho

theorem sequentialCoarse_updated : (q.sequentialCoarse cfg m exp).updated = false := by
  unfold sequentialCoarse
  refine foldl_select (P := fun c : Candidate R => c.updated = false) ?_ rfl ?_
  · intro b c
    unfold pickFirst
    split
    · exact Or.inr rfl
    · exact Or.inl rfl
  · intro c hc
    obtain ⟨a, _, ha⟩ := List.mem_flatMap.mp hc
    exact (q.mem_coarseCandidates cfg m exp ha).2

omit [IsStrictOrderedRing R] in
theorem searchFine_eq {n : Nat} {best : Candidate R} (hbest : best.updated = false)
    (s : Schedule n (fineSteps cfg m)) :
    q.searchFine cfg m exp best s = q.sequentialFine cfg m exp best := by
  have hupdated : ∀ a, ∀ c ∈ q.fineCandidates cfg m exp best a, c.updated = true :=
    fun a c hc => q.mem_fineCandidates cfg m exp hc
  have hall : ∀ c ∈ (fineSteps cfg m).flatMap (q.fineCandidates cfg m exp best),
      c.updated = true := by
    intro c hc
    obtain ⟨a, _, ha⟩ := List.mem_flatMap.mp hc
    exact hupdated a c ha
  have hfirst : (best :: (fineSteps cfg m).flatMap (q.fineCandidates cfg m exp best)).Pairwise
      fun x y => fineKey x < fineKey y ↔ x.score < y.score := by
    refine List.pairwise_cons.mpr ⟨fun c hc => ?_, ?_⟩
    · rw [fineKey_lt_iff (hall c hc), hbest]
      simp
    · refine (q.fine_pairwise cfg m exp best).imp_of_mem fun {c d} _ hd h => ?_
      rw [fineKey_lt_iff (hall d hd), or_iff_left fun hlt => absurd hlt.2.2 h.le.not_gt]
  have hseq := foldl_pickFirst_eq hfirst
  have hpar : q.searchFine cfg m exp best s =
      (((List.finRange n).map (threadBest fineKey s (q.fineCandidates cfg m exp best)
        { best with order := int64Max, updated := false })).foldl mergeFine (best, false)).1 := by
    have htake : (fun (b : Candidate R) (a : Int × Nat) =>
        (q.fineCandidates cfg m exp best a).foldl takeFine b) =
          fun b a => (q.fineCandidates cfg m exp best a).foldl (pick fineKey) b := by
      funext b a
      exact List.foldl_ext _ _ _ fun b c hc => takeFine_eq_pick b (hupdated a c hc)
    unfold searchFine threadBest
    rw [htake]
  rw [hpar, sequentialFine, hseq]
  refine IsBest.eq (isBest_mergeFine s hbest ?_ ?_ hupdated) (isBest_foldl_pick _ _) ?_
  · rfl
  · rfl
  intro c hc d hd h
  have ho := fineKey_eq h
  rcases List.mem_cons.mp hc with rfl | hc
  · rcases List.mem_cons.mp hd with rfl | hd
    · rfl
    · simp [hbest, hall d hd] at ho
  · rcases List.mem_cons.mp hd with rfl | hd
    · simp [hbest, hall c hc] at ho
    · rw [if_pos (hall c hc), if_pos (hall d hd), Nat.add_right_cancel_iff] at ho
      exact eq_of_order_eq (q.fine_pairwise cfg m exp best) hc hd ho

/-- The threads find the candidate of the sequential search. -/
theorem search_eq_sequential {n : Nat}
    (s : SearchSchedule n (q.yawCandidates cfg m) (fineSteps cfg m)) :
    q.search cfg m exp s = q.sequentialSearch cfg m exp := by
  unfold search sequentialSearch
  rw [q.searchCoarse_eq cfg m exp s.coarse]
  exact q.searchFine_eq cfg m exp (q.sequentialCoarse_updated cfg m exp) s.fine

end SearchInput

section Ties

/-- A constant function is good enough for a search without penalties. -/
def constOne : Exponential ℚ := ⟨fun _ => 1, fun _ => zero_le_one⟩

/-- Angles to first order. -/
def Numerics.smallAngles : Numerics ℚ :=
  { Numerics.axis with sin := id, atan2 := fun y _ => y }

/-- Three rotations and nine shifts, then three rotations and 25 shifts. -/
def smallWindow : CsmConfig ℚ := ⟨1 / 50, 1 / 1000, 1 / 50, 1 / 1000, false, 0, 0, 0, 0⟩

/-- The cells of one column score more. -/
def columnGrid : LikelihoodGrid ℚ where
  originX := -10
  originY := -10
  resolution := 1
  width := 20
  height := 20
  data i := if i % 20 = 9 then 3 else 1
  nonneg i := by
    split
    · exact zero_le_three
    · exact zero_le_one

/-- Every candidate of the coarse search has the same score, and in the fine search those with the
same shift in `x`. -/
def tiedInput : SearchInput ℚ where
  grid := columnGrid
  dstPts := [(49 / 100, 0)]
  guess := ⟨0, 0, 0⟩

theorem tied_yawCandidates : tiedInput.yawCandidates smallWindow .smallAngles =
    [(-1 / 1000, 0), (0, 1), (1 / 1000, 2)] := by
  unfold SearchInput.yawCandidates
  dsimp only
  rw [List.mergeSort_eq_insertionSort]
  decide +kernel

/-- Both searches take the rotations from the last to the first, on two threads. -/
def lastFirst : SearchSchedule 2 (tiedInput.yawCandidates smallWindow .smallAngles)
    (SearchInput.fineSteps smallWindow .smallAngles) where
  coarse := ⟨[(0, (1 / 1000, 2)), (1, (0, 1)), (0, (-1 / 1000, 0))], by
    rw [tied_yawCandidates]
    decide +kernel⟩
  fine := ⟨[(1, (1, 2)), (0, (0, 1)), (1, (-1, 0))], by decide +kernel⟩

/-- Of the best candidates the threads find the one that the sequential search meets first. -/
theorem search_eq_sequential_tied :
    let best := tiedInput.search smallWindow .smallAngles constOne lastFirst
    best = tiedInput.sequentialSearch smallWindow .smallAngles constOne ∧
      best.score = 11 / 10 ∧ best.cx = 45 / 100 ∧ best.cy = -4 / 100 ∧
      best.theta = -1 / 1000 - 71 / 20340 ∧ best.order = 0 ∧ best.updated = true := by
  have heq := tiedInput.search_eq_sequential smallWindow .smallAngles constOne lastFirst
  refine ⟨heq, ?_⟩
  rw [heq, SearchInput.sequentialSearch, SearchInput.sequentialCoarse, tied_yawCandidates]
  decide +kernel

end Ties

end MgRobot.Slam
