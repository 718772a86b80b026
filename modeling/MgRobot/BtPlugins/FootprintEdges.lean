import Mathlib.Data.List.Basic
import Mathlib.Order.Lattice
import MgRobot.BtPlugins.PathClearance

/-!
# What `footprintCost` answers

In terms of the edges of the footprint in the order in which they are drawn. One
edge with a lethal cell costs 254, whatever else it has. Over the edges the
larger cost wins, and unknown is 255: once an edge with unknown cells only has been
drawn, no lethal cell of a later edge counts.
-/

namespace MgRobot.BtPlugins

set_option autoImplicit false

variable {R : Type*}

namespace Costmap2D

variable (costmap : Costmap2D R)

def HasCost (cost : Nat) (cells : List Cell) : Prop := ∃ cell ∈ cells, costmap.pointCost cell = cost

instance (cost : Nat) (cells : List Cell) : Decidable (costmap.HasCost cost cells) :=
  inferInstanceAs (Decidable (∃ cell ∈ cells, costmap.pointCost cell = cost))

/-- Of the edges with lethal or unknown cells, the first has a lethal one. -/
def lethalFirst : List (List Cell) → Bool
  | [] => false
  | cells :: rest =>
      if costmap.HasCost LETHAL_OBSTACLE cells then true
      else if costmap.HasCost NO_INFORMATION cells then false
      else lethalFirst rest

variable {costmap}

theorem pointCost_le (costmap : Costmap2D R) (cell : Cell) : costmap.pointCost cell ≤ NO_INFORMATION :=
  Nat.le_of_lt_succ (costmap.cost cell).toNat_lt

theorem costAlong_lethal : ∀ {cells : List Cell} (k : Nat), costmap.HasCost LETHAL_OBSTACLE cells →
    costmap.costAlong k cells = LETHAL_OBSTACLE
  | [], _, h => by
      obtain ⟨cell, hcell, _⟩ := h
      exact absurd hcell List.not_mem_nil
  | cell :: rest, k, h => by
      unfold costAlong
      split
      next => rfl
      next hcell =>
        obtain ⟨c, hc, hcost⟩ := h
        rcases List.mem_cons.mp hc with rfl | hc
        · exact absurd hcost hcell
        · exact costAlong_lethal _ ⟨c, hc, hcost⟩

theorem not_hasCost_cons {cost : Nat} {cell : Cell} {rest : List Cell} :
    ¬ costmap.HasCost cost (cell :: rest) ↔
      costmap.pointCost cell ≠ cost ∧ ¬ costmap.HasCost cost rest := by
  unfold HasCost
  rw [List.exists_mem_cons_iff, not_or]

theorem costAlong_unknown : ∀ {cells : List Cell} {k : Nat},
    ¬ costmap.HasCost LETHAL_OBSTACLE cells → k ≤ NO_INFORMATION →
    (k = NO_INFORMATION ∨ costmap.HasCost NO_INFORMATION cells) →
    costmap.costAlong k cells = NO_INFORMATION
  | [], _, _, _, h => h.resolve_right fun ⟨_, hcell, _⟩ => List.not_mem_nil hcell
  | cell :: rest, k, hlethal, hk, h => by
      obtain ⟨hcell, hrest⟩ := not_hasCost_cons.mp hlethal
      rw [costAlong, if_neg hcell]
      refine costAlong_unknown hrest (max_le hk (pointCost_le _ cell)) ?_
      rcases h with hk | ⟨c, hc, hcost⟩
      · exact .inl ((max_eq_left (hk ▸ pointCost_le _ cell)).trans hk)
      · rcases List.mem_cons.mp hc with rfl | hc
        · exact .inl ((max_eq_right (hcost ▸ hk)).trans hcost)
        · exact .inr ⟨c, hc, hcost⟩

theorem costAlong_lt : ∀ {cells : List Cell} {k : Nat},
    ¬ costmap.HasCost LETHAL_OBSTACLE cells → ¬ costmap.HasCost NO_INFORMATION cells →
    k < LETHAL_OBSTACLE → costmap.costAlong k cells < LETHAL_OBSTACLE
  | [], _, _, _, hk => hk
  | cell :: rest, k, hlethal, hunknown, hk => by
      obtain ⟨hcell, hrest⟩ := not_hasCost_cons.mp hlethal
      obtain ⟨hcell', hrest'⟩ := not_hasCost_cons.mp hunknown
      rw [costAlong, if_neg hcell]
      refine costAlong_lt hrest hrest' (max_lt hk ?_)
      have hle := pointCost_le costmap cell
      unfold NO_INFORMATION at hle hcell'
      unfold LETHAL_OBSTACLE at hcell ⊢
      omega

theorem lineCost_le (line : LineIterator) (c₀ c₁ : Cell) :
    costmap.lineCost line c₀ c₁ ≤ NO_INFORMATION := by
  unfold lineCost
  by_cases hlethal : costmap.HasCost LETHAL_OBSTACLE (line c₀ c₁)
  · rw [costAlong_lethal 0 hlethal]
    decide
  · by_cases hunknown : costmap.HasCost NO_INFORMATION (line c₀ c₁)
    · exact (costAlong_unknown hlethal (Nat.zero_le _) (.inr hunknown)).le
    · exact le_trans (costAlong_lt hlethal hunknown (by decide)).le (by decide)

/-! ### The outline -/

section Outline

variable [Field R] [LinearOrder R] [FloorRing R]

/-- The cells of an edge; none is drawn where an end is outside the map. -/
def edgeCells (costmap : Costmap2D R) (line : LineIterator) (p q : Point R) : List Cell :=
  match costmap.worldToMap p.x p.y, costmap.worldToMap q.x q.y with
  | some c₀, some c₁ => line c₀ c₁
  | _, _ => []

/-- The edges from a point on, in the order in which they are drawn. -/
def edgesFrom (costmap : Costmap2D R) (line : LineIterator) (start : Point R) :
    Point R → List (Point R) → List (List Cell)
  | p, [] => [costmap.edgeCells line start p]
  | p, q :: rest => costmap.edgeCells line p q :: edgesFrom costmap line start q rest

def edges (costmap : Costmap2D R) (line : LineIterator) : List (Point R) → List (List Cell)
  | [] => []
  | p :: rest => costmap.edgesFrom line p p rest

/-- A vertex is outside the map. -/
def VertexOutside (costmap : Costmap2D R) (points : List (Point R)) : Prop :=
  ∃ p ∈ points, costmap.worldToMap p.x p.y = none

instance (costmap : Costmap2D R) (points : List (Point R)) :
    Decidable (costmap.VertexOutside points) :=
  inferInstanceAs (Decidable (∃ p ∈ points, costmap.worldToMap p.x p.y = none))

variable {line : LineIterator}

theorem edgeCells_eq {p q : Point R} {c₀ c₁ : Cell} (hp : costmap.worldToMap p.x p.y = some c₀)
    (hq : costmap.worldToMap q.x q.y = some c₁) : costmap.edgeCells line p q = line c₀ c₁ := by
  unfold edgeCells
  rw [hp, hq]

theorem outlineCost_outside {cs : Cell} : ∀ {points : List (Point R)} {c₀ : Cell} {k : Nat},
    costmap.VertexOutside points →
    costmap.outlineCost line cs c₀ k points = LETHAL_OBSTACLE
  | [], _, _, ⟨_, hp, _⟩ => absurd hp List.not_mem_nil
  | q :: rest, c₀, k, h => by
      unfold outlineCost
      split
      next => rfl
      next c₁ hq =>
        dsimp only
        split
        next hlethal => exact hlethal
        next =>
          refine outlineCost_outside ?_
          obtain ⟨p, hp, hout⟩ := h
          rcases List.mem_cons.mp hp with rfl | hp
          · rw [hq] at hout
            exact absurd hout nofun
          · exact ⟨p, hp, hout⟩

theorem not_vertexOutside_cons {p : Point R} {rest : List (Point R)} :
    ¬ costmap.VertexOutside (p :: rest) ↔
      (∃ c, costmap.worldToMap p.x p.y = some c) ∧ ¬ costmap.VertexOutside rest := by
  unfold VertexOutside
  rw [List.exists_mem_cons_iff, not_or, ← ne_eq, Option.ne_none_iff_exists']

/-- Unknown wins over all edges that follow. -/
theorem outlineCost_unknown {cs : Cell} : ∀ {points : List (Point R)} {c₀ : Cell},
    ¬ costmap.VertexOutside points →
    costmap.outlineCost line cs c₀ NO_INFORMATION points = NO_INFORMATION
  | [], _, _ => max_eq_right (lineCost_le _ _ _)
  | q :: rest, c₀, h => by
      obtain ⟨⟨c₁, hq⟩, hrest⟩ := not_vertexOutside_cons.mp h
      have hmax : max (costmap.lineCost line c₀ c₁) NO_INFORMATION = NO_INFORMATION :=
        max_eq_right (lineCost_le _ _ _)
      rw [outlineCost, hq]
      dsimp only
      rw [hmax, if_neg (by decide)]
      exact outlineCost_unknown hrest

omit [Field R] [LinearOrder R] [FloorRing R] in
theorem lineCost_unknown {c₀ c₁ : Cell}
    (hlethal : ¬ costmap.HasCost LETHAL_OBSTACLE (line c₀ c₁))
    (hunknown : costmap.HasCost NO_INFORMATION (line c₀ c₁)) :
    costmap.lineCost line c₀ c₁ = NO_INFORMATION :=
  costAlong_unknown hlethal (Nat.zero_le _) (.inr hunknown)

/-- As long as the cost is below lethal, the first edge with a lethal or unknown cell decides. -/
theorem outlineCost_cases {start : Point R} {cs : Cell}
    (hstart : costmap.worldToMap start.x start.y = some cs) :
    ∀ {points : List (Point R)} {p : Point R} {c₀ : Cell} {k : Nat},
      costmap.worldToMap p.x p.y = some c₀ → ¬ costmap.VertexOutside points →
      k < LETHAL_OBSTACLE →
      (costmap.lethalFirst (costmap.edgesFrom line start p points) = true ∧
        costmap.outlineCost line cs c₀ k points = LETHAL_OBSTACLE) ∨
      (costmap.lethalFirst (costmap.edgesFrom line start p points) = false ∧
        (∃ e ∈ costmap.edgesFrom line start p points, costmap.HasCost NO_INFORMATION e) ∧
        costmap.outlineCost line cs c₀ k points = NO_INFORMATION) ∨
      (costmap.lethalFirst (costmap.edgesFrom line start p points) = false ∧
        (¬ ∃ e ∈ costmap.edgesFrom line start p points, costmap.HasCost NO_INFORMATION e) ∧
        costmap.outlineCost line cs c₀ k points < LETHAL_OBSTACLE)
  | [], p, c₀, k, hp, _, hk => by
      have hedges : costmap.edgesFrom line start p [] = [line cs c₀] := by
        rw [edgesFrom, edgeCells_eq hstart hp]
      rw [hedges]
      unfold lethalFirst outlineCost
      by_cases hlethal : costmap.HasCost LETHAL_OBSTACLE (line cs c₀)
      · refine .inl ⟨if_pos hlethal, ?_⟩
        rw [lineCost, costAlong_lethal 0 hlethal]
        exact max_eq_left hk.le
      · by_cases hunknown : costmap.HasCost NO_INFORMATION (line cs c₀)
        · refine .inr (.inl ⟨?_, ⟨_, List.mem_singleton_self _, hunknown⟩, ?_⟩)
          · rw [if_neg hlethal, if_pos hunknown]
          · rw [lineCost_unknown hlethal hunknown]
            exact max_eq_left (le_trans hk.le (by decide))
        · refine .inr (.inr ⟨?_, ?_, ?_⟩)
          · rw [if_neg hlethal, if_neg hunknown]
            rfl
          · rintro ⟨e, he, hcost⟩
            rw [List.mem_singleton.mp he] at hcost
            exact hunknown hcost
          · exact max_lt (costAlong_lt hlethal hunknown (by decide)) hk
  | q :: rest, p, c₀, k, hp, hin, hk => by
      obtain ⟨⟨c₁, hq⟩, hrest⟩ := not_vertexOutside_cons.mp hin
      have hedges : costmap.edgesFrom line start p (q :: rest) =
          line c₀ c₁ :: costmap.edgesFrom line start q rest := by
        rw [edgesFrom, edgeCells_eq hp hq]
      rw [hedges, outlineCost, hq]
      dsimp only
      unfold lethalFirst
      by_cases hlethal : costmap.HasCost LETHAL_OBSTACLE (line c₀ c₁)
      · refine .inl ⟨if_pos hlethal, ?_⟩
        rw [lineCost, costAlong_lethal 0 hlethal, max_eq_left hk.le, if_pos rfl]
      · rw [if_neg hlethal]
        by_cases hunknown : costmap.HasCost NO_INFORMATION (line c₀ c₁)
        · refine .inr (.inl ⟨if_pos hunknown, ⟨_, List.mem_cons_self, hunknown⟩, ?_⟩)
          rw [lineCost_unknown hlethal hunknown, max_eq_left (le_trans hk.le (by decide)),
            if_neg (by decide)]
          exact outlineCost_unknown hrest
        · have hline : costmap.lineCost line c₀ c₁ < LETHAL_OBSTACLE :=
            costAlong_lt hlethal hunknown (by decide)
          have hmax := max_lt hline hk
          rw [if_neg hunknown, if_neg hmax.ne]
          have hcons : (∃ e ∈ line c₀ c₁ :: costmap.edgesFrom line start q rest,
              costmap.HasCost NO_INFORMATION e) ↔
              ∃ e ∈ costmap.edgesFrom line start q rest, costmap.HasCost NO_INFORMATION e := by
            rw [List.exists_mem_cons_iff]
            exact or_iff_right hunknown
          rw [hcons]
          exact outlineCost_cases hstart hq hrest hmax

theorem footprintCost_outside {points : List (Point R)} (h : costmap.VertexOutside points) :
    costmap.footprintCost line points = LETHAL_OBSTACLE := by
  cases points with
  | nil => rfl
  | cons p rest =>
      rw [footprintCost]
      split
      next => rfl
      next cs hp =>
        have hrest : costmap.VertexOutside rest := by
          by_contra hrest
          exact absurd h (not_vertexOutside_cons.mpr ⟨⟨cs, hp⟩, hrest⟩)
        exact outlineCost_outside hrest

/-- With all vertices in the map, the first edge with a lethal or unknown cell decides. -/
theorem footprintCost_cases (line : LineIterator) {points : List (Point R)} (hne : points ≠ [])
    (hin : ¬ costmap.VertexOutside points) :
    (costmap.lethalFirst (costmap.edges line points) = true ∧
      costmap.footprintCost line points = LETHAL_OBSTACLE) ∨
    (costmap.lethalFirst (costmap.edges line points) = false ∧
      (∃ e ∈ costmap.edges line points, costmap.HasCost NO_INFORMATION e) ∧
      costmap.footprintCost line points = NO_INFORMATION) ∨
    (costmap.lethalFirst (costmap.edges line points) = false ∧
      (¬ ∃ e ∈ costmap.edges line points, costmap.HasCost NO_INFORMATION e) ∧
      costmap.footprintCost line points < LETHAL_OBSTACLE) := by
  obtain ⟨p, rest, rfl⟩ := List.exists_cons_of_ne_nil hne
  obtain ⟨⟨cs, hp⟩, hrest⟩ := not_vertexOutside_cons.mp hin
  rw [footprintCost, hp]
  exact outlineCost_cases hp hp hrest (by decide)

end Outline

/-! ### Lethal cells added -/

/-- The cells of a set raised to lethal. -/
def raise (costmap : Costmap2D R) (cells : Cell → Bool) : Costmap2D R :=
  { costmap with cost := fun cell => if cells cell then 254 else costmap.cost cell }

variable {cells : Cell → Bool}

theorem pointCost_raise (costmap : Costmap2D R) (cells : Cell → Bool) (cell : Cell) :
    (costmap.raise cells).pointCost cell =
      if cells cell then LETHAL_OBSTACLE else costmap.pointCost cell := by
  unfold raise pointCost
  dsimp only
  split
  · rfl
  · rfl

theorem HasCost.raise_lethal {e : List Cell} (h : costmap.HasCost LETHAL_OBSTACLE e) :
    (costmap.raise cells).HasCost LETHAL_OBSTACLE e := by
  obtain ⟨cell, hcell, hcost⟩ := h
  refine ⟨cell, hcell, ?_⟩
  rw [pointCost_raise, hcost, ite_self]

/-- An unknown cell stays one or has become lethal. -/
theorem HasCost.raise_unknown {e : List Cell} (h : costmap.HasCost NO_INFORMATION e) :
    (costmap.raise cells).HasCost LETHAL_OBSTACLE e ∨
      (costmap.raise cells).HasCost NO_INFORMATION e := by
  obtain ⟨cell, hcell, hcost⟩ := h
  have hraised := pointCost_raise costmap cells cell
  split at hraised
  · exact .inl ⟨cell, hcell, hraised⟩
  · exact .inr ⟨cell, hcell, hraised.trans hcost⟩

/-- No cell becomes unknown. -/
theorem HasCost.of_raise_unknown {e : List Cell}
    (h : (costmap.raise cells).HasCost NO_INFORMATION e) : costmap.HasCost NO_INFORMATION e := by
  obtain ⟨cell, hcell, hcost⟩ := h
  rw [pointCost_raise] at hcost
  split at hcost
  · exact absurd hcost (by decide)
  · exact ⟨cell, hcell, hcost⟩

theorem lethalFirst_raise : ∀ {edges : List (List Cell)}, costmap.lethalFirst edges = true →
    (costmap.raise cells).lethalFirst edges = true
  | [], h => h
  | e :: rest, h => by
      unfold lethalFirst at h ⊢
      by_cases hlethal : (costmap.raise cells).HasCost LETHAL_OBSTACLE e
      · exact if_pos hlethal
      · rw [if_neg hlethal]
        rw [if_neg fun hbefore => hlethal hbefore.raise_lethal] at h
        by_cases hunknown : (costmap.raise cells).HasCost NO_INFORMATION e
        · rw [if_pos hunknown.of_raise_unknown] at h
          exact absurd h nofun
        · rw [if_neg hunknown]
          by_cases hbefore : costmap.HasCost NO_INFORMATION e
          · rw [if_pos hbefore] at h
            exact absurd h nofun
          · rw [if_neg hbefore] at h
            exact lethalFirst_raise h

/-- An edge with a lethal cell is enough where no edge has unknown ones, and then the first that
has any cell of the two kinds has a lethal one. -/
theorem lethalFirst_of_not_unknown : ∀ {edges : List (List Cell)},
    (∃ e ∈ edges, costmap.HasCost LETHAL_OBSTACLE e) →
    (¬ ∃ e ∈ edges, costmap.HasCost NO_INFORMATION e) → costmap.lethalFirst edges = true
  | [], ⟨_, he, _⟩, _ => absurd he List.not_mem_nil
  | e :: rest, hlethal, hknown => by
      unfold lethalFirst
      rw [List.exists_mem_cons_iff] at hlethal hknown
      by_cases hhere : costmap.HasCost LETHAL_OBSTACLE e
      · exact if_pos hhere
      · rw [if_neg hhere, if_neg fun h => hknown (.inl h)]
        exact lethalFirst_of_not_unknown (hlethal.resolve_left hhere) fun h => hknown (.inr h)

end Costmap2D

end MgRobot.BtPlugins
