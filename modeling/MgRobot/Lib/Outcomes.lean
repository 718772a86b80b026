import Mathlib.Logic.Basic

/-!
# Descriptions of fallible computations

A computation that returns a value or raises is described by the values it returns and
by when it raises an error of a bad kind; all other errors are alike. The rules below
describe a computation by those it is composed of.
-/

namespace MgRobot.Lib.Outcomes

set_option autoImplicit false

variable {ε α β : Type} {bad : ε → Prop} {r : Except ε α} {good good' : α → Prop}
  {fails fails' : Prop} {a b : α}

structure Describes (bad : ε → Prop) (r : Except ε α) (good : α → Prop) (fails : Prop) : Prop where
  ok_iff : ∀ a, r = .ok a ↔ good a
  bad_iff : (∃ e, r = .error e ∧ bad e) ↔ fails

namespace Describes

theorem congr (h : Describes bad r good fails) (hgood : ∀ a, good a ↔ good' a)
    (hfails : fails ↔ fails') : Describes bad r good' fails' :=
  ⟨fun a => (h.ok_iff a).trans (hgood a), h.bad_iff.trans hfails⟩

theorem ok (a : α) : Describes bad (.ok a : Except ε α) (fun b => b = a) False where
  ok_iff := fun b => by
    rw [Except.ok.injEq]
    exact eq_comm
  bad_iff := ⟨fun h => absurd h.choose_spec.1 nofun, False.elim⟩

theorem error (e : ε) : Describes bad (.error e : Except ε α) (fun _ => False) (bad e) where
  ok_iff := fun b => ⟨nofun, False.elim⟩
  bad_iff := by
    constructor
    · intro h
      obtain ⟨e', he, hbad⟩ := h
      obtain rfl := Except.error.inj he
      exact hbad
    · intro h
      exact ⟨e, rfl, h⟩

theorem ite {c : Prop} [Decidable c] {r₁ r₂ : Except ε α} {good₁ good₂ : α → Prop}
    {fails₁ fails₂ : Prop} (h₁ : c → Describes bad r₁ good₁ fails₁)
    (h₂ : ¬c → Describes bad r₂ good₂ fails₂) :
    Describes bad (if c then r₁ else r₂) (fun a => c ∧ good₁ a ∨ ¬c ∧ good₂ a)
      (c ∧ fails₁ ∨ ¬c ∧ fails₂) := by
  by_cases hc : c
  · rw [if_pos hc]
    exact (h₁ hc).congr (fun a => by simp [hc]) (by simp [hc])
  · rw [if_neg hc]
    exact (h₂ hc).congr (fun a => by simp [hc]) (by simp [hc])

theorem bind {f : α → Except ε β} {next : α → β → Prop} {then_ : α → Prop}
    (h : Describes bad r good fails)
    (hf : ∀ a, good a → Describes bad (f a) (next a) (then_ a)) :
    Describes bad (r >>= f) (fun b => ∃ a, good a ∧ next a b)
      (fails ∨ ∃ a, good a ∧ then_ a) := by
  cases hr : r with
  | ok a =>
      subst hr
      have hgood := (h.ok_iff a).mp rfl
      have honly : ∀ a', good a' → a' = a := fun a' ha' =>
        (Except.ok.inj ((h.ok_iff a').mpr ha')).symm
      have hnot : ¬fails := fun hfails => absurd (h.bad_iff.mpr hfails).choose_spec.1 nofun
      refine (hf a hgood).congr (fun b => ?_) ?_
      · constructor
        · intro hb
          exact ⟨a, hgood, hb⟩
        · intro hb
          obtain ⟨a', ha', hb⟩ := hb
          exact honly a' ha' ▸ hb
      · constructor
        · intro ha
          exact Or.inr ⟨a, hgood, ha⟩
        · intro ha
          obtain ⟨a', ha', ha⟩ := ha.resolve_left hnot
          exact honly a' ha' ▸ ha
  | error e =>
      subst hr
      have hnone : ∀ a, ¬good a := fun a ha => absurd ((h.ok_iff a).mpr ha) nofun
      have herr : Describes bad (Except.error e >>= f) (fun _ => False) (bad e) := error e
      refine herr.congr (fun b => ?_) ?_
      · constructor
        · exact False.elim
        · intro hb
          obtain ⟨a, ha, -⟩ := hb
          exact hnone a ha
      · rw [← h.bad_iff]
        constructor
        · intro hbad
          exact Or.inl ⟨e, rfl, hbad⟩
        · intro hcases
          rcases hcases with ⟨e', he', hbad⟩ | ⟨a, ha, -⟩
          · obtain rfl := Except.error.inj he'
            exact hbad
          · exact absurd ha (hnone a)

/-- The value returned is mapped. -/
theorem map {g : α → β} (h : Describes bad r good fails) :
    Describes bad (r >>= fun a => .ok (g a)) (fun b => ∃ a, good a ∧ b = g a) fails :=
  (h.bind fun a _ => ok (g a)).congr (fun _ => Iff.rfl) (by simp)

theorem unique (h : Describes bad r good fails) (ha : good a) (hb : good b) : a = b :=
  Except.ok.inj (((h.ok_iff a).mpr ha).symm.trans ((h.ok_iff b).mpr hb))

theorem not_fails (h : Describes bad r good fails) (ha : good a) : ¬fails := by
  intro hfails
  obtain ⟨e, he, -⟩ := h.bad_iff.mpr hfails
  exact absurd (he.symm.trans ((h.ok_iff a).mpr ha)) nofun

end Describes

end MgRobot.Lib.Outcomes
