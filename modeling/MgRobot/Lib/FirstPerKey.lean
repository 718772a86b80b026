import Mathlib.Data.List.Induction
import Mathlib.Data.List.Nodup

/-!
# The first success for each key

A loop that tries items in turn and skips those whose key is taken. A success takes the
key of its item, so each key is taken by the first item that succeeds for it.
-/

namespace MgRobot.Lib.FirstPerKey

set_option autoImplicit false

variable {α β κ : Type*} [DecidableEq κ] (key : α → κ) (attempt : α → Option β)

/-- The keys that are taken and the successes so far, after one more item. -/
def step (s : List κ × List β) (a : α) : List κ × List β :=
  if key a ∈ s.1 then s
  else match attempt a with
    | none => s
    | some b => (key a :: s.1, s.2 ++ [b])

def collect (taken : List κ) (items : List α) : List κ × List β :=
  items.foldl (step key attempt) (taken, [])

variable {key attempt} {taken : List κ} {items : List α} {s : List κ × List β}

theorem collect_snoc (a : α) : collect key attempt taken (items ++ [a]) =
    step key attempt (collect key attempt taken items) a := by
  rw [collect, List.foldl_append]
  rfl

theorem mem_step_keys {a : α} {k : κ} : k ∈ (step key attempt s a).1 ↔
    k ∈ s.1 ∨ key a = k ∧ (attempt a).isSome = true := by
  rw [step]
  split <;> rename_i htaken
  · refine ⟨Or.inl, fun h => h.elim id ?_⟩
    rintro ⟨rfl, _⟩
    exact htaken
  · cases attempt a with
    | none => simp
    | some b =>
        rw [List.mem_cons, or_comm, eq_comm]
        simp

theorem mem_step_results {a : α} {b : β} : b ∈ (step key attempt s a).2 ↔
    b ∈ s.2 ∨ key a ∉ s.1 ∧ attempt a = some b := by
  rw [step]
  split <;> rename_i htaken
  · exact ⟨Or.inl, fun h => h.elim id fun h => absurd htaken h.1⟩
  · cases attempt a with
    | none => simp
    | some c =>
        rw [List.mem_append, List.mem_singleton, eq_comm]
        simp [htaken]

theorem mem_collect_keys {k : κ} : k ∈ (collect key attempt taken items).1 ↔
    k ∈ taken ∨ ∃ a ∈ items, key a = k ∧ (attempt a).isSome = true := by
  induction items using List.reverseRecOn with
  | nil => simp [collect]
  | append_singleton items a ih =>
      rw [collect_snoc, mem_step_keys, ih, or_assoc]
      refine or_congr_right ?_
      simp only [List.mem_append, List.mem_singleton, or_and_right, exists_or, exists_eq_left]

/-- What is collected: the successes before which every item of their key has failed. -/
theorem mem_collect {b : β} : b ∈ (collect key attempt taken items).2 ↔
    ∃ pre a post, items = pre ++ a :: post ∧ key a ∉ taken ∧ attempt a = some b ∧
      ∀ c ∈ pre, key c = key a → attempt c = none := by
  induction items using List.reverseRecOn with
  | nil => simp [collect]
  | append_singleton items a ih =>
      rw [collect_snoc, mem_step_results, ih, mem_collect_keys]
      constructor
      · rintro (⟨pre, c, post, rfl, h⟩ | ⟨hfree, hb⟩)
        · exact ⟨pre, c, post ++ [a], by simp, h⟩
        · refine ⟨items, a, [], rfl, fun h => hfree (.inl h), hb, fun c hc hkey => ?_⟩
          by_contra hsome
          exact hfree (.inr ⟨c, hc, hkey, Option.isSome_iff_ne_none.mpr hsome⟩)
      · rintro ⟨pre, c, post, hsplit, hfree, hb, hfirst⟩
        rcases List.eq_nil_or_concat post with rfl | ⟨post, d, rfl⟩
        · obtain ⟨rfl, hac⟩ := List.append_inj' hsplit rfl
          obtain rfl := (List.cons.inj hac).1
          refine .inr ⟨?_, hb⟩
          rintro (htaken | ⟨c, hc, hkey, hsome⟩)
          · exact hfree htaken
          · rw [hfirst c hc hkey] at hsome
            cases hsome
        · have hsplit : items ++ [a] = (pre ++ c :: post) ++ [d] := by
            rw [hsplit, List.concat_eq_append, List.append_assoc, List.cons_append]
          exact .inl ⟨pre, c, post, (List.append_inj' hsplit rfl).1, hfree, hb, hfirst⟩

variable {keyOf : β → κ}

/-- The keys that are taken in the end are those of the successes, on top of the first ones. -/
theorem collect_keys (hkey : ∀ a b, attempt a = some b → keyOf b = key a) :
    (collect key attempt taken items).1 =
      ((collect key attempt taken items).2.map keyOf).reverse ++ taken := by
  induction items using List.reverseRecOn with
  | nil => rfl
  | append_singleton items a ih =>
      rw [collect_snoc, step]
      split
      · exact ih
      · cases hb : attempt a with
        | none => exact ih
        | some b =>
            rw [List.map_append, List.map_singleton, List.reverse_append, hkey a b hb, ih]
            rfl

/-- No two successes have the same key, and none has a key that was taken before. -/
theorem collect_nodup (hkey : ∀ a b, attempt a = some b → keyOf b = key a) :
    ((collect key attempt taken items).2.map keyOf).Nodup ∧
      ∀ b ∈ (collect key attempt taken items).2, keyOf b ∉ taken := by
  induction items using List.reverseRecOn with
  | nil => exact ⟨List.nodup_nil, fun b hb => absurd hb List.not_mem_nil⟩
  | append_singleton items a ih =>
      have hkeys : (collect key attempt taken items).1 = _ := collect_keys hkey
      rw [collect_snoc, step]
      split <;> rename_i htaken
      · exact ih
      · cases hb : attempt a with
        | none => exact ih
        | some b =>
            rw [hkeys, List.mem_append, List.mem_reverse, not_or] at htaken
            refine ⟨?_, fun c hc => ?_⟩
            · rw [List.map_append, List.map_singleton, List.nodup_append]
              refine ⟨ih.1, List.nodup_singleton _, fun k hk k' hk' heq => ?_⟩
              rw [List.mem_singleton.mp hk', hkey a b hb] at heq
              exact htaken.1 (heq ▸ hk)
            · rcases List.mem_append.mp hc with hold | hnew
              · exact ih.2 c hold
              · rw [List.mem_singleton.mp hnew, hkey a b hb]
                exact htaken.2

/-- An item that succeeds leaves its key taken. -/
theorem exists_mem_collect (hkey : ∀ a b, attempt a = some b → keyOf b = key a) {a : α}
    (ha : a ∈ items) {b : β} (hb : attempt a = some b) :
    key a ∈ taken ∨ ∃ c ∈ (collect key attempt taken items).2, keyOf c = key a := by
  have hmem : key a ∈ (collect key attempt taken items).1 :=
    mem_collect_keys.mpr (.inr ⟨a, ha, rfl, Option.isSome_of_eq_some hb⟩)
  rw [collect_keys hkey, List.mem_append, List.mem_reverse, List.mem_map] at hmem
  exact hmem.symm

end MgRobot.Lib.FirstPerKey
