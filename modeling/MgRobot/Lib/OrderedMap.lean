import Mathlib.Data.List.Nodup

/-!
# Ordered maps

Finite maps that keep their entries in the order of insertion: a key that is
assigned again keeps its place, as in the dictionaries of Python and the maps of
JavaScript.
-/

namespace MgRobot.Lib

set_option autoImplicit false

@[ext]
structure OrderedMap (κ β : Type*) where
  entries : List (κ × β)
  nodup : (entries.map Prod.fst).Nodup

namespace OrderedMap

variable {κ β : Type*} [DecidableEq κ]

instance [DecidableEq β] : DecidableEq (OrderedMap κ β) := fun _ _ =>
  decidable_of_iff _ OrderedMap.ext_iff.symm

def empty : OrderedMap κ β := ⟨[], List.nodup_nil⟩

variable (m : OrderedMap κ β) {k k' : κ} {v : β}

def keys : List κ := m.entries.map Prod.fst

def get? (k : κ) : Option β := (m.entries.find? fun e => e.1 = k).map Prod.snd

def set (k : κ) (v : β) : OrderedMap κ β :=
  if h : k ∈ m.keys then
    { entries := m.entries.map fun e => if e.1 = k then (k, v) else e
      nodup := by
        have hkeys : (Prod.fst ∘ fun e : κ × β => if e.1 = k then (k, v) else e) = Prod.fst := by
          funext e
          simp only [Function.comp_apply]
          split <;> simp_all
        rw [List.map_map, hkeys]
        exact m.nodup }
  else
    { entries := m.entries ++ [(k, v)]
      nodup := by
        rw [List.map_append]
        exact m.nodup.append (List.nodup_singleton k) (by simpa [keys] using h) }

def erase (k : κ) : OrderedMap κ β where
  entries := m.entries.filter fun e => e.1 ≠ k
  nodup := m.nodup.sublist (List.filter_sublist.map Prod.fst)

/-- A loop over the entries that deletes those for which `p` holds. -/
def eraseIf (p : κ → β → Bool) : OrderedMap κ β where
  entries := m.entries.filter fun e => !p e.1 e.2
  nodup := m.nodup.sublist (List.filter_sublist.map Prod.fst)

theorem get?_eq_some_iff : m.get? k = some v ↔ (k, v) ∈ m.entries := by
  constructor
  · intro h
    obtain ⟨e, he, rfl⟩ := Option.map_eq_some_iff.mp h
    have hkey : e.1 = k := by simpa using List.find?_some he
    have hmem := List.mem_of_find?_eq_some he
    rwa [← hkey]
  · intro h
    have hfound : (m.entries.find? fun e => e.1 = k).isSome :=
      List.find?_isSome.mpr ⟨(k, v), h, decide_eq_true rfl⟩
    obtain ⟨e, he⟩ := Option.isSome_iff_exists.mp hfound
    have hkey : e.1 = k := by simpa using List.find?_some he
    have heq := List.inj_on_of_nodup_map m.nodup (List.mem_of_find?_eq_some he) h hkey
    rw [get?, he, heq, Option.map_some]

theorem mem_keys_iff : k ∈ m.keys ↔ ∃ v, m.get? k = some v := by
  simp only [keys, List.mem_map, get?_eq_some_iff]
  constructor
  · rintro ⟨e, he, rfl⟩
    exact ⟨e.2, he⟩
  · rintro ⟨v, hv⟩
    exact ⟨_, hv, rfl⟩

theorem get?_eq_none_iff : m.get? k = none ↔ k ∉ m.keys := by
  rw [m.mem_keys_iff, Option.eq_none_iff_forall_ne_some, not_exists]

@[simp] theorem get?_empty : (empty : OrderedMap κ β).get? k = none := rfl

theorem entries_set_of_notMem (h : k ∉ m.keys) : (m.set k v).entries = m.entries ++ [(k, v)] := by
  rw [set, dif_neg h]

theorem get?_set (k' : κ) : (m.set k v).get? k' = if k' = k then some v else m.get? k' := by
  ext w
  rw [get?_eq_some_iff]
  by_cases h : k ∈ m.keys
  · rw [set, dif_pos h, List.mem_map]
    obtain ⟨e, he, hk⟩ := List.mem_map.mp h
    split_ifs with hk'
    · subst hk'
      constructor
      · rintro ⟨e', -, heq⟩
        split_ifs at heq with h'
        · exact congrArg some (congrArg Prod.snd heq)
        · exact absurd (congrArg Prod.fst heq) h'
      · rintro hw
        exact ⟨e, he, by rw [if_pos hk, Option.some.inj hw]⟩
    · rw [get?_eq_some_iff]
      constructor
      · rintro ⟨e', he', heq⟩
        split_ifs at heq with h'
        · exact absurd (congrArg Prod.fst heq).symm hk'
        · rwa [← heq]
      · exact fun hw => ⟨_, hw, if_neg hk'⟩
  · rw [m.entries_set_of_notMem h, List.mem_append, List.mem_singleton, Prod.mk.injEq]
    split_ifs with hk'
    · subst hk'
      have hnot : (k', w) ∉ m.entries := fun hw => h (List.mem_map.mpr ⟨_, hw, rfl⟩)
      simp [hnot, eq_comm]
    · rw [get?_eq_some_iff]
      simp [hk']

theorem get?_erase (k' : κ) : (m.erase k).get? k' = if k' = k then none else m.get? k' := by
  ext w
  rw [get?_eq_some_iff, erase, List.mem_filter]
  split_ifs with hk
  · simp [hk]
  · rw [get?_eq_some_iff]
    simp [hk]

theorem entries_erase_append {a b : List (κ × β)} (h : m.entries = a ++ (k, v) :: b) :
    (m.erase k).entries = a ++ b := by
  have hnd := m.nodup
  rw [h, List.map_append, List.map_cons] at hnd
  have hmem : ∀ e ∈ a ++ b, e.1 ≠ k := by
    rintro e he rfl
    rcases List.mem_append.mp he with he | he
    · exact List.disjoint_of_nodup_append hnd (List.mem_map_of_mem he) List.mem_cons_self
    · exact (List.nodup_cons.mp hnd.of_append_right).1 (List.mem_map.mpr ⟨e, he, rfl⟩)
  show m.entries.filter (fun e => e.1 ≠ k) = a ++ b
  rw [h, List.filter_append, List.filter_cons_of_neg (by simp), ← List.filter_append]
  exact List.filter_eq_self.mpr fun e he => decide_eq_true (hmem e he)

/-- Assigning keys that are all new appends their entries. -/
theorem entries_foldl_set (l : List (κ × β)) (h : ((m.entries ++ l).map Prod.fst).Nodup) :
    (l.foldl (fun m e => m.set e.1 e.2) m).entries = m.entries ++ l := by
  induction l generalizing m with
  | nil => rw [List.foldl_nil, List.append_nil]
  | cons e l ih =>
      have hnot : e.1 ∉ m.keys := by
        intro hmem
        rw [List.map_append, List.map_cons] at h
        exact List.disjoint_of_nodup_append h hmem List.mem_cons_self
      have hset := m.entries_set_of_notMem (v := e.2) hnot
      rw [List.foldl_cons, ih (m.set e.1 e.2) (by rw [hset]; simpa using h), hset]
      simp

theorem get?_eraseIf (p : κ → β → Bool) :
    (m.eraseIf p).get? k = some v ↔ m.get? k = some v ∧ p k v = false := by
  rw [get?_eq_some_iff, get?_eq_some_iff, eraseIf, List.mem_filter, Bool.not_eq_true']

theorem filter_key_eq {l : List (κ × β)} (h : (l.map Prod.fst).Nodup) (k : κ) :
    l.filter (fun e => e.1 = k) = (l.find? fun e => e.1 = k).toList := by
  induction l with
  | nil => rfl
  | cons e l ih =>
      obtain ⟨hnot, hnodup⟩ := List.nodup_cons.mp h
      by_cases hk : e.1 = k
      · have hnil : l.filter (fun e => e.1 = k) = [] := by
          refine List.filter_eq_nil_iff.mpr fun e' he' hk' => hnot ?_
          rw [hk, ← of_decide_eq_true hk']
          exact List.mem_map_of_mem he'
        rw [List.filter_cons_of_pos (by simpa using hk), hnil,
          List.find?_cons_of_pos (by simpa using hk)]
        rfl
      · rw [List.filter_cons_of_neg (by simpa using hk), List.find?_cons_of_neg (by simpa using hk),
          ih hnodup]

/-- The entries of a key, of which there is one at most. -/
theorem map_filter_key {γ : Type*} (f : κ × β → γ) (k : κ) :
    (m.entries.filter fun e => e.1 = k).map f = ((m.get? k).map fun v => f (k, v)).toList := by
  rw [filter_key_eq m.nodup]
  cases hfind : m.entries.find? fun e => e.1 = k with
  | none => simp [get?, hfind]
  | some e =>
      have hk : e.1 = k := by simpa using List.find?_some hfind
      subst hk
      simp [get?, hfind]

/-- What a loop over the entries finds at a key. -/
theorem filterMap_key {γ : Type*} (f : β → Option γ) (k : κ) :
    (m.entries.filterMap fun e => if e.1 = k then f e.2 else none) =
      ((m.get? k).bind f).toList := by
  have hfilter := List.filterMap_filter (p := fun e : κ × β => e.1 = k) (f := fun e => f e.2)
    (l := m.entries)
  simp only [decide_eq_true_eq] at hfilter
  rw [← hfilter, filter_key_eq m.nodup]
  cases hfind : m.entries.find? fun e => e.1 = k with
  | none => simp [get?, hfind]
  | some e => cases hf : f e.2 <;> simp [get?, hfind, hf]

/-- Erasing a key takes one entry off. -/
theorem countP_erase (p : κ × β → Bool) (h : m.get? k = some v) :
    m.entries.countP p = (m.erase k).entries.countP p + if p (k, v) then 1 else 0 := by
  have hfilter : (m.entries.filter fun e => !decide (e.1 ≠ k)) = [(k, v)] := by
    have hkey := m.map_filter_key id k
    rw [h] at hkey
    simpa using hkey
  rw [List.countP_eq_countP_filter_add m.entries p fun e => e.1 ≠ k, hfilter,
    List.countP_singleton, erase]

/-- What is seen through `f` when entries are deleted by what `f` sees of them. -/
theorem map_get?_eraseIf {γ : Type*} (f : β → γ) (p : γ → Bool) {x : γ} :
    ((m.eraseIf fun _ v => p (f v)).get? k).map f = some x ↔
      (m.get? k).map f = some x ∧ p x = false := by
  simp only [Option.map_eq_some_iff, get?_eraseIf]
  constructor
  · rintro ⟨v, ⟨hv, hp⟩, rfl⟩
    exact ⟨⟨v, hv, rfl⟩, hp⟩
  · rintro ⟨⟨v, hv, rfl⟩, hp⟩
    exact ⟨v, ⟨hv, hp⟩, rfl⟩

theorem entries_foldl_erase (ks : List κ) :
    (ks.foldl erase m).entries = m.entries.filter fun e => e.1 ∉ ks := by
  induction ks generalizing m with
  | nil => simp
  | cons k ks ih =>
      rw [List.foldl_cons, ih, erase, List.filter_filter]
      refine List.filter_congr fun e _ => ?_
      by_cases hk : e.1 = k
      · simp [hk]
      · simp [hk]

end OrderedMap

end MgRobot.Lib
