import Mathlib.Data.List.Basic

/-!
# Least recently used

A cache is a list of entries, the most recently used one first. What it holds of a key
agrees with the key's content, which does not change; loading a key evicts only what is
beyond the capacity, so as many keys as fit can be loaded before they are looked up.
-/

namespace MgRobot.Lib.RecentCache

set_option autoImplicit false

variable {K V : Type*} [DecidableEq K]

/-- The value of a key, which is then the most recently used one. -/
def find (key : K) (c : List (K × V)) : Option V × List (K × V) :=
  match c.find? fun e => e.1 = key with
  | some e => (some e.2, e :: c.filter fun e => e.1 ≠ key)
  | none => (none, c)

/-- The value replaces that of the key; what does not fit is evicted. -/
def insert (capacity : Nat) (key : K) (v : V) (c : List (K × V)) : List (K × V) :=
  ((key, v) :: c.filter fun e => e.1 ≠ key).take capacity

variable (content : K → Option V) (capacity : Nat)

/-- The key is cached, or its content is read; whether there is one. -/
def load (key : K) (c : List (K × V)) : Bool × List (K × V) :=
  match find key c with
  | (some _, c') => (true, c')
  | (none, _) =>
      match content key with
      | some v => (true, insert capacity key v c)
      | none => (false, c)

def loadAll : List K → List (K × V) → List (K × V)
  | [], c => c
  | key :: rest, c => loadAll rest (load content capacity key c).2

/-- The values of several keys in turn. -/
def findAll : List K → List (K × V) → List (Option V) × List (K × V)
  | [], c => ([], c)
  | key :: rest, c =>
      let f := find key c
      let r := findAll rest f.2
      (f.1 :: r.1, r.2)

/-- Every entry holds the content of its key. -/
def Agrees (c : List (K × V)) : Prop := ∀ e ∈ c, content e.1 = some e.2

variable {content capacity} {c : List (K × V)} {key : K} {v : V} {e : K × V}

theorem find_of_mem (ha : Agrees content c) (h : (key, v) ∈ c) :
    find key c = (some v, (key, v) :: c.filter fun e => e.1 ≠ key) := by
  unfold find
  obtain ⟨e, he⟩ : ∃ e, c.find? (fun e => e.1 = key) = some e := by
    rw [← Option.isSome_iff_exists, List.find?_isSome]
    exact ⟨(key, v), h, decide_eq_true rfl⟩
  have hkey : e.1 = key := by simpa using List.find?_some he
  have hval : some e.2 = some v := by
    rw [← ha e (List.mem_of_find?_eq_some he), hkey]
    exact ha (key, v) h
  have heq : e = (key, v) := Prod.ext hkey (Option.some.inj hval)
  rw [he, heq]

theorem find_of_forall_ne (h : ∀ e ∈ c, e.1 ≠ key) : find key c = (none, c) := by
  unfold find
  rw [List.find?_eq_none.mpr fun e he => by simpa using h e he]

/-- A key is cached with its content, or not at all. -/
theorem find_cases (ha : Agrees content c) (key : K) :
    (∃ v, (key, v) ∈ c ∧ content key = some v ∧
        find key c = (some v, (key, v) :: c.filter fun e => e.1 ≠ key)) ∨
      find key c = (none, c) := by
  by_cases h : ∃ e ∈ c, e.1 = key
  · obtain ⟨e, he, rfl⟩ := h
    exact Or.inl ⟨e.2, he, ha e he, find_of_mem ha he⟩
  · exact Or.inr (find_of_forall_ne fun e he heq => h ⟨e, he, heq⟩)

theorem mem_find_iff (ha : Agrees content c) (key : K) : e ∈ (find key c).2 ↔ e ∈ c := by
  rcases find_cases ha key with ⟨v, hmem, hv, hf⟩ | hf
  · rw [hf, List.mem_cons, List.mem_filter]
    constructor
    · rintro (rfl | h)
      · exact hmem
      · exact h.1
    · intro he
      by_cases hkey : e.1 = key
      · have hval : some e.2 = some v := by rw [← ha e he, hkey, hv]
        exact Or.inl (Prod.ext hkey (Option.some.inj hval))
      · exact Or.inr ⟨he, decide_eq_true hkey⟩
  · rw [hf]

theorem Agrees.find (ha : Agrees content c) (key : K) : Agrees content (find key c).2 :=
  fun e he => ha e ((mem_find_iff ha key).mp he)

theorem Agrees.load (ha : Agrees content c) (key : K) :
    Agrees content (load content capacity key c).2 := by
  unfold RecentCache.load
  rcases find_cases ha key with ⟨v, _, _, hf⟩ | hf
  · rw [hf]
    intro e he
    exact ha.find key e (hf ▸ he)
  · rw [hf]
    dsimp only
    cases hc : content key with
    | none => exact ha
    | some v =>
        intro e he
        rcases List.mem_cons.mp (List.mem_of_mem_take he) with rfl | h
        · exact hc
        · exact ha e (List.mem_filter.mp h).1

theorem load_fst (ha : Agrees content c) (key : K) :
    (load content capacity key c).1 = (content key).isSome := by
  unfold load
  rcases find_cases ha key with ⟨v, _, hv, hf⟩ | hf
  · rw [hf, hv]
    rfl
  · rw [hf]
    dsimp only
    cases content key <;> rfl

/-- What is loaded is the most recent entry. -/
theorem load_mem (ha : Agrees content c) (hv : content key = some v) (hcap : 0 < capacity) :
    (key, v) ∈ (load content capacity key c).2.take 1 := by
  unfold load
  rcases find_cases ha key with ⟨w, _, hw, hf⟩ | hf
  · rw [hf]
    obtain rfl := Option.some.inj (hw.symm.trans hv)
    exact List.mem_cons_self
  · rw [hf]
    dsimp only
    rw [hv]
    dsimp only
    unfold insert
    rw [List.take_take, Nat.min_eq_left hcap]
    exact List.mem_cons_self

theorem mem_take_filter {α : Type*} {p : α → Bool} {l : List α} {x : α} {j : Nat}
    (h : x ∈ l.take j) (hp : p x = true) : x ∈ (l.filter p).take j := by
  have hpre : (l.take j).filter p <+: l.filter p := (List.take_prefix j l).filter p
  have hlen : ((l.take j).filter p).length ≤ j :=
    Nat.le_trans (List.length_filter_le p _) (List.length_take_le j l)
  exact (List.prefix_take_iff.mpr ⟨hpre, hlen⟩).subset (List.mem_filter.mpr ⟨h, hp⟩)

/-- Loading a key moves the other entries back by at most one. -/
theorem load_take (ha : Agrees content c) (key : K) {j : Nat} (h : e ∈ c.take j)
    (hj : j < capacity) : e ∈ (load content capacity key c).2.take (j + 1) := by
  have he : e ∈ c := List.mem_of_mem_take h
  have hback : ∀ v, content key = some v →
      e ∈ ((key, v) :: c.filter fun e => e.1 ≠ key).take (j + 1) := by
    intro v hv
    by_cases hkey : e.1 = key
    · have hval : some e.2 = some v := by rw [← ha e he, hkey, hv]
      have heq : e = (key, v) := Prod.ext hkey (Option.some.inj hval)
      rw [heq]
      exact List.mem_cons_self
    · exact List.mem_cons_of_mem _ (mem_take_filter h (decide_eq_true hkey))
  unfold load
  rcases find_cases ha key with ⟨v, _, hv, hf⟩ | hf
  · rw [hf]
    exact hback v hv
  · rw [hf]
    dsimp only
    cases hc : content key with
    | none => exact List.take_subset_take_left c (Nat.le_succ j) h
    | some v =>
        dsimp only
        unfold insert
        rw [List.take_take, Nat.min_eq_left hj]
        exact hback v hc

theorem Agrees.loadAll (ha : Agrees content c) (keys : List K) :
    Agrees content (loadAll content capacity keys c) := by
  induction keys generalizing c with
  | nil => exact ha
  | cons key rest ih => exact ih (ha.load key)

theorem loadAll_take (ha : Agrees content c) (keys : List K) {j : Nat} (h : e ∈ c.take j)
    (hj : j + keys.length ≤ capacity) :
    e ∈ (loadAll content capacity keys c).take (j + keys.length) := by
  induction keys generalizing c j with
  | nil => exact h
  | cons key rest ih =>
      rw [List.length_cons] at hj ⊢
      have hload : e ∈ (load content capacity key c).2.take (j + 1) :=
        load_take ha key h (by omega)
      have hstep := ih (ha.load key) hload (by omega)
      rwa [Nat.add_assoc, Nat.add_comm 1] at hstep

/-- Loaded keys that fit are all cached. -/
theorem loadAll_mem (ha : Agrees content c) {keys : List K} (hcap : keys.length ≤ capacity)
    (hkey : key ∈ keys) (hv : content key = some v) :
    (key, v) ∈ loadAll content capacity keys c := by
  induction keys generalizing c with
  | nil => cases hkey
  | cons k rest ih =>
      rw [List.length_cons] at hcap
      rcases List.mem_cons.mp hkey with rfl | hrest
      · have hload : (key, v) ∈ (load content capacity key c).2.take 1 :=
          load_mem ha hv (by omega)
        exact List.mem_of_mem_take (loadAll_take (ha.load key) rest hload (by omega))
      · exact ih (ha.load k) (by omega) hrest

/-- Looking up keys that are cached gives their contents. -/
theorem findAll_eq (ha : Agrees content c) {keys : List K}
    (hkeys : ∀ key ∈ keys, ∃ v, (key, v) ∈ c) :
    (findAll keys c).1 = keys.map content ∧ Agrees content (findAll keys c).2 := by
  induction keys generalizing c with
  | nil => exact ⟨rfl, ha⟩
  | cons key rest ih =>
      obtain ⟨v, hv⟩ := hkeys key List.mem_cons_self
      have hfind : (find key c).1 = content key := by
        rw [find_of_mem ha hv]
        exact (ha (key, v) hv).symm
      obtain ⟨hr, hra⟩ := ih (ha.find key) fun k hk => by
        obtain ⟨w, hw⟩ := hkeys k (List.mem_cons_of_mem key hk)
        exact ⟨w, (mem_find_iff ha key).mpr hw⟩
      refine ⟨?_, hra⟩
      show (find key c).1 :: (findAll rest (find key c).2).1 = _
      rw [hfind, hr, List.map_cons]

end MgRobot.Lib.RecentCache
