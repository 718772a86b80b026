import Mathlib.Data.List.Basic
import Mathlib.Data.List.TakeWhile

/-!
# Backtracking regular expressions

Regular expressions with greedy loops and groups, read as a backtracking matcher
reads them: `tries` lists all matches at the start of a text in the order they
are tried, and the first one counts. `finditer` scans a text for them. The rules
below find the first match of the loops and sequences that leave no choice.
-/

namespace MgRobot.Lib

set_option autoImplicit false

inductive Regex (α : Type*) where
  | cls (p : α → Bool)
  | seq (a b : Regex α)
  | alt (a b : Regex α)
  | star (r : Regex α)
  | group (r : Regex α)

namespace Regex

variable {α : Type*}

/-- A match at the start of a text: what it matches, its groups in order, and the rest. -/
structure Match (α : Type*) where
  text : List α
  groups : List (List α)
  rest : List α
  deriving DecidableEq, Repr

def Match.andThen (m m' : Match α) : Match α := ⟨m.text ++ m'.text, m.groups ++ m'.groups, m'.rest⟩

/-- The ways through a greedy loop; a round that matches nothing is not taken. -/
def loop (f : List α → List (Match α)) : Nat → List α → List (Match α)
  | 0, s => [⟨[], [], s⟩]
  | n + 1, s =>
      ((f s).filter fun m => !m.text.isEmpty).flatMap (fun m => (loop f n m.rest).map m.andThen) ++
        [⟨[], [], s⟩]

/-- All matches at the start of a text, in the order in which they are tried. -/
def tries : Regex α → List α → List (Match α)
  | cls _, [] => []
  | cls p, c :: s => if p c then [⟨[c], [], s⟩] else []
  | seq a b, s => (a.tries s).flatMap fun m => (b.tries m.rest).map m.andThen
  | alt a b, s => a.tries s ++ b.tries s
  | star r, s => loop r.tries s.length s
  | group r, s => (r.tries s).map fun m => { m with groups := m.text :: m.groups }

def char [DecidableEq α] (c : α) : Regex α := cls fun x => x = c

/-- The match that a backtracking matcher finds at the start of a text. -/
def first (r : Regex α) (s : List α) : Option (Match α) := (r.tries s).head?

/-- The matches in a text from left to right, for expressions that do not match the empty text. -/
def scan (r : Regex α) : Nat → List α → List (Match α)
  | 0, _ => []
  | n + 1, s =>
      match r.first s with
      | some m => m :: scan r n m.rest
      | none => scan r n s.tail

def finditer (r : Regex α) (s : List α) : List (Match α) := r.scan (s.length + 1) s

variable {r a b : Regex α} {s t : List α} {m m' : Match α} {p : α → Bool} {c : α}

theorem loop_succ (f : List α → List (Match α)) (n : Nat) (s : List α) :
    loop f (n + 1) s =
      ((f s).filter fun m => !m.text.isEmpty).flatMap (fun m => (loop f n m.rest).map m.andThen) ++
        [⟨[], [], s⟩] :=
  rfl

theorem tries_cls (p : α → Bool) (c : α) (s : List α) :
    (cls p).tries (c :: s) = if p c then [⟨[c], [], s⟩] else [] :=
  rfl

theorem tries_seq (a b : Regex α) (s : List α) :
    (seq a b).tries s = (a.tries s).flatMap fun m => (b.tries m.rest).map m.andThen :=
  rfl

theorem tries_alt (a b : Regex α) (s : List α) : (alt a b).tries s = a.tries s ++ b.tries s := rfl

theorem tries_group (r : Regex α) (s : List α) :
    (group r).tries s = (r.tries s).map fun m => { m with groups := m.text :: m.groups } :=
  rfl

theorem first_eq (r : Regex α) (s : List α) : r.first s = (r.tries s).head? := rfl

theorem mem_loop {f : List α → List (Match α)} (hf : ∀ s, ∀ m ∈ f s, s = m.text ++ m.rest) :
    ∀ (n : Nat) (s : List α), ∀ m ∈ loop f n s, s = m.text ++ m.rest := by
  intro n
  induction n with
  | zero =>
      intro s m hm
      obtain rfl := List.mem_singleton.mp hm
      rfl
  | succ n ih =>
      intro s m hm
      rcases List.mem_append.mp hm with hm | hm
      · obtain ⟨m1, hm1, hm⟩ := List.mem_flatMap.mp hm
        obtain ⟨m2, hm2, rfl⟩ := List.mem_map.mp hm
        rw [hf s m1 (List.mem_of_mem_filter hm1), ih m1.rest m2 hm2, Match.andThen,
          List.append_assoc]
      · obtain rfl := List.mem_singleton.mp hm
        rfl

/-- A match is a prefix of the text. -/
theorem append_of_mem_tries (r : Regex α) : ∀ s, ∀ m ∈ r.tries s, s = m.text ++ m.rest := by
  induction r with
  | cls p =>
      intro s m hm
      cases s with
      | nil => exact nomatch hm
      | cons c s =>
          rw [tries_cls] at hm
          split_ifs at hm
          · obtain rfl := List.mem_singleton.mp hm
            rfl
          · exact nomatch hm
  | seq a b iha ihb =>
      intro s m hm
      obtain ⟨m1, hm1, hm⟩ := List.mem_flatMap.mp hm
      obtain ⟨m2, hm2, rfl⟩ := List.mem_map.mp hm
      rw [iha s m1 hm1, ihb m1.rest m2 hm2, Match.andThen, List.append_assoc]
  | alt a b iha ihb =>
      intro s m hm
      rcases List.mem_append.mp hm with hm | hm
      · exact iha s m hm
      · exact ihb s m hm
  | star r ih => exact fun s => mem_loop ih s.length s
  | group r ih =>
      intro s m hm
      obtain ⟨m', hm', rfl⟩ := List.mem_map.mp hm
      exact ih s m' hm'

theorem mem_tries_of_first (h : r.first s = some m) : m ∈ r.tries s := List.mem_of_head? h

theorem append_of_first (h : r.first s = some m) : s = m.text ++ m.rest :=
  append_of_mem_tries r s m (mem_tries_of_first h)

theorem tries_cls_neg (h : p c = false) : (cls p).tries (c :: s) = [] := by simp [tries_cls, h]

theorem tries_seq_nil (h : a.tries s = []) : (seq a b).tries s = [] := by
  rw [tries_seq, h, List.flatMap_nil]

theorem tries_group_nil (h : r.tries s = []) : (group r).tries s = [] := by
  rw [tries_group, h, List.map_nil]

theorem first_cls (h : p c = true) : (cls p).first (c :: s) = some ⟨[c], [], s⟩ := by
  simp [first_eq, tries_cls, h]

theorem first_char [DecidableEq α] (c : α) (t : List α) :
    (char c).first (c :: t) = some ⟨[c], [], t⟩ :=
  first_cls (decide_eq_true rfl)

theorem tries_char [DecidableEq α] {d : α} (h : d ≠ c) (t : List α) :
    (char c).tries (d :: t) = [] :=
  tries_cls_neg (decide_eq_false h)

theorem first_seq (ha : a.first s = some m) (hb : b.first m.rest = some m') :
    (seq a b).first s = some (m.andThen m') := by
  rw [first_eq] at *
  obtain ⟨l, hl⟩ := List.head?_eq_some_iff.mp ha
  obtain ⟨l', hl'⟩ := List.head?_eq_some_iff.mp hb
  simp [tries_seq, hl, hl']

theorem first_alt_left (ha : a.first s = some m) : (alt a b).first s = some m := by
  rw [first_eq] at *
  rw [tries_alt, List.head?_append, ha]
  rfl

theorem first_alt_right (ha : a.tries s = []) : (alt a b).first s = b.first s := by
  rw [first_eq, tries_alt, ha]
  rfl

theorem first_group (h : r.first s = some m) :
    (group r).first s = some { m with groups := m.text :: m.groups } := by
  rw [first_eq] at *
  rw [tries_group, List.head?_map, h]
  rfl

/-- A loop takes the tokens that are the only way to go on, and then stops. -/
theorem first_star {tokens : List (List α)} (htokens : ∀ x ∈ tokens, x ≠ [])
    (hgo : ∀ x ∈ tokens, ∀ s, r.first (x ++ s) = some ⟨x, [], s⟩) (hstop : r.tries t = []) :
    (star r).first (tokens.flatten ++ t) = some ⟨tokens.flatten, [], t⟩ := by
  have hloop : ∀ n, tokens.flatten.length ≤ n →
      (loop r.tries n (tokens.flatten ++ t)).head? = some ⟨tokens.flatten, [], t⟩ := by
    intro n
    induction tokens generalizing n with
    | nil =>
        intro _
        cases n with
        | zero => rfl
        | succ n => simp [loop_succ, hstop]
    | cons x rest ih =>
        intro hn
        have hx := htokens x List.mem_cons_self
        have hpos := List.length_pos_iff.mpr hx
        rw [List.flatten_cons, List.length_append] at hn
        obtain ⟨n, rfl⟩ : ∃ k, n = k + 1 := ⟨n - 1, by omega⟩
        have hrest := ih (fun y hy => htokens y (List.mem_cons_of_mem x hy))
          (fun y hy => hgo y (List.mem_cons_of_mem x hy)) n (by omega)
        obtain ⟨l, hl⟩ := List.head?_eq_some_iff.mp
          (hgo x List.mem_cons_self (rest.flatten ++ t))
        obtain ⟨l', hl'⟩ := List.head?_eq_some_iff.mp hrest
        rw [List.flatten_cons, List.append_assoc, loop_succ, hl]
        simp [hx, hl', Match.andThen]
  exact hloop _ (by simp)

/-- A loop over a class takes the longest run. -/
theorem first_star_cls (hall : ∀ c ∈ s, p c = true) (hstop : ∀ c ∈ t.head?, p c = false) :
    (star (cls p)).first (s ++ t) = some ⟨s, [], t⟩ := by
  have hflat : (s.map fun c => [c]).flatten = s := by
    induction s with
    | nil => rfl
    | cons c rest ih =>
        rw [List.map_cons, List.flatten_cons, ih fun x hx => hall x (List.mem_cons_of_mem c hx)]
        rfl
  have hgo : ∀ x ∈ s.map fun c => [c], ∀ s', (cls p).first (x ++ s') = some ⟨x, [], s'⟩ := by
    intro x hx s'
    obtain ⟨c, hc, rfl⟩ := List.mem_map.mp hx
    exact first_cls (hall c hc)
  have hend : (cls p).tries t = [] := by
    cases t with
    | nil => rfl
    | cons c t => exact tries_cls_neg (hstop c rfl)
  have h := first_star (by simp) hgo hend
  rw [hflat] at h
  exact h

/-- The expression does not match the empty text. -/
def Productive (r : Regex α) : Prop := ∀ s, ∀ m ∈ r.tries s, m.text ≠ []

theorem productive_cls (p : α → Bool) : (cls p).Productive := by
  intro s m hm
  cases s with
  | nil => exact nomatch hm
  | cons c s =>
      rw [tries_cls] at hm
      split_ifs at hm
      · obtain rfl := List.mem_singleton.mp hm
        exact List.cons_ne_nil c []
      · exact nomatch hm

theorem Productive.seq_left (h : a.Productive) (b : Regex α) : (seq a b).Productive := by
  intro s m hm
  obtain ⟨m1, hm1, hm⟩ := List.mem_flatMap.mp hm
  obtain ⟨m2, -, rfl⟩ := List.mem_map.mp hm
  exact List.append_ne_nil_of_left_ne_nil (h s m1 hm1) m2.text

theorem Productive.group (h : r.Productive) : (group r).Productive := by
  intro s m hm
  obtain ⟨m', hm', rfl⟩ := List.mem_map.mp hm
  exact h s m' hm'

theorem scan_succ (r : Regex α) (n : Nat) (s : List α) :
    r.scan (n + 1) s =
      match r.first s with
      | some m => m :: r.scan n m.rest
      | none => r.scan n s.tail :=
  rfl

theorem scan_match {n : Nat} (h : r.first s = some m) :
    r.scan (n + 1) s = m :: r.scan n m.rest := by
  rw [scan_succ, h]

theorem scan_skip {n : Nat} (h : r.first s = none) : r.scan (n + 1) s = r.scan n s.tail := by
  rw [scan_succ, h]

theorem scan_nil (h : r.first [] = none) (n : Nat) : r.scan n ([] : List α) = [] := by
  induction n with
  | zero => rfl
  | succ n ih => rw [scan_skip h, List.tail_nil, ih]

/-- What `scan` finds does not depend on its fuel, if that is enough. -/
theorem scan_eq {n k : Nat} (hne : r.Productive) (hn : s.length < n)
    (hk : s.length < k) : r.scan n s = r.scan k s := by
  induction n generalizing s k with
  | zero => exact absurd hn (Nat.not_lt_zero _)
  | succ n ih =>
      obtain ⟨k, rfl⟩ : ∃ j, k = j + 1 := ⟨k - 1, by omega⟩
      cases hf : r.first s with
      | some m =>
          have happ := congrArg List.length (append_of_first hf)
          have hpos := List.length_pos_iff.mpr (hne s m (mem_tries_of_first hf))
          rw [List.length_append] at happ
          have hrest : r.scan n m.rest = r.scan k m.rest := ih (by omega) (by omega)
          rw [scan_match hf, scan_match hf, hrest]
      | none =>
          cases s with
          | nil => rw [scan_nil hf, scan_nil hf]
          | cons c t =>
              rw [List.length_cons] at hn hk
              rw [scan_skip hf, scan_skip hf, List.tail_cons]
              exact ih (by omega) (by omega)

theorem finditer_match (hne : r.Productive) (h : r.first s = some m) :
    r.finditer s = m :: r.finditer m.rest := by
  have happ := congrArg List.length (append_of_first h)
  have hpos := List.length_pos_iff.mpr (hne s m (mem_tries_of_first h))
  rw [List.length_append] at happ
  rw [finditer, finditer, scan_match h]
  rw [scan_eq hne (show m.rest.length < s.length by omega) (Nat.lt_succ_self _)]

theorem finditer_skip (h : r.tries (c :: s) = []) : r.finditer (c :: s) = r.finditer s := by
  rw [finditer, scan_skip (by rw [first_eq, h]; rfl)]
  rfl

theorem finditer_nil (h : r.tries [] = []) : r.finditer ([] : List α) = [] := by
  rw [finditer, scan_nil (by rw [first_eq, h]; rfl)]

end Regex

end MgRobot.Lib
