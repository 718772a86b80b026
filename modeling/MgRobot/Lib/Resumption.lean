import MgRobot.Lib.Runs
import Mathlib.Logic.Function.Basic

/-!
# Programs that run side by side

A program is a tree: it returns, it raises, or it performs one action and goes
on with the response. Any number of programs share a state, and between two
actions of one of them the others and the environment may act.

`Holds` is the logic of one program. It carries what the program knows in a
ghost state: an action has a precondition on it, and a response says how it
moves. `Pool.Sound.step` puts the programs together: if the ghost states agree
with the shared state and every single action keeps that so, every step of any
program keeps it so.
-/

namespace MgRobot.Lib.Resumption

set_option autoImplicit false

open MgRobot.Lib.Runs

/-- `A` are the actions, `R a` the responses to `a`, `E` the exceptions. -/
inductive Prog (A : Type) (R : A → Type) (E α : Type) where
  | pure (a : α)
  | raise (e : E)
  | act (a : A) (next : R a → Prog A R E α)

variable {A : Type} {R : A → Type} {E α β : Type}

namespace Prog

protected def bind : Prog A R E α → (α → Prog A R E β) → Prog A R E β
  | .pure a, f => f a
  | .raise e, _ => .raise e
  | .act a next, f => .act a fun r => (next r).bind f

instance : Monad (Prog A R E) where
  pure := .pure
  bind := Prog.bind

def perform (a : A) : Prog A R E (R a) := .act a .pure

/-- `cleanup` runs after `p`, however `p` ends. -/
def tryFinally (p : Prog A R E α) (cleanup : Prog A R E Unit) : Prog A R E α :=
  match p with
  | .pure a => cleanup.bind fun _ => .pure a
  | .raise e => cleanup.bind fun _ => .raise e
  | .act a next => .act a fun r => (next r).tryFinally cleanup

def tryCatch (p : Prog A R E α) (handler : E → Prog A R E α) : Prog A R E α :=
  match p with
  | .pure a => .pure a
  | .raise e => handler e
  | .act a next => .act a fun r => (next r).tryCatch handler

/-- The action that the program performs next. -/
def action? : Prog A R E α → Option A
  | .act a _ => some a
  | .pure _ | .raise _ => none

end Prog

/-! ## The logic of one program -/

/-- What an action asks of the ghost state, and how its response moves it. -/
structure Discipline (A : Type) (R : A → Type) (G : Type) where
  pre : A → G → Prop
  next : (a : A) → R a → G → G → Prop

variable {G : Type} {d : Discipline A R G} {g : G}

/-- From the ghost state the program keeps to the discipline, and it ends in `post`. -/
def Holds (d : Discipline A R G) (post : G → Except E α → Prop) : Prog A R E α → G → Prop
  | .pure a, g => post g (.ok a)
  | .raise e, g => post g (.error e)
  | .act a next, g => d.pre a g ∧ ∀ r g', d.next a r g g' → Holds d post (next r) g'

variable {post post' : G → Except E α → Prop} {p : Prog A R E α}

theorem Holds.mono (h : Holds d post p g) (hpost : ∀ g x, post g x → post' g x) :
    Holds d post' p g := by
  induction p generalizing g with
  | pure a => exact hpost g _ h
  | raise e => exact hpost g _ h
  | act a next ih => exact ⟨h.1, fun r g' hn => ih r (h.2 r g' hn)⟩

theorem Holds.bind {post : G → Except E β → Prop} {f : α → Prog A R E β}
    (h : Holds d (fun g x =>
      match x with
      | .ok a => Holds d post (f a) g
      | .error e => post g (.error e)) p g) : Holds d post (p >>= f) g := by
  induction p generalizing g with
  | pure a => exact h
  | raise e => exact h
  | act a next ih => exact ⟨h.1, fun r g' hn => ih r (h.2 r g' hn)⟩

theorem holds_pure {a : α} (h : post g (.ok a)) : Holds d post (pure a) g := h

theorem holds_perform {a : A} {post : G → Except E (R a) → Prop} (hpre : d.pre a g)
    (hnext : ∀ r g', d.next a r g g' → post g' (.ok r)) :
    Holds d post (Prog.perform (E := E) a) g :=
  ⟨hpre, hnext⟩

theorem Holds.tryFinally {cleanup : Prog A R E Unit}
    (h : Holds d (fun g x => Holds d (fun g' y =>
      match y with
      | .ok _ => post g' x
      | .error e => post g' (.error e)) cleanup g) p g) : Holds d post (p.tryFinally cleanup) g := by
  induction p generalizing g with
  | pure a =>
      refine Holds.bind (Holds.mono h fun g' y hy => ?_)
      cases y with
      | ok _ => exact hy
      | error e => exact hy
  | raise e =>
      refine Holds.bind (Holds.mono h fun g' y hy => ?_)
      cases y with
      | ok _ => exact hy
      | error e => exact hy
  | act a next ih => exact ⟨h.1, fun r g' hn => ih r (h.2 r g' hn)⟩

theorem Holds.tryCatch {handler : E → Prog A R E α}
    (h : Holds d (fun g x =>
      match x with
      | .ok a => post g (.ok a)
      | .error e => Holds d post (handler e) g) p g) : Holds d post (p.tryCatch handler) g := by
  induction p generalizing g with
  | pure a => exact h
  | raise e => exact h
  | act a next ih => exact ⟨h.1, fun r g' hn => ih r (h.2 r g' hn)⟩

/-! ## Many programs -/

/-- The state that the programs share, and the programs, each under a name that stays. -/
structure Pool (S N : Type) (A : Type) (R : A → Type) (E α : Type) where
  shared : S
  threads : List (N × Prog A R E α)

/-- What the shared state does: an action of thread `i` under an outcome `C`, and the
environment's own changes. -/
structure Shared (S : Type) (A : Type) (R : A → Type) (C B : Type) where
  perform : S → Nat → (a : A) → C → S × R a
  environment : S → B → Option S

inductive Event (N C B : Type) where
  | spawn (name : N)
  | run (thread : Nat) (outcome : C)
  | environment (change : B)

namespace Pool

variable {S N C B : Type} {sys : Shared S A R C B} {program : N → Prog A R E α}
  {w w' : Pool S N A R E α}

/-- The action that a thread performs next. -/
def action? (w : Pool S N A R E α) (i : Nat) : Option A := w.threads[i]?.bind fun t => t.2.action?

def name? (w : Pool S N A R E α) (i : Nat) : Option N := w.threads[i]?.map Prod.fst

/-- The program of a thread has not ended. -/
def running (w : Pool S N A R E α) (i : Nat) : Bool := (w.action? i).isSome

/-- Thread `i` performs its next action. -/
def runThread (sys : Shared S A R C B) (w : Pool S N A R E α) (i : Nat) (outcome : C) :
    Option (Pool S N A R E α) :=
  match w.threads[i]? with
  | some (n, .act a next) =>
      let (shared, r) := sys.perform w.shared i a outcome
      some ⟨shared, w.threads.set i (n, next r)⟩
  | _ => none

def step (sys : Shared S A R C B) (program : N → Prog A R E α) (w : Pool S N A R E α) :
    Event N C B → Option (Pool S N A R E α)
  | .spawn n => some { w with threads := w.threads ++ [(n, program n)] }
  | .run i outcome => w.runThread sys i outcome
  | .environment change =>
      (sys.environment w.shared change).map fun shared => { w with shared := shared }

theorem name?_eq {i : Nat} {n : N} {p : Prog A R E α} (h : w.threads[i]? = some (n, p)) :
    w.name? i = some n := by
  rw [name?, h]
  rfl

theorem action?_eq {i : Nat} {n : N} {a : A} {next : R a → Prog A R E α}
    (h : w.threads[i]? = some (n, .act a next)) : w.action? i = some a := by
  rw [action?, h]
  rfl

theorem running_of_action? {i : Nat} {a : A} (h : w.action? i = some a) : w.running i = true := by
  rw [running, h]
  rfl

/-- A thread that runs after a step of one has run before. -/
theorem running_of_set {shared : S} {i : Nat} {n : N} {a : A} {next : R a → Prog A R E α}
    {p' : Prog A R E α} (h : w.threads[i]? = some (n, .act a next)) {j : Nat}
    (hj : (⟨shared, w.threads.set i (n, p')⟩ : Pool S N A R E α).running j = true) :
    w.running j = true := by
  by_cases hij : i = j
  · subst hij
    exact running_of_action? (action?_eq h)
  · rw [running, action?] at hj ⊢
    rwa [List.getElem?_set_ne hij] at hj

/-- Threads keep their names. -/
theorem name?_set {shared : S} {i : Nat} {n : N} {p p' : Prog A R E α}
    (h : w.threads[i]? = some (n, p)) (j : Nat) :
    (⟨shared, w.threads.set i (n, p')⟩ : Pool S N A R E α).name? j = w.name? j := by
  rw [name?, name?, List.getElem?_set]
  split_ifs with hij hlt
  · rw [← hij, h]
    rfl
  · exact absurd (List.getElem?_eq_some_iff.mp h).1 hlt
  · rfl

theorem runThread_some {i : Nat} {outcome : C} (h : w.runThread sys i outcome = some w') :
    ∃ n a next, w.threads[i]? = some (n, .act a next) ∧
      w' = ⟨(sys.perform w.shared i a outcome).1,
        w.threads.set i (n, next (sys.perform w.shared i a outcome).2)⟩ := by
  unfold runThread at h
  split at h
  · rename_i n a next hi
    exact ⟨n, a, next, hi, (Option.some.inj h).symm⟩
  · exact nomatch h

/-- The ghost states agree with the shared state, and every thread keeps to its discipline. -/
structure Sound (d : N → Discipline A R G) (post : G → Except E α → Prop)
    (J : S → (Nat → G) → Prop) (g₀ : G) (g : Nat → G) (w : Pool S N A R E α) : Prop where
  joint : J w.shared g
  holds : ∀ i n p, w.threads[i]? = some (n, p) → Holds (d n) post p (g i)
  fresh : ∀ i, w.threads.length ≤ i → g i = g₀

variable {d : N → Discipline A R G} {post : G → Except E α → Prop} {J : S → (Nat → G) → Prop}
  {g₀ : G}

/-- A thread at an action may perform it. -/
theorem Sound.pre {g : Nat → G} (h : Sound d post J g₀ g w) {i : Nat} {a : A}
    (ha : w.action? i = some a) : ∃ n, w.name? i = some n ∧ (d n).pre a (g i) := by
  obtain ⟨⟨n, p⟩, hi, hp⟩ := Option.bind_eq_some_iff.mp ha
  cases p with
  | act a' next =>
      obtain rfl := Option.some.inj hp
      exact ⟨n, name?_eq hi, (h.holds i n _ hi).1⟩
  | pure x => exact nomatch hp
  | raise e => exact nomatch hp

/-- A thread at no action has ended in `post`, or there is none. -/
theorem Sound.ended {g : Nat → G} (h : Sound d post J g₀ g w) {i : Nat}
    (ha : w.action? i = none) : g i = g₀ ∨ ∃ x, post (g i) x := by
  cases hi : w.threads[i]? with
  | none => exact .inl (h.fresh i (List.getElem?_eq_none_iff.mp hi))
  | some t =>
      obtain ⟨n, p⟩ := t
      have hholds := h.holds i n p hi
      cases p with
      | pure x => exact .inr ⟨.ok x, hholds⟩
      | raise e => exact .inr ⟨.error e, hholds⟩
      | act a next =>
          rw [action?, hi] at ha
          exact nomatch ha

/-- One step keeps the programs sound. -/
theorem Sound.step (hprogram : ∀ n, Holds (d n) post (program n) g₀)
    (hperform : ∀ s g i n a outcome, J s g → (d n).pre a (g i) →
      ∃ g', (d n).next a (sys.perform s i a outcome).2 (g i) g' ∧
        J (sys.perform s i a outcome).1 (Function.update g i g'))
    (henv : ∀ s s' g change, J s g → sys.environment s change = some s' → J s' g)
    {g : Nat → G} (h : Sound d post J g₀ g w) {e : Event N C B}
    (hs : Pool.step sys program w e = some w') : ∃ g', Sound d post J g₀ g' w' := by
  cases e with
  | spawn n =>
      obtain rfl := Option.some.inj hs
      refine ⟨g, h.joint, fun i m p hi => ?_, fun i hi => ?_⟩
      · dsimp only at hi
        rw [List.getElem?_append] at hi
        split_ifs at hi with hlt
        · exact h.holds i m p hi
        · obtain ⟨hbound, heq⟩ := List.getElem?_eq_some_iff.mp hi
          rw [List.getElem_singleton] at heq
          obtain ⟨rfl, rfl⟩ := Prod.mk.inj heq
          rw [h.fresh i (by omega)]
          exact hprogram n
      · rw [List.length_append] at hi
        exact h.fresh i (by omega)
  | run i outcome =>
      obtain ⟨n, a, next, hi, rfl⟩ := runThread_some hs
      have hact := h.holds i n _ hi
      obtain ⟨g', hnext, hjoint⟩ := hperform w.shared g i n a outcome h.joint hact.1
      refine ⟨Function.update g i g', hjoint, fun j m p hj => ?_, fun j hj => ?_⟩
      · dsimp only at hj
        rw [List.getElem?_set] at hj
        split_ifs at hj with hij hlt
        · subst hij
          obtain ⟨rfl, rfl⟩ := Prod.mk.inj (Option.some.inj hj)
          rw [Function.update_self]
          exact hact.2 _ g' hnext
        · rw [Function.update_of_ne (Ne.symm hij)]
          exact h.holds j m p hj
      · rw [List.length_set] at hj
        have hlt : i < w.threads.length := (List.getElem?_eq_some_iff.mp hi).1
        rw [Function.update_of_ne (by omega)]
        exact h.fresh j hj
  | environment change =>
      obtain ⟨s, hs', rfl⟩ := Option.map_eq_some_iff.mp hs
      exact ⟨g, henv _ s g change h.joint hs', h.holds, h.fresh⟩

end Pool

end MgRobot.Lib.Resumption
