import Mathlib.Data.List.Basic

/-!
# Scripts

A script calls other programs one after another, and returns or raises. What it has
called by then stays called, whichever way it ends.
-/

namespace MgRobot.Lib

set_option autoImplicit false

structure Script (ι ε α : Type) where
  calls : List ι
  outcome : Except ε α

namespace Script

variable {ι ε α β : Type}

def call (i : ι) (outcome : Except ε α) : Script ι ε α := ⟨[i], outcome⟩

def raise (e : ε) : Script ι ε α := ⟨[], .error e⟩

def andThen (x : Script ι ε α) (f : α → Script ι ε β) : Script ι ε β :=
  match x.outcome with
  | .ok a => ⟨x.calls ++ (f a).calls, (f a).outcome⟩
  | .error e => ⟨x.calls, .error e⟩

instance : Monad (Script ι ε) where
  pure a := ⟨[], .ok a⟩
  bind := andThen

/-- `handler` takes some of the errors; the others go on. -/
def catching (x : Script ι ε α) (handler : ε → Option (Script ι ε α)) : Script ι ε α :=
  match x.outcome with
  | .ok a => ⟨x.calls, .ok a⟩
  | .error e =>
      match handler e with
      | none => ⟨x.calls, .error e⟩
      | some y => ⟨x.calls ++ y.calls, y.outcome⟩

/-- `cleanup` comes last in any case; an error of its own replaces what came before. -/
def lastly (x : Script ι ε α) (cleanup : Script ι ε Unit) : Script ι ε α :=
  ⟨x.calls ++ cleanup.calls,
    match cleanup.outcome with
    | .ok _ => x.outcome
    | .error e => .error e⟩

/-- `body` works on what `acquire` yields, and `release` comes after it. -/
def within (acquire : Script ι ε α) (body : α → Script ι ε β) (release : Script ι ε Unit) :
    Script ι ε β :=
  acquire >>= fun a => (body a).lastly release

variable {x : Script ι ε α} {f : α → Script ι ε β} {cleanup : Script ι ε Unit} {a : α} {e : ε} {i : ι}

@[simp] theorem calls_call (i : ι) (outcome : Except ε α) : (call i outcome).calls = [i] := rfl

@[simp] theorem outcome_call (i : ι) (outcome : Except ε α) : (call i outcome).outcome = outcome := rfl

@[simp] theorem calls_pure (a : α) : (pure a : Script ι ε α).calls = [] := rfl

@[simp] theorem outcome_pure (a : α) : (pure a : Script ι ε α).outcome = .ok a := rfl

@[simp] theorem calls_lastly : (x.lastly cleanup).calls = x.calls ++ cleanup.calls := rfl

theorem bind_of_ok (h : x.outcome = .ok a) :
    x >>= f = ⟨x.calls ++ (f a).calls, (f a).outcome⟩ := by
  show andThen x f = _
  rw [andThen, h]

theorem bind_of_error (h : x.outcome = .error e) : x >>= f = ⟨x.calls, .error e⟩ := by
  show andThen x f = _
  rw [andThen, h]

/-- What is called after `x` is called only if `x` returns. -/
theorem mem_calls_bind : i ∈ (x >>= f).calls ↔
    i ∈ x.calls ∨ ∃ a, x.outcome = .ok a ∧ i ∈ (f a).calls := by
  cases h : x.outcome with
  | ok a => simp [bind_of_ok h]
  | error e => simp [bind_of_error h]

theorem outcome_bind_eq_ok {b : β} : (x >>= f).outcome = .ok b ↔
    ∃ a, x.outcome = .ok a ∧ (f a).outcome = .ok b := by
  cases h : x.outcome with
  | ok a => simp [bind_of_ok h]
  | error e => simp [bind_of_error h]

theorem outcome_lastly_eq_ok : (x.lastly cleanup).outcome = .ok a ↔
    x.outcome = .ok a ∧ cleanup.outcome = .ok () := by
  unfold lastly
  cases h : cleanup.outcome with
  | ok u => simp
  | error e => simp

/-- A handler that calls nothing leaves the calls as they are. -/
theorem calls_catching {handler : ε → Option (Script ι ε α)}
    (h : ∀ e y, handler e = some y → y.calls = []) : (x.catching handler).calls = x.calls := by
  unfold catching
  split
  next => rfl
  next e _ =>
    split
    next => rfl
    next y hy => rw [h e y hy, List.append_nil]

end Script

end MgRobot.Lib
