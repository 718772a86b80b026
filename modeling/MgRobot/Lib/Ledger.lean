import Mathlib.Data.Multiset.UnionInter

/-!
# Requests with late outcomes

A client that has one request open at a time and hears of its outcome through a
mailbox. A request is resolved in two steps: it is closed and its outcome is put
into the mailbox, and later the outcome is taken out and delivered. In between
the client may revoke what is open, or issue the next request.
-/

namespace MgRobot.Lib

set_option autoImplicit false

variable {κ ρ : Type*}

/-- `tag` says how the outcome of the newest request is to be delivered. -/
structure Ledger (κ ρ : Type*) where
  newest : Nat
  isOpen : Bool
  tag : Option κ
  undelivered : Multiset (Nat × κ × ρ)

namespace Ledger

variable (l : Ledger κ ρ)

def issue (k : κ) : Ledger κ ρ :=
  { l with newest := l.newest + 1, isOpen := true, tag := some k }

def revoke : Ledger κ ρ := { l with isOpen := false }

/-- The open request is closed with an outcome. -/
def resolve (k : κ) (r : ρ) : Ledger κ ρ :=
  { l with isOpen := false, undelivered := (l.newest, k, r) ::ₘ l.undelivered }

def deliver [DecidableEq κ] [DecidableEq ρ] (x : Nat × κ × ρ) : Ledger κ ρ :=
  { l with undelivered := l.undelivered.erase x }

/-- What may happen while the client does nothing. -/
inductive Background (l : Ledger κ ρ) : Ledger κ ρ → Prop
  | same : Background l l
  | resolve {k : κ} (r : ρ) (ho : l.isOpen = true) (ht : l.tag = some k) :
      Background l (l.resolve k r)
  | lapse (ho : l.isOpen = true) (ht : l.tag = none) : Background l l.revoke

/-- An open request has a tag, and the outcomes in the mailbox are those of closed requests. -/
structure Sound (l : Ledger κ ρ) : Prop where
  tagged : l.isOpen = true → l.tag ≠ none
  issued : ∀ x ∈ l.undelivered, x.1 ≤ l.newest
  closed : l.isOpen = true → ∀ x ∈ l.undelivered, x.1 ≠ l.newest

namespace Sound

variable {l} {l' : Ledger κ ρ}

theorem issue (h : l.Sound) (k : κ) : (l.issue k).Sound where
  tagged _ := nofun
  issued x hx := (h.issued x hx).trans (Nat.le_succ _)
  closed _ x hx := by
    have hle := h.issued x hx
    show x.1 ≠ l.newest + 1
    omega

theorem revoke (h : l.Sound) : l.revoke.Sound where
  tagged ho := by cases ho
  issued := h.issued
  closed ho := by cases ho

theorem resolve (h : l.Sound) (k : κ) (r : ρ) : (l.resolve k r).Sound where
  tagged ho := by cases ho
  issued x hx := by
    rcases Multiset.mem_cons.mp hx with rfl | hx
    · exact le_rfl
    · exact h.issued x hx
  closed ho := by cases ho

theorem deliver [DecidableEq κ] [DecidableEq ρ] (h : l.Sound) (x : Nat × κ × ρ) :
    (l.deliver x).Sound where
  tagged := h.tagged
  issued y hy := h.issued y (Multiset.mem_of_mem_erase hy)
  closed ho y hy := h.closed ho y (Multiset.mem_of_mem_erase hy)

theorem background (h : l.Sound) (hb : l.Background l') : l'.Sound := by
  cases hb with
  | same => exact h
  | resolve r _ _ => exact h.resolve _ r
  | lapse => exact h.revoke

/-- The outcome of a request is in the mailbox only once the request is closed. -/
theorem not_open (h : l.Sound) {x : Nat × κ × ρ} (hx : x ∈ l.undelivered)
    (hn : x.1 = l.newest) : l.isOpen = false :=
  Bool.eq_false_iff.mpr fun ho => h.closed ho x hx hn

/-- The next request is none of those whose outcomes are in the mailbox. -/
theorem ne_next (h : l.Sound) {x : Nat × κ × ρ} (hx : x ∈ l.undelivered) :
    x.1 ≠ l.newest + 1 := by
  have hle := h.issued x hx
  omega

end Sound

end Ledger

end MgRobot.Lib
