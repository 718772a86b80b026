import Mathlib.Algebra.Field.Rat
import Mathlib.Algebra.Order.Ring.Rat
import Mathlib.Data.List.Forall2

/-!
# Plain values

The values that a YAML document of plain data stands for, with the operations that
a dynamically typed program makes on them: truth, entries of a mapping, iteration,
equality and order of scalars. What the program raises by itself is a parameter.
-/

namespace MgRobot.Lib.Plain

set_option autoImplicit false

/-- A double; both zeros are `finite 0`. -/
inductive PyFloat where
  | finite (q : ℚ)
  | inf (negative : Bool)
  | nan
  deriving DecidableEq, Repr

inductive Value where
  | null
  | bool (b : Bool)
  | int (n : Int)
  | float (x : PyFloat)
  | str (s : String)
  | list (items : List Value)
  | map (entries : List (Value × Value))

/-- The exceptions of the operations, and those that a program raises. -/
inductive PyError (E : Type) where
  | typeError
  | attributeError
  | keyError (key : String)
  | raised (e : E)
  deriving DecidableEq, Repr

namespace Value

variable {E : Type}

def isStr (s : String) : Value → Bool
  | .str t => t == s
  | _ => false

def isFalsy : Value → Bool
  | .null => true
  | .bool b => !b
  | .int n => n == 0
  | .float (.finite q) => q == 0
  | .float _ => false
  | .str s => s == ""
  | .list items => items.isEmpty
  | .map entries => entries.isEmpty

abbrev truthy (v : Value) : Bool := !v.isFalsy

/-- The value under a key; a mapping has each key once. -/
def entryAt? (key : String) (entries : List (Value × Value)) : Option Value :=
  (entries.find? fun e => e.1.isStr key).map (·.2)

/-- `v.get(key, default)`. -/
def get (v : Value) (key : String) (default : Value) : Except (PyError E) Value :=
  match v with
  | .map entries => .ok ((entryAt? key entries).getD default)
  | _ => .error .attributeError

/-- `v[key]`. -/
def subscript (v : Value) (key : String) : Except (PyError E) Value :=
  match v with
  | .map entries =>
      match entryAt? key entries with
      | some found => .ok found
      | none => .error (.keyError key)
  | _ => .error .typeError

/-- `iter(v)`. -/
def iter : Value → Except (PyError E) (List Value)
  | .list items => .ok items
  | .map entries => .ok (entries.map (·.1))
  | .str s => .ok (s.toList.map fun c => .str c.toString)
  | _ => .error .typeError

/-- The entries that `**v` passes. -/
def kwargs : Value → Except (PyError E) (List (Value × Value))
  | .map entries => .ok entries
  | _ => .error .typeError

/-! ### Programs that may raise -/

theorem ok_of_bind {ε α β : Type} {x : Except ε α} {f : α → Except ε β} {b : β}
    (h : x >>= f = .ok b) : ∃ a, x = .ok a ∧ f a = .ok b := by
  cases x with
  | error e => exact absurd h nofun
  | ok a => exact ⟨a, rfl, h⟩

/-- A loop that does not raise has a result for each item. -/
theorem mapM_ok_iff {ε α β : Type} (f : α → Except ε β) (xs : List α) (ys : List β) :
    xs.mapM f = .ok ys ↔ List.Forall₂ (fun x y => f x = .ok y) xs ys := by
  induction xs generalizing ys with
  | nil =>
      rw [List.forall₂_nil_left_iff]
      constructor
      · intro h
        exact (Except.ok.inj h).symm
      · rintro rfl
        rfl
  | cons x xs ih =>
      rw [List.mapM_cons]
      constructor
      · intro h
        obtain ⟨y, hy, h⟩ := ok_of_bind h
        obtain ⟨rest, hrest, h⟩ := ok_of_bind h
        obtain rfl := Except.ok.inj h
        exact .cons hy ((ih rest).mp hrest)
      · intro h
        cases h with
        | cons hy hrest =>
            rw [hy, (ih _).mpr hrest]
            rfl

theorem mem_of_mapM_ok {ε α β : Type} {f : α → Except ε β} {xs : List α} {ys : List β}
    (h : xs.mapM f = .ok ys) {y : β} (hy : y ∈ ys) : ∃ x ∈ xs, f x = .ok y := by
  have hall := (mapM_ok_iff f xs ys).mp h
  clear h
  induction hall with
  | nil => exact absurd hy List.not_mem_nil
  | cons hfirst hrest ih =>
      rcases List.mem_cons.mp hy with rfl | hy
      · exact ⟨_, List.mem_cons_self, hfirst⟩
      · obtain ⟨x, hx, hok⟩ := ih hy
        exact ⟨x, List.mem_cons_of_mem _ hx, hok⟩

theorem ok_of_mem_mapM {ε α β : Type} {f : α → Except ε β} {xs : List α} {ys : List β}
    (h : xs.mapM f = .ok ys) {x : α} (hx : x ∈ xs) : ∃ y ∈ ys, f x = .ok y := by
  have hall := (mapM_ok_iff f xs ys).mp h
  clear h
  induction hall with
  | nil => exact absurd hx List.not_mem_nil
  | cons hfirst hrest ih =>
      rcases List.mem_cons.mp hx with rfl | hx
      · exact ⟨_, List.mem_cons_self, hfirst⟩
      · obtain ⟨y, hy, hok⟩ := ih hx
        exact ⟨y, List.mem_cons_of_mem _ hy, hok⟩

/-- A loop in which no round raises. -/
theorem exists_mapM_ok {ε α β : Type} {f : α → Except ε β} : ∀ {xs : List α},
    (∀ x ∈ xs, ∃ y, f x = .ok y) → ∃ ys, xs.mapM f = .ok ys
  | [], _ => ⟨[], rfl⟩
  | x :: xs, h => by
      obtain ⟨y, hy⟩ := h x List.mem_cons_self
      obtain ⟨ys, hys⟩ := exists_mapM_ok fun x hx => h x (List.mem_cons_of_mem _ hx)
      refine ⟨y :: ys, ?_⟩
      rw [List.mapM_cons, hy, hys]
      rfl

/-! ### Entries -/

theorem subscript_map {key : String} {entries : List (Value × Value)} {v : Value}
    (h : entryAt? key entries = some v) :
    (subscript (.map entries) key : Except (PyError E) Value) = .ok v := by
  rw [subscript, h]

/-! ### Equality and order of scalars -/

/-- What hashing and `==` see of a scalar: numbers of all types are compared by value. -/
inductive Key where
  | null
  | num (q : ℚ)
  | inf (negative : Bool)
  | nan
  | str (s : String)
  deriving DecidableEq, Repr

/-- `none` for the values that cannot be hashed. -/
def key? : Value → Option Key
  | .null => some .null
  | .bool b => some (.num (if b then 1 else 0))
  | .int n => some (.num n)
  | .float (.finite q) => some (.num q)
  | .float (.inf negative) => some (.inf negative)
  | .float .nan => some .nan
  | .str s => some (.str s)
  | .list _ | .map _ => none

/-- `a < b`; `none` where it raises. -/
def Key.lt? : Key → Key → Option Bool
  | .num a, .num b => some (a < b)
  | .num _, .inf negative => some !negative
  | .inf negative, .num _ => some negative
  | .inf a, .inf b => some (a && !b)
  | .nan, .num _ | .nan, .inf _ | .nan, .nan | .num _, .nan | .inf _, .nan => some false
  | .str a, .str b => some (a < b)
  | _, _ => none

/-- `a < b` of scalars. -/
def lt? (a b : Value) : Option Bool := do
  (← a.key?).lt? (← b.key?)

def isNumber : Value → Bool
  | .bool _ | .int _ | .float _ => true
  | _ => false

/-- A float can be compared with the numbers only. -/
theorem lt?_float_isSome (x : PyFloat) (v : Value) :
    ((Value.float x).lt? v).isSome = v.isNumber := by
  cases v with
  | float y =>
      cases x with
      | finite q => cases y with | finite q' => rfl | inf n => rfl | nan => rfl
      | inf n => cases y with | finite q' => rfl | inf n' => rfl | nan => rfl
      | nan => cases y with | finite q' => rfl | inf n' => rfl | nan => rfl
  | null => cases x with | finite q => rfl | inf n => rfl | nan => rfl
  | bool b => cases x with | finite q => rfl | inf n => rfl | nan => rfl
  | int n => cases x with | finite q => rfl | inf n => rfl | nan => rfl
  | str s => cases x with | finite q => rfl | inf n => rfl | nan => rfl
  | list items => cases x with | finite q => rfl | inf n => rfl | nan => rfl
  | map entries => cases x with | finite q => rfl | inf n => rfl | nan => rfl

end Value

end MgRobot.Lib.Plain

/-!
# Trees of YAML values

The values that a safe YAML loader builds, with what a Python program does to them
that can fail: sorting, printing, conversion to a double, hashing.
-/

namespace MgRobot.Lib.Yaml

set_option autoImplicit false

open MgRobot.Lib.Plain (PyFloat)

/-- The hashable values; the keys of a mapping are these. -/
inductive Scalar where
  | null
  | bool (b : Bool)
  | int (n : Int)
  | float (x : PyFloat)
  | str (s : String)
  | bytes (octets : List UInt8)
  | date (day : Int)
  /-- With a time zone (`aware`) or without. -/
  | datetime (aware : Bool) (microsecond : Int)
  deriving DecidableEq, Repr

inductive Tree where
  | scalar (s : Scalar)
  | list (items : List Tree)
  /-- An entry of `!!pairs` or `!!omap`. -/
  | pair (first second : Tree)
  | set (members : List Scalar)
  | map (entries : List (Scalar × Tree))

namespace Scalar

/-- Booleans are numbers to `==` and `<`. -/
def number : Scalar → Option PyFloat
  | bool b => some (.finite (if b then 1 else 0))
  | int n => some (.finite n)
  | float x => some x
  | _ => none

/-- `==`. -/
def eq (a b : Scalar) : Bool :=
  match a.number, b.number with
  | some x, some y => x == y && x != .nan
  | none, none => a == b
  | _, _ => false

inductive OrderClass where
  | number
  | text
  | bytes
  | date
  | naive
  | aware
  deriving DecidableEq, Repr

/-- `<` raises `TypeError` between values of different classes, and for `None`. -/
def orderClass : Scalar → Option OrderClass
  | null => none
  | bool _ => some .number
  | int _ => some .number
  | float _ => some .number
  | str _ => some .text
  | bytes _ => some .bytes
  | date _ => some .date
  | datetime aware _ => some (if aware then .aware else .naive)

def comparable (a b : Scalar) : Bool :=
  match a.orderClass, b.orderClass with
  | some x, some y => x == y
  | _, _ => false

/-- The digits of an integer that Python converts to decimal; beyond them it raises `ValueError`. -/
def INT_MAX_STR_DIGITS : Nat := 4300

def printable : Scalar → Bool
  | int n => decide (n.natAbs < 10 ^ INT_MAX_STR_DIGITS)
  | _ => true

end Scalar

/-- `sorted` goes through; it compares across any two classes there are. -/
def Sortable (keys : List Scalar) : Prop := keys.Pairwise fun a b => a.comparable b = true

instance (keys : List Scalar) : Decidable (Sortable keys) := by
  unfold Sortable
  infer_instance

/-- `float(n)`: to 53 bits, half to even; `none` is `OverflowError`. -/
def floatOfInt (n : Int) : Option PyFloat :=
  let unit := 2 ^ (n.natAbs.log2 + 1 - 53)
  let down := n.natAbs / unit
  let rest := n.natAbs % unit
  let rounded := if unit < 2 * rest ∨ (unit = 2 * rest ∧ down % 2 = 1) then down + 1 else down
  if 2 ^ 1024 ≤ rounded * unit then none
  else some (.finite (n.sign * (rounded * unit : Nat)))

example : floatOfInt (2 ^ 53 + 1) = floatOfInt (2 ^ 53) := by decide +kernel

example : floatOfInt (2 ^ 1024 - 2 ^ 970) = none := by decide +kernel

namespace Tree

mutual

/-- `repr` goes through. -/
def printable : Tree → Bool
  | .scalar s => s.printable
  | .list items => allPrintable items
  | .pair first second => first.printable && second.printable
  | .set members => members.all Scalar.printable
  | .map entries => entriesPrintable entries

def allPrintable : List Tree → Bool
  | [] => true
  | item :: rest => item.printable && allPrintable rest

def entriesPrintable : List (Scalar × Tree) → Bool
  | [] => true
  | (key, value) :: rest => key.printable && value.printable && entriesPrintable rest

end

def null : Tree := .scalar .null

def isNull : Tree → Bool
  | .scalar .null => true
  | _ => false

def hashable : Tree → Bool
  | .scalar _ => true
  | .pair first second => first.hashable && second.hashable
  | _ => false

theorem isNull_iff {v : Tree} : v.isNull = true ↔ v = null := by
  constructor
  · intro h
    cases v with
    | scalar s =>
        cases s with
        | null => rfl
        | _ => exact absurd h nofun
    | _ => exact absurd h nofun
  · intro h
    rw [h]
    rfl

/-- The values directly under a list or a mapping. -/
def children : Tree → List Tree
  | .list items => items
  | .map entries => entries.map Prod.snd
  | _ => []

/-- Induction over the lists and the mappings of a tree. -/
theorem inductionOn {motive : Tree → Prop} (v : Tree)
    (step : ∀ v, (∀ w ∈ v.children, motive w) → motive v) : motive v :=
  match v with
  | .scalar s => step (.scalar s) nofun
  | .pair first second => step (.pair first second) nofun
  | .set members => step (.set members) nofun
  | .list items => step (.list items) fun w (hw : w ∈ items) => inductionOn w step
  | .map entries => step (.map entries) fun w hw => by
      obtain ⟨entry, hentry, hsnd⟩ := List.mem_map.mp hw
      exact inductionOn w step
termination_by sizeOf v
decreasing_by
  · have := List.sizeOf_lt_of_mem hw
    simp only [Tree.list.sizeOf_spec]
    omega
  · have h1 := List.sizeOf_lt_of_mem hentry
    have h2 : sizeOf w < sizeOf entry := by
      obtain ⟨key, value⟩ := entry
      obtain rfl := hsnd
      simp only [Prod.mk.sizeOf_spec]
      omega
    simp only [Tree.map.sizeOf_spec]
    omega

end Tree

end MgRobot.Lib.Yaml
