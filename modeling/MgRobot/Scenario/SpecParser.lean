import MgRobot.Lib.PlainValue

/-!
# The parser of specs

`spec.py`: a tree of YAML values read by the types of the fields of a dataclass, and
`Registry.get` of `registry.py`. The classes, what is registered, and how values print
are parameters.
-/

namespace MgRobot.Scenario

set_option autoImplicit false

open MgRobot.Lib.Yaml

inductive CallKind where
  | action
  | trigger
  | expectation
  | monitor
  | driver
  deriving DecidableEq, Repr

/-- `KIND` of the subclasses of `Call`. -/
def CallKind.name : CallKind → String
  | action => "action"
  | trigger => "trigger"
  | expectation => "expectation"
  | monitor => "monitor"
  | driver => "driver"

/-- The type of a field; `C` has the names of the dataclasses. -/
inductive Ty (C : Type) where
  | any
  | literal (args : List Scalar)
  | list (item : Ty C)
  | dict (key value : Ty C)
  | call (kind : CallKind)
  | spec (cls : C)
  | bool
  | int
  | float
  | str
  | optional (t : Ty C)
  /-- A union of more types, or any other type. -/
  | unsupported (text : String)
  deriving DecidableEq, Repr

/-- What values are converted to. -/
inductive Obj (C : Type) where
  /-- The value itself, and `float(value)`. -/
  | raw (v : Tree)
  | list (items : List (Obj C))
  | dict (entries : List (Obj C × Obj C))
  | object (cls : C) (fields : List (String × Obj C))
  | call (kind : CallKind) (name : String) (spec : Option (Obj C)) (place : String)

inductive SpecError where
  /-- `ScenarioValidationError`. -/
  | validation (message : String)
  | typeError
  | valueError
  | overflowError
  /-- What a `validate` hook raises besides. -/
  | hook (name : String)
  deriving DecidableEq, Repr

def SpecError.isValidation : SpecError → Bool
  | validation _ => true
  | _ => false

/-- Without a default, the field is required. -/
structure FieldSpec (C : Type) where
  name : String
  type : Ty C
  default : Option (Obj C)

structure SpecClass (C : Type) where
  fields : List (FieldSpec C)
  nodup : (fields.map FieldSpec.name).Nodup
  /-- `validate(where)` on an object with these fields; a class without the hook accepts all. -/
  validate : List (String × Obj C) → String → Except SpecError Unit
  /-- Whether `hash` goes through; not for a dataclass that compares and is not frozen. -/
  hashable : List (String × Obj C) → Bool

structure SpecEnv (C : Type) where
  classes : C → SpecClass C
  /-- The `spec_cls` of the entry of that kind and name. -/
  registry : CallKind → String → Option (Option C)
  /-- `names(kind)`. -/
  names : CallKind → List String

/-- How values print, where that goes through, and the order of keys that can be sorted. -/
structure PyText where
  repr : Tree → String
  str : Scalar → String
  sorted : List Scalar → List Scalar

def PyText.strOf (py : PyText) : Scalar → String
  | .str s => s
  | key => py.str key

def PyText.reprNames (py : PyText) (names : List String) : String :=
  py.repr (.list (names.map fun name => .scalar (.str name)))

variable {C : Type}

namespace Obj

def none : Obj C := raw .null

/-- `==` of keys; a conversion makes other objects of one key only. -/
def sameKey : Obj C → Obj C → Bool
  | raw (.scalar s), raw (.scalar t) => s.eq t
  | _, _ => false

def hashable (env : SpecEnv C) : Obj C → Bool
  | raw v => v.hashable
  | object cls fields => (env.classes cls).hashable fields
  | _ => false

/-- `d[key] = value`. -/
def insert (key value : Obj C) : List (Obj C × Obj C) → List (Obj C × Obj C)
  | [] => [(key, value)]
  | (k, v) :: rest => if sameKey k key then (k, value) :: rest else (k, v) :: insert key value rest

def merge (pairs : List (Obj C × Obj C)) : List (Obj C × Obj C) :=
  pairs.foldl (fun entries e => insert e.1 e.2 entries) []

end Obj

abbrev Parsed (α : Type) := Except SpecError α

/-- The conversion of one value, by type and place. -/
abbrev Conversion (C : Type) := Ty C → String → Parsed (Obj C)

/-- A value, with the conversions of the values directly under it. -/
structure Node (C : Type) where
  value : Tree
  items : List (Conversion C)
  entries : List (Scalar × Conversion C)

/-- A key has nothing under it. -/
def Node.key (key : Scalar) : Node C := ⟨.scalar key, [], []⟩

def invalid {α : Type} (message : String) : Parsed α := .error (.validation message)

/-- The place of a field, of the parameters of a call and of a value under a key. -/
def dot (place name : String) : String := place ++ "." ++ name

def itemPlace (place : String) (i : Nat) : String := place ++ "[" ++ toString i ++ "]"

def keyPlace (py : PyText) (place : String) (key : Scalar) : String :=
  place ++ ".<key " ++ py.repr (.scalar key) ++ ">"

/-- An error that prints the value. -/
def mismatch {α : Type} (py : PyText) (v : Tree) (message : String → String) : Parsed α :=
  if v.printable then invalid (message (py.repr v)) else .error .valueError

def lookupKey {α : Type} (name : String) (entries : List (Scalar × α)) : Option α :=
  (entries.find? fun e => e.1 == .str name).map Prod.snd

section Parser

variable (env : SpecEnv C) (py : PyText)

def unknownKeys (cls : C) (keys : List Scalar) : List Scalar :=
  keys.filter fun key => !(((env.classes cls).fields.map fun f => Scalar.str f.name).contains key)

/-- The loop over the fields. -/
def parseFields (place : String) (entries : List (Scalar × Conversion C)) :
    List (FieldSpec C) → Parsed (List (String × Obj C))
  | [] => .ok []
  | f :: rest => do
      let obj ←
        match lookupKey f.name entries with
        | some convert => convert f.type (dot place f.name)
        | none =>
            match f.default with
            | some default => .ok default
            | none => invalid (place ++ ": '" ++ f.name ++ "' is required")
      let more ← parseFields place entries rest
      return (f.name, obj) :: more

/-- `parse_spec` from where `raw` is a mapping. -/
def parseMapping (cls : C) (place : String) (entries : List (Scalar × Conversion C)) :
    Parsed (Obj C) :=
  let unknown := unknownKeys env cls (entries.map Prod.fst)
  if unknown ≠ [] then
    if ¬Sortable unknown then .error .typeError
    else if unknown.all Scalar.printable = false then .error .valueError
    else
      let allowed := (env.classes cls).fields.map fun f => Scalar.str f.name
      invalid (place ++ ": unknown key(s) " ++ py.repr (.list ((py.sorted unknown).map .scalar)) ++
        " (allowed: " ++ py.repr (.list ((py.sorted allowed).map .scalar)) ++ ")")
  else do
    let fields ← parseFields place entries (env.classes cls).fields
    (env.classes cls).validate fields place
    return .object cls fields

/-- `parse_spec`. -/
def parseNode (cls : C) (node : Node C) (place : String) : Parsed (Obj C) :=
  match node.value with
  | .scalar .null => parseMapping env py cls place []
  | .map _ => parseMapping env py cls place node.entries
  | v => mismatch py v fun text => place ++ ": mapping expected, got " ++ text

/-- `parse_call` from where name and parameters are told apart. -/
def parseParams (kind : CallKind) (key : Scalar) (params : Tree)
    (parse : C → String → Parsed (Obj C)) (place : String) : Parsed (Obj C) :=
  if ¬key.printable then .error .valueError
  else
    let name := py.strOf key
    match env.registry kind name with
    | none => invalid (place ++ ": unknown " ++ kind.name ++ " '" ++ name ++ "' (available: " ++
        py.reprNames (env.names kind) ++ ")")
    | some (some cls) => do
        let spec ← parse cls (dot place name)
        return .call kind name (some spec) (dot place name)
    | some none =>
        match params with
        | .scalar .null => .ok (.call kind name none (dot place name))
        | .map [] => .ok (.call kind name none (dot place name))
        | _ => invalid (dot place name ++ ": takes no parameters")

/-- `parse_call`. -/
def parseCall (kind : CallKind) (node : Node C) (place : String) : Parsed (Obj C) :=
  match node.value, node.entries with
  | .scalar (.str name), _ =>
      parseParams env py kind (.str name) .null (fun cls => parseNode env py cls (Node.key .null))
        place
  | .map [(key, params)], [(_, convert)] =>
      parseParams env py kind key params (fun cls => convert (.spec cls)) place
  | v, _ => mismatch py v fun text =>
      place ++ ": expected '\x7b<" ++ kind.name ++ "_type>: \x7b...\x7d\x7d', got " ++ text

def convertItems (item : Ty C) (place : String) :
    Nat → List (Conversion C) → Parsed (List (Obj C))
  | _, [] => .ok []
  | i, convert :: rest => do
      let obj ← convert item (itemPlace place i)
      let more ← convertItems item place (i + 1) rest
      return obj :: more

/-- The comprehension over the entries; the keys are hashed after their values are converted. -/
def convertEntries (convertKey : Scalar → String → Parsed (Obj C)) (value : Ty C)
    (place : String) : List (Scalar × Conversion C) → Parsed (List (Obj C × Obj C))
  | [] => .ok []
  | (key, convert) :: rest =>
      if ¬key.printable then .error .valueError
      else do
        let k ← convertKey key (keyPlace py place key)
        let v ← convert value (dot place (py.strOf key))
        if ¬k.hashable env then .error .typeError
        else do
          let more ← convertEntries convertKey value place rest
          return (k, v) :: more

/-- `value in args`. -/
def oneOf (args : List Scalar) : Tree → Bool
  | .scalar s => args.any s.eq
  | _ => false

/-- `_convert`, with what it returns for the values under the node. -/
def convertNode : Ty C → Node C → String → Parsed (Obj C)
  | .any, node, _ => .ok (.raw node.value)
  | .optional t, node, place =>
      if node.value.isNull then .ok .none else convertNode t node place
  | .literal args, node, place =>
      if oneOf args node.value then .ok (.raw node.value)
      else mismatch py node.value fun text => place ++ ": must be one of " ++
        py.repr (.list (args.map .scalar)) ++ ", got " ++ text
  | .list item, node, place =>
      match node.value with
      | .scalar .null => .ok (.list [])
      | .list _ => do
          let items ← convertItems item place 0 node.items
          return .list items
      | v => mismatch py v fun text => place ++ ": list expected, got " ++ text
  | .dict key value, node, place =>
      match node.value with
      | .scalar .null => .ok (.dict [])
      | .map _ => do
          let pairs ← convertEntries env py (fun k => convertNode key (Node.key k)) value place
            node.entries
          return .dict (Obj.merge pairs)
      | v => mismatch py v fun text => place ++ ": mapping expected, got " ++ text
  | .call kind, node, place => parseCall env py kind node place
  | .spec cls, node, place => parseNode env py cls node place
  | .bool, node, place =>
      match node.value with
      | .scalar (.bool b) => .ok (.raw (.scalar (.bool b)))
      | v => mismatch py v fun text => place ++ ": bool expected, got " ++ text
  | .int, node, place =>
      match node.value with
      | .scalar (.int n) => .ok (.raw (.scalar (.int n)))
      | v => mismatch py v fun text => place ++ ": int expected, got " ++ text
  | .float, node, place =>
      match node.value with
      | .scalar (.float x) => .ok (.raw (.scalar (.float x)))
      | .scalar (.int n) =>
          match floatOfInt n with
          | some x => .ok (.raw (.scalar (.float x)))
          | none => .error .overflowError
      | v => mismatch py v fun text => place ++ ": number expected, got " ++ text
  | .str, node, place =>
      match node.value with
      | .scalar (.str s) => .ok (.raw (.scalar (.str s)))
      | v => mismatch py v fun text => place ++ ": string expected, got " ++ text
  | .unsupported text, _, place => invalid (place ++ ": unsupported field type " ++ text)

mutual

def convert : Tree → Conversion C
  | .list items => fun tp place =>
      convertNode env py tp ⟨.list items, convertAll items, []⟩ place
  | .map entries => fun tp place =>
      convertNode env py tp ⟨.map entries, [], convertValues entries⟩ place
  | v => fun tp place => convertNode env py tp ⟨v, [], []⟩ place

def convertAll : List Tree → List (Conversion C)
  | [] => []
  | item :: rest => convert item :: convertAll rest

def convertValues : List (Scalar × Tree) → List (Scalar × Conversion C)
  | [] => []
  | (key, value) :: rest => (key, convert value) :: convertValues rest

end

def parseSpec (cls : C) (raw : Tree) (place : String) : Parsed (Obj C) :=
  convert env py raw (.spec cls) place

end Parser

end MgRobot.Scenario
