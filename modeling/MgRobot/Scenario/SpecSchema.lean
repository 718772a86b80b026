import MgRobot.Scenario.SpecParser

/-!
# What conforms to a spec

The schema that the fields of a dataclass declare, told without the parser: which
values conform to a type, and the object they stand for. Besides it, where a parser that
checks in the order of the fields and of the values meets an operation that raises.
-/

namespace MgRobot.Scenario

set_option autoImplicit false

open MgRobot.Lib.Yaml

variable {C : Type}

/-- `null` stands for the empty list. -/
def listOf : Tree → Option (List Tree)
  | .scalar .null => some []
  | .list items => some items
  | _ => none

/-- `null` stands for the empty mapping. -/
def entriesOf : Tree → Option (List (Scalar × Tree))
  | .scalar .null => some []
  | .map entries => some entries
  | _ => none

/-- The name and the parameters of a call. -/
def callOf : Tree → Option (Scalar × Tree)
  | .scalar (.str name) => some (.str name, .null)
  | .map [entry] => some entry
  | _ => none

def IsEmpty : Tree → Prop
  | .scalar .null => True
  | .map [] => True
  | _ => False

def hasType : Ty C → Tree → Bool
  | .bool, .scalar (.bool _) => true
  | .int, .scalar (.int _) => true
  | .float, .scalar (.float _) => true
  | .float, .scalar (.int _) => true
  | .str, .scalar (.str _) => true
  | _, _ => false

def isPlain : Ty C → Bool
  | .bool => true
  | .int => true
  | .float => true
  | .str => true
  | _ => false

section Schema

variable (env : SpecEnv C) (py : PyText) (strict : Bool)

mutual

/-- The value conforms to the type and stands for the object. This is the schema when it is read
strictly. Otherwise it is what can be accepted by comparing with `==` and after printing the keys:
a literal may be matched by an equal value of another type, and keys may become one. -/
inductive Accepts : Ty C → String → Tree → Obj C → Prop
  | any {place v} : Accepts .any place v (.raw v)
  | absent {t place} : Accepts (.optional t) place .null .none
  | present {t place v obj} : v.isNull = false → Accepts t place v obj →
      Accepts (.optional t) place v obj
  | literal {args place s} : oneOf args (.scalar s) = true → (strict → s ∈ args) →
      Accepts (.literal args) place (.scalar s) (.raw (.scalar s))
  | list {t place v items objs} : listOf v = some items → AcceptsItems t place 0 items objs →
      Accepts (.list t) place v (.list objs)
  | dict {k t place v entries pairs} : entriesOf v = some entries →
      AcceptsEntries k t place entries pairs →
      (strict → pairs.Pairwise fun p q => Obj.sameKey p.1 q.1 = false) →
      Accepts (.dict k t) place v (.dict (Obj.merge pairs))
  | call {kind place v key params cls obj} : callOf v = some (key, params) →
      (strict = false → key.printable = true) →
      env.registry kind (py.strOf key) = some (some cls) →
      Accepts (.spec cls) (dot place (py.strOf key)) params obj →
      Accepts (.call kind) place v
        (.call kind (py.strOf key) (some obj) (dot place (py.strOf key)))
  | bareCall {kind place v key params} : callOf v = some (key, params) →
      (strict = false → key.printable = true) →
      env.registry kind (py.strOf key) = some none → IsEmpty params →
      Accepts (.call kind) place v (.call kind (py.strOf key) none (dot place (py.strOf key)))
  | spec {cls place v entries fields} : entriesOf v = some entries →
      unknownKeys env cls (entries.map Prod.fst) = [] →
      AcceptsFields (env.classes cls).fields place entries fields →
      (env.classes cls).validate fields place = .ok () →
      Accepts (.spec cls) place v (.object cls fields)
  | bool {place b} : Accepts .bool place (.scalar (.bool b)) (.raw (.scalar (.bool b)))
  | int {place n} : Accepts .int place (.scalar (.int n)) (.raw (.scalar (.int n)))
  | float {place x} : Accepts .float place (.scalar (.float x)) (.raw (.scalar (.float x)))
  | floatOfInt {place n x} : floatOfInt n = some x →
      Accepts .float place (.scalar (.int n)) (.raw (.scalar (.float x)))
  | str {place s} : Accepts .str place (.scalar (.str s)) (.raw (.scalar (.str s)))

inductive AcceptsItems : Ty C → String → Nat → List Tree → List (Obj C) → Prop
  | nil {t place i} : AcceptsItems t place i [] []
  | cons {t place i v obj items objs} : Accepts t (itemPlace place i) v obj →
      AcceptsItems t place (i + 1) items objs →
      AcceptsItems t place i (v :: items) (obj :: objs)

inductive AcceptsEntries : Ty C → Ty C → String → List (Scalar × Tree) → List (Obj C × Obj C) → Prop
  | nil {k t place} : AcceptsEntries k t place [] []
  | cons {k t place key v ko vo entries pairs} : (strict = false → key.printable = true) →
      Accepts k (keyPlace py place key) (.scalar key) ko →
      Accepts t (dot place (py.strOf key)) v vo →
      (strict = false → ko.hashable env = true) →
      AcceptsEntries k t place entries pairs →
      AcceptsEntries k t place ((key, v) :: entries) ((ko, vo) :: pairs)

inductive AcceptsFields :
    List (FieldSpec C) → String → List (Scalar × Tree) → List (String × Obj C) → Prop
  | nil {place entries} : AcceptsFields [] place entries []
  | given {f : FieldSpec C} {rest place entries v obj fields} : lookupKey f.name entries = some v →
      Accepts f.type (dot place f.name) v obj → AcceptsFields rest place entries fields →
      AcceptsFields (f :: rest) place entries ((f.name, obj) :: fields)
  | default {f : FieldSpec C} {rest place entries obj fields} : lookupKey f.name entries = none →
      f.default = some obj → AcceptsFields rest place entries fields →
      AcceptsFields (f :: rest) place entries ((f.name, obj) :: fields)

end

end Schema

/-- The schema. -/
abbrev Conforms (env : SpecEnv C) (py : PyText) : Ty C → String → Tree → Obj C → Prop :=
  Accepts env py true

/-- What the comparisons and the printing let through. -/
abbrev Passes (env : SpecEnv C) (py : PyText) : Ty C → String → Tree → Obj C → Prop :=
  Accepts env py false

section Trips

variable (env : SpecEnv C) (py : PyText)

mutual

/-- The first thing found is no error of the schema but an operation that raises: an integer too
long to print, keys without an order, an integer too large for a double, a key that cannot be
hashed, or a hook. -/
inductive Trips : Ty C → String → Tree → Prop
  | present {t place v} : v.isNull = false → Trips t place v → Trips (.optional t) place v
  | literal {args place v} : oneOf args v = false → v.printable = false →
      Trips (.literal args) place v
  | notList {t place v} : listOf v = none → v.printable = false → Trips (.list t) place v
  | items {t place v items} : listOf v = some items → TripsItems t place 0 items →
      Trips (.list t) place v
  | notDict {k t place v} : entriesOf v = none → v.printable = false → Trips (.dict k t) place v
  | entries {k t place v entries} : entriesOf v = some entries →
      TripsEntries k t place entries → Trips (.dict k t) place v
  | notCall {kind place v} : callOf v = none → v.printable = false → Trips (.call kind) place v
  | name {kind place v key params} : callOf v = some (key, params) → key.printable = false →
      Trips (.call kind) place v
  | params {kind place v key params cls} : callOf v = some (key, params) →
      key.printable = true → env.registry kind (py.strOf key) = some (some cls) →
      Trips (.spec cls) (dot place (py.strOf key)) params → Trips (.call kind) place v
  | notMapping {cls place v} : entriesOf v = none → v.printable = false →
      Trips (.spec cls) place v
  | unsortable {cls place v entries} : entriesOf v = some entries →
      ¬Sortable (unknownKeys env cls (entries.map Prod.fst)) → Trips (.spec cls) place v
  | unknown {cls place v entries} : entriesOf v = some entries →
      (unknownKeys env cls (entries.map Prod.fst)).all Scalar.printable = false →
      Trips (.spec cls) place v
  | fields {cls place v entries} : entriesOf v = some entries →
      unknownKeys env cls (entries.map Prod.fst) = [] →
      TripsFields (env.classes cls).fields place entries → Trips (.spec cls) place v
  | hook {cls place v entries fields e} : entriesOf v = some entries →
      unknownKeys env cls (entries.map Prod.fst) = [] →
      AcceptsFields env py false (env.classes cls).fields place entries fields →
      (env.classes cls).validate fields place = .error e → e.isValidation = false →
      Trips (.spec cls) place v
  | plain {tp place v} : isPlain tp = true → hasType tp v = false → v.printable = false →
      Trips tp place v
  | overflow {place n} : floatOfInt n = none → Trips .float place (.scalar (.int n))

inductive TripsItems : Ty C → String → Nat → List Tree → Prop
  | head {t place i v items} : Trips t (itemPlace place i) v → TripsItems t place i (v :: items)
  | tail {t place i v obj items} : Passes env py t (itemPlace place i) v obj →
      TripsItems t place (i + 1) items → TripsItems t place i (v :: items)

inductive TripsEntries : Ty C → Ty C → String → List (Scalar × Tree) → Prop
  | print {k t place key v entries} : key.printable = false →
      TripsEntries k t place ((key, v) :: entries)
  | key {k t place key v entries} : key.printable = true →
      Trips k (keyPlace py place key) (.scalar key) → TripsEntries k t place ((key, v) :: entries)
  | value {k t place key v ko entries} : key.printable = true →
      Passes env py k (keyPlace py place key) (.scalar key) ko →
      Trips t (dot place (py.strOf key)) v → TripsEntries k t place ((key, v) :: entries)
  | hash {k t place key v ko vo entries} : key.printable = true →
      Passes env py k (keyPlace py place key) (.scalar key) ko →
      Passes env py t (dot place (py.strOf key)) v vo → ko.hashable env = false →
      TripsEntries k t place ((key, v) :: entries)
  | tail {k t place key v ko vo entries} : key.printable = true →
      Passes env py k (keyPlace py place key) (.scalar key) ko →
      Passes env py t (dot place (py.strOf key)) v vo → ko.hashable env = true →
      TripsEntries k t place entries → TripsEntries k t place ((key, v) :: entries)

inductive TripsFields : List (FieldSpec C) → String → List (Scalar × Tree) → Prop
  | given {f : FieldSpec C} {rest place entries v} : lookupKey f.name entries = some v →
      Trips f.type (dot place f.name) v → TripsFields (f :: rest) place entries
  | tail {f : FieldSpec C} {rest place entries v obj} : lookupKey f.name entries = some v →
      Passes env py f.type (dot place f.name) v obj → TripsFields rest place entries →
      TripsFields (f :: rest) place entries
  | default {f : FieldSpec C} {rest place entries obj} : lookupKey f.name entries = none →
      f.default = some obj → TripsFields rest place entries →
      TripsFields (f :: rest) place entries

end

/-- Somewhere a literal is only equal to one of its type's, `True` to `1` say, or two keys become
one, as large integers do that round to the same double. -/
inductive Blurs : Ty C → String → Tree → Prop
  | present {t place v} : v.isNull = false → Blurs t place v → Blurs (.optional t) place v
  | literal {args place s} : s ∉ args → Blurs (.literal args) place (.scalar s)
  | item {t place v items} (i : Nat) {w} : listOf v = some items → items[i]? = some w →
      Blurs t (itemPlace place i) w → Blurs (.list t) place v
  | key {k t place v entries key w} : entriesOf v = some entries → (key, w) ∈ entries →
      Blurs k (keyPlace py place key) (.scalar key) → Blurs (.dict k t) place v
  | value {k t place v entries key w} : entriesOf v = some entries → (key, w) ∈ entries →
      Blurs t (dot place (py.strOf key)) w → Blurs (.dict k t) place v
  | merged {k t place v entries pairs} : entriesOf v = some entries →
      AcceptsEntries env py false k t place entries pairs →
      ¬pairs.Pairwise (fun p q => Obj.sameKey p.1 q.1 = false) → Blurs (.dict k t) place v
  | params {kind place v key params cls} : callOf v = some (key, params) →
      env.registry kind (py.strOf key) = some (some cls) →
      Blurs (.spec cls) (dot place (py.strOf key)) params → Blurs (.call kind) place v
  | field {cls place v entries f w} : entriesOf v = some entries →
      f ∈ (env.classes cls).fields → lookupKey f.name entries = some w →
      Blurs f.type (dot place f.name) w → Blurs (.spec cls) place v

end Trips

section Inversion

variable {env : SpecEnv C} {py : PyText} {strict : Bool} {t k : Ty C} {cls : C} {kind : CallKind}
  {place : String} {v params : Tree} {key : Scalar} {items : List Tree}
  {entries : List (Scalar × Tree)} {o : Obj C}

theorem accepts_list_iff (hv : listOf v = some items) :
    Accepts env py strict (.list t) place v o ↔
      ∃ objs, AcceptsItems env py strict t place 0 items objs ∧ o = .list objs := by
  constructor
  · intro h
    cases h with
    | list hv' hobjs =>
        obtain rfl := Option.some.inj (hv.symm.trans hv')
        exact ⟨_, hobjs, rfl⟩
  · intro h
    obtain ⟨objs, hobjs, rfl⟩ := h
    exact .list hv hobjs

theorem accepts_dict_iff (hv : entriesOf v = some entries) :
    Accepts env py strict (.dict k t) place v o ↔
      ∃ pairs, AcceptsEntries env py strict k t place entries pairs ∧
        (strict → pairs.Pairwise fun p q => Obj.sameKey p.1 q.1 = false) ∧
        o = .dict (Obj.merge pairs) := by
  constructor
  · intro h
    cases h with
    | dict hv' hpairs hdistinct =>
        obtain rfl := Option.some.inj (hv.symm.trans hv')
        exact ⟨_, hpairs, hdistinct, rfl⟩
  · intro h
    obtain ⟨pairs, hpairs, hdistinct, rfl⟩ := h
    exact .dict hv hpairs hdistinct

theorem accepts_call_iff (hv : callOf v = some (key, params)) :
    Accepts env py strict (.call kind) place v o ↔
      (strict = false → key.printable = true) ∧
        ((∃ cls obj, env.registry kind (py.strOf key) = some (some cls) ∧
            Accepts env py strict (.spec cls) (dot place (py.strOf key)) params obj ∧
            o = .call kind (py.strOf key) (some obj) (dot place (py.strOf key))) ∨
          env.registry kind (py.strOf key) = some none ∧ IsEmpty params ∧
            o = .call kind (py.strOf key) none (dot place (py.strOf key))) := by
  constructor
  · intro h
    cases h with
    | call hv' hprint hreg hspec =>
        obtain ⟨rfl, rfl⟩ := Prod.mk.inj (Option.some.inj (hv.symm.trans hv'))
        exact ⟨hprint, Or.inl ⟨_, _, hreg, hspec, rfl⟩⟩
    | bareCall hv' hprint hreg hempty =>
        obtain ⟨rfl, rfl⟩ := Prod.mk.inj (Option.some.inj (hv.symm.trans hv'))
        exact ⟨hprint, Or.inr ⟨hreg, hempty, rfl⟩⟩
  · intro h
    obtain ⟨hprint, ⟨cls, obj, hreg, hspec, rfl⟩ | ⟨hreg, hempty, rfl⟩⟩ := h
    · exact .call hv hprint hreg hspec
    · exact .bareCall hv hprint hreg hempty

theorem accepts_spec_iff (hv : entriesOf v = some entries) :
    Accepts env py strict (.spec cls) place v o ↔
      unknownKeys env cls (entries.map Prod.fst) = [] ∧
        ∃ fields, AcceptsFields env py strict (env.classes cls).fields place entries fields ∧
          (env.classes cls).validate fields place = .ok () ∧ o = .object cls fields := by
  constructor
  · intro h
    cases h with
    | spec hv' hunknown hfields hvalid =>
        obtain rfl := Option.some.inj (hv.symm.trans hv')
        exact ⟨hunknown, _, hfields, hvalid, rfl⟩
  · intro h
    obtain ⟨hunknown, fields, hfields, hvalid, rfl⟩ := h
    exact .spec hv hunknown hfields hvalid

/-- A value of a plain type is itself, unless it is an integer for a float. -/
theorem eq_raw_of_accepts {tp : Ty C} (hplain : isPlain tp = true)
    (hfloat : ∀ n, tp = .float → v ≠ .scalar (.int n)) (h : Accepts env py strict tp place v o) :
    o = .raw v := by
  cases h with
  | bool => rfl
  | int => rfl
  | float => rfl
  | floatOfInt => exact absurd rfl (hfloat _ rfl)
  | str => rfl
  | _ => exact absurd hplain nofun

theorem trips_list_iff (hv : listOf v = some items) :
    Trips env py (.list t) place v ↔ TripsItems env py t place 0 items := by
  constructor
  · intro h
    cases h with
    | notList hv' => exact absurd (hv.symm.trans hv') nofun
    | items hv' hitems =>
        obtain rfl := Option.some.inj (hv.symm.trans hv')
        exact hitems
    | plain hplain => exact absurd hplain nofun
  · intro h
    exact .items hv h

theorem trips_dict_iff (hv : entriesOf v = some entries) :
    Trips env py (.dict k t) place v ↔ TripsEntries env py k t place entries := by
  constructor
  · intro h
    cases h with
    | notDict hv' => exact absurd (hv.symm.trans hv') nofun
    | entries hv' hentries =>
        obtain rfl := Option.some.inj (hv.symm.trans hv')
        exact hentries
    | plain hplain => exact absurd hplain nofun
  · intro h
    exact .entries hv h

theorem trips_call_iff (hv : callOf v = some (key, params)) :
    Trips env py (.call kind) place v ↔
      key.printable = false ∨ key.printable = true ∧
        ∃ cls, env.registry kind (py.strOf key) = some (some cls) ∧
          Trips env py (.spec cls) (dot place (py.strOf key)) params := by
  constructor
  · intro h
    cases h with
    | notCall hv' => exact absurd (hv.symm.trans hv') nofun
    | name hv' hprint =>
        obtain ⟨rfl, rfl⟩ := Prod.mk.inj (Option.some.inj (hv.symm.trans hv'))
        exact Or.inl hprint
    | params hv' hprint hreg hparams =>
        obtain ⟨rfl, rfl⟩ := Prod.mk.inj (Option.some.inj (hv.symm.trans hv'))
        exact Or.inr ⟨hprint, _, hreg, hparams⟩
    | plain hplain => exact absurd hplain nofun
  · intro h
    rcases h with hprint | ⟨hprint, cls, hreg, hparams⟩
    · exact .name hv hprint
    · exact .params hv hprint hreg hparams

theorem trips_spec_iff (hv : entriesOf v = some entries) :
    Trips env py (.spec cls) place v ↔
      ¬Sortable (unknownKeys env cls (entries.map Prod.fst)) ∨
      (unknownKeys env cls (entries.map Prod.fst)).all Scalar.printable = false ∨
      unknownKeys env cls (entries.map Prod.fst) = [] ∧
        (TripsFields env py (env.classes cls).fields place entries ∨
          ∃ fields, AcceptsFields env py false (env.classes cls).fields place entries fields ∧
            ∃ e, (env.classes cls).validate fields place = .error e ∧ e.isValidation = false) := by
  constructor
  · intro h
    cases h with
    | notMapping hv' => exact absurd (hv.symm.trans hv') nofun
    | unsortable hv' hsort =>
        obtain rfl := Option.some.inj (hv.symm.trans hv')
        exact Or.inl hsort
    | unknown hv' hprint =>
        obtain rfl := Option.some.inj (hv.symm.trans hv')
        exact Or.inr (Or.inl hprint)
    | fields hv' hunknown hfields =>
        obtain rfl := Option.some.inj (hv.symm.trans hv')
        exact Or.inr (Or.inr ⟨hunknown, Or.inl hfields⟩)
    | hook hv' hunknown hfields hvalid hbad =>
        obtain rfl := Option.some.inj (hv.symm.trans hv')
        exact Or.inr (Or.inr ⟨hunknown, Or.inr ⟨_, hfields, _, hvalid, hbad⟩⟩)
    | plain hplain => exact absurd hplain nofun
  · intro h
    rcases h with hsort | hprint | ⟨hunknown, hfields | ⟨fields, hfields, e, hvalid, hbad⟩⟩
    · exact .unsortable hv hsort
    · exact .unknown hv hprint
    · exact .fields hv hunknown hfields
    · exact .hook hv hunknown hfields hvalid hbad

end Inversion

end MgRobot.Scenario
