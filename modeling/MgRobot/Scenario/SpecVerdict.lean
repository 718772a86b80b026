import MgRobot.Lib.Outcomes
import MgRobot.Scenario.SpecSchema

/-!
# What parse_spec returns

The parser described by the schema: which object it returns, and when it raises
something else than a `ScenarioValidationError`.
-/

namespace MgRobot.Scenario

set_option autoImplicit false

open MgRobot.Lib.Yaml MgRobot.Lib.Outcomes

variable {C α : Type} {env : SpecEnv C} {py : PyText}

/-- The values returned, and whether another error than that of the schema is raised. -/
abbrev Described (r : Parsed α) (good : α → Prop) (fails : Prop) : Prop :=
  Describes (fun e : SpecError => e.isValidation = false) r good fails

theorem invalid_described (message : String) :
    Described (invalid message : Parsed α) (fun _ => False) False :=
  (Describes.error _).congr (fun _ => Iff.rfl) (by simp [SpecError.isValidation])

theorem invalid_bind_described {β : Type} (message : String) (f : β → Parsed α) :
    Described (invalid message >>= f) (fun _ => False) False := invalid_described message

theorem mismatch_described (v : Tree) (message : String → String) :
    Described (mismatch py v message : Parsed α) (fun _ => False) (v.printable = false) := by
  unfold mismatch
  refine (Describes.ite (fun _ => invalid_described _) fun _ => Describes.error _).congr
    (fun _ => by simp) ?_
  simp [SpecError.isValidation]

/-- The conversion of a value, described by the schema at every type. -/
def Read (env : SpecEnv C) (py : PyText) (v : Tree) : Prop := ∀ tp place,
  Described (convert env py v tp place) (Passes env py tp place v) (Trips env py tp place v)

/-- A value that no object stands for raises the error of the schema, if it can be printed. -/
theorem other_described {tp : Ty C} {v : Tree} {place : String} {message : String → String}
    (hgood : ∀ o, ¬Passes env py tp place v o)
    (htrips : Trips env py tp place v ↔ v.printable = false) :
    Described (mismatch py v message : Parsed (Obj C)) (Passes env py tp place v)
      (Trips env py tp place v) :=
  (mismatch_described v message).congr (fun o => ⟨False.elim, hgood o⟩) htrips.symm

section Parts

variable {t k : Ty C} {place : String}

theorem items_described {items : List Tree} (h : ∀ w ∈ items, Read env py w) (i : Nat) :
    Described (convertItems t place i (items.map (convert env py)))
      (AcceptsItems env py false t place i items) (TripsItems env py t place i items) := by
  induction items generalizing i with
  | nil =>
      refine (Describes.ok []).congr (fun objs => ?_) ⟨False.elim, nofun⟩
      constructor
      · intro hobjs
        rw [hobjs]
        exact .nil
      · intro hobjs
        cases hobjs
        rfl
  | cons w items ih =>
      have hrest := ih (fun w' hw' => h w' (List.mem_cons_of_mem _ hw')) (i + 1)
      refine ((h w List.mem_cons_self t (itemPlace place i)).bind fun obj _ =>
        hrest.map).congr (fun objs => ?_) ?_
      · constructor
        · intro hcase
          obtain ⟨obj, hobj, more, hmore, rfl⟩ := hcase
          exact .cons hobj hmore
        · intro hcase
          cases hcase with
          | cons hobj hmore => exact ⟨_, hobj, _, hmore, rfl⟩
      · constructor
        · intro hcase
          rcases hcase with hhead | ⟨obj, hobj, htail⟩
          · exact .head hhead
          · exact .tail hobj htail
        · intro hcase
          cases hcase with
          | head hhead => exact Or.inl hhead
          | tail hobj htail => exact Or.inr ⟨_, hobj, htail⟩

theorem entries_described {convertKey : Scalar → String → Parsed (Obj C)}
    (hkey : ∀ key place, Described (convertKey key place)
      (Passes env py k place (.scalar key)) (Trips env py k place (.scalar key)))
    {entries : List (Scalar × Tree)} (h : ∀ e ∈ entries, Read env py e.2) :
    Described (convertEntries env py convertKey t place
        (entries.map fun e => (e.1, convert env py e.2)))
      (AcceptsEntries env py false k t place entries) (TripsEntries env py k t place entries) := by
  induction entries with
  | nil =>
      refine (Describes.ok []).congr (fun pairs => ?_) ⟨False.elim, nofun⟩
      constructor
      · intro hpairs
        rw [hpairs]
        exact .nil
      · intro hpairs
        cases hpairs
        rfl
  | cons e entries ih =>
      obtain ⟨key, v⟩ := e
      have hrest := ih fun e he => h e (List.mem_cons_of_mem _ he)
      have hv := h (key, v) List.mem_cons_self t (dot place (py.strOf key))
      refine (Describes.ite (fun _ => Describes.error _) fun _ =>
        (hkey key (keyPlace py place key)).bind fun ko _ => hv.bind fun vo _ =>
          Describes.ite (fun _ => Describes.error _) fun _ => hrest.map).congr
        (fun pairs => ?_) ?_
      · constructor
        · intro hcase
          obtain ⟨hprint, ko, hko, vo, hvo, hcase⟩ := hcase.resolve_left And.right
          obtain ⟨hhash, more, hmore, rfl⟩ := hcase.resolve_left And.right
          exact .cons (fun _ => not_not.mp hprint) hko hvo (fun _ => not_not.mp hhash) hmore
        · intro hcase
          cases hcase with
          | cons hprint hko hvo hhash hmore =>
              exact Or.inr ⟨not_not.mpr (hprint rfl), _, hko, _, hvo,
                Or.inr ⟨not_not.mpr (hhash rfl), _, hmore, rfl⟩⟩
      · constructor
        · intro hcase
          rcases hcase with ⟨hprint, -⟩ | ⟨hprint, hcase⟩
          · exact .print (Bool.not_eq_true _ ▸ hprint)
          · have hprint := not_not.mp hprint
            rcases hcase with hk | ⟨ko, hko, hcase⟩
            · exact .key hprint hk
            · rcases hcase with hv | ⟨vo, hvo, hcase⟩
              · exact .value hprint hko hv
              · rcases hcase with ⟨hhash, -⟩ | ⟨hhash, htail⟩
                · exact .hash hprint hko hvo (Bool.not_eq_true _ ▸ hhash)
                · exact .tail hprint hko hvo (not_not.mp hhash) htail
        · intro hcase
          cases hcase with
          | print hprint => exact Or.inl ⟨by simp [hprint], rfl⟩
          | key hprint hk => exact Or.inr ⟨not_not.mpr hprint, Or.inl hk⟩
          | value hprint hko hv =>
              exact Or.inr ⟨not_not.mpr hprint, Or.inr ⟨_, hko, Or.inl hv⟩⟩
          | hash hprint hko hvo hhash =>
              exact Or.inr ⟨not_not.mpr hprint, Or.inr ⟨_, hko, Or.inr ⟨_, hvo,
                Or.inl ⟨by simp [hhash], rfl⟩⟩⟩⟩
          | tail hprint hko hvo hhash htail =>
              exact Or.inr ⟨not_not.mpr hprint, Or.inr ⟨_, hko, Or.inr ⟨_, hvo,
                Or.inr ⟨not_not.mpr hhash, htail⟩⟩⟩⟩

end Parts

section Mapping

variable {place : String} {entries : List (Scalar × Tree)}

theorem lookupKey_map {β : Type} (f : α → β) (name : String) (entries : List (Scalar × α)) :
    lookupKey name (entries.map fun e => (e.1, f e.2)) = (lookupKey name entries).map f := by
  unfold lookupKey
  rw [List.find?_map, Option.map_map, Option.map_map]
  rfl

theorem mem_of_lookupKey {name : String} {entries : List (Scalar × α)} {v : α}
    (h : lookupKey name entries = some v) : ∃ key, (key, v) ∈ entries := by
  obtain ⟨e, he, rfl⟩ := Option.map_eq_some_iff.mp h
  exact ⟨e.1, List.mem_of_find?_eq_some he⟩

theorem fields_described (h : ∀ e ∈ entries, Read env py e.2) (fields : List (FieldSpec C)) :
    Described (parseFields place (entries.map fun e => (e.1, convert env py e.2)) fields)
      (AcceptsFields env py false fields place entries) (TripsFields env py fields place entries) := by
  induction fields with
  | nil =>
      refine (Describes.ok []).congr (fun objs => ?_) ⟨False.elim, nofun⟩
      constructor
      · intro hobjs
        rw [hobjs]
        exact .nil
      · intro hobjs
        cases hobjs
        rfl
  | cons f rest ih =>
      unfold parseFields
      rw [lookupKey_map]
      cases hlookup : lookupKey f.name entries with
      | some v =>
          obtain ⟨key, hmem⟩ := mem_of_lookupKey hlookup
          have hv := h (key, v) hmem f.type (dot place f.name)
          refine (hv.bind fun obj _ => ih.map).congr (fun objs => ?_) ?_
          · constructor
            · intro hcase
              obtain ⟨obj, hobj, more, hmore, rfl⟩ := hcase
              exact .given hlookup hobj hmore
            · intro hcase
              cases hcase with
              | given hlook hobj hmore =>
                  obtain rfl := Option.some.inj (hlookup.symm.trans hlook)
                  exact ⟨_, hobj, _, hmore, rfl⟩
              | default hlook => exact absurd (hlookup.symm.trans hlook) nofun
          · constructor
            · intro hcase
              rcases hcase with hhead | ⟨obj, hobj, htail⟩
              · exact .given hlookup hhead
              · exact .tail hlookup hobj htail
            · intro hcase
              cases hcase with
              | given hlook hhead =>
                  obtain rfl := Option.some.inj (hlookup.symm.trans hlook)
                  exact Or.inl hhead
              | tail hlook hobj htail =>
                  obtain rfl := Option.some.inj (hlookup.symm.trans hlook)
                  exact Or.inr ⟨_, hobj, htail⟩
              | default hlook => exact absurd (hlookup.symm.trans hlook) nofun
      | none =>
          cases hdefault : f.default with
          | some obj =>
              refine ((Describes.ok obj).bind fun obj _ => ih.map).congr (fun objs => ?_) ?_
              · constructor
                · intro hcase
                  obtain ⟨_, rfl, more, hmore, rfl⟩ := hcase
                  exact .default hlookup hdefault hmore
                · intro hcase
                  cases hcase with
                  | given hlook => exact absurd (hlookup.symm.trans hlook) nofun
                  | default hlook hdef hmore =>
                      exact ⟨_, Option.some.inj (hdef.symm.trans hdefault), _, hmore, rfl⟩
              · constructor
                · intro hcase
                  obtain ⟨_, -, htail⟩ := hcase.resolve_left id
                  exact .default hlookup hdefault htail
                · intro hcase
                  cases hcase with
                  | given hlook => exact absurd (hlookup.symm.trans hlook) nofun
                  | tail hlook => exact absurd (hlookup.symm.trans hlook) nofun
                  | default hlook hdef htail => exact Or.inr ⟨_, rfl, htail⟩
          | none =>
              refine (invalid_bind_described _ _).congr (fun objs => ⟨False.elim, ?_⟩)
                ⟨False.elim, ?_⟩
              · intro hcase
                cases hcase with
                | given hlook => exact absurd (hlookup.symm.trans hlook) nofun
                | default hlook hdef => exact absurd (hdefault.symm.trans hdef) nofun
              · intro hcase
                cases hcase with
                | given hlook => exact absurd (hlookup.symm.trans hlook) nofun
                | tail hlook => exact absurd (hlookup.symm.trans hlook) nofun
                | default hlook hdef => exact absurd (hdefault.symm.trans hdef) nofun

theorem hook_described (cls : C) (fields : List (String × Obj C)) :
    Described ((env.classes cls).validate fields place >>= fun _ => .ok (Obj.object cls fields))
      (fun obj => (env.classes cls).validate fields place = .ok () ∧ obj = .object cls fields)
      (∃ e, (env.classes cls).validate fields place = .error e ∧ e.isValidation = false) := by
  cases (env.classes cls).validate fields place with
  | ok u => exact (Describes.ok _).congr (fun obj => by simp) (by simp)
  | error e => exact (Describes.error e).congr (fun obj => by simp) (by simp)

theorem mapping_described {cls : C} {v : Tree} (hv : entriesOf v = some entries)
    (h : ∀ e ∈ entries, Read env py e.2) :
    Described (parseMapping env py cls place (entries.map fun e => (e.1, convert env py e.2)))
      (Passes env py (.spec cls) place v) (Trips env py (.spec cls) place v) := by
  have hkeys : (entries.map fun e => (e.1, convert env py e.2)).map Prod.fst =
      entries.map Prod.fst := by
    rw [List.map_map]
    rfl
  unfold parseMapping
  rw [hkeys]
  dsimp only
  by_cases hunknown : unknownKeys env cls (entries.map Prod.fst) = []
  · have hsort : Sortable ([] : List Scalar) := List.Pairwise.nil
    rw [if_neg (not_not.mpr hunknown)]
    refine ((fields_described h _).bind fun fields _ => hook_described cls fields).congr
      (fun obj => ?_) ?_
    · refine Iff.trans ?_ (accepts_spec_iff hv).symm
      simp only [hunknown, true_and]
    · rw [trips_spec_iff hv]
      simp [hunknown, hsort]
  · rw [if_pos hunknown]
    refine (Describes.ite (fun _ => Describes.error _) fun _ =>
      Describes.ite (fun _ => Describes.error _) fun _ => invalid_described _).congr
      (fun obj => ?_) ?_
    · refine Iff.trans ?_ (accepts_spec_iff hv).symm
      simp [hunknown]
    · rw [trips_spec_iff hv]
      by_cases hsort : Sortable (unknownKeys env cls (entries.map Prod.fst))
      · simp [hunknown, hsort, SpecError.isValidation]
      · simp [hsort, SpecError.isValidation]

end Mapping

section Values

variable {place : String}

/-- The conversions of what is under a value. -/
def nodeOf (env : SpecEnv C) (py : PyText) : Tree → Node C
  | .list items => ⟨.list items, items.map (convert env py), []⟩
  | .map entries => ⟨.map entries, [], entries.map fun e => (e.1, convert env py e.2)⟩
  | v => ⟨v, [], []⟩

theorem nodeOf_value (v : Tree) : (nodeOf env py v).value = v := by
  cases v <;> rfl

theorem convertAll_eq (items : List Tree) :
    convertAll env py items = items.map (convert env py) := by
  induction items with
  | nil => rfl
  | cons v items ih => rw [convertAll, ih, List.map_cons]

theorem convertValues_eq (entries : List (Scalar × Tree)) :
    convertValues env py entries = entries.map fun e => (e.1, convert env py e.2) := by
  induction entries with
  | nil => rfl
  | cons e entries ih => rw [convertValues, ih, List.map_cons]

theorem convert_eq (v : Tree) (tp : Ty C) :
    convert env py v tp place = convertNode env py tp (nodeOf env py v) place := by
  cases v with
  | scalar s => rfl
  | pair first second => rfl
  | set members => rfl
  | list items => rw [convert, nodeOf, convertAll_eq]
  | map entries => rw [convert, nodeOf, convertValues_eq]

theorem node_described {cls : C} {v : Tree} (h : ∀ w ∈ v.children, Read env py w) :
    Described (parseNode env py cls (nodeOf env py v) place) (Passes env py (.spec cls) place v)
      (Trips env py (.spec cls) place v) := by
  have hother : entriesOf v = none → Described
      (mismatch py v fun text => place ++ ": mapping expected, got " ++ text : Parsed (Obj C))
      (Passes env py (.spec cls) place v) (Trips env py (.spec cls) place v) := by
    intro hv
    refine other_described (fun obj hobj => ?_) ⟨fun hcase => ?_, .notMapping hv⟩
    · cases hobj with
      | spec hv' => exact absurd (hv.symm.trans hv') nofun
    · cases hcase with
      | notMapping _ hprint => exact hprint
      | unsortable hv' => exact absurd (hv.symm.trans hv') nofun
      | unknown hv' => exact absurd (hv.symm.trans hv') nofun
      | fields hv' => exact absurd (hv.symm.trans hv') nofun
      | hook hv' => exact absurd (hv.symm.trans hv') nofun
      | plain hplain => exact absurd hplain nofun
  cases v with
  | scalar s =>
      cases s with
      | null =>
          have hnull : entriesOf (.scalar .null) = some [] := rfl
          exact mapping_described hnull nofun
      | _ => exact hother rfl
  | pair first second => exact hother rfl
  | set members => exact hother rfl
  | list items => exact hother rfl
  | map entries =>
      exact mapping_described rfl fun e he => h e.2 (List.mem_map_of_mem he)

theorem bareCall_described (params : Tree) (obj : Obj C) (message : String) :
    Described (match params with
      | .scalar .null => .ok obj
      | .map [] => .ok obj
      | _ => invalid message : Parsed (Obj C)) (fun o => IsEmpty params ∧ o = obj) False := by
  have hyes : IsEmpty params → Described (.ok obj : Parsed (Obj C))
      (fun o => IsEmpty params ∧ o = obj) False :=
    fun h => (Describes.ok obj).congr (fun o => by simp [h]) Iff.rfl
  have hno : ¬IsEmpty params → Described (invalid message : Parsed (Obj C))
      (fun o => IsEmpty params ∧ o = obj) False :=
    fun h => (invalid_described message).congr (fun o => by simp [h]) Iff.rfl
  cases params with
  | scalar s =>
      cases s with
      | null => exact hyes trivial
      | _ => exact hno id
  | pair first second => exact hno id
  | set members => exact hno id
  | list items => exact hno id
  | map entries =>
      cases entries with
      | nil => exact hyes trivial
      | cons e rest => exact hno id

theorem params_described {kind : CallKind} {v params : Tree} {key : Scalar}
    {parse : C → String → Parsed (Obj C)} (hv : callOf v = some (key, params))
    (h : ∀ cls place, Described (parse cls place) (Passes env py (.spec cls) place params)
      (Trips env py (.spec cls) place params)) :
    Described (parseParams env py kind key params parse place)
      (Passes env py (.call kind) place v) (Trips env py (.call kind) place v) := by
  unfold parseParams
  by_cases hprint : key.printable = true
  · rw [if_neg (not_not.mpr hprint)]
    dsimp only
    cases hreg : env.registry kind (py.strOf key) with
    | none =>
        refine (invalid_described _).congr (fun obj => ?_) ?_
        · refine Iff.trans ?_ (accepts_call_iff hv).symm
          simp [hreg]
        · rw [trips_call_iff hv]
          simp [hprint, hreg]
    | some entry =>
        cases entry with
        | none =>
            refine (bareCall_described params _ _).congr (fun obj => ?_) ?_
            · refine Iff.trans ?_ (accepts_call_iff hv).symm
              simp [hprint, hreg]
            · rw [trips_call_iff hv]
              simp [hprint, hreg]
        | some cls =>
            refine (h cls (dot place (py.strOf key))).map.congr (fun obj => ?_) ?_
            · refine Iff.trans ?_ (accepts_call_iff hv).symm
              simp [hprint, hreg]
            · rw [trips_call_iff hv]
              simp [hprint, hreg]
  · rw [if_pos hprint]
    refine (Describes.error _).congr (fun obj => ?_) ?_
    · refine Iff.trans ?_ (accepts_call_iff hv).symm
      simp [hprint]
    · rw [trips_call_iff hv]
      simp [hprint, SpecError.isValidation]

theorem call_described {kind : CallKind} {v : Tree} (h : ∀ w ∈ v.children, Read env py w) :
    Described (parseCall env py kind (nodeOf env py v) place) (Passes env py (.call kind) place v)
      (Trips env py (.call kind) place v) := by
  have hother : callOf v = none → Described
      (mismatch py v fun text => place ++ ": expected '\x7b<" ++ kind.name ++
        "_type>: \x7b...\x7d\x7d', got " ++ text : Parsed (Obj C))
      (Passes env py (.call kind) place v) (Trips env py (.call kind) place v) := by
    intro hv
    refine other_described (fun obj hobj => ?_) ⟨fun hcase => ?_, .notCall hv⟩
    · cases hobj with
      | call hv' => exact absurd (hv.symm.trans hv') nofun
      | bareCall hv' => exact absurd (hv.symm.trans hv') nofun
    · cases hcase with
      | notCall _ hprint => exact hprint
      | name hv' => exact absurd (hv.symm.trans hv') nofun
      | params hv' => exact absurd (hv.symm.trans hv') nofun
      | plain hplain => exact absurd hplain nofun
  cases v with
  | scalar s =>
      cases s with
      | str name =>
          refine params_described (v := .scalar (.str name)) rfl fun cls place => ?_
          exact node_described (v := .scalar .null) nofun
      | _ => exact hother rfl
  | pair first second => exact hother rfl
  | set members => exact hother rfl
  | list items => exact hother rfl
  | map entries =>
      match entries with
      | [] => exact hother rfl
      | [(key, params)] =>
          exact params_described (v := .map [(key, params)]) rfl fun cls place =>
            h params (List.mem_singleton.mpr rfl) (.spec cls) place
      | _ :: _ :: _ => exact hother rfl

end Values

section Types

variable {place : String} {tp : Ty C} {v : Tree}

theorem plain_mismatch_described (hplain : isPlain tp = true) (htype : hasType tp v = false)
    (message : String → String) : Described (mismatch py v message : Parsed (Obj C))
      (Passes env py tp place v) (Trips env py tp place v) := by
  refine other_described (fun obj hobj => ?_) ⟨fun hcase => ?_, .plain hplain htype⟩
  · cases hobj with
    | bool => exact absurd htype nofun
    | int => exact absurd htype nofun
    | float => exact absurd htype nofun
    | floatOfInt => exact absurd htype nofun
    | str => exact absurd htype nofun
    | _ => exact absurd hplain nofun
  · cases hcase with
    | plain _ _ hprint => exact hprint
    | overflow => exact absurd htype nofun
    | _ => exact absurd hplain nofun

/-- A value of a plain type is itself. -/
theorem plain_described {obj : Obj C} (hplain : isPlain tp = true) (htype : hasType tp v = true)
    (hobj : ∀ o, Passes env py tp place v o ↔ o = obj)
    (hover : ∀ n, tp = .float → v = .scalar (.int n) → floatOfInt n ≠ none) :
    Described (.ok obj : Parsed (Obj C)) (Passes env py tp place v) (Trips env py tp place v) := by
  refine (Describes.ok obj).congr (fun o => (hobj o).symm) ⟨False.elim, ?_⟩
  intro hcase
  cases hcase with
  | plain _ htype' => exact absurd (htype.symm.trans htype') nofun
  | overflow hnone => exact hover _ rfl rfl hnone
  | _ => exact absurd hplain nofun

theorem raw_described (hplain : isPlain tp = true) (htype : hasType tp v = true)
    (hfloat : ∀ n, tp = .float → v ≠ .scalar (.int n)) (h : Passes env py tp place v (.raw v)) :
    Described (.ok (.raw v) : Parsed (Obj C)) (Passes env py tp place v)
      (Trips env py tp place v) := by
  refine plain_described hplain htype (fun o => ⟨eq_raw_of_accepts hplain hfloat, ?_⟩)
    fun n ht hv => absurd hv (hfloat n ht)
  intro ho
  rw [ho]
  exact h

theorem literal_described (args : List Scalar) (message : String → String) :
    Described (if oneOf args v then .ok (.raw v) else mismatch py v message : Parsed (Obj C))
      (Passes env py (.literal args) place v) (Trips env py (.literal args) place v) := by
  refine (Describes.ite (fun _ => Describes.ok _) fun _ => mismatch_described v message).congr
    (fun obj => ?_) ?_
  · constructor
    · intro hcase
      rcases hcase with ⟨hone, rfl⟩ | ⟨-, hfalse⟩
      · cases v with
        | scalar s => exact .literal hone nofun
        | _ => exact absurd hone nofun
      · exact hfalse.elim
    · intro hcase
      cases hcase with
      | literal hone => exact Or.inl ⟨hone, rfl⟩
  · constructor
    · intro hcase
      rcases hcase with ⟨-, hfalse⟩ | ⟨hone, hprint⟩
      · exact hfalse.elim
      · exact .literal (Bool.eq_false_iff.mpr hone) hprint
    · intro hcase
      cases hcase with
      | literal hone hprint => exact Or.inr ⟨Bool.eq_false_iff.mp hone, hprint⟩
      | plain hplain => exact absurd hplain nofun

theorem list_described {t : Ty C} (h : ∀ w ∈ v.children, Read env py w) :
    Described (convertNode env py (.list t) (nodeOf env py v) place)
      (Passes env py (.list t) place v) (Trips env py (.list t) place v) := by
  have hother : listOf v = none → Described
      (mismatch py v fun text => place ++ ": list expected, got " ++ text : Parsed (Obj C))
      (Passes env py (.list t) place v) (Trips env py (.list t) place v) := by
    intro hv
    refine other_described (fun obj hobj => ?_) ⟨fun hcase => ?_, .notList hv⟩
    · cases hobj with
      | list hv' => exact absurd (hv.symm.trans hv') nofun
    · cases hcase with
      | notList _ hprint => exact hprint
      | items hv' => exact absurd (hv.symm.trans hv') nofun
      | plain hplain => exact absurd hplain nofun
  have hitems : ∀ {items}, listOf v = some items → (∀ w ∈ items, Read env py w) → Described
      (convertItems t place 0 (items.map (convert env py)) >>= fun objs => .ok (.list objs))
      (Passes env py (.list t) place v) (Trips env py (.list t) place v) := by
    intro items hv hread
    exact (items_described hread 0).map.congr (fun obj => (accepts_list_iff hv).symm)
      (trips_list_iff hv).symm
  cases v with
  | scalar s =>
      cases s with
      | null => exact hitems rfl nofun
      | _ => exact hother rfl
  | pair first second => exact hother rfl
  | set members => exact hother rfl
  | list items => exact hitems rfl h
  | map entries => exact hother rfl

theorem dict_described {k t : Ty C}
    (hkey : ∀ key place, Described (convertNode env py k (Node.key key) place)
      (Passes env py k place (.scalar key)) (Trips env py k place (.scalar key)))
    (h : ∀ w ∈ v.children, Read env py w) :
    Described (convertNode env py (.dict k t) (nodeOf env py v) place)
      (Passes env py (.dict k t) place v) (Trips env py (.dict k t) place v) := by
  have hother : entriesOf v = none → Described
      (mismatch py v fun text => place ++ ": mapping expected, got " ++ text : Parsed (Obj C))
      (Passes env py (.dict k t) place v) (Trips env py (.dict k t) place v) := by
    intro hv
    refine other_described (fun obj hobj => ?_) ⟨fun hcase => ?_, .notDict hv⟩
    · cases hobj with
      | dict hv' => exact absurd (hv.symm.trans hv') nofun
    · cases hcase with
      | notDict _ hprint => exact hprint
      | entries hv' => exact absurd (hv.symm.trans hv') nofun
      | plain hplain => exact absurd hplain nofun
  have hentries : ∀ {entries}, entriesOf v = some entries → (∀ e ∈ entries, Read env py e.2) →
      Described (convertEntries env py (fun key => convertNode env py k (Node.key key)) t place
          (entries.map fun e => (e.1, convert env py e.2)) >>= fun pairs =>
            .ok (.dict (Obj.merge pairs)))
        (Passes env py (.dict k t) place v) (Trips env py (.dict k t) place v) := by
    intro entries hv hread
    refine (entries_described hkey hread).map.congr (fun obj => ?_) (trips_dict_iff hv).symm
    refine Iff.trans ?_ (accepts_dict_iff hv).symm
    simp
  cases v with
  | scalar s =>
      cases s with
      | null => exact hentries rfl nofun
      | _ => exact hother rfl
  | pair first second => exact hother rfl
  | set members => exact hother rfl
  | list items => exact hother rfl
  | map entries => exact hentries rfl fun e he => h e.2 (List.mem_map_of_mem he)

theorem float_described : Described (convertNode env py .float (nodeOf env py v) place)
    (Passes env py .float place v) (Trips env py .float place v) := by
  cases v with
  | scalar s =>
      cases s with
      | float x =>
          exact raw_described rfl rfl (fun n _ => nofun) .float
      | int n =>
          rw [convertNode]
          simp only [nodeOf]
          cases hfloat : floatOfInt n with
          | some x =>
              refine plain_described rfl rfl (fun o => ?_) ?_
              · constructor
                · intro hcase
                  cases hcase with
                  | floatOfInt hfloat' =>
                      obtain rfl := Option.some.inj (hfloat.symm.trans hfloat')
                      rfl
                · intro hcase
                  rw [hcase]
                  exact .floatOfInt hfloat
              · intro n' _ hn hnone
                cases hn
                exact absurd (hfloat.symm.trans hnone) nofun
          | none =>
              refine (Describes.error _).congr (fun obj => ⟨False.elim, ?_⟩)
                ⟨fun _ => .overflow hfloat, fun _ => rfl⟩
              intro hcase
              cases hcase with
              | floatOfInt hfloat' => exact absurd (hfloat.symm.trans hfloat') nofun
      | _ => exact plain_mismatch_described rfl rfl _
  | _ => exact plain_mismatch_described rfl rfl _

theorem optional_described {t : Ty C}
    (h : Described (convertNode env py t (nodeOf env py v) place) (Passes env py t place v)
      (Trips env py t place v)) :
    Described (convertNode env py (.optional t) (nodeOf env py v) place)
      (Passes env py (.optional t) place v) (Trips env py (.optional t) place v) := by
  rw [convertNode, nodeOf_value]
  refine (Describes.ite (fun _ => Describes.ok _) fun _ => h).congr (fun obj => ?_) ?_
  · constructor
    · intro hcase
      rcases hcase with ⟨hnull, rfl⟩ | ⟨hnull, hcase⟩
      · rw [Tree.isNull_iff.mp hnull]
        exact .absent
      · exact .present (Bool.eq_false_iff.mpr hnull) hcase
    · intro hcase
      cases hcase with
      | absent => exact Or.inl ⟨rfl, rfl⟩
      | present hnull hcase => exact Or.inr ⟨Bool.eq_false_iff.mp hnull, hcase⟩
  · constructor
    · intro hcase
      rcases hcase with ⟨-, hfalse⟩ | ⟨hnull, hcase⟩
      · exact hfalse.elim
      · exact .present (Bool.eq_false_iff.mpr hnull) hcase
    · intro hcase
      cases hcase with
      | present hnull hcase => exact Or.inr ⟨Bool.eq_false_iff.mp hnull, hcase⟩
      | plain hplain => exact absurd hplain nofun

theorem convertNode_described (tp : Ty C) : ∀ {v : Tree} (place : String),
    (∀ w ∈ v.children, Read env py w) →
    Described (convertNode env py tp (nodeOf env py v) place) (Passes env py tp place v)
      (Trips env py tp place v) := by
  induction tp with
  | any =>
      intro v place _
      rw [convertNode, nodeOf_value]
      refine (Describes.ok _).congr (fun obj => ?_) ⟨False.elim, ?_⟩
      · constructor
        · intro hcase
          rw [hcase]
          exact .any
        · intro hcase
          cases hcase
          rfl
      · intro hcase
        cases hcase with
        | plain hplain => exact absurd hplain nofun
  | literal args =>
      intro v place _
      rw [convertNode, nodeOf_value]
      exact literal_described args _
  | list t _ =>
      intro v place h
      exact list_described h
  | dict k t ihk _ =>
      intro v place h
      exact dict_described (fun key place => ihk (v := .scalar key) place nofun) h
  | call kind =>
      intro v place h
      exact call_described h
  | spec cls =>
      intro v place h
      exact node_described h
  | bool =>
      intro v place _
      cases v with
      | scalar s =>
          cases s with
          | bool b => exact raw_described rfl rfl nofun .bool
          | _ => exact plain_mismatch_described rfl rfl _
      | _ => exact plain_mismatch_described rfl rfl _
  | int =>
      intro v place _
      cases v with
      | scalar s =>
          cases s with
          | int n => exact raw_described rfl rfl nofun .int
          | _ => exact plain_mismatch_described rfl rfl _
      | _ => exact plain_mismatch_described rfl rfl _
  | float =>
      intro v place _
      exact float_described
  | str =>
      intro v place _
      cases v with
      | scalar s =>
          cases s with
          | str name => exact raw_described rfl rfl nofun .str
          | _ => exact plain_mismatch_described rfl rfl _
      | _ => exact plain_mismatch_described rfl rfl _
  | optional t ih =>
      intro v place h
      exact optional_described (ih place h)
  | unsupported text =>
      intro v place _
      refine (invalid_described _).congr (fun obj => ⟨False.elim, ?_⟩) ⟨False.elim, ?_⟩
      · intro hcase
        cases hcase
      · intro hcase
        cases hcase with
        | plain hplain => exact absurd hplain nofun

theorem convert_described (v : Tree) : Read env py v := by
  induction v using Tree.inductionOn with
  | step v ih =>
      intro tp place
      rw [convert_eq]
      exact convertNode_described tp place ih

end Types

end MgRobot.Scenario
