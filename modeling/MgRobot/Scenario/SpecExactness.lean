import MgRobot.Scenario.SpecVerdict

/-!
# When parse_spec decides the schema

The parser returns the objects of the schema and rejects everything else by its own
error exactly when nothing raises before and no equality hides a difference.
-/

namespace MgRobot.Scenario

set_option autoImplicit false

open MgRobot.Lib.Yaml MgRobot.Lib.Outcomes

variable {C : Type} {env : SpecEnv C} {py : PyText} {strict strict' : Bool} {t k : Ty C}
  {place : String} {n : Nat} {items : List Tree} {entries : List (Scalar × Tree)}

section Induction

theorem mem_children_of_listOf {v w : Tree} (h : listOf v = some items) (hw : w ∈ items) :
    w ∈ v.children := by
  cases v with
  | scalar s =>
      cases s with
      | null =>
          obtain rfl := Option.some.inj h
          exact absurd hw List.not_mem_nil
      | _ => exact absurd h nofun
  | list items' =>
      obtain rfl := Option.some.inj h
      exact hw
  | _ => exact absurd h nofun

theorem mem_children_of_entriesOf {v : Tree} {e : Scalar × Tree} (h : entriesOf v = some entries)
    (he : e ∈ entries) : e.2 ∈ v.children := by
  cases v with
  | scalar s =>
      cases s with
      | null =>
          obtain rfl := Option.some.inj h
          exact absurd he List.not_mem_nil
      | _ => exact absurd h nofun
  | map entries' =>
      obtain rfl := Option.some.inj h
      exact List.mem_map_of_mem he
  | _ => exact absurd h nofun

/-- The parameters of a call are under it, or it is a mere name. -/
theorem params_cases {v params : Tree} {key : Scalar} (h : callOf v = some (key, params)) :
    params = .null ∨ params ∈ v.children := by
  cases v with
  | scalar s =>
      cases s with
      | str name =>
          obtain ⟨-, rfl⟩ := Prod.mk.inj (Option.some.inj h)
          exact Or.inl rfl
      | _ => exact absurd h nofun
  | map entries =>
      match entries with
      | [] => exact absurd h nofun
      | [(key', params')] =>
          obtain ⟨rfl, rfl⟩ := Prod.mk.inj (Option.some.inj h)
          exact Or.inr (List.mem_singleton.mpr rfl)
      | _ :: _ :: _ => exact absurd h nofun
  | _ => exact absurd h nofun

/-- Induction along the schema: from the values under a value, from the parameters of a call, from
the type that is optional and from the type of the keys. -/
theorem schemaInduction {motive : Ty C → Tree → Prop}
    (step : ∀ tp v,
      (∀ w ∈ v.children, ∀ tp, motive tp w) →
      (∀ key params, callOf v = some (key, params) → ∀ cls, motive (.spec cls) params) →
      (∀ t, tp = .optional t → motive t v) →
      (∀ k t, tp = .dict k t → ∀ key, motive k (.scalar key)) → motive tp v)
    (tp : Ty C) (v : Tree) : motive tp v := by
  have hnull : ∀ cls, motive (.spec cls) .null := fun cls =>
    step _ _ nofun nofun nofun nofun
  have hnode : ∀ (tp : Ty C) (v : Tree), (∀ w ∈ v.children, ∀ tp, motive tp w) → motive tp v := by
    intro tp
    induction tp with
    | optional t ih =>
        intro v h
        refine step _ _ h ?_ (fun t' ht' => ?_) nofun
        · intro key params hcall cls
          rcases params_cases hcall with rfl | hmem
          · exact hnull cls
          · exact h params hmem _
        · obtain rfl := Ty.optional.inj ht'
          exact ih v h
    | dict k t ihk _ =>
        intro v h
        refine step _ _ h ?_ nofun fun k' t' ht' key => ?_
        · intro key params hcall cls
          rcases params_cases hcall with rfl | hmem
          · exact hnull cls
          · exact h params hmem _
        · obtain ⟨rfl, rfl⟩ := Ty.dict.inj ht'
          exact ihk (.scalar key) nofun
    | _ =>
        intro v h
        refine step _ _ h ?_ nofun nofun
        intro key params hcall cls
        rcases params_cases hcall with rfl | hmem
        · exact hnull cls
        · exact h params hmem _
  induction v using Tree.inductionOn generalizing tp with
  | step v ih => exact hnode tp v fun w hw tp => ih w hw tp

end Induction

section Parts

theorem AcceptsItems.exists_of_mem {objs : List (Obj C)}
    (h : AcceptsItems env py strict t place n items objs) {i : Nat} {w : Tree}
    (hw : items[i]? = some w) : ∃ obj, Accepts env py strict t (itemPlace place (n + i)) w obj := by
  induction items generalizing n i objs with
  | nil => exact absurd hw nofun
  | cons v items ih =>
      cases h with
      | cons hv hrest =>
          cases i with
          | zero =>
              obtain rfl := Option.some.inj hw
              exact ⟨_, hv⟩
          | succ i =>
              have hi : n + 1 + i = n + (i + 1) := by omega
              exact hi ▸ ih hrest hw

theorem AcceptsItems.mono {objs : List (Obj C)}
    (h : AcceptsItems env py strict t place n items objs)
    (hm : ∀ i w obj, items[i]? = some w → Accepts env py strict t (itemPlace place (n + i)) w obj →
      Accepts env py strict' t (itemPlace place (n + i)) w obj) :
    AcceptsItems env py strict' t place n items objs := by
  induction items generalizing n objs with
  | nil =>
      cases h
      exact .nil
  | cons v items ih =>
      cases h with
      | cons hv hrest =>
          refine .cons (hm 0 v _ rfl hv) (ih hrest fun i w obj hw hobj => ?_)
          have hi : n + 1 + i = n + (i + 1) := by omega
          rw [hi] at hobj ⊢
          exact hm (i + 1) w obj hw hobj

theorem AcceptsEntries.exists_of_mem {pairs : List (Obj C × Obj C)}
    (h : AcceptsEntries env py strict k t place entries pairs) {key : Scalar} {w : Tree}
    (hw : (key, w) ∈ entries) :
    (∃ ko, Accepts env py strict k (keyPlace py place key) (.scalar key) ko) ∧
      ∃ vo, Accepts env py strict t (dot place (py.strOf key)) w vo := by
  induction entries generalizing pairs with
  | nil => exact absurd hw List.not_mem_nil
  | cons e entries ih =>
      cases h with
      | cons _ hko hvo _ hrest =>
          rcases List.mem_cons.mp hw with heq | hw
          · obtain ⟨rfl, rfl⟩ := Prod.mk.inj heq
            exact ⟨⟨_, hko⟩, _, hvo⟩
          · exact ih hrest hw

theorem AcceptsFields.exists_of_mem {fields : List (FieldSpec C)} {objs : List (String × Obj C)}
    (h : AcceptsFields env py strict fields place entries objs) {f : FieldSpec C} {w : Tree}
    (hf : f ∈ fields) (hw : lookupKey f.name entries = some w) :
    ∃ obj, Accepts env py strict f.type (dot place f.name) w obj := by
  induction fields generalizing objs with
  | nil => exact absurd hf List.not_mem_nil
  | cons g rest ih =>
      cases h with
      | given hlookup hobj hrest =>
          rcases List.mem_cons.mp hf with rfl | hf
          · obtain rfl := Option.some.inj (hlookup.symm.trans hw)
            exact ⟨_, hobj⟩
          · exact ih hrest hf
      | default hlookup _ hrest =>
          rcases List.mem_cons.mp hf with rfl | hf
          · exact absurd (hlookup.symm.trans hw) nofun
          · exact ih hrest hf

theorem AcceptsFields.mono {fields : List (FieldSpec C)} {objs : List (String × Obj C)}
    (h : AcceptsFields env py strict fields place entries objs)
    (hm : ∀ f ∈ fields, ∀ w obj, lookupKey f.name entries = some w →
      Accepts env py strict f.type (dot place f.name) w obj →
      Accepts env py strict' f.type (dot place f.name) w obj) :
    AcceptsFields env py strict' fields place entries objs := by
  induction fields generalizing objs with
  | nil =>
      cases h
      exact .nil
  | cons f rest ih =>
      have hm' := fun g hg => hm g (List.mem_cons_of_mem f hg)
      cases h with
      | given hlookup hobj hrest =>
          exact .given hlookup (hm f List.mem_cons_self _ _ hlookup hobj) (ih hrest hm')
      | default hlookup hdefault hrest => exact .default hlookup hdefault (ih hrest hm')

theorem exists_params_of_call {kind : CallKind} {v params : Tree} {key : Scalar} {cls : C}
    {o : Obj C} (hcall : callOf v = some (key, params))
    (hreg : env.registry kind (py.strOf key) = some (some cls))
    (h : Accepts env py strict (.call kind) place v o) :
    ∃ obj, Accepts env py strict (.spec cls) (dot place (py.strOf key)) params obj := by
  obtain ⟨-, ⟨cls', obj, hreg', hobj, -⟩ | ⟨hreg', -⟩⟩ := (accepts_call_iff hcall).mp h
  · obtain rfl := Option.some.inj (Option.some.inj (hreg.symm.trans hreg'))
    exact ⟨obj, hobj⟩
  · exact absurd (hreg.symm.trans hreg') nofun

end Parts

section Conforming

/-- What the schema accepts is let through where nothing raises. -/
def Lets (env : SpecEnv C) (py : PyText) (tp : Ty C) (v : Tree) : Prop := ∀ place obj,
  Conforms env py tp place v obj → ¬Trips env py tp place v → Passes env py tp place v obj

theorem items_lets {objs : List (Obj C)} (h : ∀ w ∈ items, ∀ tp, Lets env py tp w)
    (hobjs : AcceptsItems env py true t place n items objs)
    (htrips : ¬TripsItems env py t place n items) :
    AcceptsItems env py false t place n items objs := by
  induction items generalizing n objs with
  | nil =>
      cases hobjs
      exact .nil
  | cons w items ih =>
      cases hobjs with
      | cons hw hrest =>
          have hpass := h w List.mem_cons_self t _ _ hw fun hw => htrips (.head hw)
          exact .cons hpass (ih (fun w' hw' => h w' (List.mem_cons_of_mem _ hw')) hrest
            fun hrest => htrips (.tail hpass hrest))

theorem entries_lets {pairs : List (Obj C × Obj C)} (hkey : ∀ key, Lets env py k (.scalar key))
    (h : ∀ e ∈ entries, ∀ tp, Lets env py tp e.2)
    (hpairs : AcceptsEntries env py true k t place entries pairs)
    (htrips : ¬TripsEntries env py k t place entries) :
    AcceptsEntries env py false k t place entries pairs := by
  induction entries generalizing pairs with
  | nil =>
      cases hpairs
      exact .nil
  | cons e entries ih =>
      obtain ⟨key, w⟩ := e
      cases hpairs with
      | @cons _ _ _ _ _ ko vo _ _ _ hko hvo _ hrest =>
          have hprint : key.printable = true := by
            by_contra hprint
            exact htrips (.print (Bool.eq_false_iff.mpr hprint))
          have hk := hkey key _ _ hko fun hk => htrips (.key hprint hk)
          have hv := h (key, w) List.mem_cons_self t _ _ hvo fun hv => htrips (.value hprint hk hv)
          have hhash : ko.hashable env = true := by
            by_contra hhash
            exact htrips (.hash hprint hk hv (Bool.eq_false_iff.mpr hhash))
          exact .cons (fun _ => hprint) hk hv (fun _ => hhash)
            (ih (fun e he => h e (List.mem_cons_of_mem _ he)) hrest
              fun hrest => htrips (.tail hprint hk hv hhash hrest))

theorem fields_lets {fields : List (FieldSpec C)} {objs : List (String × Obj C)}
    (h : ∀ e ∈ entries, ∀ tp, Lets env py tp e.2)
    (hobjs : AcceptsFields env py true fields place entries objs)
    (htrips : ¬TripsFields env py fields place entries) :
    AcceptsFields env py false fields place entries objs := by
  induction fields generalizing objs with
  | nil =>
      cases hobjs
      exact .nil
  | cons f rest ih =>
      cases hobjs with
      | given hlookup hobj hrest =>
          obtain ⟨key, hmem⟩ := mem_of_lookupKey hlookup
          have hpass := h _ hmem f.type _ _ hobj fun hv => htrips (.given hlookup hv)
          exact .given hlookup hpass (ih hrest fun hrest => htrips (.tail hlookup hpass hrest))
      | default hlookup hdefault hrest =>
          exact .default hlookup hdefault
            (ih hrest fun hrest => htrips (.default hlookup hdefault hrest))

theorem passes_of_conforms (tp : Ty C) (v : Tree) : Lets env py tp v := by
  induction tp, v using schemaInduction with
  | step tp v hchild hparams hopt hkey =>
      intro place obj hobj htrips
      cases hobj with
      | any => exact .any
      | absent => exact .absent
      | present hnull hobj =>
          exact .present hnull (hopt _ rfl place _ hobj fun h => htrips (.present hnull h))
      | literal hone _ => exact .literal hone nofun
      | list hlist hitems =>
          exact .list hlist (items_lets (fun w hw => hchild w (mem_children_of_listOf hlist hw))
            hitems fun h => htrips (.items hlist h))
      | dict hentries hpairs _ =>
          refine .dict hentries (entries_lets (hkey _ _ rfl)
            (fun e he => hchild e.2 (mem_children_of_entriesOf hentries he)) hpairs
            fun h => htrips (.entries hentries h)) nofun
      | @call _ _ _ key _ _ _ hcall _ hreg hspec =>
          have hprint : key.printable = true := by
            by_contra hprint
            exact htrips (.name hcall (Bool.eq_false_iff.mpr hprint))
          exact .call hcall (fun _ => hprint) hreg (hparams _ _ hcall _ _ _ hspec
            fun h => htrips (.params hcall hprint hreg h))
      | @bareCall _ _ _ key _ hcall _ hreg hempty =>
          have hprint : key.printable = true := by
            by_contra hprint
            exact htrips (.name hcall (Bool.eq_false_iff.mpr hprint))
          exact .bareCall hcall (fun _ => hprint) hreg hempty
      | spec hentries hunknown hfields hvalid =>
          exact .spec hentries hunknown (fields_lets
            (fun e he => hchild e.2 (mem_children_of_entriesOf hentries he)) hfields
            fun h => htrips (.fields hentries hunknown h)) hvalid
      | bool => exact .bool
      | int => exact .int
      | float => exact .float
      | floatOfInt hfloat => exact .floatOfInt hfloat
      | str => exact .str

/-- The object of the schema is the one that is let through. -/
theorem eq_of_conforms_of_passes {tp : Ty C} {v : Tree} {o o' : Obj C}
    (ho : Passes env py tp place v o) (ho' : Conforms env py tp place v o') : o = o' := by
  have hread := (convert_described v : Read env py v) tp place
  exact hread.unique ho (passes_of_conforms tp v place o' ho' (hread.not_fails ho))

end Conforming

section Blurring

theorem entries_exact {pairs : List (Obj C × Obj C)}
    (h : AcceptsEntries env py false k t place entries pairs)
    (hkey : ∀ key w, (key, w) ∈ entries → ∀ obj,
      Passes env py k (keyPlace py place key) (.scalar key) obj →
      Conforms env py k (keyPlace py place key) (.scalar key) obj)
    (hvalue : ∀ key w, (key, w) ∈ entries → ∀ obj,
      Passes env py t (dot place (py.strOf key)) w obj →
      Conforms env py t (dot place (py.strOf key)) w obj) :
    AcceptsEntries env py true k t place entries pairs := by
  induction entries generalizing pairs with
  | nil =>
      cases h
      exact .nil
  | cons e entries ih =>
      cases h with
      | cons _ hko hvo _ hrest =>
          exact .cons nofun (hkey _ _ List.mem_cons_self _ hko)
            (hvalue _ _ List.mem_cons_self _ hvo) nofun
            (ih hrest (fun key w hw => hkey key w (List.mem_cons_of_mem _ hw))
              fun key w hw => hvalue key w (List.mem_cons_of_mem _ hw))

/-- Without a difference that `==` hides, what is let through is what the schema accepts. -/
theorem conforms_of_passes (tp : Ty C) (v : Tree) : ∀ place obj,
    Passes env py tp place v obj → ¬Blurs env py tp place v → Conforms env py tp place v obj := by
  induction tp, v using schemaInduction with
  | step tp v hchild hparams hopt hkey =>
      intro place obj hobj hblurs
      cases hobj with
      | any => exact .any
      | absent => exact .absent
      | present hnull hobj =>
          exact .present hnull (hopt _ rfl place _ hobj fun h => hblurs (.present hnull h))
      | literal hone _ =>
          refine .literal hone fun _ => ?_
          by_contra hnot
          exact hblurs (.literal hnot)
      | list hlist hitems =>
          refine .list hlist (hitems.mono fun i w obj hw hobj => ?_)
          have hmem := mem_children_of_listOf hlist (List.mem_of_getElem? hw)
          rw [Nat.zero_add] at hobj ⊢
          exact hchild w hmem _ _ _ hobj fun h => hblurs (.item i hlist hw h)
      | dict hentries hpairs _ =>
          refine .dict hentries (entries_exact hpairs (fun key w hw obj hobj => ?_)
            fun key w hw obj hobj => ?_) fun _ => ?_
          · exact hkey _ _ rfl key _ _ hobj fun h => hblurs (.key hentries hw h)
          · exact hchild w (mem_children_of_entriesOf hentries hw) _ _ _ hobj
              fun h => hblurs (.value hentries hw h)
          · by_contra hmerged
            exact hblurs (.merged hentries hpairs hmerged)
      | call hcall _ hreg hspec =>
          exact .call hcall nofun hreg (hparams _ _ hcall _ _ _ hspec
            fun h => hblurs (.params hcall hreg h))
      | bareCall hcall _ hreg hempty => exact .bareCall hcall nofun hreg hempty
      | spec hentries hunknown hfields hvalid =>
          refine .spec hentries hunknown (hfields.mono fun f hf w obj hw hobj => ?_) hvalid
          obtain ⟨key, hmem⟩ := mem_of_lookupKey hw
          exact hchild w (mem_children_of_entriesOf hentries hmem) _ _ _ hobj
            fun h => hblurs (.field hentries hf hw h)
      | bool => exact .bool
      | int => exact .int
      | float => exact .float
      | floatOfInt hfloat => exact .floatOfInt hfloat
      | str => exact .str

theorem pairs_unique {pairs pairs' : List (Obj C × Obj C)}
    (h : AcceptsEntries env py false k t place entries pairs)
    (h' : AcceptsEntries env py true k t place entries pairs') : pairs = pairs' := by
  induction entries generalizing pairs pairs' with
  | nil =>
      cases h
      cases h'
      rfl
  | cons e entries ih =>
      cases h with
      | cons _ hko hvo _ hrest =>
          cases h' with
          | cons _ hko' hvo' _ hrest' =>
              rw [eq_of_conforms_of_passes hko hko', eq_of_conforms_of_passes hvo hvo',
                ih hrest hrest']

theorem not_blurs_of_conforms (tp : Ty C) (v : Tree) : ∀ place o o', Passes env py tp place v o →
    Conforms env py tp place v o' → ¬Blurs env py tp place v := by
  induction tp, v using schemaInduction with
  | step tp v hchild hparams hopt hkey =>
      intro place o o' ho ho' hblurs
      cases hblurs with
      | present hnull h =>
          cases ho with
          | absent => exact absurd hnull nofun
          | present _ ho =>
              cases ho' with
              | absent => exact absurd hnull nofun
              | present _ ho' => exact hopt _ rfl place _ _ ho ho' h
      | literal hnot =>
          cases ho' with
          | literal _ hmem => exact hnot (hmem rfl)
      | item i hlist hw h =>
          obtain ⟨objs, hitems, -⟩ := (accepts_list_iff hlist).mp ho
          obtain ⟨objs', hitems', -⟩ := (accepts_list_iff hlist).mp ho'
          obtain ⟨x, hx⟩ := hitems.exists_of_mem hw
          obtain ⟨x', hx'⟩ := hitems'.exists_of_mem hw
          rw [Nat.zero_add] at hx hx'
          have hmem := mem_children_of_listOf hlist (List.mem_of_getElem? hw)
          exact hchild _ hmem _ _ _ _ hx hx' h
      | key hentries hw h =>
          obtain ⟨pairs, hpairs, -⟩ := (accepts_dict_iff hentries).mp ho
          obtain ⟨pairs', hpairs', -⟩ := (accepts_dict_iff hentries).mp ho'
          obtain ⟨⟨x, hx⟩, -⟩ := hpairs.exists_of_mem hw
          obtain ⟨⟨x', hx'⟩, -⟩ := hpairs'.exists_of_mem hw
          exact hkey _ _ rfl _ _ _ _ hx hx' h
      | value hentries hw h =>
          obtain ⟨pairs, hpairs, -⟩ := (accepts_dict_iff hentries).mp ho
          obtain ⟨pairs', hpairs', -⟩ := (accepts_dict_iff hentries).mp ho'
          obtain ⟨-, x, hx⟩ := hpairs.exists_of_mem hw
          obtain ⟨-, x', hx'⟩ := hpairs'.exists_of_mem hw
          exact hchild _ (mem_children_of_entriesOf hentries hw) _ _ _ _ hx hx' h
      | merged hentries hpairs hmerged =>
          obtain ⟨pairs', hpairs', hdistinct, -⟩ := (accepts_dict_iff hentries).mp ho'
          rw [pairs_unique hpairs hpairs'] at hmerged
          exact hmerged (hdistinct rfl)
      | params hcall hreg h =>
          obtain ⟨x, hx⟩ := exists_params_of_call hcall hreg ho
          obtain ⟨x', hx'⟩ := exists_params_of_call hcall hreg ho'
          exact hparams _ _ hcall _ _ _ _ hx hx' h
      | field hentries hf hw h =>
          obtain ⟨-, fields, hfields, -⟩ := (accepts_spec_iff hentries).mp ho
          obtain ⟨-, fields', hfields', -⟩ := (accepts_spec_iff hentries).mp ho'
          obtain ⟨x, hx⟩ := hfields.exists_of_mem hf hw
          obtain ⟨x', hx'⟩ := hfields'.exists_of_mem hf hw
          obtain ⟨key, hmem⟩ := mem_of_lookupKey hw
          exact hchild _ (mem_children_of_entriesOf hentries hmem) _ _ _ _ hx hx' h

end Blurring

/-- The objects of the schema, and the error of the schema for all other values. -/
def Decides (env : SpecEnv C) (py : PyText) (cls : C) (raw : Tree) (place : String) : Prop :=
  (∀ obj, parseSpec env py cls raw place = .ok obj ↔ Conforms env py (.spec cls) place raw obj) ∧
    ((¬∃ obj, Conforms env py (.spec cls) place raw obj) →
      ∃ message, parseSpec env py cls raw place = .error (.validation message))

theorem Decides.not_trips {cls : C} {raw : Tree} (h : Decides env py cls raw place) :
    ¬Trips env py (.spec cls) place raw := by
  intro htrips
  obtain ⟨e, he, hbad⟩ := (convert_described raw (.spec cls) place).bad_iff.mpr htrips
  have hnone : ¬∃ obj, Conforms env py (.spec cls) place raw obj := by
    intro hsome
    obtain ⟨obj, hobj⟩ := hsome
    exact absurd (he.symm.trans ((h.1 obj).mpr hobj)) nofun
  obtain ⟨message, hmessage⟩ := h.2 hnone
  obtain rfl := Except.error.inj (he.symm.trans hmessage)
  exact absurd hbad nofun

theorem decides_iff (env : SpecEnv C) (py : PyText) (cls : C) (raw : Tree) (place : String) :
    Decides env py cls raw place ↔ ¬Trips env py (.spec cls) place raw ∧
      ¬((∃ obj, Passes env py (.spec cls) place raw obj) ∧
        Blurs env py (.spec cls) place raw) := by
  have hread := (convert_described raw : Read env py raw) (.spec cls) place
  constructor
  · intro hdec
    refine ⟨hdec.not_trips, fun h => ?_⟩
    obtain ⟨⟨obj, hobj⟩, hblurs⟩ := h
    have hconf := (hdec.1 obj).mp ((hread.ok_iff obj).mpr hobj)
    exact not_blurs_of_conforms _ _ _ _ _ hobj hconf hblurs
  · intro h
    obtain ⟨htrips, hblurs⟩ := h
    have hok : ∀ obj, parseSpec env py cls raw place = .ok obj ↔
        Conforms env py (.spec cls) place raw obj := by
      intro obj
      constructor
      · intro hres
        have hobj := (hread.ok_iff obj).mp hres
        exact conforms_of_passes _ _ _ _ hobj fun hb => hblurs ⟨⟨obj, hobj⟩, hb⟩
      · intro hobj
        exact (hread.ok_iff obj).mpr (passes_of_conforms _ _ _ _ hobj htrips)
    refine ⟨hok, fun hnone => ?_⟩
    cases hres : parseSpec env py cls raw place with
    | ok obj => exact absurd ⟨obj, (hok obj).mp hres⟩ hnone
    | error e =>
        cases e with
        | validation message => exact ⟨message, rfl⟩
        | _ => exact absurd (hread.bad_iff.mp ⟨_, hres, rfl⟩) htrips

section MixedKeys

/-- `DelaySpec` of `builtin/actions.py`. -/
def delaySpec : SpecClass Unit where
  fields := [⟨"sec", .float, none⟩]
  nodup := by decide
  validate fields place :=
    match fields with
    | [(_, .raw (.scalar (.float (.finite sec))))] =>
        if sec < 0 then invalid (place ++ ": 'sec' must be >= 0") else .ok ()
    | [(_, .raw (.scalar (.float (.inf true))))] => invalid (place ++ ": 'sec' must be >= 0")
    | _ => .ok ()
  hashable _ := false

def delayEnv : SpecEnv Unit where
  classes _ := delaySpec
  registry kind name := if kind = .action ∧ name = "delay" then some (some ()) else none
  names kind := if kind = .action then ["delay"] else []

/-- Nothing is printed before the keys are sorted. -/
def noText : PyText := ⟨fun _ => "", fun _ => "", id⟩

/-- `{sec: 1.0, 1: , x: }`: two keys too many, a number and a word. -/
theorem mixed_keys_not_decided : ¬Decides delayEnv noText ()
    (.map [(.str "sec", .scalar (.float (.finite 1))), (.int 1, .null), (.str "x", .null)])
    "timeline[0].do.delay" := by
  intro h
  exact h.not_trips (.unsortable rfl (by decide))

end MixedKeys

end MgRobot.Scenario
