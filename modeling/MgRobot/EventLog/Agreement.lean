import MgRobot.EventLog.RoundTrip

/-!
# The encoders and decoders of the event log agree

Both encoders write the line of the event, each in its own code units, and both
decoders read it; a value has to be one word to all of them.
-/

namespace MgRobot.EventLog

set_option autoImplicit false

open MgRobot.Lib CodeUnit

/-! ## The encoders write the line -/

theorem Cpp.appendFields_eq {fields : List (List UInt8 × List UInt8)}
    (hkeys : ∀ f ∈ fields, isIdentifier f.1 = true ∧ f.1 ≠ lit "evt") (out : List UInt8) :
    Cpp.appendFields out (fields.map fun f => .ofString f.1 f.2) =
      .ok (out ++ fields.flatMap fun f =>
        [unit ' '] ++ f.1 ++ [unit '='] ++ quote Cpp.needsQuote f.2) := by
  induction fields generalizing out with
  | nil => rw [List.flatMap_nil, List.append_nil, List.map_nil, Cpp.appendFields]
  | cons f fields ih =>
      obtain ⟨hid, hevt⟩ := hkeys f List.mem_cons_self
      have hok : ¬(!isIdentifier (Cpp.EventField.ofString f.1 f.2).key ||
          decide ((Cpp.EventField.ofString f.1 f.2).key = lit "evt")) = true := by
        simp [Cpp.EventField.ofString, hid, hevt]
      rw [List.map_cons, Cpp.appendFields, if_neg (by simpa using hok),
        ih fun f' hf' => hkeys f' (List.mem_cons_of_mem f hf'), List.flatMap_cons]
      simp only [List.append_assoc]
      rfl

theorem Cpp.formatEvent_eq {name : List UInt8} {fields : List (List UInt8 × List UInt8)}
    (hname : isEventName name = true)
    (hkeys : ∀ f ∈ fields, isIdentifier f.1 = true ∧ f.1 ≠ lit "evt") :
    Cpp.formatEvent name (fields.map fun f => .ofString f.1 f.2) =
      .ok (line Cpp.needsQuote name fields) := by
  rw [Cpp.formatEvent, hname, if_neg (by simp), Cpp.appendFields_eq hkeys, line]

namespace Py

variable {isPrintable : Char → Bool} {name : List Char} {fields : List (List Char × List Char)}

/-- A key that `rstrip('_')` leaves alone. -/
theorem rstripUnderscores_eq {k : List Char} (h : k.getLast? ≠ some '_') :
    rstripUnderscores k = k := by
  refine List.rdropWhile_eq_self_iff.mpr fun hne hlast => h ?_
  rw [List.getLast?_eq_getLast_of_ne_nil hne, of_decide_eq_true hlast]

theorem shown_str (hstrip : ∀ f ∈ fields, f.1.getLast? ≠ some '_') :
    shown (fields.map fun f => (f.1, .str f.2)) = fields := by
  induction fields with
  | nil => rfl
  | cons f fields ih =>
      rw [List.map_cons, shown_cons (by simp), ih fun f' hf' => hstrip f' (List.mem_cons_of_mem f hf'),
        rstripUnderscores_eq (hstrip f List.mem_cons_self)]
      rfl

theorem formatEvent_str (hname : isEventName name = true) (hkeys : ∀ f ∈ fields, IsKey f.1)
    (hstrip : ∀ f ∈ fields, f.1.getLast? ≠ some '_') :
    formatEvent isPrintable name (fields.map fun f => (f.1, .str f.2)) =
      .ok (line needsQuote name fields) := by
  have hkeys' : ∀ g ∈ fields.map fun f => (f.1, Value.str f.2),
      IsKey (rstripUnderscores g.1) := by
    intro g hg
    obtain ⟨f, hf, rfl⟩ := List.mem_map.mp hg
    rw [rstripUnderscores_eq (hstrip f hf)]
    exact hkeys f hf
  have hprint : ∀ g ∈ fields.map fun f => (f.1, Value.str f.2), g.2.printable = true := by
    intro g hg
    obtain ⟨f, -, rfl⟩ := List.mem_map.mp hg
    rfl
  rw [formatEvent_eq hname hkeys' hprint, shown_str hstrip]

end Py

/-! ## The decoders read the line -/

theorem standard_js : Js.classes.Standard where
  space := by decide
  visible c h1 h2 := by
    simp only [Js.classes, Js.isSpace, Bool.or_eq_false_iff, Bool.and_eq_false_iff,
      decide_eq_false_iff_not]
    omega
  lineEnd c h1 h2 := by
    refine decide_eq_false fun hmem => ?_
    simp only [List.mem_cons, List.not_mem_nil, or_false] at hmem
    omega

/-! ## All four -/

/-- Both encoders decide alike on quotes for the value, and unquoted it is one word to both
decoders. -/
def OneWord (v : List Char) : Prop :=
  v = [] ∨ v.any Cpp.needsQuote = true ∨ ∀ c ∈ v, Py.isSpace c = false ∧ Js.isSpace c = false

instance (v : List Char) : Decidable (OneWord v) :=
  have : Decidable (∀ c ∈ v, Py.isSpace c = false ∧ Js.isSpace c = false) :=
    List.decidableBAll _ v
  inferInstanceAs (Decidable (_ ∨ _ ∨ _))

/-- Both encoders write one line for the event, and both decoders read the event from it. -/
def Agree (isPrintable : Char → Bool) (name : List Char)
    (fields : List (List Char × List Char)) : Prop :=
  ∃ text : List Char,
    Cpp.formatEvent (utf8.text name)
        ((textFields utf8 fields).map fun f => .ofString f.1 f.2) = .ok (utf8.text text) ∧
      Py.formatEvent isPrintable name (fields.map fun f => (f.1, .str f.2)) = .ok text ∧
        (Py.parseEvent text).map (fun e => (e.1, e.2.entries)) = some (name, fields) ∧
          (Js.parseEvent (utf16.text text)).map (fun e => (e.name, e.fields.entries)) =
            some (utf16.text name, textFields utf16 fields)

theorem OneWord.quote_eq {v : List Char} (h : OneWord v) :
    quote Py.needsQuote v = quote Cpp.needsQuote v := by
  have himp : ∀ c : Char, Cpp.needsQuote c = true → Py.needsQuote c = true := by
    intro c hc
    simp only [Cpp.needsQuote, Py.needsQuote, Py.isSpace, code, List.mem_cons, List.not_mem_nil,
      or_false, Bool.or_eq_true, Bool.and_eq_true, decide_eq_true_eq] at hc ⊢
    omega
  have hany : (v.isEmpty || v.any Py.needsQuote) = (v.isEmpty || v.any Cpp.needsQuote) := by
    rcases h with rfl | h | h
    · rfl
    · obtain ⟨c, hc, hn⟩ := List.any_eq_true.mp h
      rw [h, List.any_eq_true.mpr ⟨c, hc, himp c hn⟩]
    · have hpy : ∀ c ∈ v, Py.needsQuote c = Cpp.needsQuote c := by
        intro c hc
        rw [Bool.eq_iff_iff]
        refine ⟨fun hn => ?_, himp c⟩
        rw [Py.needsQuote, (h c hc).1, Bool.false_or] at hn
        simp only [Cpp.needsQuote, code, List.mem_cons, List.not_mem_nil, or_false,
          decide_eq_true_eq] at hn ⊢
        omega
      congr 1
      rw [Bool.eq_iff_iff, List.any_eq_true, List.any_eq_true]
      exact exists_congr fun c => and_congr_right fun hc => by rw [hpy c hc]
  unfold quote
  rw [hany]

theorem line_eq {name : List Char} {fields : List (List Char × List Char)}
    (h : ∀ f ∈ fields, OneWord f.2) :
    line Py.needsQuote name fields = line Cpp.needsQuote name fields := by
  unfold line
  congr 1
  rw [List.flatMap_def, List.flatMap_def]
  congr 1
  exact List.map_congr_left fun f hf => by rw [(h f hf).quote_eq]

/-- No unit of a character outside the 16-bit range is a space. -/
theorem isSpace_utf16 {c : Char} (hc : Js.isSpace c = false) :
    ∀ u ∈ utf16.encode c, Js.isSpace u = false := by
  have hmax : c.toNat < 1114112 := by
    have := c.valid
    simp only [UInt32.isValidChar, Nat.isValidChar] at this
    show c.val.toNat < 1114112
    omega
  intro u hu
  simp only [utf16] at hu
  split_ifs at hu with h
  · obtain rfl := List.mem_singleton.mp hu
    have hcode : code (UInt16.ofNat c.toNat) = code c := UInt16.toNat_ofNat_of_lt' h
    rw [← hc]
    simp only [Js.isSpace, hcode]
  · have hrange : 55296 ≤ code u ∧ code u < 57344 := by
      simp only [List.mem_cons, List.not_mem_nil, or_false] at hu
      rcases hu with rfl | rfl
      · simp only [code, UInt16.toNat_ofNat']
        omega
      · simp only [code, UInt16.toNat_ofNat']
        omega
    simp only [Js.isSpace, Bool.or_eq_false_iff, Bool.and_eq_false_iff, decide_eq_false_iff_not]
    omega

theorem OneWord.reads_py {v : List Char} (h : OneWord v) :
    Reads Py.classes v (quote Cpp.needsQuote v) := by
  refine reads_quote (by decide) ?_
  rcases h with h | h | h
  · exact .inl h
  · exact .inr (.inl h)
  · exact .inr (.inr fun c hc => (h c hc).1)

theorem OneWord.reads_js {v : List Char} (h : OneWord v) :
    Reads Js.classes (utf16.text v) (quote Cpp.needsQuote (utf16.text v)) := by
  refine reads_quote (by decide) ?_
  rcases h with h | h | h
  · exact .inl (utf16.text_eq_nil_iff.mpr h)
  · exact .inr (.inl ((any_needsQuote_text utf16 v).trans h))
  · refine .inr (.inr fun u hu => ?_)
    obtain ⟨c, hc, hu⟩ := List.mem_flatMap.mp hu
    exact isSpace_utf16 (h c hc).2 u hu

theorem Js.foldl_assign {pairs : List (List UInt16 × List UInt16)}
    (h : ∀ e ∈ pairs, e.1 ≠ lit "__proto__") (m : OrderedMap (List UInt16) (List UInt16)) :
    pairs.foldl (fun m e => Js.assign m e.1 e.2) m = pairs.foldl (fun m e => m.set e.1 e.2) m := by
  induction pairs generalizing m with
  | nil => rfl
  | cons e pairs ih =>
      rw [List.foldl_cons, List.foldl_cons, Js.assign, if_neg (h e List.mem_cons_self),
        ih fun e' he' => h e' (List.mem_cons_of_mem e he')]

section

variable {name : List Char} {fields : List (List Char × List Char)}

theorem parseEvent_js (hname : isEventName name = true)
    (hkeys : ∀ f ∈ fields, isIdentifier f.1 = true ∧ f.1 ≠ "evt".toList)
    (hdistinct : (fields.map Prod.fst).Nodup) (hvalues : ∀ f ∈ fields, OneWord f.2) :
    (Js.parseEvent (line Cpp.needsQuote (utf16.text name) (textFields utf16 fields))).map
      (fun e => (e.name, e.fields.entries)) =
        some (utf16.text name, textFields utf16 fields) := by
  have hfields : ∀ f ∈ textFields utf16 fields,
      isIdentifier f.1 = true ∧ Reads Js.classes f.2 (quote Cpp.needsQuote f.2) := by
    intro f16 hf16
    obtain ⟨f, hf, rfl⟩ := List.mem_map.mp hf16
    exact ⟨isIdentifier_text utf16 (hkeys f hf).1, (hvalues f hf).reads_js⟩
  have hpairs := readPairs_line standard_js (isEventName_text utf16 hname) hfields
  have hevt : utf16.text "evt".toList = lit "evt" := text_lit utf16 (by decide)
  have hkeys16 : (textFields utf16 fields).map Prod.fst =
      (fields.map Prod.fst).map utf16.text := by
    rw [textFields, List.map_map, List.map_map]
    rfl
  have hnodup : ((lit "evt", utf16.text name) :: textFields utf16 fields |>.map Prod.fst).Nodup := by
    rw [List.map_cons, List.nodup_cons, hkeys16]
    constructor
    · intro hmem
      obtain ⟨k, hk, heq⟩ := List.mem_map.mp hmem
      obtain ⟨f, hf, rfl⟩ := List.mem_map.mp hk
      rw [← hevt] at heq
      exact (hkeys f hf).2 (text_inj_of_isIdentifier utf16 (hkeys f hf).1 (by decide) heq)
    · refine hdistinct.map_on fun k hk k' hk' heq => ?_
      obtain ⟨f, hf, rfl⟩ := List.mem_map.mp hk
      obtain ⟨f', hf', rfl⟩ := List.mem_map.mp hk'
      exact text_inj_of_isIdentifier utf16 (hkeys f hf).1 (hkeys f' hf').1 heq
  have hproto : ∀ e ∈ (lit "evt", utf16.text name) :: textFields utf16 fields,
      e.1 ≠ lit "__proto__" := by
    have hnot : isIdentifier (lit "__proto__" : List UInt16) = false := by decide
    intro e he
    rcases List.mem_cons.mp he with rfl | he
    · show (lit "evt" : List UInt16) ≠ lit "__proto__"
      decide
    · obtain ⟨f, hf, rfl⟩ := List.mem_map.mp he
      intro heq
      have hid := isIdentifier_text utf16 (hkeys f hf).1
      rw [show utf16.text f.1 = lit "__proto__" from heq, hnot] at hid
      exact Bool.false_ne_true hid
  obtain ⟨hget, herase⟩ := pop_name hnodup
  have hprefix : (lit "evt=").isPrefixOf
      (line Cpp.needsQuote (utf16.text name) (textFields utf16 fields)) = true := isPrefixOf_line
  rw [Js.parseEvent, if_pos hprefix, hpairs, Js.foldl_assign hproto]
  show Option.map _ (Option.map _ (OrderedMap.get? _ (lit "evt"))) = _
  rw [hget, Option.map_some, Option.map_some]
  exact congrArg some (congrArg (Prod.mk _) herase)

/-- An event with keys that `rstrip('_')` leaves alone, and values that are one word, has one line. -/
theorem events_agree (isPrintable : Char → Bool) (hname : isEventName name = true)
    (hkeys : ∀ f ∈ fields, isIdentifier f.1 = true ∧ f.1 ≠ "evt".toList)
    (hdistinct : (fields.map Prod.fst).Nodup) (hstrip : ∀ f ∈ fields, f.1.getLast? ≠ some '_')
    (hvalues : ∀ f ∈ fields, OneWord f.2) : Agree isPrintable name fields := by
  refine ⟨line Cpp.needsQuote name fields, ?_, ?_, ?_, ?_⟩
  · rw [text_line]
    refine Cpp.formatEvent_eq (isEventName_text utf8 hname) fun f8 hf8 => ?_
    obtain ⟨f, hf, rfl⟩ := List.mem_map.mp hf8
    refine ⟨isIdentifier_text utf8 (hkeys f hf).1, fun heq => (hkeys f hf).2 ?_⟩
    have hevt : utf8.text "evt".toList = lit "evt" := text_lit utf8 (by decide)
    rw [← hevt] at heq
    exact text_inj_of_isIdentifier utf8 (hkeys f hf).1 (by decide) heq
  · rw [Py.formatEvent_str hname hkeys hstrip, line_eq hvalues]
  · exact Py.parseEvent_line hname hkeys hdistinct fun f hf => (hvalues f hf).reads_py
  · rw [text_line]
    exact parseEvent_js hname hkeys hdistinct hvalues

/-- A value with spaces, quotes, newlines and characters of every length in UTF-8 and UTF-16. -/
theorem events_agree_escaped : Agree (fun _ => true) "driver.disconnected".toList
    [("reason".toList, "say \"read\" a\\b\n=é空😀".toList), ("port".toList, "/dev/é空😀".toList)] :=
  events_agree (fun _ => true) (by decide) (by decide) (by decide) (by decide) (by decide)

/-- Python drops the last underscore of a key and quotes a no-break space, which C++ does not; and
a byte order mark ends a bare value for JavaScript. -/
theorem not_agree : ¬ Agree (fun _ => true) "node.started".toList [("from_".toList, "x".toList)] ∧
    ¬ Agree (fun _ => true) "node.started".toList [("port".toList, [Char.ofNat 0xA0])] ∧
    ¬ Agree (fun _ => true) "node.started".toList [("port".toList, [Char.ofNat 0xFEFF])] := by
  refine ⟨?_, ?_, ?_⟩
  · rintro ⟨text, hcpp, hpy, -, -⟩
    have htext : Py.formatEvent (fun _ => true) "node.started".toList
        [("from_".toList, .str "x".toList)] = .ok "evt=node.started from=x".toList := by
      decide +kernel
    obtain rfl := Except.ok.inj (hpy.symm.trans htext)
    revert hcpp
    decide +kernel
  · rintro ⟨text, hcpp, hpy, -, -⟩
    have htext : Py.formatEvent (fun _ => true) "node.started".toList
        [("port".toList, .str [Char.ofNat 0xA0])] =
          .ok ("evt=node.started port=".toList ++
            [Char.ofNat 34, Char.ofNat 0xA0, Char.ofNat 34]) := by
      decide +kernel
    obtain rfl := Except.ok.inj (hpy.symm.trans htext)
    revert hcpp
    decide +kernel
  · rintro ⟨text, -, hpy, -, hjs⟩
    have htext : Py.formatEvent (fun _ => true) "node.started".toList
        [("port".toList, .str [Char.ofNat 0xFEFF])] =
          .ok ("evt=node.started port=".toList ++ [Char.ofNat 0xFEFF]) := by
      decide +kernel
    obtain rfl := Except.ok.inj (hpy.symm.trans htext)
    revert hjs
    decide +kernel

end

end MgRobot.EventLog
