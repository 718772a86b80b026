import MgRobot.EventLog.Line

/-!
# Events written and read in Python

`parse_event` reads from the line that `format_event` writes the name and the fields
of the event, with the texts of their values.
-/

namespace MgRobot.EventLog

set_option autoImplicit false

open MgRobot.Lib CodeUnit

section

variable {α : Type} [CodeUnit α] [DecidableEq α]

theorem isPrefixOf_line {needsQuote : α → Bool} {name : List α} {fields : List (List α × List α)} :
    (lit "evt=").isPrefixOf (line needsQuote name fields) = true := by
  rw [List.isPrefixOf_iff_prefix, line, List.append_assoc]
  exact List.prefix_append _ _

/-- Entering the pairs of a line in an empty table and popping the name. -/
theorem pop_name {name : List α} {fields : List (List α × List α)}
    (hnodup : ((lit "evt", name) :: fields |>.map Prod.fst).Nodup) :
    let m := ((lit "evt", name) :: fields).foldl (fun m e => m.set e.1 e.2) OrderedMap.empty
    m.get? (lit "evt") = some name ∧ (m.erase (lit "evt")).entries = fields := by
  intro m
  have hentries : m.entries = (lit "evt", name) :: fields :=
    OrderedMap.entries_foldl_set OrderedMap.empty _ hnodup
  refine ⟨m.get?_eq_some_iff.mpr ?_, m.entries_erase_append (a := []) hentries⟩
  rw [hentries]
  exact List.mem_cons_self

theorem reads_quote {K : Classes α} {needsQuote : α → Bool} {v : List α}
    (hmark : needsQuote quoteMark = true)
    (h : v = [] ∨ v.any needsQuote = true ∨ ∀ c ∈ v, K.space c = false) :
    Reads K v (quote needsQuote v) := by
  unfold quote
  split_ifs with hq
  · exact .quoted
  · simp only [Bool.or_eq_true, not_or] at hq
    refine .bare ?_ ?_
    · intro hhead
      exact hq.2 (List.any_eq_true.mpr ⟨quoteMark, List.mem_of_head? hhead, hmark⟩)
    · rcases h with h | h | h
      · exact absurd (List.isEmpty_iff.mpr h) hq.1
      · exact absurd h hq.2
      · exact h

end

theorem standard_py : Py.classes.Standard where
  space := by decide
  visible c h1 h2 := by
    simp only [Py.classes, Py.isSpace, Bool.or_eq_false_iff, Bool.and_eq_false_iff,
      decide_eq_false_iff_not]
    omega
  lineEnd c h1 _ := by
    have h1 : 32 ≤ c.toNat := h1
    exact decide_eq_false (by omega)

namespace Py

variable {isPrintable : Char → Bool} {name : List Char} {fields : List (List Char × Value)}

/-- What the line shows of the fields: the key without its last underscores, the text of the
value, and nothing of a field that holds `None`. -/
def shown (fields : List (List Char × Value)) : List (List Char × List Char) :=
  (fields.filter fun f => f.2 ≠ .none).map fun f => (rstripUnderscores f.1, f.2.text)

/-- A key that `format_event` takes. -/
def IsKey (key : List Char) : Prop := isIdentifier key = true ∧ key ≠ "evt".toList

instance (key : List Char) : Decidable (IsKey key) := inferInstanceAs (Decidable (_ ∧ _))

theorem shown_cons_none {f : List Char × Value} (h : f.2 = .none) :
    shown (f :: fields) = shown fields := by
  rw [shown, List.filter_cons_of_neg (by simpa using h), shown]

theorem shown_cons {f : List Char × Value} (h : f.2 ≠ .none) :
    shown (f :: fields) = (rstripUnderscores f.1, f.2.text) :: shown fields := by
  rw [shown, List.filter_cons_of_pos (by simpa using h), List.map_cons, shown]

theorem isKey_of_mem_shown (h : ∀ f ∈ fields, IsKey (rstripUnderscores f.1)) :
    ∀ f ∈ shown fields, IsKey f.1 := by
  intro f hf
  obtain ⟨g, hg, rfl⟩ := List.mem_map.mp hf
  exact h g (List.mem_of_mem_filter hg)

/-! ## The encoder writes the line -/

theorem matchesLine_of_first {r : Regex Char} {s : List Char} {m : Regex.Match Char}
    (h : r.first s = some m) (hm : m.rest = []) : matchesLine r s = true :=
  List.any_eq_true.mpr ⟨m, Regex.mem_tries_of_first h, by simp [hm]⟩

theorem first_keyRe {k t : List Char} (hk : isIdentifier k = true)
    (ht : ∀ c ∈ t.head?, (isLower c || isDigit c || isUnderscore c) = false) :
    keyRe.first (k ++ t) = some ⟨k, [], t⟩ := by
  cases k with
  | nil => exact nomatch hk
  | cons c k =>
      obtain ⟨hc, hall⟩ := isIdentifier_cons.mp hk
      have hrest : ∀ x ∈ k, (isLower x || isDigit x || isUnderscore x) = true := fun x hx => by
        simpa [or_assoc] using hall x (List.mem_cons_of_mem c hx)
      exact Regex.first_seq (Regex.first_cls hc) (Regex.first_star_cls hrest ht)

theorem matches_keyRe {k : List Char} (hk : isIdentifier k = true) :
    matchesLine keyRe k = true := by
  have h := first_keyRe (t := []) hk fun c hc => nomatch hc
  rw [List.append_nil] at h
  exact matchesLine_of_first h rfl

theorem matches_nameRe (h : isEventName name = true) : matchesLine nameRe name = true := by
  obtain ⟨d, e, rfl, hd, he, -⟩ := exists_of_isEventName h
  have hdomain := first_keyRe (t := '.' :: e) hd (by rintro c ⟨⟩; decide)
  have hevent := first_keyRe (t := []) he fun c hc => nomatch hc
  rw [List.append_nil] at hevent
  exact matchesLine_of_first
    (Regex.first_seq hdomain (Regex.first_seq (Regex.first_char '.' e) hevent)) rfl

theorem formatParts_eq (hkeys : ∀ f ∈ fields, IsKey (rstripUnderscores f.1))
    (hprint : ∀ f ∈ fields, f.2.printable = true) (parts : List (List Char)) :
    formatParts isPrintable parts fields =
      .ok (parts ++ (shown fields).map fun f => f.1 ++ ['='] ++ quote needsQuote f.2) := by
  induction fields generalizing parts with
  | nil => rw [formatParts, shown, List.filter_nil, List.map_nil, List.map_nil, List.append_nil]
  | cons f fields ih =>
      obtain ⟨hid, hevt⟩ := hkeys f List.mem_cons_self
      have hrest := ih (fun f' hf' => hkeys f' (List.mem_cons_of_mem f hf'))
        fun f' hf' => hprint f' (List.mem_cons_of_mem f hf')
      rw [formatParts, matches_keyRe hid, formatValue, if_pos (hprint f List.mem_cons_self)]
      simp only [Bool.not_true, Bool.false_eq_true, if_false, hevt]
      by_cases hnone : f.2 = .none
      · rw [if_pos hnone, hrest, shown_cons_none hnone]
      · rw [if_neg hnone, hrest, shown_cons hnone, List.map_cons, List.append_assoc]
        rfl

theorem intercalate_space (p : List Char) (parts : List (List Char)) :
    [' '].intercalate (p :: parts) = p ++ parts.flatMap fun q => [' '] ++ q := by
  induction parts generalizing p with
  | nil => simp
  | cons q parts ih =>
      rw [List.intercalate_cons_cons, ih, List.flatMap_cons]
      simp

theorem formatEvent_eq (hname : isEventName name = true)
    (hkeys : ∀ f ∈ fields, IsKey (rstripUnderscores f.1))
    (hprint : ∀ f ∈ fields, f.2.printable = true) :
    formatEvent isPrintable name fields = .ok (line needsQuote name (shown fields)) := by
  have hmap : ((shown fields).map fun f => f.1 ++ ['='] ++ quote needsQuote f.2).flatMap
      (fun q => [' '] ++ q) =
      (shown fields).flatMap fun f => [unit ' '] ++ f.1 ++ [unit '='] ++ quote needsQuote f.2 := by
    rw [List.flatMap_map]
    simp [unit_char]
  rw [formatEvent, matches_nameRe hname, if_neg (by simp), formatParts_eq hkeys hprint]
  show Except.ok ([' '].intercalate (("evt=".toList ++ name) ::
    (shown fields).map fun f => f.1 ++ ['='] ++ quote needsQuote f.2)) = _
  rw [intercalate_space, hmap]
  rfl

/-! ## The decoder reads it -/

/-- What the encoder leaves bare is one word. -/
theorem reads_value (v : List Char) : Reads classes v (quote needsQuote v) := by
  refine reads_quote (by decide) ?_
  by_cases hany : v.any needsQuote = true
  · exact .inr (.inl hany)
  · refine .inr (.inr fun c hc => ?_)
    have hbare : needsQuote c = false := by
      rw [Bool.eq_false_iff]
      exact fun hn => hany (List.any_eq_true.mpr ⟨c, hc, hn⟩)
    exact (Bool.or_eq_false_iff.mp hbare).1

theorem parseEvent_line {quoted : Char → Bool} {pairs : List (List Char × List Char)}
    (hname : isEventName name = true) (hkeys : ∀ f ∈ pairs, IsKey f.1)
    (hdistinct : (pairs.map Prod.fst).Nodup)
    (hvalues : ∀ f ∈ pairs, Reads classes f.2 (quote quoted f.2)) :
    (parseEvent (line quoted name pairs)).map (fun e => (e.1, e.2.entries)) =
      some (name, pairs) := by
  have hpairs := readPairs_line standard_py hname fun f hf => ⟨(hkeys f hf).1, hvalues f hf⟩
  have hnodup : ((lit "evt", name) :: pairs |>.map Prod.fst).Nodup := by
    rw [List.map_cons, List.nodup_cons]
    refine ⟨fun hmem => ?_, hdistinct⟩
    obtain ⟨f, hf, hevt⟩ := List.mem_map.mp hmem
    exact (hkeys f hf).2 hevt
  obtain ⟨hget, herase⟩ := pop_name hnodup
  have hprefix : "evt=".toList.isPrefixOf (line quoted name pairs) = true := isPrefixOf_line
  rw [parseEvent, if_pos hprefix, hpairs]
  show Option.map _ (Option.map _ (OrderedMap.get? _ (lit "evt"))) = _
  rw [hget, Option.map_some, Option.map_some]
  exact congrArg some (congrArg (Prod.mk name) herase)

/-- What `format_event` writes, `parse_event` reads: the name, and the fields in order with the
texts of their values, of which an integer has one up to 4300 digits. -/
theorem parseEvent_formatEvent (isPrintable : Char → Bool) (hname : isEventName name = true)
    (hkeys : ∀ f ∈ fields, IsKey (rstripUnderscores f.1))
    (hdistinct : ((shown fields).map Prod.fst).Nodup)
    (hprint : ∀ f ∈ fields, f.2.printable = true) :
    ∃ text, formatEvent isPrintable name fields = .ok text ∧
      (parseEvent text).map (fun e => (e.1, e.2.entries)) = some (name, shown fields) := by
  refine ⟨line needsQuote name (shown fields), formatEvent_eq hname hkeys hprint, ?_⟩
  exact parseEvent_line hname (isKey_of_mem_shown hkeys) hdistinct fun f _ => reads_value f.2

/-- A value that ends in a backslash, one that looks like a further field, and a key with an
underscore to strip. -/
theorem parseEvent_formatEvent_escaped :
    ∃ text, formatEvent (fun _ => true) "driver.disconnected".toList
        [("from_".toList, .str "a\\".toList), ("reason".toList, .str "x\" y=\"z\n".toList),
          ("ok".toList, .bool true), ("index".toList, .int (-3))] = .ok text ∧
      (parseEvent text).map (fun e => (e.1, e.2.entries)) =
        some ("driver.disconnected".toList,
          [("from".toList, "a\\".toList), ("reason".toList, "x\" y=\"z\n".toList),
            ("ok".toList, "true".toList), ("index".toList, "-3".toList)]) :=
  parseEvent_formatEvent (fun _ => true) (by decide) (by decide) (by decide) (by decide +kernel)

/-- An integer of 4301 digits has no text, and the event no line. -/
theorem formatEvent_tooManyDigits :
    ¬ ∀ (name : List Char) (fields : List (List Char × Value)), isEventName name = true →
      (∀ f ∈ fields, IsKey (rstripUnderscores f.1)) → ((shown fields).map Prod.fst).Nodup →
        ∃ text, formatEvent (fun _ => true) name fields = .ok text ∧
          (parseEvent text).map (fun e => (e.1, e.2.entries)) = some (name, shown fields) := by
  intro h
  have hfields : shown [("index".toList, .int (10 ^ 4300))] =
      [("index".toList, (Value.int (10 ^ 4300)).text)] := rfl
  obtain ⟨text, htext, -⟩ := h "driver.counted".toList [("index".toList, .int (10 ^ 4300))]
    (by decide) (by decide) (by rw [hfields]; exact List.nodup_singleton _)
  have herror : formatEvent (fun _ => true) "driver.counted".toList
      [("index".toList, .int (10 ^ 4300))] = .error strError := by
    decide +kernel
  cases htext.symm.trans herror

end Py

end MgRobot.EventLog
