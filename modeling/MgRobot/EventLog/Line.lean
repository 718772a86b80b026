import MgRobot.EventLog.Format

/-!
# The line of an event

An event has one line in any code units. A decoder whose classes are standard
reads the event back from its line, and writing the line commutes with encoding
it.
-/

namespace MgRobot.EventLog

set_option autoImplicit false

open MgRobot.Lib CodeUnit

section

variable {α : Type} [CodeUnit α]

theorem unit_ne {a b : Char} (ha : a.toNat < 128) (hb : b.toNat < 128) (h : a.toNat ≠ b.toNat) :
    (unit a : α) ≠ unit b := by
  intro heq
  have hcode := congrArg code heq
  rw [code_unit a ha, code_unit b hb] at hcode
  exact h hcode

theorem isIdentifier_cons {c : α} {k : List α} : isIdentifier (c :: k) = true ↔
    isLower c = true ∧
      ∀ x ∈ c :: k, isLower x = true ∨ isDigit x = true ∨ isUnderscore x = true := by
  simp [isIdentifier, or_assoc]

theorem code_of_isIdentifier {k : List α} (h : isIdentifier k = true) :
    ∀ c ∈ k, 48 ≤ code c ∧ code c ≤ 122 := by
  cases k with
  | nil => exact nomatch h
  | cons c k =>
      intro x hx
      have hx := (isIdentifier_cons.mp h).2 x hx
      simp only [isLower, isDigit, isUnderscore, Bool.and_eq_true, decide_eq_true_eq] at hx
      have hz : 'z'.toNat = 122 ∧ 'a'.toNat = 97 ∧ '9'.toNat = 57 ∧ '0'.toNat = 48 ∧
          '_'.toNat = 95 := by decide
      omega

variable [DecidableEq α]

/-! ## Unquoting -/

theorem unquote_cons {c : α} (hc : c ≠ backslash) (body : List α) :
    unquote (c :: body) = c :: unquote body := by
  cases body with
  | nil => rfl
  | cons d body => rw [unquote, if_neg hc]

theorem unquote_escape (c : α) (body : List α) : unquote (escape c ++ body) = c :: unquote body := by
  have hn : (unit 'n' : α) ≠ unit 'r' := unit_ne (by decide) (by decide) (by decide)
  have ht : (unit 't' : α) ≠ unit 'n' := unit_ne (by decide) (by decide) (by decide)
  have ht' : (unit 't' : α) ≠ unit 'r' := unit_ne (by decide) (by decide) (by decide)
  have hb : ∀ x : Char, x ∈ ['n', 'r', 't'] → (backslash : α) ≠ unit x := fun x hx =>
    unit_ne (by decide) (by revert x; simp) (by revert x; simp)
  have hq : ∀ x : Char, x ∈ ['n', 'r', 't'] → (quoteMark : α) ≠ unit x := fun x hx =>
    unit_ne (by decide) (by revert x; simp) (by revert x; simp)
  unfold escape
  split_ifs with h1 h2 h3 h4 h5
  · subst h1
    simp [unquote, unescape, hb]
  · subst h2
    simp [unquote, unescape, hq]
  · subst h3
    simp [unquote, unescape]
  · subst h4
    simp [unquote, unescape, hn.symm]
  · subst h5
    simp [unquote, unescape, ht, ht']
  · exact unquote_cons h1 body

theorem unquote_flatMap_escape (v : List α) : unquote (v.flatMap escape) = v := by
  induction v with
  | nil => rfl
  | cons c v ih => rw [List.flatMap_cons, unquote_escape, ih]

theorem readValue_quoted (v : List α) :
    readValue ([quoteMark] ++ v.flatMap escape ++ [quoteMark]) = v := by
  have hbody : (([quoteMark] ++ v.flatMap escape ++ [quoteMark] : List α).drop 1).dropLast =
      v.flatMap escape := by simp
  rw [readValue, if_pos (by simp), hbody, unquote_flatMap_escape]

/-! ## Reading a line -/

/-- What the decoders need to know about a language's classes. -/
structure Classes.Standard (K : Classes α) : Prop where
  space : K.space (unit ' ') = true
  visible : ∀ c, 33 ≤ code c → code c ≤ 126 → K.space c = false
  lineEnd : ∀ c, 32 ≤ code c → code c ≤ 126 → K.lineEnd c = false

/-- The decoders read the text as the value: it is the quoted value, or the bare one. -/
inductive Reads (K : Classes α) (v : List α) : List α → Prop where
  | quoted : Reads K v ([quoteMark] ++ v.flatMap escape ++ [quoteMark])
  | bare (hne : v.head? ≠ some quoteMark) (hspace : ∀ c ∈ v, K.space c = false) : Reads K v v

variable {K : Classes α} {k v raw t : List α}

theorem Reads.readValue (h : Reads K v raw) : readValue raw = v := by
  cases h with
  | quoted => exact readValue_quoted v
  | bare hne _ => rw [EventLog.readValue, if_neg hne]

/-- The loop of the quoted alternative reads an escaped text up to the closing quote. -/
theorem first_escaped (hK : K.Standard) (v t : List α) :
    (Regex.star (.alt (.cls fun c => c ≠ quoteMark && c ≠ backslash)
      (.seq (.char backslash) (.cls fun c => !K.lineEnd c)))).first
        (v.flatMap escape ++ quoteMark :: t) =
      some ⟨v.flatMap escape, [], quoteMark :: t⟩ := by
  have hqb : (quoteMark : α) ≠ backslash := unit_ne (by decide) (by decide) (by decide)
  have hline : ∀ x : Char, 32 ≤ x.toNat → x.toNat ≤ 126 → K.lineEnd (unit x) = false := by
    intro x h1 h2
    have hcode := code_unit (α := α) x (by omega)
    exact hK.lineEnd _ (by omega) (by omega)
  have hpair : ∀ (x : Char) (s : List α), 32 ≤ x.toNat → x.toNat ≤ 126 →
      (Regex.alt (.cls fun c => c ≠ quoteMark && c ≠ backslash)
        (.seq (.char backslash) (.cls fun c => !K.lineEnd c))).first
          ([backslash, unit x] ++ s) = some ⟨[backslash, unit x], [], s⟩ := by
    intro x s h1 h2
    have hbs : (Regex.cls fun c : α => c ≠ quoteMark && c ≠ backslash).tries
        (backslash :: unit x :: s) = [] := Regex.tries_cls_neg (by simp)
    have hsecond : (Regex.cls fun c => !K.lineEnd c).first (unit x :: s) =
        some ⟨[unit x], [], s⟩ := Regex.first_cls (by rw [hline x h1 h2]; rfl)
    rw [List.cons_append, List.singleton_append, Regex.first_alt_right hbs,
      Regex.first_seq (Regex.first_char backslash _) hsecond]
    rfl
  rw [List.flatMap_def]
  apply Regex.first_star
  · intro x hx
    obtain ⟨c, -, rfl⟩ := List.mem_map.mp hx
    unfold escape
    split_ifs <;> simp
  · intro x hx s
    obtain ⟨c, -, rfl⟩ := List.mem_map.mp hx
    unfold escape
    split_ifs with h1 h2
    · exact hpair _ s (by decide) (by decide)
    · exact hpair _ s (by decide) (by decide)
    · exact hpair _ s (by decide) (by decide)
    · exact hpair _ s (by decide) (by decide)
    · exact hpair _ s (by decide) (by decide)
    · exact Regex.first_alt_left (Regex.first_cls (by simp [h1, h2]))
  · rw [Regex.tries, Regex.tries_cls_neg (by simp), Regex.tries_seq_nil (Regex.tries_char hqb t)]
    rfl

/-- The alternatives of a pair's value read it, up to a space or the end. -/
theorem first_value (hK : K.Standard) (h : Reads K v raw) (ht : ∀ c ∈ t.head?, K.space c = true) :
    (Regex.alt
      (.seq (.char quoteMark)
        (.seq (.star (.alt (.cls fun c => c ≠ quoteMark && c ≠ backslash)
            (.seq (.char backslash) (.cls fun c => !K.lineEnd c))))
          (.char quoteMark)))
      (.star (.cls fun c => !K.space c))).first (raw ++ t) = some ⟨raw, [], t⟩ := by
  cases h with
  | quoted =>
      apply Regex.first_alt_left
      have hloop := Regex.first_seq (first_escaped hK v t) (Regex.first_char quoteMark t)
      have hall := Regex.first_seq (Regex.first_char quoteMark (v.flatMap escape ++ quoteMark :: t)) hloop
      simpa [Regex.Match.andThen] using hall
  | bare hne hspace =>
      rw [Regex.first_alt_right]
      · exact Regex.first_star_cls (fun c hc => by rw [hspace c hc]; rfl)
          fun c hc => by rw [ht c hc]; rfl
      · apply Regex.tries_seq_nil
        cases v with
        | nil =>
            cases t with
            | nil => rfl
            | cons c t =>
                apply Regex.tries_char
                rintro rfl
                have hvisible := hK.visible (quoteMark : α)
                  (by rw [quoteMark, code_unit _ (by decide)]; decide)
                  (by rw [quoteMark, code_unit _ (by decide)]; decide)
                exact absurd (ht _ rfl) (by rw [hvisible]; exact Bool.false_ne_true)
        | cons c v => exact Regex.tries_char (fun hc => hne (congrArg some hc)) _

/-- The first pair of a text that starts with one. -/
theorem first_pair (hK : K.Standard) (hk : isIdentifier k = true) (h : Reads K v raw)
    (ht : ∀ c ∈ t.head?, K.space c = true) :
    (pairRe K).first (k ++ [unit '='] ++ raw ++ t) =
      some ⟨k ++ [unit '='] ++ raw, [k, raw], t⟩ := by
  cases k with
  | nil => exact nomatch hk
  | cons c k =>
      obtain ⟨hc, hall⟩ := isIdentifier_cons.mp hk
      have heq : isUpper (unit '=' : α) = false ∧ isLower (unit '=' : α) = false ∧
          isDigit (unit '=' : α) = false ∧ isUnderscore (unit '=' : α) = false := by
        simp only [isUpper, isLower, isDigit, isUnderscore, code_unit '=' (by decide)]
        decide
      have hword : (Regex.star (.cls fun c : α =>
          isUpper c || isLower c || isDigit c || isUnderscore c)).first
            (k ++ unit '=' :: (raw ++ t)) = some ⟨k, [], unit '=' :: (raw ++ t)⟩ := by
        apply Regex.first_star_cls
        · intro x hx
          rcases hall x (List.mem_cons_of_mem c hx) with hx | hx | hx <;> simp [hx]
        · rintro x ⟨⟩
          simp [heq]
      have hhead : (Regex.cls fun c : α => isUpper c || isLower c || isUnderscore c).first
          (c :: (k ++ unit '=' :: (raw ++ t))) = some ⟨[c], [], k ++ unit '=' :: (raw ++ t)⟩ :=
        Regex.first_cls (by simp [hc])
      have hkey := Regex.first_group (Regex.first_seq hhead hword)
      have hvalue := Regex.first_group (first_value hK h ht)
      have hrest := Regex.first_seq (Regex.first_char (unit '=') (raw ++ t)) hvalue
      have hpair := Regex.first_seq hkey hrest
      simpa [pairRe, Regex.Match.andThen] using hpair

/-- The line of an event. -/
def line (needsQuote : α → Bool) (name : List α) (fields : List (List α × List α)) : List α :=
  lit "evt=" ++ name ++
    fields.flatMap fun f => [unit ' '] ++ f.1 ++ [unit '='] ++ quote needsQuote f.2

theorem productive_pairRe (K : Classes α) : (pairRe K).Productive :=
  ((Regex.productive_cls _).seq_left _).group.seq_left _

theorem readPairs_cons (hK : K.Standard) (hk : isIdentifier k = true) (h : Reads K v raw)
    (ht : ∀ c ∈ t.head?, K.space c = true) :
    readPairs K (k ++ [unit '='] ++ raw ++ t) = (k, v) :: readPairs K t := by
  rw [readPairs, Regex.finditer_match (productive_pairRe K) (first_pair hK hk h ht)]
  show (k, EventLog.readValue raw) :: readPairs K t = (k, v) :: readPairs K t
  rw [h.readValue]

theorem readPairs_nil : readPairs K [] = [] := by
  rw [readPairs, Regex.finditer_nil]
  · rfl
  · exact Regex.tries_seq_nil (Regex.tries_group_nil (Regex.tries_seq_nil rfl))

theorem readPairs_space (t : List α) : readPairs K (unit ' ' :: t) = readPairs K t := by
  have hword : isUpper (unit ' ' : α) = false ∧ isLower (unit ' ' : α) = false ∧
      isUnderscore (unit ' ' : α) = false := by
    simp only [isUpper, isLower, isUnderscore, code_unit ' ' (by decide)]
    decide
  rw [readPairs, Regex.finditer_skip]
  · rfl
  · apply Regex.tries_seq_nil
    apply Regex.tries_group_nil
    apply Regex.tries_seq_nil
    exact Regex.tries_cls_neg (by simp [hword])

variable {needsQuote : α → Bool} {name : List α} {fields : List (List α × List α)}

theorem space_of_head? (hK : K.Standard) : ∀ c ∈ (fields.flatMap fun f =>
    [unit ' '] ++ f.1 ++ [unit '='] ++ quote needsQuote f.2).head?, K.space c = true := by
  cases fields with
  | nil => exact fun c hc => nomatch hc
  | cons f fields =>
      rintro c ⟨⟩
      exact hK.space

theorem readPairs_fields (hK : K.Standard)
    (hfields : ∀ f ∈ fields, isIdentifier f.1 = true ∧ Reads K f.2 (quote needsQuote f.2)) :
    readPairs K (fields.flatMap fun f => [unit ' '] ++ f.1 ++ [unit '='] ++ quote needsQuote f.2) =
      fields := by
  induction fields with
  | nil => exact readPairs_nil
  | cons f fields ih =>
      obtain ⟨hk, hread⟩ := hfields f List.mem_cons_self
      have hrest := ih fun f' hf' => hfields f' (List.mem_cons_of_mem f hf')
      rw [List.flatMap_cons, List.append_assoc, List.append_assoc, List.append_assoc,
        List.singleton_append, readPairs_space, ← List.append_assoc, ← List.append_assoc,
        readPairs_cons hK hk hread (space_of_head? hK), hrest]

theorem exists_of_isEventName (h : isEventName name = true) : ∃ d e, name = d ++ unit '.' :: e ∧
    isIdentifier d = true ∧ isIdentifier e = true ∧
      name.takeWhile (fun c => c ≠ unit '.') = d := by
  have hsplit := List.takeWhile_append_dropWhile (p := fun c : α => c ≠ unit '.') (l := name)
  unfold isEventName at h
  cases hdrop : name.dropWhile (fun c => c ≠ unit '.') with
  | nil =>
      rw [hdrop] at h
      exact nomatch h
  | cons c e =>
      rw [hdrop] at h hsplit
      have hdot : c = unit '.' := by
        have hhead := List.head?_dropWhile_not (fun c : α => c ≠ unit '.') name
        rw [hdrop] at hhead
        simpa using hhead
      obtain ⟨hd, he⟩ := Bool.and_eq_true_iff.mp h
      rw [hdot] at hsplit
      exact ⟨_, e, hsplit.symm, hd, he, rfl⟩

theorem code_of_isEventName (h : isEventName name = true) :
    ∀ c ∈ name, 46 ≤ code c ∧ code c ≤ 122 := by
  obtain ⟨d, e, rfl, hd, he, -⟩ := exists_of_isEventName h
  intro c hc
  rcases List.mem_append.mp hc with hc | hc
  · have := code_of_isIdentifier hd c hc
    omega
  · rcases List.mem_cons.mp hc with rfl | hc
    · rw [code_unit '.' (by decide)]
      decide
    · have := code_of_isIdentifier he c hc
      omega

theorem reads_name (hK : K.Standard) (h : isEventName name = true) : Reads K name name := by
  have hcode := code_of_isEventName h
  refine .bare ?_ ?_
  · intro hq
    have hmark := (hcode quoteMark (List.mem_of_head? hq)).1
    rw [quoteMark, code_unit _ (by decide)] at hmark
    exact absurd hmark (by decide)
  · intro c hc
    have := hcode c hc
    exact hK.visible c (by omega) (by omega)

theorem readPairs_line (hK : K.Standard) (hname : isEventName name = true)
    (hfields : ∀ f ∈ fields, isIdentifier f.1 = true ∧ Reads K f.2 (quote needsQuote f.2)) :
    readPairs K (line needsQuote name fields) = (lit "evt", name) :: fields := by
  have hevt : isIdentifier (lit "evt" : List α) = true := by
    simp [lit, isIdentifier, isLower, code_unit]
  have hsplit : (lit "evt=" : List α) = lit "evt" ++ [unit '='] := rfl
  rw [line, hsplit, readPairs_cons hK hevt (reads_name hK hname) (space_of_head? hK),
    readPairs_fields hK hfields]

theorem isEventName_append {d e : List α} (hd : isIdentifier d = true)
    (he : isIdentifier e = true) : isEventName (d ++ unit '.' :: e) = true := by
  have hdot : ∀ c ∈ d, decide (c ≠ unit '.') = true := by
    rintro c hc
    have hcode := code_of_isIdentifier hd c hc
    refine decide_eq_true ?_
    rintro rfl
    rw [code_unit '.' (by decide)] at hcode
    exact absurd hcode.1 (by decide)
  rw [isEventName, List.dropWhile_append_of_pos hdot, List.takeWhile_append_of_pos hdot,
    List.dropWhile_cons_of_neg (by simp), List.takeWhile_cons_of_neg (by simp), List.append_nil]
  exact Bool.and_eq_true_iff.mpr ⟨hd, he⟩

end

/-! ## The line in other code units -/

section

variable {α : Type} [CodeUnit α]

theorem unit_inj {a b : Char} (ha : a.toNat < 128) (hb : b.toNat < 128) :
    (unit a : α) = unit b ↔ a = b := by
  constructor
  · intro h
    have hcode := congrArg code h
    rw [code_unit a ha, code_unit b hb] at hcode
    exact Char.toNat_inj.mp hcode
  · exact congrArg unit

theorem ascii_of_isIdentifier {k : List Char} (h : isIdentifier k = true) :
    ∀ c ∈ k, c.toNat < 128 := by
  intro c hc
  have : c.toNat ≤ 122 := (code_of_isIdentifier h c hc).2
  omega

variable (E : Encoding α)

theorem isIdentifier_text {k : List Char} (h : isIdentifier k = true) :
    isIdentifier (E.text k) = true := by
  have hascii := ascii_of_isIdentifier h
  rw [E.text_of_ascii hascii]
  cases k with
  | nil => exact nomatch h
  | cons c k =>
      obtain ⟨hc, hall⟩ := isIdentifier_cons.mp h
      have hcode : ∀ x ∈ c :: k, code (unit x : α) = code x := fun x hx =>
        code_unit x (hascii x hx)
      refine isIdentifier_cons.mpr ⟨?_, ?_⟩
      · rwa [isLower, hcode c List.mem_cons_self]
      · intro u hu
        rw [← List.map_cons] at hu
        obtain ⟨x, hx, rfl⟩ := List.mem_map.mp hu
        simpa [isLower, isDigit, isUnderscore, hcode x hx] using hall x hx

theorem text_inj_of_isIdentifier {k k' : List Char} (h : isIdentifier k = true)
    (h' : isIdentifier k' = true) (heq : E.text k = E.text k') : k = k' := by
  have hcodes : ∀ {l : List Char}, isIdentifier l = true →
      (E.text l).map code = l.map Char.toNat := by
    intro l hl
    have hascii := ascii_of_isIdentifier hl
    rw [E.text_of_ascii hascii, List.map_map]
    exact List.map_congr_left fun c hc => code_unit c (hascii c hc)
  have hmap := congrArg (List.map code) heq
  rw [hcodes h, hcodes h'] at hmap
  exact List.map_injective_iff.mpr (fun _ _ => Char.toNat_inj.mp) hmap

theorem text_lit {s : String} (h : s.toList.all (fun c => c.toNat < 128) = true) :
    E.text s.toList = lit s :=
  E.text_of_ascii fun c hc => of_decide_eq_true (List.all_eq_true.mp h c hc)

theorem any_needsQuote_text (v : List Char) :
    (E.text v).any Cpp.needsQuote = v.any Cpp.needsQuote := by
  refine E.any_text (q := fun n => n ∈ [32, 9, 10, 13, 11, 12, 34, 61, 92]) ?_ v
  intro n hn
  refine decide_eq_false fun hmem => ?_
  simp only [List.mem_cons, List.not_mem_nil, or_false] at hmem
  omega

variable [DecidableEq α]

theorem isEventName_text {name : List Char} (h : isEventName name = true) :
    isEventName (E.text name) = true := by
  obtain ⟨d, e, rfl, hd, he, -⟩ := exists_of_isEventName h
  rw [E.text_append, E.text_cons, E.ascii _ (by decide)]
  exact isEventName_append (isIdentifier_text E hd) (isIdentifier_text E he)

theorem text_escape (v : List Char) : E.text (v.flatMap escape) = (E.text v).flatMap escape := by
  have habove : ∀ {β : Type} [CodeUnit β] [DecidableEq β] (u : β), 128 ≤ code u →
      escape u = [u] := by
    intro β _ _ u hu
    have hne : ∀ x : Char, x.toNat < 128 → u ≠ unit x := by
      rintro x hx rfl
      rw [code_unit x hx] at hu
      omega
    simp [escape, backslash, quoteMark, hne]
  refine E.text_flatMap ?_ (fun c => habove c) (fun u => habove u) v
  intro c hc
  have hpair : ∀ a b : Char, a.toNat < 128 → b.toNat < 128 →
      E.text [a, b] = [unit a, unit b] := by
    intro a b ha hb
    rw [E.text_cons, E.text_cons, E.ascii a ha, E.ascii b hb]
    rfl
  have hself : E.text [c] = [unit c] := by
    rw [E.text_cons, E.ascii c hc]
    rfl
  have hiff : ∀ x : Char, x.toNat < 128 → ((unit c : α) = unit x ↔ c = x) := fun x hx =>
    unit_inj hc hx
  have h92 : unit c = (backslash : α) ↔ c = backslash := hiff _ (by decide)
  have h34 : unit c = (quoteMark : α) ↔ c = quoteMark := hiff _ (by decide)
  have h10 : unit c = (unit (Char.ofNat 10) : α) ↔ c = unit (Char.ofNat 10) := hiff _ (by decide)
  have h13 : unit c = (unit (Char.ofNat 13) : α) ↔ c = unit (Char.ofNat 13) := hiff _ (by decide)
  have h9 : unit c = (unit (Char.ofNat 9) : α) ↔ c = unit (Char.ofNat 9) := hiff _ (by decide)
  unfold escape
  by_cases c92 : c = backslash
  · rw [if_pos c92, if_pos (h92.mpr c92)]
    exact hpair _ _ (by decide) (by decide)
  rw [if_neg c92, if_neg (mt h92.mp c92)]
  by_cases c34 : c = quoteMark
  · rw [if_pos c34, if_pos (h34.mpr c34)]
    exact hpair _ _ (by decide) (by decide)
  rw [if_neg c34, if_neg (mt h34.mp c34)]
  by_cases c10 : c = unit (Char.ofNat 10)
  · rw [if_pos c10, if_pos (h10.mpr c10)]
    exact hpair _ _ (by decide) (by decide)
  rw [if_neg c10, if_neg (mt h10.mp c10)]
  by_cases c13 : c = unit (Char.ofNat 13)
  · rw [if_pos c13, if_pos (h13.mpr c13)]
    exact hpair _ _ (by decide) (by decide)
  rw [if_neg c13, if_neg (mt h13.mp c13)]
  by_cases c9 : c = unit (Char.ofNat 9)
  · rw [if_pos c9, if_pos (h9.mpr c9)]
    exact hpair _ _ (by decide) (by decide)
  rw [if_neg c9, if_neg (mt h9.mp c9)]
  exact hself

theorem text_quote (v : List Char) :
    E.text (quote Cpp.needsQuote v) = quote Cpp.needsQuote (E.text v) := by
  have hempty : (E.text v).isEmpty = v.isEmpty := by
    rw [Bool.eq_iff_iff, List.isEmpty_iff, List.isEmpty_iff, E.text_eq_nil_iff]
  have hmark : E.text [quoteMark] = [quoteMark] := by
    rw [E.text_cons, E.ascii _ (by decide)]
    rfl
  unfold quote
  rw [any_needsQuote_text, hempty]
  split_ifs
  · rw [E.text_append, E.text_append, text_escape, hmark]
  · rfl

/-- Keys and values in code units. -/
def textFields (fields : List (List Char × List Char)) : List (List α × List α) :=
  fields.map fun f => (E.text f.1, E.text f.2)

theorem text_line (name : List Char) (fields : List (List Char × List Char)) :
    E.text (line Cpp.needsQuote name fields) =
      line Cpp.needsQuote (E.text name) (textFields E fields) := by
  have hfields : E.text (fields.flatMap fun f =>
      [unit ' '] ++ f.1 ++ [unit '='] ++ quote Cpp.needsQuote f.2) =
      (textFields E fields).flatMap fun f =>
        [unit ' '] ++ f.1 ++ [unit '='] ++ quote Cpp.needsQuote f.2 := by
    induction fields with
    | nil => rfl
    | cons f fields ih =>
        have hcons : textFields E (f :: fields) =
            (E.text f.1, E.text f.2) :: textFields E fields := rfl
        rw [List.flatMap_cons, E.text_append, ih, hcons, List.flatMap_cons]
        have hone : ∀ x : Char, x.toNat < 128 → E.text [x] = [unit x] := by
          intro x hx
          rw [E.text_cons, E.ascii x hx]
          rfl
        rw [E.text_append, E.text_append, E.text_append, text_quote, hone _ (by decide),
          hone _ (by decide)]
        rfl
  have hevt : E.text (lit "evt=") = lit "evt=" := by
    rw [show (lit "evt=" : List Char) = "evt=".toList from rfl, text_lit E (by decide)]
  rw [line, E.text_append, E.text_append, hfields, hevt, line]

end

end MgRobot.EventLog
