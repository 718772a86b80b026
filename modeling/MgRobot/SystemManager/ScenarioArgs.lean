import MgRobot.Scenario.Cli
import MgRobot.SystemManager.Routers

/-!
# The arguments of a scenario run

`build_scenario_args` flattens a request to one text, which the shell splits again and the
scenario CLI parses. What the CLI reads is the request exactly if every argument is one
word and no value looks like an option.
-/

namespace MgRobot.SystemManager.ScenarioTest

set_option autoImplicit false

open MgRobot.Lib MgRobot.Lib.Runs MgRobot.Scenario

/-! ## Words -/

/-- A text that the CLI reads as one value. -/
def IsValue (s : String) : Prop := IsWord isBlank s.toList ∧ isOption s = false

instance (s : String) : Decidable (IsValue s) := inferInstanceAs (Decidable (_ ∧ _))

def NoBlank (s : String) : Prop := ∀ c ∈ s.toList, isBlank c = false

theorem splitWords_intercalate (texts : List String) :
    splitWords (" ".intercalate texts) = texts.flatMap splitWords := by
  have hsep : " ".toList = [' '] := rfl
  rw [splitWords, String.toList_intercalate, hsep, words_intercalate (by decide), List.flatMap_map,
    List.map_flatMap]
  rfl

/-- A text without blanks is one word, or none if it is empty. -/
theorem splitWords_of_noBlank {s : String} (h : NoBlank s) :
    splitWords s = if s = "" then [] else [s] := by
  rw [splitWords, words_of_forall h]
  by_cases hs : s = ""
  · rw [if_pos hs, if_pos (by rw [hs]; rfl), List.map_nil]
  · have hnil : s.toList ≠ [] := fun hnil => hs (String.toList_inj.mp (hnil.trans rfl))
    rw [if_neg hs, if_neg hnil, List.map_singleton, String.ofList_toList]

theorem splitWords_of_isWord {s : String} (h : IsWord isBlank s.toList) : splitWords s = [s] := by
  rw [splitWords, h.words_eq, List.map_singleton, String.ofList_toList]

theorem noBlank_of_mem_splitWords {text word : String} (h : word ∈ splitWords text) :
    NoBlank word := by
  obtain ⟨w, hw, rfl⟩ := List.mem_map.mp h
  intro c hc
  rw [String.toList_ofList] at hc
  exact (isWord_of_mem hw).2 c hc

/-! ## What the parser can have read -/

/-- Arguments whose texts have no blanks and whose files are no options. -/
structure Plain (args : RunArgs) : Prop where
  files : ∀ file ∈ args.files, isOption file = false ∧ NoBlank file
  scenarioDir : ∀ dir ∈ args.scenarioDir, NoBlank dir
  resultsDir : NoBlank args.resultsDir
  remoteStack : NoBlank args.remoteStack

section Reading

variable {isFloat : String → Bool} {args args' : RunArgs} {value word : String} {o : RunOption}

theorem Plain.setFlag (h : Plain args) (hs : args.setFlag o = some args') : Plain args' := by
  cases o with
  | gui | attach =>
      obtain rfl := Option.some.inj hs
      exact ⟨h.files, h.scenarioDir, h.resultsDir, h.remoteStack⟩
  | _ => cases hs

theorem Plain.setValue (h : Plain args) (hvalue : NoBlank value)
    (hs : args.setValue isFloat value o = some args') : Plain args' := by
  have hsame : ∀ {a : RunArgs}, a.files = args.files → a.scenarioDir = args.scenarioDir →
      a.resultsDir = args.resultsDir → a.remoteStack = args.remoteStack → Plain a := by
    intro a h1 h2 h3 h4
    exact ⟨h1 ▸ h.files, h2 ▸ h.scenarioDir, h3 ▸ h.resultsDir, h4 ▸ h.remoteStack⟩
  cases o with
  | help | gui | attach => cases hs
  | scenarioDir =>
      obtain rfl := Option.some.inj hs
      refine ⟨h.files, fun dir hdir => ?_, h.resultsDir, h.remoteStack⟩
      rcases List.mem_append.mp hdir with hdir | hdir
      · exact h.scenarioDir dir hdir
      · rwa [List.mem_singleton.mp hdir]
  | resultsDir =>
      obtain rfl := Option.some.inj hs
      exact ⟨h.files, h.scenarioDir, hvalue, h.remoteStack⟩
  | remoteStack =>
      obtain rfl := Option.some.inj hs
      exact ⟨h.files, h.scenarioDir, h.resultsDir, hvalue⟩
  | profile | tags | excludeTags =>
      obtain rfl := Option.some.inj hs
      exact hsame rfl rfl rfl rfl
  | timeout =>
      rw [RunArgs.setValue, Option.ite_none_right_eq_some] at hs
      obtain ⟨-, hs⟩ := hs
      obtain rfl := Option.some.inj hs
      exact hsame rfl rfl rfl rfl
  | repeats | infraRetries | seed =>
      obtain ⟨n, -, rfl⟩ := Option.map_eq_some_iff.mp hs
      exact hsame rfl rfl rfl rfl

/-- The value after `=` is a part of the word. -/
theorem noBlank_of_splitOption (hword : NoBlank word) (h : splitOption word = some (o, some value)) :
    NoBlank value := by
  unfold splitOption at h
  split at h
  next =>
    obtain ⟨o', -, heq⟩ := Option.map_eq_some_iff.mp h
    cases (Prod.mk.inj heq).2
  next c rest hdrop =>
    obtain ⟨o', -, heq⟩ := Option.map_eq_some_iff.mp h
    obtain rfl := Option.some.inj (Prod.mk.inj heq).2
    intro c hc
    rw [String.toList_ofList] at hc
    refine hword c ((List.dropWhile_suffix fun c => c ≠ '=').subset ?_)
    rw [hdrop]
    exact List.mem_cons_of_mem _ hc

theorem Plain.onWord {p p' : Parser} (h : Plain p.args) (hword : NoBlank word)
    (hs : p.onWord isFloat word = some p') : Plain p'.args := by
  unfold Parser.onWord at hs
  split_ifs at hs with hoption
  · unfold Parser.onOption at hs
    split_ifs at hs
    dsimp only at hs
    split at hs
    next => cases hs
    next o value hsplit =>
      split_ifs at hs
      obtain ⟨args, hargs, rfl⟩ := Option.map_eq_some_iff.mp hs
      exact h.setValue (noBlank_of_splitOption hword hsplit) hargs
    next o hsplit =>
      split_ifs at hs
      · obtain rfl := Option.some.inj hs
        exact h
      · obtain ⟨args, hargs, rfl⟩ := Option.map_eq_some_iff.mp hs
        exact h.setFlag hargs
  · unfold Parser.onPositional at hs
    split at hs
    next o hpending =>
      obtain ⟨args, hargs, rfl⟩ := Option.map_eq_some_iff.mp hs
      exact h.setValue hword hargs
    next =>
      split_ifs at hs
      obtain rfl := Option.some.inj hs
      refine ⟨fun file hfile => ?_, h.scenarioDir, h.resultsDir, h.remoteStack⟩
      rcases List.mem_append.mp hfile with hfile | hfile
      · exact h.files file hfile
      · rw [List.mem_singleton.mp hfile]
        exact ⟨by simpa using hoption, hword⟩

/-- What is read from words without blanks is plain. -/
theorem plain_of_parseArgs {ws : List String} (hws : ∀ word ∈ ws, NoBlank word)
    (h : parseArgs isFloat ws = some args) : Plain args := by
  cases ws with
  | nil => cases h
  | cons command rest =>
      rw [parseArgs, Option.ite_none_right_eq_some] at h
      obtain ⟨p, hrun, hfinish⟩ := Option.bind_eq_some_iff.mp h.2
      have hplain : Plain p.args := by
        refine invariant_of_mem (I := fun p : Parser => Plain p.args) ?_ ?_ hrun
        · intro p word p' hmem hp hstep
          exact hp.onWord (hws word (List.mem_cons_of_mem command hmem)) hstep
        · exact ⟨nofun, nofun, nofun, nofun⟩
      rw [Parser.finish, Option.ite_none_right_eq_some] at hfinish
      obtain rfl := Option.some.inj hfinish.2
      exact hplain

/-! ## Reading in blocks -/

/-- The words `block` turn `args` into `args'`, after the first positional word. -/
def Reads (isFloat : String → Bool) (block : List String) (args args' : RunArgs) : Prop :=
  ∀ pos, pos ≠ .awaited → ∃ pos', pos' ≠ .awaited ∧
    exec (Parser.onWord isFloat) ⟨args, pos, none⟩ block = some ⟨args', pos', none⟩

theorem reads_nil : Reads isFloat [] args args := fun pos hpos => ⟨pos, hpos, rfl⟩

theorem Reads.append {ws ws' : List String} {args'' : RunArgs} (h : Reads isFloat ws args args')
    (h' : Reads isFloat ws' args' args'') : Reads isFloat (ws ++ ws') args args'' := by
  intro pos hpos
  obtain ⟨pos', hpos', hrun⟩ := h pos hpos
  obtain ⟨pos'', hpos'', hrun'⟩ := h' pos' hpos'
  exact ⟨pos'', hpos'', exec_append hrun hrun'⟩

theorem afterOption_ne {pos : Positionals} (h : pos ≠ .awaited) : pos.afterOption ≠ .awaited := by
  cases pos with
  | awaited => exact absurd rfl h
  | taking | taken => nofun

/-- An option that takes a value waits for it. -/
theorem onWord_option (hword : isOption word = true) (hsplit : splitOption word = some (o, none))
    (ho : o.takesValue = true) (pos : Positionals) :
    Parser.onWord isFloat ⟨args, pos, none⟩ word = some ⟨args, pos.afterOption, some o⟩ := by
  simp [Parser.onWord, hword, Parser.onOption, hsplit, ho]

theorem onWord_value (hvalue : isOption value = false) (pos : Positionals) :
    Parser.onWord isFloat ⟨args, pos, some o⟩ value =
      (args.setValue isFloat value o).map fun args => ⟨args, pos, none⟩ := by
  simp [Parser.onWord, hvalue, Parser.onPositional]

theorem reads_value (hword : isOption word = true) (hsplit : splitOption word = some (o, none))
    (ho : o.takesValue = true) (hvalue : isOption value = false)
    (hset : args.setValue isFloat value o = some args') :
    Reads isFloat [word, value] args args' := by
  intro pos hpos
  refine ⟨pos.afterOption, afterOption_ne hpos, ?_⟩
  exact exec_cons_iff.mpr ⟨_, onWord_option hword hsplit ho pos,
    exec_single (by rw [onWord_value hvalue, hset]; rfl)⟩

theorem reads_flag (hword : isOption word = true) (hsplit : splitOption word = some (o, none))
    (ho : o.takesValue = false) (hset : args.setFlag o = some args') :
    Reads isFloat [word] args args' := by
  intro pos hpos
  refine ⟨pos.afterOption, afterOption_ne hpos, exec_single ?_⟩
  simp [Parser.onWord, hword, Parser.onOption, hsplit, ho, hset]

/-- The files of a run are read if none is an option. -/
theorem exec_files {names : List String} (h : ∀ name ∈ names, isOption name = false)
    {pos : Positionals} (hpos : pos ≠ .taken) :
    exec (Parser.onWord isFloat) ⟨args, pos, none⟩ names =
      some ⟨{ args with files := args.files ++ names },
        if names = [] then pos else .taking, none⟩ := by
  induction names generalizing args pos with
  | nil => simp
  | cons name names ih =>
      have hname := h name List.mem_cons_self
      refine exec_cons_iff.mpr ⟨⟨{ args with files := args.files ++ [name] }, .taking, none⟩, ?_, ?_⟩
      · simp [Parser.onWord, hname, Parser.onPositional, hpos]
      · have hpos' : Positionals.taking ≠ .taken := by decide
        rw [ih (fun n hn => h n (List.mem_cons_of_mem name hn)) hpos']
        simp

/-- Words after which a pending option has no value. -/
def OptionFirst (ws : List String) : Prop := ∀ word ∈ ws.head?, isOption word = true

/-- An option that got its value got it from one word. -/
theorem isValue_of_exec {rest : List String} {pos : Positionals} {p : Parser}
    (hvalue : NoBlank value) (hrest : OptionFirst rest)
    (hrun : exec (Parser.onWord isFloat) ⟨args, pos, some o⟩ (splitWords value ++ rest) = some p)
    (hp : p.pending = none) : IsValue value := by
  have hpending : ∀ {w : String} {t : Parser}, isOption w = true →
      Parser.onWord isFloat ⟨args, pos, some o⟩ w ≠ some t := by
    intro w t hw
    simp [Parser.onWord, hw, Parser.onOption]
  rw [splitWords_of_noBlank hvalue] at hrun
  split_ifs at hrun with hempty
  · cases rest with
    | nil =>
        obtain rfl := Option.some.inj hrun
        cases hp
    | cons w rest =>
        obtain ⟨t, ht, -⟩ := exec_cons_iff.mp hrun
        exact absurd ht (hpending (hrest w rfl))
  · obtain ⟨t, ht, -⟩ := exec_cons_iff.mp hrun
    refine ⟨⟨fun hnil => hempty (String.toList_inj.mp (hnil.trans rfl)), hvalue⟩, ?_⟩
    by_contra hoption
    exact hpending (by simpa using hoption) ht

end Reading

/-! ## The words of a request -/

/-- What `$` of the patterns lets through is a line feed at the end. -/
theorem mem_of_reMatch {first rest : Char → Bool} {s : String} (h : reMatch first rest s = true) :
    s ≠ "" ∧ ∀ c ∈ s.toList, c = '\n' ∨ first c = true ∨ rest c = true := by
  have hbody : ∀ {cs : List Char} {c : Char}, (first c && cs.all rest) = true →
      ∀ d ∈ c :: cs, first d = true ∨ rest d = true := by
    intro cs c hcs d hd
    obtain ⟨hc, hcs⟩ := (Bool.and_eq_true _ _).mp hcs
    rcases List.mem_cons.mp hd with rfl | hd
    · exact .inl hc
    · exact .inr (List.all_eq_true.mp hcs d hd)
  have hne : s.toList ≠ [] → s ≠ "" := fun hne hs => hne (by rw [hs]; rfl)
  obtain ⟨hnil, hall⟩ : (if s.toList.getLast? = some '\n' then s.toList.dropLast else s.toList) ≠ [] ∧
      ∀ c ∈ if s.toList.getLast? = some '\n' then s.toList.dropLast else s.toList,
        first c = true ∨ rest c = true := by
    unfold reMatch at h
    dsimp only at h
    split at h
    · cases h
    · rename_i c cs hchars
      rw [hchars]
      exact ⟨List.cons_ne_nil c cs, hbody h⟩
  split_ifs at hnil hall with hlast
  · refine ⟨hne fun heq => hnil (by rw [heq]; rfl), fun c hc => ?_⟩
    rw [← List.dropLast_append_getLast? '\n' hlast] at hc
    rcases List.mem_append.mp hc with hc | hc
    · exact .inr (hall c hc)
    · exact .inl (List.mem_singleton.mp hc)
  · exact ⟨hne hnil, fun c hc => .inr (hall c hc)⟩

theorem eq_of_isBlank {c : Char} (h : isBlank c = true) : c = ' ' ∨ c = '\t' ∨ c = '\n' := by
  simpa [isBlank, or_assoc] using h

theorem isWord_of_reMatch {first rest : Char → Bool} {s : String}
    (hchars : ∀ c, isBlank c = true → first c = false ∧ rest c = false)
    (h : reMatch first rest s = true) (hnl : '\n' ∉ s.toList) : IsWord isBlank s.toList := by
  obtain ⟨hne, hmem⟩ := mem_of_reMatch h
  refine ⟨fun hnil => hne (String.toList_inj.mp (hnil.trans rfl)), fun c hc => ?_⟩
  by_contra hblank
  obtain ⟨hfirst, hrest⟩ := hchars c (by simpa using hblank)
  rcases hmem c hc with rfl | hc' | hc'
  · exact hnl hc
  · exact Bool.false_ne_true (hfirst.symm.trans hc')
  · exact Bool.false_ne_true (hrest.symm.trans hc')

theorem isWord_of_scenarioName {name : String} (h : SCENARIO_NAME_RE name = true)
    (hnl : '\n' ∉ name.toList) : IsWord isBlank name.toList := by
  refine isWord_of_reMatch (fun c hc => ?_) h hnl
  rcases eq_of_isBlank hc with rfl | rfl | rfl <;> decide

theorem isWord_of_host {robot : String} (h : HOST_RE robot = true) (hnl : '\n' ∉ robot.toList) :
    IsWord isBlank robot.toList := by
  refine isWord_of_reMatch (fun c hc => ?_) h hnl
  rcases eq_of_isBlank hc with rfl | rfl | rfl <;> decide

/-- `str` of a count is one word, and `int` reads it back. -/
theorem isValue_toString (n : Nat) :
    IsValue (toString (n : Int)) ∧ pyInt (toString (n : Int)) = some (n : Int) := by
  have hlist : (toString (n : Int)).toList = Nat.toDigits 10 n := by
    rw [Int.toString_eq_repr, Int.repr_eq_if]
    simp [Nat.repr]
  have hint : (toString (n : Int)).toInt? = some (n : Int) := by
    rw [Int.toString_eq_repr, Int.toInt?_repr]
  have hdigit : ∀ c ∈ (toString (n : Int)).toList, c.isDigit = true := by
    intro c hc
    rw [hlist] at hc
    exact Nat.isDigit_of_mem_toDigits (by decide) (by decide) hc
  cases heq : (toString (n : Int)).toList with
  | nil => exact absurd (hlist.symm.trans heq) Nat.toDigits_ne_nil
  | cons c cs =>
      have hc : c.isDigit = true := hdigit c (by rw [heq]; exact List.mem_cons_self)
      refine ⟨⟨⟨by rw [heq]; exact List.cons_ne_nil c cs, fun d hd => ?_⟩, ?_⟩, ?_⟩
      · by_contra hblank
        have hd' := hdigit d hd
        rcases eq_of_isBlank (by simpa using hblank) with rfl | rfl | rfl <;>
          exact absurd hd' (by decide)
      · have hne : c ≠ '-' := by
          rintro rfl
          exact absurd hc (by decide)
        rw [isOption, heq]
        simpa using hne
      · unfold pyInt
        split
        next digits hplus =>
          rw [heq] at hplus
          obtain rfl := (List.cons.inj hplus).1
          exact absurd hc (by decide)
        next => exact hint

/-! ## The request -/

/-- The text of `SCENARIO_ARGS`. -/
def scenarioArgs (body : ScenarioTestStartRequest) (settings : Settings) (resultsDir : String) :
    String :=
  " ".intercalate (buildScenarioArgs body settings resultsDir)

/-- What the CLI is to read for a request. -/
def requested (body : ScenarioTestStartRequest) (settings : Settings) (resultsDir : String) :
    RunArgs where
  command := "run-all"
  files := body.scenarios
  scenarioDir := settings.scenarioDirs
  gui := body.gui && !body.attach
  attach := body.attach
  remoteStack := if body.robot = "" then "" else "http://" ++ body.robot ++ ":8001"
  resultsDir := resultsDir
  repeats := body.repeats

def ParsesBack (isFloat : String → Bool) (body : ScenarioTestStartRequest) (settings : Settings)
    (resultsDir : String) : Prop :=
  parseArgs isFloat (splitWords (scenarioArgs body settings resultsDir)) =
    some (requested body settings resultsDir)

/-- What the validation of a start request accepts. -/
structure Accepted (body : ScenarioTestStartRequest) : Prop where
  scenarios : body.scenarios ≠ [] ∧ ∀ name ∈ body.scenarios, SCENARIO_NAME_RE name = true
  repeats : 1 ≤ body.repeats
  robot : body.robot ≠ "" → HOST_RE body.robot = true

theorem accepted_of_validateStart {body : ScenarioTestStartRequest} (h : validateStart body = none) :
    Accepted body := by
  unfold validateStart at h
  cases hnames : body.scenarios.find? fun name => !SCENARIO_NAME_RE name with
  | some name =>
      rw [hnames] at h
      split_ifs at h
  | none =>
      rw [hnames] at h
      split_ifs at h with hempty hmany hrepeats hrobot hattach
      refine ⟨⟨by simpa using hempty, by simpa using hnames⟩, hrepeats.1, fun hne => ?_⟩
      by_contra hhost
      exact hrobot ⟨hne, by simpa using hhost⟩

/-! ## Its words -/

def directoryWords (dirs : List String) : List String :=
  dirs.flatMap fun d => "--scenario-dir" :: splitWords d

/-- The options after the directories. -/
def optionWords (body : ScenarioTestStartRequest) : List String :=
  (if 1 < body.repeats then ["--repeat", toString body.repeats] else []) ++
    (if body.attach then ["--attach"] else if body.gui then ["--gui"] else []) ++
    (if body.robot ≠ "" then ["--remote-stack", "http://" ++ body.robot ++ ":8001"] else [])

theorem flatMap_splitWords {ws : List String} (h : ∀ w ∈ ws, IsWord isBlank w.toList) :
    ws.flatMap splitWords = ws := by
  induction ws with
  | nil => rfl
  | cons w ws ih =>
      rw [List.flatMap_cons, splitWords_of_isWord (h w List.mem_cons_self),
        ih fun v hv => h v (List.mem_cons_of_mem w hv), List.singleton_append]

section Request

variable {body : ScenarioTestStartRequest} {settings : Settings} {resultsDir : String}
  {isFloat : String → Bool}

theorem isWord_of_mem_optionWords (hbody : Accepted body) (hrobot : '\n' ∉ body.robot.toList)
    {word : String} (h : word ∈ optionWords body) : IsWord isBlank word.toList := by
  unfold optionWords at h
  rcases List.mem_append.mp h with h | h
  · rcases List.mem_append.mp h with h | h
    · split_ifs at h with hrepeats
      · rcases List.mem_cons.mp h with rfl | h
        · decide
        · obtain ⟨n, hn⟩ := Int.eq_ofNat_of_zero_le (by omega : 0 ≤ body.repeats)
          rw [List.mem_singleton.mp h, hn]
          exact (isValue_toString n).1.1
      · cases h
    · split_ifs at h
      · rw [List.mem_singleton.mp h]
        decide
      · rw [List.mem_singleton.mp h]
        decide
      · cases h
  · split_ifs at h with hne
    · rcases List.mem_cons.mp h with rfl | h
      · decide
      · obtain ⟨-, hchars⟩ := isWord_of_host (hbody.robot hne) hrobot
        rw [List.mem_singleton.mp h, String.toList_append, String.toList_append]
        refine ⟨by simp, fun c hc => ?_⟩
        rcases List.mem_append.mp hc with hc | hc
        · rcases List.mem_append.mp hc with hc | hc
          · exact (by simp [isBlank] : ∀ c ∈ "http://".toList, isBlank c = false) c hc
          · exact hchars c hc
        · exact (by simp [isBlank] : ∀ c ∈ ":8001".toList, isBlank c = false) c hc
    · cases h

/-- The words of the text, if the names and the address are words. -/
theorem splitWords_scenarioArgs (hbody : Accepted body)
    (hnames : ∀ name ∈ body.scenarios, '\n' ∉ name.toList) (hrobot : '\n' ∉ body.robot.toList) :
    splitWords (scenarioArgs body settings resultsDir) =
      "run-all" :: (body.scenarios ++ (directoryWords settings.scenarioDirs ++
        "--results-dir" :: (splitWords resultsDir ++ optionWords body))) := by
  have hscenarios : body.scenarios.flatMap splitWords = body.scenarios :=
    flatMap_splitWords fun name hname =>
      isWord_of_scenarioName (hbody.scenarios.2 name hname) (hnames name hname)
  have hoptions : (optionWords body).flatMap splitWords = optionWords body :=
    flatMap_splitWords fun word hword => isWord_of_mem_optionWords hbody hrobot hword
  have hkey : ∀ w ∈ ["run-all", "--scenario-dir", "--results-dir"], splitWords w = [w] := by
    intro w hw
    refine splitWords_of_isWord ?_
    revert w
    decide
  have hdirs : (settings.scenarioDirs.flatMap fun d => ["--scenario-dir", d]).flatMap splitWords =
      directoryWords settings.scenarioDirs := by
    rw [List.flatMap_assoc, directoryWords]
    congr 1
    funext d
    rw [List.flatMap_cons, hkey _ (by decide), List.flatMap_singleton, List.singleton_append]
  have hbuild : buildScenarioArgs body settings resultsDir =
      ["run-all"] ++ (body.scenarios ++
        ((settings.scenarioDirs.flatMap fun d => ["--scenario-dir", d]) ++
          (["--results-dir", resultsDir] ++ optionWords body))) := by
    simp only [buildScenarioArgs, optionWords, List.append_assoc]
  rw [scenarioArgs, splitWords_intercalate, hbuild, List.flatMap_append, List.flatMap_append,
    List.flatMap_append, List.flatMap_append, hscenarios, hdirs, hoptions, List.flatMap_singleton,
    hkey _ (by decide), List.flatMap_cons, List.flatMap_singleton, hkey _ (by decide),
    List.singleton_append, List.singleton_append, List.cons_append]

/-! ## The words read back -/

theorem reads_directories {dirs : List String} (h : ∀ d ∈ dirs, IsValue d) (args : RunArgs) :
    Reads isFloat (directoryWords dirs) args
      { args with scenarioDir := args.scenarioDir ++ dirs } := by
  induction dirs generalizing args with
  | nil => simpa [directoryWords] using reads_nil
  | cons d dirs ih =>
      have hd := h d List.mem_cons_self
      have hhead : Reads isFloat ["--scenario-dir", d] args
          { args with scenarioDir := args.scenarioDir ++ [d] } :=
        reads_value (o := .scenarioDir) (by decide) (by decide) rfl hd.2 rfl
      have htail := ih (fun d' hd' => h d' (List.mem_cons_of_mem d hd'))
        { args with scenarioDir := args.scenarioDir ++ [d] }
      rw [directoryWords, List.flatMap_cons, splitWords_of_isWord hd.1, ← directoryWords]
      simpa only [List.append_assoc, List.singleton_append] using hhead.append htail

/-- Each directory that was read is a value. -/
theorem isValue_of_exec_directories {dirs rest : List String} {args : RunArgs} {pos : Positionals}
    {p : Parser} (hblank : ∀ d ∈ dirs, NoBlank d) (hrest : OptionFirst rest)
    (hrun : exec (Parser.onWord isFloat) ⟨args, pos, none⟩ (directoryWords dirs ++ rest) = some p)
    (hp : p.pending = none) : ∀ d ∈ dirs, IsValue d := by
  induction dirs generalizing args pos with
  | nil => exact nofun
  | cons d dirs ih =>
      have hrest' : OptionFirst (directoryWords dirs ++ rest) := by
        cases dirs with
        | nil => exact hrest
        | cons d' dirs =>
            intro w hw
            obtain rfl := Option.some.inj hw
            decide
      rw [directoryWords, List.flatMap_cons, List.append_assoc, List.cons_append,
        exec_cons_iff] at hrun
      obtain ⟨t, ht, hrun⟩ := hrun
      rw [onWord_option (o := .scenarioDir) (by decide) (by decide) rfl] at ht
      obtain rfl := Option.some.inj ht
      have hd := isValue_of_exec (hblank d List.mem_cons_self) hrest' hrun hp
      rw [splitWords_of_isWord hd.1, List.singleton_append, exec_cons_iff] at hrun
      obtain ⟨t, ht, hrun⟩ := hrun
      rw [onWord_value hd.2] at ht
      obtain rfl := Option.some.inj ht
      intro d' hd'
      rcases List.mem_cons.mp hd' with rfl | hd'
      · exact hd
      · exact ih (fun e he => hblank e (List.mem_cons_of_mem d he)) hrun d' hd'

theorem reads_repeats (hbody : Accepted body) {args : RunArgs} (h : args.repeats = 1) :
    Reads isFloat (if 1 < body.repeats then ["--repeat", toString body.repeats] else []) args
      { args with repeats := body.repeats } := by
  have hpos := hbody.repeats
  obtain ⟨n, hn⟩ := Int.eq_ofNat_of_zero_le (by omega : 0 ≤ body.repeats)
  obtain ⟨hvalue, hint⟩ := isValue_toString n
  rw [← hn] at hvalue hint
  split_ifs with hmany
  · exact reads_value (o := .repeats) (by decide) (by decide) rfl hvalue.2
      (by rw [RunArgs.setValue, hint]; rfl)
  · have hone : body.repeats = args.repeats := by omega
    rw [hone]
    exact reads_nil

/-- A simulator that is already running has its own display. -/
theorem reads_attach {args : RunArgs} (hgui : args.gui = false) (hattach : args.attach = false) :
    Reads isFloat (if body.attach then ["--attach"] else if body.gui then ["--gui"] else []) args
      { args with gui := body.gui && !body.attach, attach := body.attach } := by
  cases h : body.attach with
  | true =>
      rw [if_pos rfl, Bool.not_true, Bool.and_false, ← hgui]
      exact reads_flag (o := .attach) (by decide) (by decide) rfl rfl
  | false =>
      rw [if_neg Bool.false_ne_true, Bool.not_false, Bool.and_true, ← hattach]
      cases h' : body.gui with
      | true =>
          rw [if_pos rfl]
          exact reads_flag (o := .gui) (by decide) (by decide) rfl rfl
      | false =>
          rw [if_neg Bool.false_ne_true, ← hgui]
          exact reads_nil

theorem reads_remoteStack {args : RunArgs} (hremote : args.remoteStack = "") :
    Reads isFloat
      (if body.robot ≠ "" then ["--remote-stack", "http://" ++ body.robot ++ ":8001"] else []) args
      { args with remoteStack := if body.robot = "" then "" else
        "http://" ++ body.robot ++ ":8001" } := by
  by_cases h : body.robot = ""
  · rw [if_neg (not_not.mpr h), if_pos h, ← hremote]
    exact reads_nil
  · rw [if_pos h, if_neg h]
    have hoption : isOption ("http://" ++ body.robot ++ ":8001") = false := by
      simp [isOption, String.toList_append]
    exact reads_value (o := .remoteStack) (by decide) (by decide) rfl hoption rfl

theorem reads_options (hbody : Accepted body) {args : RunArgs} (hrepeats : args.repeats = 1)
    (hgui : args.gui = false) (hattach : args.attach = false) (hremote : args.remoteStack = "") :
    Reads isFloat (optionWords body) args { args with
      repeats := body.repeats
      gui := body.gui && !body.attach
      attach := body.attach
      remoteStack := if body.robot = "" then "" else "http://" ++ body.robot ++ ":8001" } :=
  ((reads_repeats hbody hrepeats).append (reads_attach hgui hattach)).append
    (reads_remoteStack hremote)

theorem parsesBack_of_values (hbody : Accepted body)
    (hnames : ∀ name ∈ body.scenarios, isOption name = false ∧ '\n' ∉ name.toList)
    (hrobot : '\n' ∉ body.robot.toList)
    (hdirs : ∀ d ∈ settings.scenarioDirs ++ [resultsDir], IsValue d) :
    ParsesBack isFloat body settings resultsDir := by
  have hresults : IsValue resultsDir := hdirs _ (List.mem_append_right _ (List.mem_singleton.mpr rfl))
  have hrest : Reads isFloat
      (directoryWords settings.scenarioDirs ++ (["--results-dir", resultsDir] ++ optionWords body))
      { command := "run-all", files := body.scenarios } (requested body settings resultsDir) :=
    (reads_directories (fun d hd => hdirs d (List.mem_append_left _ hd)) _).append
      ((reads_value (o := .resultsDir) (by decide) (by decide) rfl hresults.2 rfl).append
        (reads_options hbody rfl rfl rfl rfl))
  obtain ⟨pos, hpos, hrun⟩ := hrest .taking (by decide)
  have hfiles : exec (Parser.onWord isFloat) ⟨{ command := "run-all" }, .awaited, none⟩
      body.scenarios = some ⟨{ command := "run-all", files := body.scenarios }, .taking, none⟩ := by
    rw [exec_files (fun name hname => (hnames name hname).1) (by decide), if_neg hbody.scenarios.1,
      List.nil_append]
  rw [ParsesBack, splitWords_scenarioArgs hbody (fun name hname => (hnames name hname).2) hrobot,
    splitWords_of_isWord hresults.1, parseArgs, if_pos (.inr rfl), List.singleton_append]
  have hall := exec_append hfiles hrun
  rw [List.cons_append, List.singleton_append] at hall
  rw [hall, Option.bind_some, Parser.finish, if_pos ⟨rfl, hpos⟩]

theorem plain_of_parsesBack (h : ParsesBack isFloat body settings resultsDir) :
    Plain (requested body settings resultsDir) :=
  plain_of_parseArgs (fun _ hword => noBlank_of_mem_splitWords hword) h

theorem NoBlank.not_mem {s : String} (h : NoBlank s) : '\n' ∉ s.toList := by
  intro hmem
  exact absurd (h _ hmem) (by decide)

theorem names_of_parsesBack (h : ParsesBack isFloat body settings resultsDir) :
    ∀ name ∈ body.scenarios, isOption name = false ∧ '\n' ∉ name.toList := by
  intro name hname
  obtain ⟨hoption, hblank⟩ := (plain_of_parsesBack h).files name hname
  exact ⟨hoption, hblank.not_mem⟩

theorem robot_of_parsesBack (h : ParsesBack isFloat body settings resultsDir) :
    '\n' ∉ body.robot.toList := by
  by_cases hne : body.robot = ""
  · rw [hne]
    decide
  · have hremote := (plain_of_parsesBack h).remoteStack.not_mem
    rw [requested, if_neg hne, String.toList_append, String.toList_append] at hremote
    exact fun hmem => hremote (List.mem_append_left _ (List.mem_append_right _ hmem))

theorem optionFirst_optionWords (body : ScenarioTestStartRequest) :
    OptionFirst (optionWords body) := by
  unfold optionWords
  split_ifs <;> intro w hw <;> cases hw <;> decide

/-- Every directory was read as the value of its option. -/
theorem directories_of_parsesBack (hbody : Accepted body)
    (h : ParsesBack isFloat body settings resultsDir) :
    ∀ d ∈ settings.scenarioDirs ++ [resultsDir], IsValue d := by
  have hplain := plain_of_parsesBack h
  have hnames := names_of_parsesBack h
  have hrobot := robot_of_parsesBack h
  rw [ParsesBack, splitWords_scenarioArgs hbody (fun name hname => (hnames name hname).2) hrobot,
    parseArgs, if_pos (.inr rfl)] at h
  obtain ⟨p, hrun, hfinish⟩ := Option.bind_eq_some_iff.mp h
  rw [Parser.finish, Option.ite_none_right_eq_some] at hfinish
  have hpending := hfinish.1.1
  -- The files have been read, the directories come next.
  obtain ⟨q, hq, hrun⟩ := exec_append_iff.mp hrun
  rw [exec_files (fun name hname => (hnames name hname).1) (by decide)] at hq
  obtain rfl := Option.some.inj hq
  have hdirs := isValue_of_exec_directories hplain.scenarioDir
    (by intro w hw; obtain rfl := Option.some.inj hw; decide) hrun hpending
  -- The results directory follows them.
  obtain ⟨q, hq, hrun⟩ := exec_append_iff.mp hrun
  rw [if_neg hbody.scenarios.1] at hq
  obtain ⟨pos, -, hq'⟩ := reads_directories hdirs _ .taking (by decide)
  obtain rfl := Option.some.inj (hq'.symm.trans hq)
  obtain ⟨t, ht, hrun⟩ := exec_cons_iff.mp hrun
  rw [onWord_option (o := .resultsDir) (by decide) (by decide) rfl] at ht
  obtain rfl := Option.some.inj ht
  intro d hd
  rcases List.mem_append.mp hd with hd | hd
  · exact hdirs d hd
  · rw [List.mem_singleton.mp hd]
    exact isValue_of_exec hplain.resultsDir (optionFirst_optionWords body) hrun hpending

end Request

/-- An accepted request is read back exactly if no name looks like an option or ends in a line
feed, the address does not end in one, and every directory is one value. -/
theorem parsesBack_iff (isFloat : String → Bool) (body : ScenarioTestStartRequest)
    (settings : Settings) (resultsDir : String) (h : validateStart body = none) :
    ParsesBack isFloat body settings resultsDir ↔
      (∀ name ∈ body.scenarios, isOption name = false ∧ '\n' ∉ name.toList) ∧
        '\n' ∉ body.robot.toList ∧ ∀ d ∈ settings.scenarioDirs ++ [resultsDir], IsValue d := by
  have hbody := accepted_of_validateStart h
  constructor
  · intro h
    exact ⟨names_of_parsesBack h, robot_of_parsesBack h, directories_of_parsesBack hbody h⟩
  · intro h
    obtain ⟨hnames, hrobot, hdirs⟩ := h
    exact parsesBack_of_values hbody hnames hrobot hdirs

/-- A name that is an option is accepted, and shows a simulator that was to stay hidden. -/
theorem not_parsesBack :
    ∃ (body : ScenarioTestStartRequest) (settings : Settings) (resultsDir : String),
      validateStart body = none ∧ body.gui = false ∧
        (parseArgs (fun _ => true) (splitWords (scenarioArgs body settings resultsDir))).map
          RunArgs.gui = some true ∧
        ¬ ParsesBack (fun _ => true) body settings resultsDir := by
  refine ⟨⟨["door", "--gui"], 1, false, false, ""⟩, ⟨"", [], ["scenarios"], "", "", ""⟩, "results",
    by decide, rfl, ?_, ?_⟩
  · decide +kernel
  · unfold ParsesBack
    decide +kernel

/-- A request for two scenarios on a robot is read back. -/
theorem parsesBack_door_lift :
    validateStart ⟨["door", "lift"], 3, true, false, "mg01"⟩ = none ∧
      ParsesBack (fun _ => true) ⟨["door", "lift"], 3, true, false, "mg01"⟩
        ⟨"", [], ["scenarios"], "", "", ""⟩ "results" := by
  have hvalid : validateStart ⟨["door", "lift"], 3, true, false, "mg01"⟩ = none := by decide
  refine ⟨hvalid, (parsesBack_iff _ _ _ _ hvalid).mpr ⟨?_, by decide, ?_⟩⟩
  · decide
  · decide

end MgRobot.SystemManager.ScenarioTest
