import MgRobot.Lib.Script
import MgRobot.Scenario.RunPlan

/-!
# A scenario with a remote stack

`remote_stack.py` and `run_scenario` of `execution.py`: the stack is started on another
machine, the scenario runs here, and then the log of the stack is saved and the stack is
stopped.
-/

namespace MgRobot.Scenario

set_option autoImplicit false

open MgRobot.Lib

/-- `other` is any exception that is no `RemoteStackError`. -/
inductive Raised where
  | remoteStackError (message : String)
  | other (message : String)
  deriving DecidableEq, Repr

structure StackLaunch where
  package : String
  file : String
  args : List (String × String)
  deriving DecidableEq, Repr

/-- What becomes of a request. -/
inductive Reply where
  | unreachable (e : String)                  -- `urlopen` raises a `URLError` or an `OSError`
  | raises (message : String)                 -- anything else, also in `json.load`
  | json (success : Bool) (message : String)  -- an object; `logs` is its key of that name
      (logs : Option String)                  -- `none` if that is no string
  deriving DecidableEq, Repr

def startPath : String := "/scenario-stack/start"

def stopPath : String := "/scenario-stack/stop"

def logsPath : String := "/scenario-stack/logs"

/-- What a scenario calls, in order; `returned` closes a request that did not raise. -/
inductive Call where
  | makedirs (path : String)
  | resolveStack
  | request (path : String)
  | returned (path : String)
  | runLocal (launchStack : Bool)
  | openFile (path : String)
  | write (text : String)
  | close
  deriving DecidableEq, Repr

/-- What the calls of a scenario meet. -/
structure Surroundings where
  makedirs : Except Raised Unit
  resolveStack : Except Raised StackLaunch
  reply : String → Reply
  runLocal : Bool → Except Raised RunRecord
  openFile : Except Raised Unit
  write : String → Except Raised Unit
  close : Except Raised Unit

namespace Surroundings

abbrev Run (α : Type) : Type := Script Call Raised α

variable (s : Surroundings) (baseUrl : String)

/-- `_open` and the reading of what it returns. -/
def openUrl (path : String) : Except Raised (Bool × String × Option String) :=
  match s.reply path with
  | .unreachable e => .error (.remoteStackError (baseUrl ++ path ++ ": " ++ e))
  | .raises message => .error (.other message)
  | .json success message logs => .ok (success, message, logs)

/-- `_post`. -/
def post (path : String) : Run Unit := do
  let (success, message, _) ← Script.call (.request path) (s.openUrl baseUrl path)
  if !success then Script.raise (.remoteStackError (path ++ ": " ++ message))
  Script.call (.returned path) (.ok ())

def start (_launch : StackLaunch) : Run Unit := s.post baseUrl startPath

def stop : Run Unit := s.post baseUrl stopPath

/-- The value of `logs`, which need not be a string. -/
def logs : Run (Option String) := do
  let (_, _, logs) ← Script.call (.request logsPath) (s.openUrl baseUrl logsPath)
  return logs

/-- `f.write` of what may be no string. -/
def writeText : Option String → Run Unit
  | none => Script.raise (.other "write() argument must be str")
  | some text => Script.call (.write text) (s.write text)

/-- `except RemoteStackError`. -/
def onRemoteStackError {α : Type} (f : String → Run α) : Raised → Option (Run α)
  | .remoteStackError message => some (f message)
  | .other _ => none

/-- The `with` statement of `_finish_remote_stack`. -/
def saveLog (outDir : String) : Run Unit :=
  Script.within (Script.call (.openFile (joinPath outDir "stack.log")) s.openFile)
    (fun _ => s.logs baseUrl >>= s.writeText)
    (Script.call .close s.close)

/-- `_finish_remote_stack`. -/
def finishRemoteStack (outDir : String) : Run Unit :=
  Script.catching
    (do
      s.saveLog baseUrl outDir
      s.stop baseUrl)
    (onRemoteStackError fun _ => pure ())

/-- The first `try` of `run_scenario`: the record of a stack that does not start. -/
def startStack (scenarioFile outDir : String) : Run (Option RunRecord) :=
  Script.catching
    (do
      let launch ← Script.call .resolveStack s.resolveStack
      s.start baseUrl launch
      return none)
    (onRemoteStackError fun e => pure (some ⟨nameOf scenarioFile, .error,
      "remote stack failed to start: " ++ e, 0, outDir, []⟩))

/-- `run_scenario`; `remoteStack` is the base URL of the client. -/
def runScenario (remoteStack : Option String) (scenarioFile outDir : String) : Run RunRecord :=
  match remoteStack with
  | none => Script.call (.runLocal true) (s.runLocal true)
  | some baseUrl => do
      Script.call (.makedirs outDir) s.makedirs
      match ← s.startStack baseUrl scenarioFile outDir with
      | some record => return record
      | none =>
          Script.lastly (Script.call (.runLocal false) (s.runLocal false))
            (s.finishRemoteStack baseUrl outDir)

/-- A stack that has been started is asked to stop before `run_scenario` ends. -/
def StopsStack (baseUrl scenarioFile outDir : String) : Prop :=
  let calls := (s.runScenario (some baseUrl) scenarioFile outDir).calls
  .returned startPath ∈ calls →
    .request stopPath ∈ calls.dropWhile fun c => c ≠ .returned startPath

instance (baseUrl scenarioFile outDir : String) :
    Decidable (s.StopsStack baseUrl scenarioFile outDir) :=
  inferInstanceAs (Decidable (_ → _))

/-- The request to start the stack is made and accepted. -/
def Starts : Prop :=
  s.makedirs = .ok () ∧ (∃ launch, s.resolveStack = .ok launch) ∧
    ∃ message logs, s.reply startPath = .json true message logs

/-- The log of the stack is fetched, it is a string, and the file takes it. -/
def SavesLog : Prop :=
  s.openFile = .ok () ∧ s.close = .ok () ∧
    ∃ success message text,
      s.reply logsPath = .json success message (some text) ∧ s.write text = .ok ()

section

variable {s baseUrl}

/-! ## Requests -/

theorem openUrl_eq_ok {path : String} {x : Bool × String × Option String} :
    s.openUrl baseUrl path = .ok x ↔ s.reply path = .json x.1 x.2.1 x.2.2 := by
  unfold openUrl
  cases s.reply path with
  | unreachable e => simp
  | raises message => simp
  | json success message logs =>
      rw [Except.ok.injEq, Reply.json.injEq, Prod.ext_iff, Prod.ext_iff]

/-- A request that is refused raises, one that is accepted returns. -/
theorem post_cases (s : Surroundings) (baseUrl path : String) :
    (∃ e, (s.post baseUrl path) = ⟨[.request path], .error e⟩ ∧
      ¬ ∃ message logs, s.reply path = .json true message logs) ∨
    (s.post baseUrl path = ⟨[.request path, .returned path], .ok ()⟩ ∧
      ∃ message logs, s.reply path = .json true message logs) := by
  unfold post
  cases hreply : s.openUrl baseUrl path with
  | error e =>
      refine .inl ⟨e, rfl, ?_⟩
      rintro ⟨message, logs, h⟩
      exact absurd ((openUrl_eq_ok (x := (true, message, logs))).mpr h) (by rw [hreply]; nofun)
  | ok x =>
      obtain ⟨success, message, logs⟩ := x
      have hjson := openUrl_eq_ok.mp hreply
      cases success with
      | false =>
          refine .inl ⟨_, rfl, ?_⟩
          rintro ⟨message', logs', h⟩
          rw [hjson] at h
          cases h
      | true => exact .inr ⟨rfl, message, logs, hjson⟩

theorem request_mem_stop : .request stopPath ∈ (s.stop baseUrl).calls := by
  rw [stop]
  rcases post_cases s baseUrl stopPath with ⟨e, h, -⟩ | ⟨h, -⟩
  · simp [h]
  · simp [h]

/-! ## The end of a run -/

variable {outDir : String}

theorem mem_calls_saveLog {c : Call} (h : c ∈ (s.saveLog baseUrl outDir).calls) :
    c = .openFile (joinPath outDir "stack.log") ∨ c = .request logsPath ∨
      (∃ text, c = .write text) ∨ c = .close := by
  rcases Script.mem_calls_bind.mp h with h | ⟨_, _, h⟩
  · exact .inl (List.mem_singleton.mp h)
  · rw [Script.calls_lastly, List.mem_append] at h
    rcases h with h | h
    · rcases Script.mem_calls_bind.mp h with h | ⟨text, _, h⟩
      · rcases Script.mem_calls_bind.mp h with h | ⟨x, _, h⟩
        · exact .inr (.inl (List.mem_singleton.mp h))
        · cases h
      · cases text with
        | none => cases h
        | some text => exact .inr (.inr (.inl ⟨text, List.mem_singleton.mp h⟩))
    · exact .inr (.inr (.inr (List.mem_singleton.mp h)))

theorem outcome_saveLog_eq_ok : (s.saveLog baseUrl outDir).outcome = .ok () ↔ s.SavesLog := by
  have hwrite : (s.logs baseUrl >>= s.writeText).outcome = .ok () ↔
      ∃ success message text,
        s.reply logsPath = .json success message (some text) ∧ s.write text = .ok () := by
    rw [Script.outcome_bind_eq_ok]
    constructor
    · rintro ⟨logs, hlogs, htext⟩
      obtain ⟨x, hx, hpure⟩ := Script.outcome_bind_eq_ok.mp hlogs
      obtain rfl := Except.ok.inj hpure
      cases hlog : x.2.2 with
      | none =>
          rw [hlog] at htext
          cases htext
      | some text =>
          rw [hlog] at htext
          refine ⟨x.1, x.2.1, text, ?_, htext⟩
          rw [openUrl_eq_ok.mp hx, hlog]
    · rintro ⟨success, message, text, hreply, htext⟩
      refine ⟨some text, Script.outcome_bind_eq_ok.mpr ⟨(success, message, some text), ?_, rfl⟩,
        htext⟩
      exact openUrl_eq_ok.mpr hreply
  rw [saveLog, Script.within, Script.outcome_bind_eq_ok]
  simp only [Script.outcome_call, Script.outcome_lastly_eq_ok, hwrite]
  constructor
  · rintro ⟨_, hopen, hlog, hclose⟩
    exact ⟨hopen, hclose, hlog⟩
  · rintro ⟨hopen, hclose, hlog⟩
    exact ⟨(), hopen, hlog, hclose⟩

/-- The stack is asked to stop only after its log has been saved. -/
theorem stop_mem_finish (s : Surroundings) (baseUrl outDir : String) :
    .request stopPath ∈ (s.finishRemoteStack baseUrl outDir).calls ↔ s.SavesLog := by
  rw [finishRemoteStack, Script.calls_catching, Script.mem_calls_bind]
  · have hnot : .request stopPath ∉ (s.saveLog baseUrl outDir).calls := by
      intro h
      rcases mem_calls_saveLog h with h | h | ⟨text, h⟩ | h
      · cases h
      · exact absurd (Call.request.inj h) (by decide)
      · cases h
      · cases h
    rw [or_iff_right hnot]
    constructor
    · rintro ⟨_, h, _⟩
      exact outcome_saveLog_eq_ok.mp h
    · exact fun h => ⟨(), outcome_saveLog_eq_ok.mpr h, request_mem_stop⟩
  · intro e y h
    cases e with
    | remoteStackError message =>
        obtain rfl := Option.some.inj h
        rfl
    | other message => cases h

/-! ## The whole run -/

variable {scenarioFile : String}

/-- Either the stack is started and nothing is raised, or no start returns and the run is over. -/
theorem startStack_cases (s : Surroundings) (baseUrl scenarioFile outDir : String) :
    (.returned startPath ∉ (s.startStack baseUrl scenarioFile outDir).calls ∧
        (s.startStack baseUrl scenarioFile outDir).outcome ≠ .ok none ∧
        ¬ ((∃ launch, s.resolveStack = .ok launch) ∧
          ∃ message logs, s.reply startPath = .json true message logs)) ∨
      s.startStack baseUrl scenarioFile outDir =
          ⟨[.resolveStack, .request startPath, .returned startPath], .ok none⟩ ∧
        (∃ launch, s.resolveStack = .ok launch) ∧
          ∃ message logs, s.reply startPath = .json true message logs := by
  unfold startStack
  cases hresolve : s.resolveStack with
  | error e =>
      refine .inl ⟨?_, ?_, fun h => ?_⟩
      · cases e with
        | remoteStackError message => exact fun h => nomatch List.mem_singleton.mp h
        | other message => exact fun h => nomatch List.mem_singleton.mp h
      · cases e with
        | remoteStackError message => exact nofun
        | other message => exact nofun
      · obtain ⟨⟨launch, hlaunch⟩, -⟩ := h
        cases hlaunch
  | ok launch =>
      rw [Script.bind_of_ok rfl]
      rcases post_cases s baseUrl startPath with ⟨e, h, hrefused⟩ | ⟨h, hok⟩
      · have hstart : s.start baseUrl launch = ⟨[.request startPath], .error e⟩ := h
        rw [hstart]
        refine .inl ⟨?_, ?_, fun hboth => hrefused hboth.2⟩
        · cases e with
          | remoteStackError message =>
            show .returned startPath ∉ [Call.resolveStack, .request startPath]
            decide
          | other message =>
            show .returned startPath ∉ [Call.resolveStack, .request startPath]
            decide
        · cases e with
          | remoteStackError message => exact nofun
          | other message => exact nofun
      · have hstart : s.start baseUrl launch =
            ⟨[.request startPath, .returned startPath], .ok ()⟩ := h
        rw [hstart]
        exact .inr ⟨rfl, ⟨launch, rfl⟩, hok⟩

theorem calls_of_starts (h : s.Starts) :
    (s.runScenario (some baseUrl) scenarioFile outDir).calls =
      [.makedirs outDir, .resolveStack, .request startPath, .returned startPath, .runLocal false] ++
        (s.finishRemoteStack baseUrl outDir).calls := by
  obtain ⟨hdirs, hstarts⟩ := h
  rcases startStack_cases s baseUrl scenarioFile outDir with ⟨-, -, hnot⟩ | ⟨hstack, -⟩
  · exact absurd hstarts hnot
  · rw [runScenario, Script.bind_of_ok hdirs, hstack]
    rfl

theorem returned_notMem (h : ¬ s.Starts) :
    .returned startPath ∉ (s.runScenario (some baseUrl) scenarioFile outDir).calls := by
  intro hmem
  rcases Script.mem_calls_bind.mp hmem with hmem | ⟨_, hdirs, hmem⟩
  · exact nomatch List.mem_singleton.mp hmem
  · rcases startStack_cases s baseUrl scenarioFile outDir with ⟨hcalls, hsome, -⟩ | ⟨-, hstarts⟩
    · rcases Script.mem_calls_bind.mp hmem with hmem | ⟨failed, hfailed, hmem⟩
      · exact hcalls hmem
      · cases failed with
        | none => exact hsome hfailed
        | some record => cases hmem
    · exact h ⟨hdirs, hstarts⟩

/-- The stack is stopped after the run exactly if it is not started, or its log can be saved:
whatever becomes of the run itself. -/
theorem stopsStack_iff (s : Surroundings) (baseUrl scenarioFile outDir : String) :
    s.StopsStack baseUrl scenarioFile outDir ↔ (s.Starts → s.SavesLog) := by
  unfold StopsStack
  by_cases hstarts : s.Starts
  · rw [calls_of_starts hstarts, ← stop_mem_finish s baseUrl outDir]
    have hdrop : ([Call.makedirs outDir, .resolveStack, .request startPath, .returned startPath,
        .runLocal false] ++ (s.finishRemoteStack baseUrl outDir).calls).dropWhile
          (fun c => c ≠ Call.returned startPath) =
        [.returned startPath, .runLocal false] ++ (s.finishRemoteStack baseUrl outDir).calls := by
      simp
    dsimp only
    rw [hdrop]
    simp [hstarts]
  · exact iff_of_true (fun h => absurd h (returned_notMem hstarts)) fun h => absurd h hstarts

end

/-- Everything works but the log of the stack, which cannot be fetched. -/
def logUnreachable : Surroundings where
  makedirs := .ok ()
  resolveStack := .ok ⟨"mg_bringup", "launch/stack.launch.py", []⟩
  reply path := if path = logsPath then .unreachable "timed out" else .json true "" none
  runLocal _ := .ok ⟨"door", .passed, "", 30, "results/door", []⟩
  openFile := .ok ()
  write _ := .ok ()
  close := .ok ()

/-- The stack runs on when its log cannot be fetched, or its file cannot be opened. -/
theorem not_stopsStack :
    ¬ logUnreachable.StopsStack "http://192.168.0.10:8001" "door.yaml" "results/door" ∧
      ¬ { logUnreachable with
          reply := fun _ => .json true "" (some "")
          openFile := .error (.other "No space left on device") }.StopsStack
        "http://192.168.0.10:8001" "door.yaml" "results/door" := by
  decide

/-! ## The result of a run -/

section

variable {s baseUrl} {scenarioFile outDir : String}

/-- A cleanup that fails with a `RemoteStackError`, or not at all, leaves the result of the run. -/
theorem outcome_of_starts (h : s.Starts)
    (hclean : (s.finishRemoteStack baseUrl outDir).outcome = .ok ()) :
    (s.runScenario (some baseUrl) scenarioFile outDir).outcome = s.runLocal false := by
  obtain ⟨hdirs, hstarts⟩ := h
  rcases startStack_cases s baseUrl scenarioFile outDir with ⟨-, -, hnot⟩ | ⟨hstack, -⟩
  · exact absurd hstarts hnot
  · rw [runScenario, Script.bind_of_ok hdirs, hstack]
    show (Script.lastly _ _).outcome = _
    rw [Script.lastly, hclean]
    rfl

end

end Surroundings

end MgRobot.Scenario
