import MgRobot.SystemManager.Exclusion

/-!
# Scenario tests and what they must not meet

A scenario test and its environment are started after a look at what runs. The
two requests hold different locks, so what another request starts between the
look and the command is not seen.
-/

namespace MgRobot.SystemManager

set_option autoImplicit false

open MgRobot.Lib.Runs MgRobot.Lib.Resumption ScenarioTest

/-- The command for a run without `--attach` is given only while nothing it would meet runs or is
being started by another request. -/
def RunAlone (w : World) : Event → Prop
  | .run i _ =>
      match w.name? i, w.action? i with
      | some (.scenarioTestStart body), some (.composeBegin _ _ _) =>
          body.attach = false → ∀ s ∈ CONFLICTING_SERVICES,
            w.shared.running s = false ∧ w.shared.startedByOther i s = false
      | _, _ => True
  | .spawn _ | .environment _ => True

/-- While a command brings the environment up, no scenario test runs and no other request is
starting one. -/
def EnvAlone (w : World) : Prop :=
  ∀ e ∈ w.shared.commands, e.2 = SCENARIO_ENV_SERVICE →
    w.shared.running SCENARIO_TEST_SERVICE = false ∧
      w.shared.startedByOther e.1 SCENARIO_TEST_SERVICE = false

/-- Thread `i` has found nothing that its run would meet, and has neither given the command nor
ended. -/
def runChecked (w : World) (i : Nat) : Bool :=
  match w.name? i, w.shared.seen i with
  | some (.scenarioTestStart body), some status =>
      w.running i && !body.attach && (checkRunningServices status body).isNone
  | _, _ => false

/-- Thread `i` has found nothing that its environment would meet, and has neither given the
command nor ended. -/
def envChecked (w : World) (i : Nat) : Bool :=
  match w.name? i, w.shared.seen i with
  | some (.scenarioEnvStart _), some status => w.running i && (checkEnv status).isNone
  | _, _ => false

/-- Whether the request looks for a scenario test before it starts the environment. -/
def Request.checksTest : Request → Bool
  | .scenarioEnvStart _ => true
  | _ => false

/-- The condition on a step. A command does not come between the look and the command of another
request that it concerns, nor, for a scenario test, while another request brings the environment
up; an unchecked start of the environment finds no scenario test; and a look is not made while
another request starts what is looked for. -/
def Uninterrupted (w : World) : Event → Prop
  | .run k _ =>
      match w.name? k, w.action? k with
      | some request, some (.composeBegin args _ _) =>
          (composeService args ∈ CONFLICTING_SERVICES →
            ∀ i < w.threads.length, i ≠ k → runChecked w i = false) ∧
          (composeService args = SCENARIO_TEST_SERVICE →
            (∀ i < w.threads.length, i ≠ k → envChecked w i = false) ∧
              w.shared.startedByOther k SCENARIO_ENV_SERVICE = false) ∧
          (composeService args = SCENARIO_ENV_SERVICE → request.checksTest = false →
            w.shared.running SCENARIO_TEST_SERVICE = false ∧
              w.shared.startedByOther k SCENARIO_TEST_SERVICE = false)
      | some (.scenarioTestStart body), some .containers =>
          body.attach = false → ∀ s ∈ CONFLICTING_SERVICES, w.shared.startedByOther k s = false
      | some (.scenarioEnvStart _), some .containers =>
          w.shared.startedByOther k SCENARIO_TEST_SERVICE = false
      | _, _ => True
  | .spawn _ | .environment _ => True

/-! ## What a look has shown -/

theorem checkRunningServices_quiet {status : Status} {body : ScenarioTestStartRequest}
    (hattach : body.attach = false) (hcheck : checkRunningServices status body = none) :
    ∀ s ∈ CONFLICTING_SERVICES, status.get? s ≠ some .running := by
  simp only [checkRunningServices, hattach, Bool.false_eq_true, if_false] at hcheck
  split_ifs at hcheck with htest hempty
  exact runningOf_isEmpty_iff.mp (by simpa using hempty)

theorem checkEnv_quiet {status : Status} (hcheck : checkEnv status = none) :
    status.get? SCENARIO_TEST_SERVICE ≠ some .running := by
  unfold checkEnv at hcheck
  split_ifs at hcheck with htest
  exact htest

/-- A service is up or on its way: it runs, or a command for it is in progress. -/
def Coming (h : Host) (service : String) : Prop :=
  h.running service = true ∨ ∃ i, (i, service) ∈ h.commands

/-- What is known at any moment: after a look, and while the environment is brought up. -/
structure Looked (w : World) : Prop where
  run : ∀ i, runChecked w i = true → ∀ s ∈ CONFLICTING_SERVICES, ¬Coming w.shared s
  env : ∀ i, envChecked w i = true → ¬Coming w.shared SCENARIO_TEST_SERVICE
  up : ∀ i, (i, SCENARIO_ENV_SERVICE) ∈ w.shared.commands →
    ¬Coming w.shared SCENARIO_TEST_SERVICE

section Step

variable {h h' : Host} {w : World} {g : Nat → Ghost} {i k : Nat} {service : String}

theorem startedByOther_eq_false_iff :
    h.startedByOther i service = false ↔ ∀ j ≠ i, (j, service) ∉ h.commands := by
  rw [Host.startedByOther, List.any_eq_false]
  constructor
  · intro hnone j hji hj
    exact hnone (j, service) hj (by simpa using hji)
  · rintro hnone ⟨j, s⟩ hj heq
    obtain ⟨hji, rfl⟩ : j ≠ i ∧ s = service := by simpa using heq
    exact hnone j hji hj

theorem Coming.quieter (hq : Quieter h' h) (hc : Coming h' service) : Coming h service := by
  rcases hc with hrun | ⟨j, hj⟩
  · exact .inl (hq.running service hrun)
  · exact .inr ⟨j, hq.commands _ hj⟩

/-- What the engine brings up was on its way. -/
theorem Coming.engine {containers : List Container} (he : h.engine containers = some h')
    (hc : Coming h' service) : Coming h service := by
  unfold Host.engine at he
  split_ifs at he with hup
  obtain rfl := Option.some.inj he
  rcases hc with hrun | hcommand
  · obtain ⟨c, hc, rfl, hstate⟩ := (Host.running_iff _).mp hrun
    rcases hup c hc hstate with hrun | ⟨e, he, heq⟩
    · exact .inl hrun
    · exact .inr ⟨e.1, by rw [← heq]; exact he⟩
  · exact .inr hcommand

theorem EnvAlone.of_looked (hl : Looked w) : EnvAlone w := by
  rintro ⟨i, s⟩ hc rfl
  have hnot := hl.up i hc
  refine ⟨Bool.eq_false_iff.mpr fun hrun => hnot (.inl hrun), ?_⟩
  exact startedByOther_eq_false_iff.mpr fun j _ hj => hnot (.inr ⟨j, hj⟩)

/-- A run gives its command only after a look that showed nothing. -/
theorem RunAlone.of_looked (h : SoundWorld g w) (hl : Looked w) (e : Event) : RunAlone w e := by
  cases e with
  | spawn request => trivial
  | environment containers => trivial
  | run i outcome =>
      simp only [RunAlone]
      split
      · rename_i body args env timeout hname haction
        intro hattach s hs
        obtain ⟨request, hname', -, -, -, hallowed⟩ := h.pre haction
        obtain rfl := Option.some.inj (hname.symm.trans hname')
        obtain ⟨-, status, hseen, hcheck⟩ := hallowed
        rw [(h.joint.agrees i).seen] at hseen
        have hchecked : runChecked w i = true := by
          simp [runChecked, hname, hseen, hattach, hcheck, Pool.running_of_action? haction]
        have hnot := hl.run i hchecked s hs
        refine ⟨Bool.eq_false_iff.mpr fun hrun => hnot (.inl hrun), ?_⟩
        exact startedByOther_eq_false_iff.mpr fun j _ hj => hnot (.inr ⟨j, hj⟩)
      · trivial

theorem Host.perform_seen (h : Host) (i : Nat) (a : Action) (outcome : Outcome)
    (hcontainers : a ≠ .containers) (hbegin : ∀ args env timeout, a ≠ .composeBegin args env timeout) :
    (h.perform i a outcome).1.seen = h.seen := by
  cases a with
  | acquire key =>
      simp only [Host.perform, Host.acquire]
      split
      · rfl
      · split
        · rfl
        · rfl
  | release key =>
      simp only [Host.perform, Host.release]
      split
      · rfl
      · split
        · rfl
        · rfl
  | containers => exact absurd rfl hcontainers
  | list service => rfl
  | stop container timeout => cases outcome <;> rfl
  | remove container => cases outcome <;> rfl
  | composeBegin args env timeout => exact absurd rfl (hbegin args env timeout)
  | composeEnd args => rfl
  | strftime => rfl

theorem Looked.of_coming {w' : World} (hl : Looked w)
    (hcoming : ∀ s, Coming w'.shared s → Coming w.shared s)
    (hcommands : ∀ e ∈ w'.shared.commands, e ∈ w.shared.commands)
    (hrun : ∀ i, runChecked w' i = true → runChecked w i = true)
    (henv : ∀ i, envChecked w' i = true → envChecked w i = true) : Looked w' :=
  ⟨fun i hi s hs hc => hl.run i (hrun i hi) s hs (hcoming s hc),
    fun i hi hc => hl.env i (henv i hi) (hcoming _ hc),
    fun i hi hc => hl.up i (hcommands _ hi) (hcoming _ hc)⟩

theorem runChecked_iff : runChecked w i = true ↔ ∃ body status,
    w.name? i = some (.scenarioTestStart body) ∧ w.shared.seen i = some status ∧
      w.running i = true ∧ body.attach = false ∧ checkRunningServices status body = none := by
  unfold runChecked
  split
  · rename_i body status hname hseen
    simp [hname, hseen, and_assoc]
  · rename_i hnone
    refine iff_of_false nofun ?_
    rintro ⟨body, status, hname, hseen, -⟩
    exact hnone body status hname hseen

theorem envChecked_iff : envChecked w i = true ↔ ∃ gui status,
    w.name? i = some (.scenarioEnvStart gui) ∧ w.shared.seen i = some status ∧
      w.running i = true ∧ checkEnv status = none := by
  unfold envChecked
  split
  · rename_i gui status hname hseen
    simp [hname, hseen]
  · rename_i hnone
    refine iff_of_false nofun ?_
    rintro ⟨gui, status, hname, hseen, -⟩
    exact hnone gui status hname hseen

/-- A look that counts has counted before, if the thread has not looked or started since. -/
theorem runChecked_of_later {w' : World} (hname : w'.name? i = w.name? i)
    (hseen : w'.shared.seen i = w.shared.seen i)
    (hrun : w'.running i = true → w.running i = true) (hi : runChecked w' i = true) :
    runChecked w i = true := by
  obtain ⟨body, status, hname', hseen', hrun', hcheck⟩ := runChecked_iff.mp hi
  exact runChecked_iff.mpr
    ⟨body, status, hname.symm.trans hname', hseen.symm.trans hseen', hrun hrun', hcheck⟩

theorem envChecked_of_later {w' : World} (hname : w'.name? i = w.name? i)
    (hseen : w'.shared.seen i = w.shared.seen i)
    (hrun : w'.running i = true → w.running i = true) (hi : envChecked w' i = true) :
    envChecked w i = true := by
  obtain ⟨gui, status, hname', hseen', hrun', hcheck⟩ := envChecked_iff.mp hi
  exact envChecked_iff.mpr
    ⟨gui, status, hname.symm.trans hname', hseen.symm.trans hseen', hrun hrun', hcheck⟩

/-- A thread whose look counts exists. -/
theorem lt_of_name?_eq {request : Request} (hname : w.name? i = some request) :
    i < w.threads.length := by
  obtain ⟨t, ht, -⟩ := Option.map_eq_some_iff.mp hname
  exact (List.getElem?_eq_some_iff.mp ht).1

/-- A thread between two commands has none in progress. -/
theorem SoundWorld.not_mem_commands (h : SoundWorld g w) (hidle : (g i).command = none) :
    (i, service) ∉ w.shared.commands := fun hc => by
  rw [(h.joint.agrees i).commands, hidle] at hc
  exact nomatch hc

/-- What a look does not find is not on its way, if no other request starts it. -/
theorem SoundWorld.not_coming (h : SoundWorld g w) (hidle : (g k).command = none)
    (hstatus : (fetchStatus w.shared.containers).get? service ≠ some .running)
    (hother : w.shared.startedByOther k service = false) : ¬Coming w.shared service := by
  rintro (hrun | ⟨j, hj⟩)
  · exact hstatus ((fetchStatus_iff w.shared service).mpr hrun)
  · by_cases hjk : j = k
    · rw [hjk] at hj
      exact h.not_mem_commands hidle hj
    · exact startedByOther_eq_false_iff.mp hother j hjk hj

variable {request : Request} {a : Action} {next : a.Response → Program Response} {outcome : Outcome}

/-- The state after thread `k` has performed `a`. -/
abbrev after (w : World) (k : Nat) (request : Request) (a : Action)
    (next : a.Response → Program Response) (outcome : Outcome) : World :=
  ⟨(w.shared.perform k a outcome).1,
    w.threads.set k (request, next (w.shared.perform k a outcome).2)⟩

/-- A look. -/
theorem Looked.containers {next : Action.Response .containers → Program Response} (hl : Looked w)
    (h : SoundWorld g w) (hk : w.threads[k]? = some (request, .act .containers next))
    (hmeets : Uninterrupted w (.run k outcome)) :
    Looked (after w k request .containers next outcome) := by
  have hname := Pool.name?_eq hk
  have haction := Pool.action?_eq hk
  have hidle : (g k).command = none := (h.holds k request _ hk).1
  have hnames (j : Nat) : (after w k request .containers next outcome).name? j = w.name? j :=
    Pool.name?_set hk j
  have hruns {j : Nat} : (after w k request .containers next outcome).running j = true →
      w.running j = true := Pool.running_of_set hk
  cases outcome with
  | completed returncode stdout stderr =>
      have hother {j : Nat} (hjk : j ≠ k) :
          (after w k request .containers next (.completed returncode stdout stderr)).shared.seen j =
            w.shared.seen j := Function.update_of_ne hjk _ _
      have hself : (after w k request .containers next
          (.completed returncode stdout stderr)).shared.seen k =
            some (fetchStatus w.shared.containers) := Function.update_self k _ _
      simp only [Uninterrupted, hname, haction] at hmeets
      refine ⟨fun i hi s hs hc => ?_, fun i hi hc => ?_, fun i hi hc => hl.up i hi hc⟩
      · by_cases hik : i = k
        · subst hik
          obtain ⟨body, status, hbody, hseen, -, hattach, hcheck⟩ := runChecked_iff.mp hi
          rw [hnames, hname] at hbody
          obtain rfl := Option.some.inj hbody
          obtain rfl := Option.some.inj (hself.symm.trans hseen)
          exact h.not_coming hidle (checkRunningServices_quiet hattach hcheck s hs)
            (hmeets hattach s hs) hc
        · exact hl.run i (runChecked_of_later (hnames i) (hother hik) hruns hi) s hs hc
      · by_cases hik : i = k
        · subst hik
          obtain ⟨gui, status, hgui, hseen, -, hcheck⟩ := envChecked_iff.mp hi
          rw [hnames, hname] at hgui
          obtain rfl := Option.some.inj hgui
          obtain rfl := Option.some.inj (hself.symm.trans hseen)
          exact h.not_coming hidle (checkEnv_quiet hcheck) hmeets hc
        · exact hl.env i (envChecked_of_later (hnames i) (hother hik) hruns hi) hc
  | timedOut =>
      exact hl.of_coming (fun _ hc => hc) (fun _ he => he)
        (fun i hi => runChecked_of_later (hnames i) rfl hruns hi)
        (fun i hi => envChecked_of_later (hnames i) rfl hruns hi)
  | raised message =>
      exact hl.of_coming (fun _ hc => hc) (fun _ he => he)
        (fun i hi => runChecked_of_later (hnames i) rfl hruns hi)
        (fun i hi => envChecked_of_later (hnames i) rfl hruns hi)

/-- The start of a command. -/
theorem Looked.composeBegin {args : List String} {env : List (String × String)} {timeout : Nat}
    {next : Action.Response (.composeBegin args env timeout) → Program Response} (hl : Looked w)
    (h : SoundWorld g w)
    (hk : w.threads[k]? = some (request, .act (.composeBegin args env timeout) next))
    (hmeets : Uninterrupted w (.run k outcome)) :
    Looked (after w k request (.composeBegin args env timeout) next outcome) := by
  have hname := Pool.name?_eq hk
  have haction := Pool.action?_eq hk
  obtain ⟨hidle, -, -, hallowed⟩ := (h.holds k request _ hk).1
  have hnames (j : Nat) :
      (after w k request (.composeBegin args env timeout) next outcome).name? j = w.name? j :=
    Pool.name?_set hk j
  have hruns {j : Nat} : (after w k request (.composeBegin args env timeout) next
      outcome).running j = true → w.running j = true := Pool.running_of_set hk
  have hself : (after w k request (.composeBegin args env timeout) next outcome).shared.seen k =
      none := Function.update_self k _ _
  have hother {j : Nat} (hjk : j ≠ k) :
      (after w k request (.composeBegin args env timeout) next outcome).shared.seen j =
        w.shared.seen j := Function.update_of_ne hjk _ _
  simp only [Uninterrupted, hname, haction] at hmeets
  obtain ⟨hconflicting, htest, henv⟩ := hmeets
  -- the only thing that is newly on its way is the service of the command
  have hcoming {s : String} (hc : Coming (after w k request (.composeBegin args env timeout) next
      outcome).shared s) : Coming w.shared s ∨ composeService args = s := by
    rcases hc with hrun | ⟨j, hj⟩
    · exact .inl (.inl hrun)
    · rcases List.mem_append.mp hj with hj | hj
      · exact .inl (.inr ⟨j, hj⟩)
      · exact .inr (Prod.mk.inj (List.mem_singleton.mp hj)).2.symm
  refine ⟨fun i hi s hs hc => ?_, fun i hi hc => ?_, fun i hi hc => ?_⟩
  · have hik : i ≠ k := by
      rintro rfl
      obtain ⟨_, status, -, hseen, -⟩ := runChecked_iff.mp hi
      exact absurd (hself.symm.trans hseen) nofun
    replace hi := runChecked_of_later (hnames i) (hother hik) hruns hi
    rcases hcoming hc with hold | rfl
    · exact hl.run i hi s hs hold
    · obtain ⟨body, -, hbody, -⟩ := runChecked_iff.mp hi
      rw [hconflicting hs i (lt_of_name?_eq hbody) hik] at hi
      exact nomatch hi
  · have hik : i ≠ k := by
      rintro rfl
      obtain ⟨_, status, -, hseen, -⟩ := envChecked_iff.mp hi
      exact absurd (hself.symm.trans hseen) nofun
    replace hi := envChecked_of_later (hnames i) (hother hik) hruns hi
    rcases hcoming hc with hold | heq
    · exact hl.env i hi hold
    · obtain ⟨gui, -, hgui, -⟩ := envChecked_iff.mp hi
      rw [(htest heq).1 i (lt_of_name?_eq hgui) hik] at hi
      exact nomatch hi
  · rcases List.mem_append.mp hi with hi | hi
    · rcases hcoming hc with hold | heq
      · exact hl.up i hi hold
      · by_cases hik : i = k
        · rw [hik] at hi
          exact h.not_mem_commands hidle hi
        · exact startedByOther_eq_false_iff.mp (htest heq).2 i hik hi
    · obtain ⟨rfl, hservice⟩ := Prod.mk.inj (List.mem_singleton.mp hi)
      rcases hcoming hc with hold | heq
      · cases hchecks : request.checksTest with
        | false =>
            obtain ⟨hquiet, hnone⟩ := henv hservice.symm hchecks
            rcases hold with hrun | ⟨j, hj⟩
            · rw [hquiet] at hrun
              exact nomatch hrun
            · by_cases hji : j = i
              · rw [hji] at hj
                exact h.not_mem_commands hidle hj
              · exact startedByOther_eq_false_iff.mp hnone j hji hj
        | true =>
            cases request with
            | scenarioEnvStart gui =>
                obtain ⟨-, status, hseen, hcheck⟩ := hallowed
                rw [(h.joint.agrees i).seen] at hseen
                have hruns := Pool.running_of_action? haction
                exact hl.env i (envChecked_iff.mpr ⟨gui, status, hname, hseen, hruns, hcheck⟩) hold
            | _ => exact nomatch hchecks
      · exact absurd (hservice.trans heq) (by decide)

end Step

/-! ## Every run -/

variable {settings : Settings} {w w' : World} {e : Event}

theorem Looked.step {g : Nat → Ghost} (hl : Looked w) (h : SoundWorld g w)
    (hmeets : Uninterrupted w e) (hs : SystemManager.step settings w e = some w') : Looked w' := by
  cases e with
  | spawn request =>
      obtain rfl := Option.some.inj hs
      -- the new thread has looked at nothing
      have hold {i : Nat} {status : Status} (hseen : w.shared.seen i = some status) :
          i < w.threads.length := by
        by_contra hlt
        rw [← (h.joint.agrees i).seen, h.fresh i (Nat.le_of_not_lt hlt)] at hseen
        exact nomatch hseen
      have hname {i : Nat} (hi : i < w.threads.length) :
          (⟨w.shared, w.threads ++ [(request, handler settings request)]⟩ : World).name? i =
            w.name? i := by
        rw [Pool.name?, Pool.name?, List.getElem?_append_left hi]
      have hruns {i : Nat} (hi : i < w.threads.length) :
          (⟨w.shared, w.threads ++ [(request, handler settings request)]⟩ : World).running i =
            true → w.running i = true := by
        rw [Pool.running, Pool.running, Pool.action?, Pool.action?, List.getElem?_append_left hi]
        exact id
      refine hl.of_coming (fun _ hc => hc) (fun _ he => he) (fun i hi => ?_) (fun i hi => ?_)
      · obtain ⟨_, status, -, hseen, -⟩ := runChecked_iff.mp hi
        exact runChecked_of_later (hname (hold hseen)) rfl (hruns (hold hseen)) hi
      · obtain ⟨_, status, -, hseen, -⟩ := envChecked_iff.mp hi
        exact envChecked_of_later (hname (hold hseen)) rfl (hruns (hold hseen)) hi
  | run k outcome =>
      obtain ⟨request, a, next, hk, rfl⟩ := step_run hs
      by_cases hcontainers : a = .containers
      · subst hcontainers
        exact hl.containers h hk hmeets
      by_cases hbegin : ∃ args env timeout, a = .composeBegin args env timeout
      · obtain ⟨args, env, timeout, rfl⟩ := hbegin
        exact hl.composeBegin h hk hmeets
      · have hbegin' : ∀ args env timeout, a ≠ .composeBegin args env timeout :=
          fun args env timeout ha => hbegin ⟨args, env, timeout, ha⟩
        have hq := w.shared.perform_quieter k outcome hbegin'
        have hseen := w.shared.perform_seen k a outcome hcontainers hbegin'
        refine hl.of_coming (fun _ hc => hc.quieter hq) hq.commands (fun i hi => ?_) (fun i hi => ?_)
        · exact runChecked_of_later (Pool.name?_set hk i) (congrFun hseen i)
            (Pool.running_of_set hk) hi
        · exact envChecked_of_later (Pool.name?_set hk i) (congrFun hseen i)
            (Pool.running_of_set hk) hi
  | environment containers =>
      obtain ⟨s, he, rfl⟩ := Option.map_eq_some_iff.mp hs
      have hsame : s.seen = w.shared.seen ∧ s.commands = w.shared.commands := by
        have he' : w.shared.engine containers = some s := he
        unfold Host.engine at he'
        split_ifs at he' with hup
        obtain rfl := Option.some.inj he'
        exact ⟨rfl, rfl⟩
      have hname {i : Nat} : (⟨s, w.threads⟩ : World).name? i = w.name? i := rfl
      refine hl.of_coming (fun _ hc => hc.engine he) (fun e hmem => ?_) (fun i hi => ?_)
        (fun i hi => ?_)
      · rwa [← hsame.2]
      · exact runChecked_of_later hname (congrFun hsame.1 i) id hi
      · exact envChecked_of_later hname (congrFun hsame.1 i) id hi

theorem looked_initial (containers : List Container) : Looked (initial containers) :=
  ⟨nofun, nofun, fun _ hi => absurd hi List.not_mem_nil⟩

/-- In every run, whatever its requests: if no start comes between another request's look and its
command, every run is issued alone and the environment is brought up alone. -/
theorem scenario_alone (settings : Settings) (containers : List Container) (events : List Event)
    (hmeets : Meets (step settings) Uninterrupted (initial containers) events) :
    Meets (step settings) RunAlone (initial containers) events ∧
      Always (step settings) EnvAlone (initial containers) events := by
  have hstep : ∀ w e w', ((∃ g, SoundWorld g w) ∧ Looked w) → Uninterrupted w e →
      step settings w e = some w' → (∃ g, SoundWorld g w') ∧ Looked w' := by
    rintro w e w' ⟨⟨g, h⟩, hl⟩ hmeets hs
    exact ⟨soundWorld_step h hs, hl.step h hmeets hs⟩
  have hstart : (∃ g, SoundWorld g (initial containers)) ∧ Looked (initial containers) :=
    ⟨⟨_, soundWorld_initial containers⟩, looked_initial containers⟩
  constructor
  · refine meets_of_invariant hstep (fun w e hw _ => ?_) hstart hmeets
    obtain ⟨⟨g, h⟩, hl⟩ := hw
    exact RunAlone.of_looked h hl e
  · exact always_of_invariant hstep (fun w hw => EnvAlone.of_looked hw.2) hstart hmeets

instance (w : World) : DecidablePred (RunAlone w)
  | .run i _ => by
      simp only [RunAlone]
      split <;> infer_instance
  | .spawn _ | .environment _ => isTrue trivial

instance (w : World) : DecidablePred (Uninterrupted w)
  | .run i _ => by
      simp only [Uninterrupted]
      split <;> infer_instance
  | .spawn _ | .environment _ => isTrue trivial

def oneScenario (attach : Bool) : ScenarioTestStartRequest :=
  ⟨["corridor"], 1, false, attach, ""⟩

/-- Two starts of the environment, of which the second looks and finds the lock taken; then its
stop, a run of a scenario, and a start of the environment that is refused. -/
def oneAfterTheOther : List Event :=
  [.spawn (.scenarioEnvStart false), .spawn (.scenarioEnvStart false),
    .run 0 succeeded, .run 1 succeeded, .run 0 succeeded, .run 0 succeeded, .run 1 succeeded,
    .environment [⟨0, SCENARIO_ENV_SERVICE, .running⟩], .run 0 succeeded, .run 0 succeeded,
    .spawn .scenarioEnvStop] ++ List.replicate 4 (.run 2 succeeded) ++
  [.spawn (.scenarioTestStart (oneScenario false))] ++ List.replicate 5 (.run 3 succeeded) ++
    [.environment [⟨1, SCENARIO_TEST_SERVICE, .running⟩], .run 3 succeeded, .run 3 succeeded,
      .spawn (.scenarioEnvStart false), .run 4 succeeded]

theorem scenario_alone_refused :
    Meets (step defaultSettings) RunAlone (initial []) oneAfterTheOther ∧
      Always (step defaultSettings) EnvAlone (initial []) oneAfterTheOther :=
  scenario_alone defaultSettings [] oneAfterTheOther (by decide +kernel)

/-- Both requests look before either gives its command. -/
def bothLook : List Event :=
  [.spawn (.scenarioTestStart (oneScenario false)), .spawn (.scenarioEnvStart false)] ++
    List.replicate 3 (.run 0 succeeded) ++ List.replicate 3 (.run 1 succeeded) ++
    List.replicate 2 (.run 0 succeeded)

/-- The run is issued while the environment is being started, and the environment is brought up
while the run is being started. -/
theorem scenario_not_alone : ∃ w,
    exec (step defaultSettings) (initial []) bothLook = some w ∧ ¬EnvAlone w ∧
      ¬Meets (step defaultSettings) RunAlone (initial []) bothLook := by
  obtain ⟨w, hw, hstarted⟩ : ∃ w, exec (step defaultSettings) (initial []) bothLook = some w ∧
      ((1, SCENARIO_ENV_SERVICE) ∈ w.shared.commands ∧
        w.shared.startedByOther 1 SCENARIO_TEST_SERVICE = true) :=
    exists_exec (by decide +kernel)
  obtain ⟨hcommand, hother⟩ := hstarted
  refine ⟨w, hw, fun h => ?_, by decide +kernel⟩
  have hnone := (h (1, SCENARIO_ENV_SERVICE) hcommand rfl).2
  rw [hother] at hnone
  exact nomatch hnone

end MgRobot.SystemManager
