import MgRobot.SystemManager.Discipline

/-!
# Every request keeps to its discipline

The methods of `ComposeRunner` and the handlers, from the inside out: each
leaves the locks as it found them, however it ends.
-/

namespace MgRobot.SystemManager

set_option autoImplicit false

open MgRobot.Lib.Resumption ComposeRunner

/-- The locks are as they were, and no command is in progress. -/
def Leaves {α : Type} (held : String → Nat) (g : Ghost) (_ : Except Exn α) : Prop :=
  g.held = held ∧ g.command = none

variable {request : Request} {g : Ghost} {held : String → Nat} {service : String} {α β : Type}

theorem Leaves.of_eq {g' : Ghost} {x : Except Exn α} (hidle : g.command = none) (h : g' = g) :
    Leaves g.held g' x := by
  subst h
  exact ⟨rfl, hidle⟩

theorem holds_seq {p : Program α} {f : α → Program β}
    (hp : Holds (discipline request) (Leaves held) p g)
    (hf : ∀ g' a, g'.held = held → g'.command = none →
      Holds (discipline request) (Leaves held) (f a) g') :
    Holds (discipline request) (Leaves held) (p >>= f) g := by
  refine Holds.bind (hp.mono fun g' x hx => ?_)
  cases x with
  | ok a => exact hf g' a hx.1 hx.2
  | error e => exact hx

theorem holds_result {p : Program (Bool × String)}
    (hp : Holds (discipline request) (Leaves held) p g) :
    Holds (discipline request) (Leaves held) (do pure (result (← p))) g :=
  holds_seq hp fun _ _ hheld hidle => holds_pure ⟨hheld, hidle⟩

theorem holds_catchBusy {p : Program (Bool × String)}
    (hp : Holds (discipline request) (Leaves held) p g) :
    Holds (discipline request) (Leaves held) (catchBusy p) g := by
  refine Holds.tryCatch (hp.mono fun g' x hx => ?_)
  cases x with
  | ok a => exact hx
  | error e =>
      cases e with
      | busy message => exact hx
      | docker message => exact hx
      | runtime message => exact hx

/-! ## Locks -/

theorem Ghost.unlock_held {g' : Ghost} {key : String} (h : g'.held = (g.lock key).held) :
    (g'.unlock key).held = g.held := by
  funext k
  by_cases hk : k = key
  · subst hk
    have hself : (g'.unlock k).held k = g'.held k - 1 := Function.update_self _ _ _
    rw [hself, h, Ghost.lock_held_self, Nat.add_sub_cancel]
  · have hother : (g'.unlock key).held k = g'.held k := Function.update_of_ne hk _ _
    rw [hother, h]
    exact Function.update_of_ne hk _ _

theorem holds_release {g' : Ghost} {key : String} (hheld : g'.held = (g.lock key).held)
    (hidle : g'.command = none) :
    Holds (discipline request) (fun g' (y : Except Exn Unit) =>
      (∃ u, y = .ok u) ∧ g'.held = g.held ∧ g'.command = none) (release key) g' := by
  refine Holds.bind (holds_perform ⟨?_, hidle⟩ fun owned g'' hnext => ?_)
  · rw [hheld, Ghost.lock_held_self]
    exact Nat.succ_pos _
  · obtain ⟨rfl, rfl⟩ := hnext
    exact holds_pure ⟨⟨(), rfl⟩, Ghost.unlock_held hheld, hidle⟩

/-- The body runs with all the locks, and they are given back. -/
theorem holds_withLocks {keys : List String} {body : Program α} (hidle : g.command = none)
    (hbody : Holds (discipline request) (Leaves (keys.foldl Ghost.lock g).held) body
      (keys.foldl Ghost.lock g)) :
    Holds (discipline request) (Leaves g.held) (withLocks service keys body) g := by
  induction keys generalizing g with
  | nil => exact hbody
  | cons key keys ih =>
      refine Holds.bind (holds_perform trivial fun acquired g' hnext => ?_)
      obtain rfl := hnext
      cases acquired with
      | false => exact ⟨rfl, hidle⟩
      | true =>
          refine Holds.tryFinally ((ih (g := g.lock key) hidle hbody).mono fun g' x hx => ?_)
          refine (holds_release hx.1 hx.2).mono ?_
          rintro g'' y ⟨⟨u, rfl⟩, hheld, hidle'⟩
          exact ⟨hheld, hidle'⟩

/-- The ghost state in which the body of an operation runs. -/
def Ghost.inside (g : Ghost) (service : String) (exclusive : Bool) : Ghost :=
  (operationKeys service exclusive).foldl Ghost.lock g

theorem holds_operation {exclusive : Bool} {body : Program α} (hidle : g.command = none)
    (hbody : Holds (discipline request) (Leaves (g.inside service exclusive).held) body
      (g.inside service exclusive)) :
    Holds (discipline request) (Leaves g.held) (operation service exclusive body) g :=
  holds_withLocks hidle hbody

namespace Ghost

variable (g) (service) (exclusive : Bool)

theorem foldl_lock (keys : List String) :
    (keys.foldl lock g).still = g.still ∧ (keys.foldl lock g).seen = g.seen ∧
      (keys.foldl lock g).command = g.command ∧ ∀ k, g.held k ≤ (keys.foldl lock g).held k := by
  induction keys generalizing g with
  | nil => exact ⟨rfl, rfl, rfl, fun _ => Nat.le_refl _⟩
  | cons key keys ih =>
      obtain ⟨hstill, hseen, hcommand, hheld⟩ := ih (g.lock key)
      exact ⟨hstill, hseen, hcommand, fun k => Nat.le_trans (g.lock_held_le k) (hheld k)⟩

theorem foldl_lock_pos {keys : List String} {key : String} (hk : key ∈ keys) :
    0 < (keys.foldl lock g).held key := by
  induction keys generalizing g with
  | nil => exact absurd hk List.not_mem_nil
  | cons first keys ih =>
      rcases List.mem_cons.mp hk with rfl | hk
      · obtain ⟨-, -, -, hheld⟩ := (g.lock key).foldl_lock keys
        have := hheld key
        rw [lock_held_self] at this
        exact Nat.lt_of_lt_of_le (Nat.succ_pos _) this
      · exact ih (g.lock first) hk

@[simp] theorem inside_still : (g.inside service exclusive).still = g.still :=
  (g.foldl_lock _).1

@[simp] theorem inside_seen : (g.inside service exclusive).seen = g.seen :=
  (g.foldl_lock _).2.1

@[simp] theorem inside_command : (g.inside service exclusive).command = g.command :=
  (g.foldl_lock _).2.2.1

theorem inside_held : 0 < (g.inside service exclusive).held service :=
  g.foldl_lock_pos List.mem_cons_self

theorem inside_group (hservice : service ∈ EXCLUSIVE_SERVICES) :
    0 < (g.inside service true).held EXCLUSIVE_GROUP := by
  refine g.foldl_lock_pos (List.mem_cons_of_mem _ ?_)
  rw [if_pos ⟨rfl, hservice⟩]
  exact List.mem_cons_self

end Ghost

theorem allowed_congr {g' : Ghost} (hstill : g'.still = g.still) (hseen : g'.seen = g.seen) :
    Allowed g' service request ↔ Allowed g service request := by
  cases request with
  | scenarioStackStart package file args => simp only [Allowed, hstill]
  | scenarioTestStart body => simp only [Allowed, hseen]
  | scenarioEnvStart gui => simp only [Allowed, hseen]
  | _ => exact Iff.rfl

/-! ## ComposeRunner -/

theorem holds_compose {args : List String} {env : List (String × String)} {timeout : Nat}
    (hidle : g.command = none) (hheld : 0 < g.held (composeService args))
    (hgroup : composeService args ∈ EXCLUSIVE_SERVICES → 0 < g.held EXCLUSIVE_GROUP)
    (hallowed : Allowed g (composeService args) request) :
    Holds (discipline request) (Leaves g.held) (compose args env timeout) g := by
  refine Holds.bind (holds_perform ⟨hidle, hheld, hgroup, hallowed⟩ fun _ g' hnext => ?_)
  obtain rfl := hnext
  refine Holds.bind (holds_perform rfl fun outcome g' hnext => ?_)
  obtain rfl := hnext
  cases outcome with
  | completed returncode stdout stderr =>
      dsimp only
      split_ifs with hzero
      · exact holds_pure ⟨rfl, rfl⟩
      · exact holds_pure ⟨rfl, rfl⟩
  | timedOut => exact holds_pure ⟨rfl, rfl⟩
  | raised message => exact holds_pure ⟨rfl, rfl⟩

@[simp] theorem composeService_append (args : List String) :
    composeService (args ++ [service]) = service := by
  rw [composeService, List.getLastD_eq_getLast?, List.getLast?_append]
  rfl

theorem holds_up {env : List (String × String)} {timeout : Nat} {extraArgs : List String}
    (hidle : g.command = none) (hallowed : Allowed g service request) :
    Holds (discipline request) (Leaves g.held) (up service env timeout extraArgs) g := by
  have hservice : composeService (["up", "-d"] ++ extraArgs ++ [service]) = service :=
    composeService_append _
  refine holds_catchBusy (holds_operation hidle (holds_compose ?_ ?_ ?_ ?_))
  · rwa [Ghost.inside_command]
  · rw [hservice]
    exact g.inside_held service true
  · rw [hservice]
    exact g.inside_group service
  · rw [hservice]
    exact (allowed_congr (by simp) (by simp)).mpr hallowed

theorem holds_restart (hidle : g.command = none) (hallowed : Allowed g service request) :
    Holds (discipline request) (Leaves g.held) (ComposeRunner.restart service) g := by
  refine holds_catchBusy (holds_operation hidle (holds_compose ?_ ?_ ?_ ?_))
  · rwa [Ghost.inside_command]
  · exact g.inside_held service true
  · exact g.inside_group service
  · exact (allowed_congr (by simp) (by simp)).mpr hallowed

/-- A query leaves the ghost state alone. -/
theorem holds_list (hheld : 0 < g.held service) : Holds (discipline request) (fun g' x => g' = g ∧
    ∀ containers, x = .ok containers → ∀ c ∈ containers, c.service = service)
    (list service) g := by
  refine Holds.bind (holds_perform hheld fun result g' hnext => ?_)
  cases result with
  | error message =>
      obtain rfl := hnext
      exact ⟨rfl, nofun⟩
  | ok containers =>
      obtain ⟨rfl, hall⟩ := hnext
      refine ⟨rfl, fun sorted heq c hc => hall c ?_⟩
      obtain rfl := Except.ok.inj heq
      rcases List.mem_append.mp hc with hc | hc
      · exact List.mem_of_mem_filter hc
      · exact List.mem_of_mem_filter hc

theorem holds_getContainer (hheld : 0 < g.held service) : Holds (discipline request) (fun g' x => g' = g ∧
    ∀ container, x = .ok (some container) → container.service = service)
    (getContainer service) g := by
  refine Holds.bind ((holds_list hheld).mono fun g' x hx => ?_)
  obtain ⟨rfl, hall⟩ := hx
  cases x with
  | error e => exact ⟨rfl, nofun⟩
  | ok containers =>
      refine holds_pure ⟨rfl, fun container heq => hall containers rfl container ?_⟩
      exact List.mem_of_head? (Except.ok.inj heq)

theorem holds_getStatus (hidle : g.command = none) {post : Ghost → Except Exn Status → Prop}
    (hok : ∀ raw, post (g.told (fetchStatus raw)) (.ok (fetchStatus raw)))
    (herror : ∀ e, post g (.error e)) : Holds (discipline request) post getStatus g := by
  refine Holds.bind (holds_perform hidle fun result g' hnext => ?_)
  cases result with
  | error message =>
      obtain rfl := hnext
      exact herror _
  | ok raw =>
      obtain rfl := hnext
      exact hok raw

theorem holds_stopAll {timeout : Option Nat} {containers : List Container}
    (hheld : ∀ c ∈ containers, 0 < g.held c.service) :
    Holds (discipline request) (fun g' _ => g' = g) (stopAll timeout containers) g := by
  induction containers with
  | nil => exact rfl
  | cons container rest ih =>
      refine Holds.bind (holds_perform (hheld container List.mem_cons_self) fun result g' hnext => ?_)
      obtain rfl := hnext
      cases result with
      | error message => exact rfl
      | ok _ => exact ih fun c hc => hheld c (List.mem_cons_of_mem _ hc)

theorem holds_stopContainers {timeout : Option Nat} (hheld : 0 < g.held service) :
    Holds (discipline request) (fun g' _ => g' = g) (stopContainers service timeout) g := by
  refine Holds.bind ((holds_list hheld).mono fun g' x hx => ?_)
  obtain ⟨rfl, hall⟩ := hx
  cases x with
  | error e => exact rfl
  | ok containers =>
      dsimp only
      split_ifs with hempty htargets
      · exact rfl
      · refine holds_stopAll fun c hc => ?_
        rw [hall containers rfl c (List.mem_of_mem_take hc)]
        exact hheld
      · refine holds_stopAll fun c hc => ?_
        rw [hall containers rfl c (List.mem_of_mem_filter hc)]
        exact hheld

theorem holds_stop {timeout : Option Nat} (hidle : g.command = none) :
    Holds (discipline request) (Leaves g.held) (ComposeRunner.stop service timeout) g := by
  have hinside : (g.inside service false).command = none := by rwa [Ghost.inside_command]
  exact holds_catchBusy (holds_operation hidle
    ((holds_stopContainers (g.inside_held service false)).mono fun _ _ => Leaves.of_eq hinside))

theorem holds_remove (hheld : 0 < g.held service) :
    Holds (discipline request) (fun g' _ => g' = g) (remove service) g := by
  refine Holds.bind ((holds_getContainer hheld).mono fun g' x hx => ?_)
  obtain ⟨rfl, hservice⟩ := hx
  cases x with
  | error e => exact rfl
  | ok container =>
      cases container with
      | none => exact rfl
      | some container =>
          have hown : 0 < g'.held container.service := by
            rw [hservice container rfl]
            exact hheld
          refine Holds.bind (holds_perform hown fun result g'' hnext => ?_)
          obtain rfl := hnext
          cases result with
          | error message => exact rfl
          | ok _ => exact rfl

theorem holds_removeAll {containers : List Container}
    (hheld : ∀ c ∈ containers, 0 < g.held c.service) :
    Holds (discipline request) (fun g' _ => g' = g) (removeAll containers) g := by
  induction containers with
  | nil => exact rfl
  | cons container rest ih =>
      have hrest := ih fun c hc => hheld c (List.mem_cons_of_mem _ hc)
      rw [removeAll]
      split_ifs with hrunning
      · exact hrest
      · refine Holds.bind (holds_perform (hheld container List.mem_cons_self) fun _ g' hnext => ?_)
        obtain rfl := hnext
        exact hrest

theorem holds_removeStopped (hheld : 0 < g.held service) :
    Holds (discipline request) (fun g' _ => g' = g) (removeStopped service) g := by
  refine Holds.bind ((holds_list hheld).mono fun g' x hx => ?_)
  obtain ⟨rfl, hall⟩ := hx
  cases x with
  | error e => exact rfl
  | ok containers =>
      refine holds_removeAll fun c hc => ?_
      rw [hall containers rfl c hc]
      exact hheld

/-! ## The handlers -/

theorem holds_route {p : Program (Bool × String)}
    (hp : Holds (discipline request) (Leaves held) p g) (hheld : g.held = held)
    (hidle : g.command = none) :
    Holds (discipline request) (Leaves held) (Services.route service p) g := by
  unfold Services.route
  split_ifs with hmem
  · exact holds_result hp
  · exact ⟨hheld, hidle⟩

/-- The second operation is inside the first: no hardware service comes up between the check
and the start. -/
theorem holds_startStack {package file : String} {args : List (String × String)}
    (hidle : g.command = none) :
    Holds (discipline (.scenarioStackStart package file args)) (Leaves g.held)
      (ScenarioStack.startStack package file args) g := by
  have hinside : (g.inside SCENARIO_STACK_SERVICE true).command = none := by
    rwa [Ghost.inside_command]
  refine holds_catchBusy (holds_operation hidle (Holds.bind (holds_getStatus hinside ?_ ?_)))
  · intro raw
    dsimp only
    split_ifs with hrunning
    · exact ⟨rfl, hinside⟩
    · refine holds_up (g := Ghost.told _ _) hinside ⟨rfl, ?_⟩
      have hgroup := g.inside_group SCENARIO_STACK_SERVICE (by decide)
      have hempty : (runningOf (fetchStatus raw) HARDWARE_SERVICE_KEYS).isEmpty = true := by
        simpa using hrunning
      exact Bool.and_eq_true_iff.mpr ⟨decide_eq_true hgroup, hempty⟩
  · exact fun e => ⟨rfl, hinside⟩

theorem holds_stopStack (hidle : g.command = none) :
    Holds (discipline request) (Leaves g.held) ScenarioStack.stopStack g := by
  have hinside : (g.inside SCENARIO_STACK_SERVICE false).command = none := by
    rwa [Ghost.inside_command]
  have hown := g.inside_held SCENARIO_STACK_SERVICE false
  refine holds_catchBusy (holds_operation hidle (Holds.bind ((holds_getContainer hown).mono ?_)))
  rintro g' x ⟨rfl, -⟩
  cases x with
  | error e => exact ⟨rfl, hinside⟩
  | ok container =>
      cases container with
      | none => exact ⟨rfl, hinside⟩
      | some container =>
          refine holds_seq (holds_stop hinside) fun g' a hheld hidle' => ?_
          dsimp only
          split_ifs with hok
          · exact holds_pure ⟨hheld, hidle'⟩
          · have hown' : 0 < g'.held SCENARIO_STACK_SERVICE := by
              rw [hheld]
              exact hown
            rw [← hheld]
            exact (holds_remove hown').mono fun _ _ => Leaves.of_eq hidle'

theorem holds_startRun {settings : Settings} {body : ScenarioTestStartRequest} {runId : String}
    (hidle : g.command = none) :
    Holds (discipline (.scenarioTestStart body)) (Leaves g.held)
      (ScenarioTest.startRun settings body runId) g := by
  have hinside : (g.inside SCENARIO_TEST_SERVICE false).command = none := by
    rwa [Ghost.inside_command]
  have hown := g.inside_held SCENARIO_TEST_SERVICE false
  refine holds_operation hidle (Holds.bind (holds_getStatus hinside ?_ ?_))
  · intro raw
    dsimp only
    cases hcheck : ScenarioTest.checkRunningServices (fetchStatus raw) body with
    | some error => exact ⟨rfl, hinside⟩
    | none =>
        have hown' : 0 < ((g.inside SCENARIO_TEST_SERVICE false).told (fetchStatus raw)).held
          SCENARIO_TEST_SERVICE := hown
        refine Holds.bind ((holds_removeStopped hown').mono fun g' x hx => ?_)
        obtain rfl := hx
        cases x with
        | error e => exact ⟨rfl, hinside⟩
        | ok _ =>
            have hservice (args : List String) (option : String) :
                composeService (args ++ ["-e", option, SCENARIO_TEST_SERVICE]) =
                  SCENARIO_TEST_SERVICE := by
              simp [composeService]
            refine holds_seq (holds_compose hinside ?_ ?_ ?_) fun g' a hheld hidle' =>
              holds_pure ⟨hheld, hidle'⟩
            · rw [hservice]
              exact hown
            · rw [hservice]
              exact fun hmem => absurd hmem (by decide)
            · rw [hservice]
              exact ⟨rfl, fetchStatus raw, rfl, hcheck⟩
  · exact fun e => ⟨rfl, hinside⟩

theorem holds_startTest {settings : Settings} {body : ScenarioTestStartRequest}
    (hidle : g.command = none) :
    Holds (discipline (.scenarioTestStart body)) (Leaves g.held)
      (ScenarioTest.start settings body) g := by
  unfold ScenarioTest.start
  split
  · exact ⟨rfl, hidle⟩
  · refine Holds.bind (holds_perform trivial fun runId g' hnext => ?_)
    obtain rfl := hnext
    refine Holds.tryCatch ((holds_startRun hidle).mono fun g' x hx => ?_)
    cases x with
    | ok a => exact hx
    | error e =>
        cases e with
        | busy message => exact hx
        | docker message => exact hx
        | runtime message => exact hx

/-- The check is made before the operation starts. -/
theorem holds_startEnv {settings : Settings} {gui : Bool} (hidle : g.command = none) :
    Holds (discipline (.scenarioEnvStart gui)) (Leaves g.held)
      (ScenarioTest.startEnv settings gui) g := by
  refine Holds.bind (holds_getStatus hidle ?_ ?_)
  · intro raw
    dsimp only
    cases hcheck : ScenarioTest.checkEnv (fetchStatus raw) with
    | some error => exact ⟨rfl, hidle⟩
    | none =>
        exact holds_result (holds_up (g := Ghost.told _ _) hidle ⟨rfl, fetchStatus raw, rfl, hcheck⟩)
  · exact fun e => ⟨rfl, hidle⟩

/-- Every request, from its first action on. -/
theorem holds_handler (settings : Settings) (request : Request) :
    Holds (discipline request) (Leaves Ghost.idle.held) (handler settings request) Ghost.idle := by
  have hleft {x : Except Exn Response} : Leaves Ghost.idle.held Ghost.idle x := ⟨rfl, rfl⟩
  cases request with
  | start service => exact holds_route (holds_up rfl trivial) rfl rfl
  | stop service => exact holds_route (holds_stop rfl) rfl rfl
  | restart service => exact holds_route (holds_restart rfl trivial) rfl rfl
  | scenarioStackStart package file args =>
      rw [handler, ScenarioStack.start]
      split
      · exact hleft
      · exact holds_result (holds_startStack rfl)
  | scenarioStackStop => exact holds_result (holds_stopStack rfl)
  | scenarioTestStart body => exact holds_startTest rfl
  | scenarioTestStop => exact holds_result (holds_stop rfl)
  | scenarioEnvStart gui => exact holds_startEnv rfl
  | scenarioEnvStop => exact holds_result (holds_stop rfl)
  | previewStart slamMapPath =>
      rw [handler, Maps.startPreview]
      split_ifs
      · exact hleft
      · exact holds_result (holds_up rfl trivial)
  | previewStop => exact holds_result (holds_stop rfl)
  | reoptimizeStart inputDir bagPath saveDir =>
      rw [handler, Maps.startReoptimize]
      split_ifs
      · exact hleft
      · exact hleft
      · exact hleft
      · exact holds_result (holds_up rfl trivial)
  | reoptimizeStop => exact holds_result (holds_stop rfl)
  | rosbagReplayStart file topics =>
      rw [handler, Rosbag.startReplay]
      split_ifs
      · exact hleft
      · split
        · exact hleft
        · exact holds_result (holds_up rfl trivial)
  | rosbagReplayStop => exact holds_result (holds_stop rfl)

/-! ## Every run -/

/-- A thread goes on with the response to its action. -/
theorem step_run {settings : Settings} {w w' : World} {i : Nat} {outcome : Outcome}
    (hs : step settings w (.run i outcome) = some w') :
    ∃ request a next, w.threads[i]? = some (request, .act a next) ∧
      w' = ⟨(w.shared.perform i a outcome).1,
        w.threads.set i (request, next (w.shared.perform i a outcome).2)⟩ :=
  Pool.runThread_some (show w.runThread shared i outcome = some w' from hs)

/-- Every thread keeps to its discipline, and what it knows is so. -/
abbrev SoundWorld (g : Nat → Ghost) (w : World) : Prop :=
  Pool.Sound discipline (Leaves Ghost.idle.held) Joint Ghost.idle g w

theorem soundWorld_step {settings : Settings} {w w' : World} {g : Nat → Ghost} {e : Event}
    (h : SoundWorld g w) (hs : step settings w e = some w') : ∃ g', SoundWorld g' w' :=
  Pool.Sound.step (holds_handler settings) (fun _ _ i request a outcome hj => hj.perform request i a outcome)
    (fun _ _ _ _ hj => hj.engine) h hs

theorem soundWorld_initial (containers : List Container) :
    SoundWorld (fun _ => Ghost.idle) (initial containers) :=
  ⟨joint_initial containers, nofun, fun _ _ => rfl⟩

end MgRobot.SystemManager
