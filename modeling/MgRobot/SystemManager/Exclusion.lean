import MgRobot.SystemManager.Handlers

/-!
# The scenario stack and the hardware services

Starting the scenario stack and starting a hardware service exclude each other by
a lock, and the request for the scenario stack checks under the lock that no
hardware service runs. The other ways to start either check nothing.
-/

namespace MgRobot.SystemManager

set_option autoImplicit false

open MgRobot.Lib.Runs MgRobot.Lib.Resumption

/-- The service that an action is part of an operation on. -/
def Action.service? : Action → Option String
  | .list service => some service
  | .stop container _ | .remove container => some container.service
  | .composeBegin args _ _ | .composeEnd args => some (composeService args)
  | .acquire _ | .release _ | .containers | .strftime => none

/-- Thread `i` is at a step of an operation on the service. -/
def Operates (w : World) (i : Nat) (service : String) : Prop :=
  ∃ a, w.action? i = some a ∧ a.service? = some service

/-- Thread `i` has a command for the service in progress, or is about to give one. -/
def Starts (w : World) (i : Nat) (service : String) : Prop :=
  (i, service) ∈ w.shared.commands ∨ ∃ args env timeout,
    w.action? i = some (.composeBegin args env timeout) ∧ composeService args = service

/-- While a command brings the stack up, no hardware service runs and no other request starts
one; and the other way round. -/
def Exclusive (w : World) : Prop :=
  ∀ i service, (i, service) ∈ w.shared.commands →
    (service = SCENARIO_STACK_SERVICE → ∀ s ∈ HARDWARE_SERVICE_KEYS,
      w.shared.running s = false ∧ ∀ j ≠ i, ¬Starts w j s) ∧
    (service ∈ HARDWARE_SERVICE_KEYS →
      w.shared.running SCENARIO_STACK_SERVICE = false ∧
        ∀ j ≠ i, ¬Starts w j SCENARIO_STACK_SERVICE)

/-- Who is at a step of an operation on a service has its lock, and is the only one. -/
def OneOperation (w : World) : Prop :=
  ∀ i service, Operates w i service →
    (∃ depth, w.shared.locks service = some (i, depth)) ∧ ∀ j, Operates w j service → j = i

/-- Whoever has a lock is a request that has not ended. -/
def Released (w : World) : Prop :=
  ∀ key i depth, w.shared.locks key = some (i, depth) → (w.action? i).isSome

/-! ## What the locks give -/

section Sound

variable {w : World} {g : Nat → Ghost} {i j : Nat} {service : String}

theorem Joint.locks_some {h : Host} (hj : Joint h g) {key : String} (hheld : 0 < (g i).held key) :
    ∃ depth, h.locks key = some (i, depth) := by
  rw [(hj.agrees i).locks] at hheld
  exact ⟨_, h.locks_of_depth hheld⟩

theorem SoundWorld.operates_held (h : SoundWorld g w) (ho : Operates w i service) :
    0 < (g i).held service := by
  obtain ⟨a, ha, hservice⟩ := ho
  obtain ⟨request, -, hpre⟩ := h.pre ha
  cases a with
  | list s =>
      obtain rfl := Option.some.inj hservice
      exact hpre
  | stop container timeout =>
      obtain rfl := Option.some.inj hservice
      exact hpre
  | remove container =>
      obtain rfl := Option.some.inj hservice
      exact hpre
  | composeBegin args env timeout =>
      obtain rfl := Option.some.inj hservice
      exact hpre.2.1
  | composeEnd args =>
      obtain rfl := Option.some.inj hservice
      exact ((h.joint.agrees i).busy _ hpre).1
  | acquire key => exact nomatch hservice
  | release key => exact nomatch hservice
  | containers => exact nomatch hservice
  | strftime => exact nomatch hservice

theorem SoundWorld.oneOperation (h : SoundWorld g w) : OneOperation w := fun _ _ ho =>
  ⟨h.joint.locks_some (h.operates_held ho), fun _ ho' =>
    h.joint.owner (h.operates_held ho') (h.operates_held ho)⟩

theorem SoundWorld.released (h : SoundWorld g w) : Released w := by
  intro key i depth hl
  refine Option.isSome_iff_ne_none.mpr fun hnone => ?_
  have hheld : (g i).held key = depth := by
    rw [(h.joint.agrees i).locks, Host.depth, hl]
    exact if_pos rfl
  have hpos := h.joint.positive key i depth hl
  rcases h.ended hnone with hfresh | ⟨x, hleaves, -⟩
  · rw [hfresh] at hheld
    exact absurd hheld (Nat.ne_of_lt hpos)
  · rw [hleaves] at hheld
    exact absurd hheld (Nat.ne_of_lt hpos)

/-- A start of the stack or of a hardware service has the lock of the group. -/
theorem SoundWorld.starts_group (h : SoundWorld g w) (hs : Starts w i service)
    (hservice : service ∈ EXCLUSIVE_SERVICES) : 0 < (g i).held EXCLUSIVE_GROUP := by
  rcases hs with hc | ⟨args, env, timeout, ha, rfl⟩
  · have hagrees := h.joint.agrees i
    exact (hagrees.busy service ((hagrees.commands service).mp hc)).2.1 hservice
  · obtain ⟨request, -, -, -, hgroup, -⟩ := h.pre ha
    exact hgroup hservice

theorem SoundWorld.starts_inj (h : SoundWorld g w) {s s' : String} (hi : Starts w i s)
    (hj : Starts w j s') (hs : s ∈ EXCLUSIVE_SERVICES) (hs' : s' ∈ EXCLUSIVE_SERVICES) : i = j :=
  h.joint.owner (h.starts_group hi hs) (h.starts_group hj hs')

end Sound

theorem stack_mem_exclusive : SCENARIO_STACK_SERVICE ∈ EXCLUSIVE_SERVICES := by decide

theorem hardware_mem_exclusive {s : String} (hs : s ∈ HARDWARE_SERVICE_KEYS) :
    s ∈ EXCLUSIVE_SERVICES := List.mem_append_left _ hs

/-! ## What the checks give -/

/-- The part of `Exclusive` that is about what runs. -/
def Apart (h : Host) : Prop :=
  ∀ i service, (i, service) ∈ h.commands →
    (service = SCENARIO_STACK_SERVICE → ∀ s ∈ HARDWARE_SERVICE_KEYS, h.running s = false) ∧
    (service ∈ HARDWARE_SERVICE_KEYS → h.running SCENARIO_STACK_SERVICE = false)

theorem SoundWorld.exclusive_iff_apart {w : World} {g : Nat → Ghost} (h : SoundWorld g w) :
    Exclusive w ↔ Apart w.shared := by
  refine forall_congr' fun i => forall_congr' fun service => forall_congr' fun hc => ?_
  constructor
  · rintro ⟨hstack, hhardware⟩
    exact ⟨fun hs s hmem => (hstack hs s hmem).1, fun hs => (hhardware hs).1⟩
  · rintro ⟨hstack, hhardware⟩
    refine ⟨fun hs s hmem => ⟨hstack hs s hmem, fun j hji hj => hji ?_⟩,
      fun hs => ⟨hhardware hs, fun j hji hj => hji ?_⟩⟩
    · refine h.starts_inj hj (.inl hc) (hardware_mem_exclusive hmem) ?_
      rw [hs]
      exact stack_mem_exclusive
    · exact h.starts_inj hj (.inl hc) stack_mem_exclusive (hardware_mem_exclusive hs)

/-- Whether the request looks at the hardware services before it starts its own. -/
def Request.checksHardware : Request → Bool
  | .scenarioStackStart _ _ _ => true
  | _ => false

/-- The command is checked, or what it would meet does not run. -/
def StartsApart (h : Host) (request : Request) : Action → Prop
  | .composeBegin args _ _ =>
      (composeService args = SCENARIO_STACK_SERVICE → request.checksHardware = false →
        ∀ s ∈ HARDWARE_SERVICE_KEYS, h.running s = false) ∧
      (composeService args ∈ HARDWARE_SERVICE_KEYS → h.running SCENARIO_STACK_SERVICE = false)
  | _ => True

/-- The condition on a step: an unchecked command for the scenario stack finds no hardware
service running, and a command for a hardware service does not find the stack running. -/
def MeetsApart (w : World) : Event → Prop
  | .run i _ =>
      match w.name? i, w.action? i with
      | some request, some a => StartsApart w.shared request a
      | _, _ => True
  | .spawn _ | .environment _ => True

instance (h : Host) (request : Request) (a : Action) : Decidable (StartsApart h request a) :=
  match a with
  | .composeBegin args _ _ => inferInstanceAs (Decidable
      ((composeService args = SCENARIO_STACK_SERVICE → request.checksHardware = false →
        ∀ s ∈ HARDWARE_SERVICE_KEYS, h.running s = false) ∧
      (composeService args ∈ HARDWARE_SERVICE_KEYS → h.running SCENARIO_STACK_SERVICE = false)))
  | .acquire _ | .release _ | .containers | .list _ | .stop _ _ | .remove _ | .composeEnd _
  | .strftime => isTrue trivial

instance (w : World) : DecidablePred (MeetsApart w)
  | .run i _ =>
      let rec answers : ∀ (request : Option Request) (action : Option Action), Decidable
          (match request, action with
          | some request, some a => StartsApart w.shared request a
          | _, _ => True)
        | some request, some a => inferInstanceAs (Decidable (StartsApart w.shared request a))
        | some _, none | none, _ => isTrue trivial
      answers (w.name? i) (w.action? i)
  | .spawn _ | .environment _ => isTrue trivial

section Apart

variable {h h' : Host} {g : Nat → Ghost} {i : Nat} {request : Request} {a : Action}
  {outcome : Outcome}

/-- No more commands are in progress and no more services run. -/
structure Quieter (h' h : Host) : Prop where
  commands : ∀ e ∈ h'.commands, e ∈ h.commands
  running : ∀ s, h'.running s = true → h.running s = true

theorem Quieter.of_eq (hcommands : h'.commands = h.commands)
    (hcontainers : h'.containers = h.containers) : Quieter h' h := by
  refine ⟨fun e he => ?_, fun s hs => ?_⟩
  · rwa [← hcommands]
  · rwa [Host.running, ← hcontainers]

theorem Quieter.of_containers {containers : List Container}
    (hsub : ∀ c ∈ containers, c.state = .running → ∃ c' ∈ h.containers,
      c'.service = c.service ∧ c'.state = .running) :
    Quieter { h with containers := containers } h := by
  refine ⟨fun _ he => he, fun s hs => ?_⟩
  obtain ⟨c, hc, rfl, hstate⟩ := (Host.running_iff _).mp hs
  obtain ⟨c', hc', hservice, hstate'⟩ := hsub c hc hstate
  exact (Host.running_iff h).mpr ⟨c', hc', hservice, hstate'⟩

theorem Host.acquire_quieter (h : Host) (i : Nat) (key : String) : Quieter (h.acquire i key).1 h := by
  unfold Host.acquire
  split
  · exact Quieter.of_eq rfl rfl
  · split_ifs
    · exact Quieter.of_eq rfl rfl
    · exact Quieter.of_eq rfl rfl

theorem Host.release_quieter (h : Host) (i : Nat) (key : String) : Quieter (h.release i key).1 h := by
  unfold Host.release
  split
  · exact Quieter.of_eq rfl rfl
  · split
    · exact Quieter.of_eq rfl rfl
    · exact Quieter.of_eq rfl rfl

/-- Only the start of a command can bring anything up. -/
theorem Host.perform_quieter (h : Host) (i : Nat) (outcome : Outcome)
    (ha : ∀ args env timeout, a ≠ .composeBegin args env timeout) :
    Quieter (h.perform i a outcome).1 h := by
  cases a with
  | acquire key => exact h.acquire_quieter i key
  | release key => exact h.release_quieter i key
  | containers => cases outcome <;> exact Quieter.of_eq rfl rfl
  | list service => exact Quieter.of_eq rfl rfl
  | stop container timeout =>
      cases outcome with
      | completed returncode stdout stderr =>
          refine Quieter.of_containers fun c hc hstate => ?_
          obtain ⟨c', hc', rfl⟩ := List.mem_map.mp hc
          split_ifs at hstate ⊢ with hid
          exact ⟨c', hc', rfl, hstate⟩
      | timedOut => exact Quieter.of_eq rfl rfl
      | raised message => exact Quieter.of_eq rfl rfl
  | remove container =>
      cases outcome with
      | completed returncode stdout stderr =>
          exact Quieter.of_containers fun c hc hstate => ⟨c, List.mem_of_mem_filter hc, rfl, hstate⟩
      | timedOut => exact Quieter.of_eq rfl rfl
      | raised message => exact Quieter.of_eq rfl rfl
  | composeBegin args env timeout => exact absurd rfl (ha args env timeout)
  | composeEnd args => exact ⟨fun e he => List.mem_of_mem_filter he, fun _ hs => hs⟩
  | strftime => exact Quieter.of_eq rfl rfl

theorem Apart.quieter (hapart : Apart h) (hq : Quieter h' h) : Apart h' := by
  intro i service hc
  obtain ⟨hstack, hhardware⟩ := hapart i service (hq.commands _ hc)
  refine ⟨fun hs s hmem => Bool.eq_false_iff.mpr fun hrun => ?_,
    fun hs => Bool.eq_false_iff.mpr fun hrun => ?_⟩
  · exact absurd (hstack hs s hmem) (ne_of_eq_of_ne (hq.running s hrun) nofun)
  · exact absurd (hhardware hs) (ne_of_eq_of_ne (hq.running _ hrun) nofun)

/-- A command may start exactly if it meets the condition. -/
theorem Apart.perform_iff (hapart : Apart h) (hj : Joint h g)
    (hpre : (discipline request).pre a (g i)) :
    Apart (h.perform i a outcome).1 ↔ StartsApart h request a := by
  cases a with
  | composeBegin args env timeout =>
      constructor
      · intro hnext
        have hc : (i, composeService args) ∈ h.commands ++ [(i, composeService args)] :=
          List.mem_append_right _ (List.mem_singleton_self _)
        obtain ⟨hstack, hhardware⟩ := hnext i (composeService args) hc
        exact ⟨fun hs _ => hstack hs, hhardware⟩
      · rintro ⟨hstack, hhardware⟩ k service hc
        rcases List.mem_append.mp hc with hc | hc
        · exact hapart k service hc
        · obtain ⟨rfl, rfl⟩ := Prod.mk.inj (List.mem_singleton.mp hc)
          refine ⟨fun hs => ?_, hhardware⟩
          cases hchecks : request.checksHardware with
          | false => exact hstack hs hchecks
          | true =>
              obtain ⟨-, -, -, hallowed⟩ := hpre
              cases request with
              | scenarioStackStart package file args' =>
                  exact ((hj.agrees k).still hallowed.2).2
              | _ => exact nomatch hchecks
  | _ => exact iff_of_true (hapart.quieter (h.perform_quieter i outcome nofun)) trivial

/-- What the engine brings up is what a command is in progress for. -/
theorem Apart.engine (hapart : Apart h) (hj : Joint h g) {containers : List Container}
    (he : h.engine containers = some h') : Apart h' := by
  unfold Host.engine at he
  split_ifs at he with hup
  obtain rfl := Option.some.inj he
  have hrun {s : String} (hs : { h with containers := containers }.running s = true) :
      h.running s = true ∨ ∃ j, (j, s) ∈ h.commands := by
    obtain ⟨c, hc, rfl, hstate⟩ := (Host.running_iff _).mp hs
    rcases hup c hc hstate with hrun | ⟨e, he, heq⟩
    · exact .inl hrun
    · exact .inr ⟨e.1, by rw [← heq]; exact he⟩
  have hone {i j : Nat} {s s' : String} (hi : (i, s) ∈ h.commands) (hk : (j, s') ∈ h.commands)
      (hs : s ∈ EXCLUSIVE_SERVICES) (hs' : s' ∈ EXCLUSIVE_SERVICES) : s = s' := by
    have hi' := ((hj.agrees i).commands s).mp hi
    have hk' := ((hj.agrees j).commands s').mp hk
    have hsame := hj.owner (((hj.agrees i).busy s hi').2.1 hs) (((hj.agrees j).busy s' hk').2.1 hs')
    rw [hsame] at hi'
    exact Option.some.inj (hi'.symm.trans hk')
  intro i service hc
  obtain ⟨hstack, hhardware⟩ := hapart i service hc
  refine ⟨fun hs s hmem => Bool.eq_false_iff.mpr fun hrun' => ?_,
    fun hs => Bool.eq_false_iff.mpr fun hrun' => ?_⟩
  · rcases hrun hrun' with hold | ⟨j, hk⟩
    · exact absurd (hstack hs s hmem) (ne_of_eq_of_ne hold nofun)
    · rw [hs] at hc
      obtain rfl := hone hc hk stack_mem_exclusive (hardware_mem_exclusive hmem)
      exact absurd hmem (by decide)
  · rcases hrun hrun' with hold | ⟨j, hk⟩
    · exact absurd (hhardware hs) (ne_of_eq_of_ne hold nofun)
    · obtain rfl := hone hc hk (hardware_mem_exclusive hs) stack_mem_exclusive
      exact absurd hs (by decide)

end Apart

/-! ## Every run -/

variable {settings : Settings} {w w' : World} {e : Event}

theorem SoundWorld.exclusive_step_iff {g g' : Nat → Ghost} (h : SoundWorld g w)
    (h' : SoundWorld g' w') (hexclusive : Exclusive w) (hs : step settings w e = some w') :
    Exclusive w' ↔ MeetsApart w e := by
  rw [h.exclusive_iff_apart] at hexclusive
  rw [h'.exclusive_iff_apart]
  cases e with
  | spawn request =>
      obtain rfl := Option.some.inj hs
      exact iff_of_true hexclusive trivial
  | run i outcome =>
      obtain ⟨request, a, next, hi, rfl⟩ := step_run hs
      have hname := Pool.name?_eq hi
      have haction := Pool.action?_eq hi
      have hpre := (h.holds i request _ hi).1
      simp only [MeetsApart, hname, haction]
      exact hexclusive.perform_iff h.joint hpre
  | environment containers =>
      obtain ⟨s, hs', rfl⟩ := Option.map_eq_some_iff.mp hs
      exact iff_of_true (hexclusive.engine h.joint hs') trivial

theorem exclusive_initial (containers : List Container) : Exclusive (initial containers) :=
  fun _ _ hc => absurd hc List.not_mem_nil

/-- In every run, whatever its requests and however their steps interleave: the stack and the
hardware services are kept apart exactly if every start that is not checked happens to keep
them apart, and operations on one service never overlap and leave no lock behind. -/
theorem exclusive_iff (settings : Settings) (containers : List Container) (events : List Event)
    (hrun : exec (step settings) (initial containers) events = some w) :
    (Always (step settings) (fun w => Exclusive w ∧ OneOperation w ∧ Released w)
        (initial containers) events ↔
      Meets (step settings) MeetsApart (initial containers) events) ∧
    OneOperation w ∧ Released w := by
  have hsound : ∀ w e w', (∃ g, SoundWorld g w) → step settings w e = some w' →
      ∃ g, SoundWorld g w' := by
    rintro w e w' ⟨g, h⟩ hs
    exact soundWorld_step h hs
  have hstart : ∃ g, SoundWorld g (initial containers) := ⟨_, soundWorld_initial containers⟩
  refine ⟨always_iff_meets hsound ?_ hstart ?_ hrun, ?_⟩
  · rintro w e w' ⟨g, h⟩ ⟨hexclusive, -⟩ hs
    obtain ⟨g', h'⟩ := soundWorld_step h hs
    rw [← h.exclusive_step_iff h' hexclusive hs]
    exact and_iff_left ⟨h'.oneOperation, h'.released⟩
  · obtain ⟨g, h⟩ := hstart
    exact ⟨exclusive_initial containers, h.oneOperation, h.released⟩
  · obtain ⟨g, h⟩ := invariant_of_step hsound hstart hrun
    exact ⟨h.oneOperation, h.released⟩

/-- What the settings are when the environment sets nothing. -/
def defaultSettings : Settings :=
  ⟨"warehouse", ["mg_bringup"], ["/app/mg_scenario_test/scenarios/regression",
    "/app/mg_scenario_test/scenarios/examples"], "/root/ros2_data/scenario_results", "mg01", "42"⟩

def succeeded : Outcome := .completed 0 "" ""

def navigationExited : List Container := [⟨0, "navigation", .exited⟩]

/-- The stack is started, while a start of the navigation gets the lock of its service only. -/
def refusedRun : List Event :=
  [.spawn (.scenarioStackStart "mg_bringup" "stack.launch.py" []), .spawn (.start "navigation")] ++
    List.replicate 3 (.run 0 succeeded) ++ List.replicate 3 (.run 1 succeeded) ++
    List.replicate 3 (.run 0 succeeded) ++
    [.environment (⟨1, SCENARIO_STACK_SERVICE, .running⟩ :: navigationExited)] ++
    List.replicate 5 (.run 0 succeeded)

theorem exclusive_refused : Always (step defaultSettings)
    (fun w => Exclusive w ∧ OneOperation w ∧ Released w) (initial navigationExited) refusedRun := by
  obtain ⟨w, hw, -⟩ : ∃ w, exec (step defaultSettings) (initial navigationExited) refusedRun =
      some w ∧ w.shared.running SCENARIO_STACK_SERVICE = true :=
    exists_exec (by decide +kernel)
  exact (exclusive_iff defaultSettings navigationExited refusedRun hw).1.mpr (by decide +kernel)

/-- The generic start of the stack does not look at the navigation that runs. -/
theorem not_exclusive_generic : ∃ w,
    exec (step defaultSettings) (initial [⟨0, "navigation", .running⟩])
      (.spawn (.start SCENARIO_STACK_SERVICE) :: List.replicate 3 (.run 0 succeeded)) = some w ∧
    ¬Exclusive w := by
  obtain ⟨w, hw, hcommand, hrunning⟩ : ∃ w,
      exec (step defaultSettings) (initial [⟨0, "navigation", .running⟩])
        (.spawn (.start SCENARIO_STACK_SERVICE) :: List.replicate 3 (.run 0 succeeded)) = some w ∧
      (0, SCENARIO_STACK_SERVICE) ∈ w.shared.commands ∧ w.shared.running "navigation" = true :=
    exists_exec (by decide +kernel)
  refine ⟨w, hw, fun h => ?_⟩
  have hquiet := ((h 0 SCENARIO_STACK_SERVICE hcommand).1 rfl "navigation" (by decide)).1
  rw [hrunning] at hquiet
  exact nomatch hquiet

end MgRobot.SystemManager
