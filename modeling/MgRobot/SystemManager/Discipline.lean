import MgRobot.SystemManager.Routers

/-!
# What a request may do

The ghost state of a request, what each action asks of it, and that it agrees
with the locks, the commands and the containers after every action of every
request: the lock table has one owner for each key, and what a status told under
the exclusive lock stays true until the lock goes.
-/

namespace MgRobot.SystemManager

set_option autoImplicit false

open MgRobot.Lib MgRobot.Lib.Resumption

/-- What a request knows: the locks it holds, that no hardware service runs and none can come
up, the status it has been told and not acted on, and the service of its command in progress. -/
structure Ghost where
  held : String → Nat
  still : Bool
  seen : Option Status
  command : Option String

namespace Ghost

def idle : Ghost := ⟨fun _ => 0, false, none, none⟩

variable (g : Ghost) {key : String}

def lock (key : String) : Ghost :=
  { g with held := Function.update g.held key (g.held key + 1) }

def unlock (key : String) : Ghost :=
  let held := Function.update g.held key (g.held key - 1)
  { g with held := held, still := g.still && decide (0 < held EXCLUSIVE_GROUP) }

def told (status : Status) : Ghost :=
  { g with
    seen := some status
    still := decide (0 < g.held EXCLUSIVE_GROUP) &&
      (runningOf status HARDWARE_SERVICE_KEYS).isEmpty }

def begin (service : String) : Ghost :=
  { g with still := false, seen := none, command := some service }

def finish : Ghost := { g with command := none }

@[simp] theorem lock_held_self : (g.lock key).held key = g.held key + 1 :=
  Function.update_self _ _ _

theorem lock_held_le (k : String) : g.held k ≤ (g.lock key).held k := by
  by_cases h : k = key
  · subst h
    rw [lock_held_self]
    omega
  · exact Nat.le_of_eq (Function.update_of_ne h _ _).symm

end Ghost

/-- A request that checks a status starts its own service, and only after the check. -/
def Allowed (g : Ghost) (service : String) : Request → Prop
  | .scenarioStackStart _ _ _ => service = SCENARIO_STACK_SERVICE ∧ g.still = true
  | .scenarioTestStart body => service = SCENARIO_TEST_SERVICE ∧
      ∃ status, g.seen = some status ∧ ScenarioTest.checkRunningServices status body = none
  | .scenarioEnvStart _ => service = SCENARIO_ENV_SERVICE ∧
      ∃ status, g.seen = some status ∧ ScenarioTest.checkEnv status = none
  | _ => True

def discipline (request : Request) : Discipline Action Action.Response Ghost where
  pre
    | .release key, g => 0 < g.held key ∧ g.command = none
    | .containers, g => g.command = none
    | .list service, g => 0 < g.held service
    | .stop container _, g | .remove container, g => 0 < g.held container.service
    | .composeBegin args _ _, g => g.command = none ∧ 0 < g.held (composeService args) ∧
        (composeService args ∈ EXCLUSIVE_SERVICES → 0 < g.held EXCLUSIVE_GROUP) ∧
        Allowed g (composeService args) request
    | .composeEnd args, g => g.command = some (composeService args)
    | .acquire _, _ | .strftime, _ => True
  next
    | .acquire key, acquired, g, g' => g' = if acquired then g.lock key else g
    | .release key, owned, g, g' => owned = true ∧ g' = g.unlock key
    | .containers, .ok raw, g, g' => g' = g.told (fetchStatus raw)
    | .list service, .ok containers, g, g' => g' = g ∧ ∀ c ∈ containers, c.service = service
    | .composeBegin args _ _, _, g, g' => g' = g.begin (composeService args)
    | .composeEnd _, _, g, g' => g' = g.finish
    | .containers, .error _, g, g' | .list _, .error _, g, g' | .stop _ _, _, g, g'
    | .remove _, _, g, g' | .strftime, _, g, g' => g' = g

namespace Host

variable (h : Host)

/-- How often thread `i` holds a lock. -/
def depth (i : Nat) (key : String) : Nat :=
  match h.locks key with
  | none => 0
  | some (owner, depth) => if owner = i then depth else 0

theorem running_iff {service : String} :
    h.running service = true ↔
      ∃ c ∈ h.containers, c.service = service ∧ c.state = .running := by
  simp [running]

/-- A lock has one owner. -/
theorem depth_pos_inj {i j : Nat} {key : String} (hi : 0 < h.depth i key)
    (hj : 0 < h.depth j key) : i = j := by
  unfold depth at hi hj
  cases hl : h.locks key with
  | none =>
      rw [hl] at hi
      exact absurd hi (Nat.lt_irrefl 0)
  | some e =>
      rw [hl] at hi hj
      dsimp only at hi hj
      split_ifs at hi hj with h₁ h₂
      · exact h₁.symm.trans h₂
      all_goals omega

end Host

theorem noteContainer_iff (status : Status) (item : Container) (service : String) :
    (noteContainer status item).get? service = some .running ↔
      status.get? service = some .running ∨ item.service = service ∧ item.state = .running := by
  unfold noteContainer
  split_ifs with h
  · refine (or_iff_left_of_imp ?_).symm
    rintro ⟨rfl, -⟩
    exact h
  · rw [OrderedMap.get?_set]
    split_ifs with hs
    · subst hs
      simp [h]
    · simp [Ne.symm hs]

theorem fetchStatus_foldl (raw : List Container) (status : Status) (service : String) :
    (raw.foldl noteContainer status).get? service = some .running ↔
      status.get? service = some .running ∨
        ∃ c ∈ raw, c.service = service ∧ c.state = .running := by
  induction raw generalizing status with
  | nil => simp
  | cons item rest ih =>
      rw [List.foldl_cons, ih, noteContainer_iff, or_assoc]
      simp

/-- A service runs in the status exactly if one of its containers does. -/
theorem fetchStatus_iff (h : Host) (service : String) :
    (fetchStatus h.containers).get? service = some .running ↔ h.running service = true := by
  rw [fetchStatus, fetchStatus_foldl, h.running_iff]
  simp

theorem runningOf_isEmpty_iff {status : Status} {services : List String} :
    (runningOf status services).isEmpty = true ↔
      ∀ s ∈ services, status.get? s ≠ some .running := by
  rw [runningOf, List.isEmpty_iff, List.filter_eq_nil_iff]
  simp

/-! ## The ghost states and the host -/

/-- What a request knows is so. -/
structure Agrees (h : Host) (i : Nat) (g : Ghost) : Prop where
  locks : ∀ key, g.held key = h.depth i key
  seen : g.seen = h.seen i
  commands : ∀ s, (i, s) ∈ h.commands ↔ g.command = some s
  busy : ∀ s, g.command = some s → 0 < g.held s ∧
    (s ∈ EXCLUSIVE_SERVICES → 0 < g.held EXCLUSIVE_GROUP) ∧ g.still = false ∧ g.seen = none
  still : g.still = true → 0 < g.held EXCLUSIVE_GROUP ∧
    ∀ s ∈ HARDWARE_SERVICE_KEYS, h.running s = false

structure Joint (h : Host) (g : Nat → Ghost) : Prop where
  agrees : ∀ i, Agrees h i (g i)
  positive : ∀ key owner depth, h.locks key = some (owner, depth) → 0 < depth

variable {h h' : Host} {g : Nat → Ghost} {g' : Ghost} {i j : Nat} {key : String}

/-- A lock that two requests hold is held by one. -/
theorem Joint.owner (hj : Joint h g) (hi : 0 < (g i).held key) (hk : 0 < (g j).held key) :
    i = j := by
  rw [(hj.agrees _).locks] at hi hk
  exact h.depth_pos_inj hi hk

theorem joint_initial (containers : List Container) :
    Joint (initial containers).shared fun _ => Ghost.idle := by
  refine ⟨fun i => ⟨fun _ => rfl, rfl, fun s => ?_, nofun, nofun⟩, nofun⟩
  exact iff_of_false List.not_mem_nil nofun

theorem joint_update (hi : Agrees h' i g') (hrest : ∀ j ≠ i, Agrees h' j (g j))
    (hpositive : ∀ key owner depth, h'.locks key = some (owner, depth) → 0 < depth) :
    Joint h' (Function.update g i g') :=
  ⟨(Function.forall_update_iff g (p := fun j => Agrees h' j)).mpr ⟨hi, hrest⟩, hpositive⟩

/-- Containers may stop and go at any time. -/
theorem Joint.containers (hj : Joint h g) {containers : List Container}
    (hrun : ∀ s ∈ HARDWARE_SERVICE_KEYS, h.running s = false →
      (∀ i, (i, s) ∉ h.commands) → { h with containers := containers }.running s = false) :
    Joint { h with containers := containers } g := by
  refine ⟨fun i => ?_, hj.positive⟩
  obtain ⟨hlocks, hseen, hcommands, hbusy, hstill⟩ := hj.agrees i
  refine ⟨hlocks, hseen, hcommands, hbusy, fun hi => ?_⟩
  obtain ⟨hheld, hquiet⟩ := hstill hi
  refine ⟨hheld, fun s hs => hrun s hs (hquiet s hs) fun k hk => ?_⟩
  have hk' := hj.agrees k
  obtain ⟨-, hgroup, hnot, -⟩ := hk'.busy s ((hk'.commands s).mp hk)
  have hsame := hj.owner hheld (hgroup (List.mem_append_left _ hs))
  rw [← hsame, hi] at hnot
  exact nomatch hnot

theorem Joint.engine (hj : Joint h g) {containers : List Container}
    (he : h.engine containers = some h') : Joint h' g := by
  unfold Host.engine at he
  split_ifs at he with hup
  obtain rfl := Option.some.inj he
  refine hj.containers fun s _ hquiet hnone => ?_
  refine Bool.eq_false_iff.mpr fun hrun => ?_
  obtain ⟨c, hc, rfl, hstate⟩ := (Host.running_iff _).mp hrun
  rcases hup c hc hstate with hrun' | ⟨e, he, hs⟩
  · rw [hquiet] at hrun'
    exact nomatch hrun'
  · exact hnone e.1 (by rw [← hs]; exact he)

/-! ## Locks -/

theorem Host.depth_update (h : Host) (key : String) (entry : Option (Nat × Nat)) (j : Nat)
    (k : String) :
    { h with locks := Function.update h.locks key entry }.depth j k =
      if k = key then
        match entry with
        | none => 0
        | some (owner, depth) => if owner = j then depth else 0
      else h.depth j k := by
  unfold Host.depth
  dsimp only
  split_ifs with hk
  · subst hk
    rw [Function.update_self]
  · rw [Function.update_of_ne hk]

/-- A lock that no other thread owns changes hands or depth. -/
theorem Joint.relock (hj : Joint h g) {entry : Option (Nat × Nat)}
    (hentry : ∀ owner depth, entry = some (owner, depth) → owner = i ∧ 0 < depth)
    (hothers : ∀ j ≠ i, h.depth j key = 0)
    (hi : Agrees { h with locks := Function.update h.locks key entry } i g') :
    Joint { h with locks := Function.update h.locks key entry } (Function.update g i g') := by
  refine joint_update hi (fun j hji => ?_) fun k owner depth hk => ?_
  · obtain ⟨hlocks, hseen, hcommands, hbusy, hstill⟩ := hj.agrees j
    refine ⟨fun k => ?_, hseen, hcommands, hbusy, hstill⟩
    rw [Host.depth_update, hlocks]
    split_ifs with hk
    · rw [hk, hothers j hji]
      cases entry with
      | none => rfl
      | some e =>
          obtain ⟨rfl, -⟩ := hentry e.1 e.2 rfl
          exact (if_neg (Ne.symm hji)).symm
    · rfl
  · dsimp only at hk
    by_cases hkey : k = key
    · subst hkey
      rw [Function.update_self] at hk
      exact (hentry owner depth hk).2
    · rw [Function.update_of_ne hkey] at hk
      exact hj.positive k owner depth hk

/-- Thread `i` takes a lock that is free or its own. -/
theorem Joint.lock (hj : Joint h g) (hothers : ∀ j ≠ i, h.depth j key = 0) :
    Joint { h with locks := Function.update h.locks key (some (i, h.depth i key + 1)) }
      (Function.update g i ((g i).lock key)) := by
  obtain ⟨hlocks, hseen, hcommands, hbusy, hstill⟩ := hj.agrees i
  refine hj.relock ?_ hothers ⟨fun k => ?_, hseen, hcommands, fun s hs => ?_, fun hs => ?_⟩
  · rintro owner depth heq
    obtain ⟨rfl, rfl⟩ := Prod.mk.inj (Option.some.inj heq)
    exact ⟨rfl, by omega⟩
  · rw [Host.depth_update]
    split_ifs with hk
    · rw [hk, Ghost.lock_held_self, hlocks]
      exact (if_pos rfl).symm
    · exact (Function.update_of_ne hk _ _).trans (hlocks k)
  · obtain ⟨hservice, hgroup, hquiet⟩ := hbusy s hs
    exact ⟨Nat.lt_of_lt_of_le hservice ((g i).lock_held_le s),
      fun he => Nat.lt_of_lt_of_le (hgroup he) ((g i).lock_held_le EXCLUSIVE_GROUP), hquiet⟩
  · obtain ⟨hgroup, hquiet⟩ := hstill hs
    exact ⟨Nat.lt_of_lt_of_le hgroup ((g i).lock_held_le EXCLUSIVE_GROUP), hquiet⟩

theorem Joint.acquire (hj : Joint h g) (i : Nat) (key : String) :
    Joint (h.acquire i key).1
      (Function.update g i (if (h.acquire i key).2 then (g i).lock key else g i)) := by
  have hself : Joint h (Function.update g i (g i)) := by rwa [Function.update_eq_self]
  unfold Host.acquire
  cases hl : h.locks key with
  | none =>
      have hzero : ∀ j, h.depth j key = 0 := fun j => by rw [Host.depth, hl]
      have hlock := hj.lock (i := i) fun j _ => hzero j
      rw [hzero] at hlock
      exact hlock
  | some e =>
      obtain ⟨owner, depth⟩ := e
      by_cases howner : owner = i
      · subst howner
        have hdepth : h.depth owner key = depth := by
          rw [Host.depth, hl]
          exact if_pos rfl
        have hothers : ∀ j ≠ owner, h.depth j key = 0 := fun j hji => by
          rw [Host.depth, hl]
          exact if_neg (Ne.symm hji)
        have hlock := hj.lock hothers
        rw [hdepth] at hlock
        simpa using hlock
      · simpa [howner] using hj

theorem Host.locks_of_depth (h : Host) (hdepth : 0 < h.depth i key) :
    h.locks key = some (i, h.depth i key) := by
  unfold Host.depth at hdepth ⊢
  cases hl : h.locks key with
  | none =>
      rw [hl] at hdepth
      exact absurd hdepth (Nat.lt_irrefl 0)
  | some e =>
      obtain ⟨owner, depth⟩ := e
      rw [hl] at hdepth
      dsimp only at hdepth ⊢
      split_ifs at hdepth ⊢ with howner
      · rw [howner]
      · exact absurd hdepth (Nat.lt_irrefl 0)

/-- Thread `i`, with no command in progress, gives one turn of a lock of its own back. -/
theorem Joint.release (hj : Joint h g) (hheld : 0 < (g i).held key)
    (hidle : (g i).command = none) :
    (h.release i key).2 = true ∧
      Joint (h.release i key).1 (Function.update g i ((g i).unlock key)) := by
  obtain ⟨hlocks, hseen, hcommands, hbusy, hstill⟩ := hj.agrees i
  rw [hlocks] at hheld
  have hl := h.locks_of_depth hheld
  obtain ⟨left, hleft⟩ : ∃ left, left =
      if h.depth i key ≤ 1 then none else some (i, h.depth i key - 1) := ⟨_, rfl⟩
  have hrelease : h.release i key = ({ h with locks := Function.update h.locks key left }, true) := by
    rw [Host.release, hl, hleft]
    exact if_neg (not_not.mpr rfl)
  rw [hrelease]
  refine ⟨rfl, hj.relock (fun owner depth heq => ?_) (fun j hji => ?_)
    ⟨fun k => ?_, hseen, hcommands, fun s hs => ?_, fun hs => ?_⟩⟩
  · rw [hleft] at heq
    split_ifs at heq with hone
    obtain ⟨rfl, rfl⟩ := Prod.mk.inj (Option.some.inj heq)
    exact ⟨rfl, by omega⟩
  · rw [Host.depth, hl]
    exact if_neg (Ne.symm hji)
  · rw [Host.depth_update]
    by_cases hk : k = key
    · subst hk
      rw [if_pos rfl]
      have hself : ((g i).unlock k).held k = h.depth i k - 1 := by
        rw [← hlocks]
        exact Function.update_self _ _ _
      rw [hself, hleft]
      split_ifs with hone
      · show h.depth i k - 1 = 0
        omega
      · exact (if_pos rfl).symm
    · rw [if_neg hk, ← hlocks]
      exact Function.update_of_ne hk _ _
  · exact absurd (hidle.symm.trans hs) nofun
  · obtain ⟨hold, hgroup⟩ := Bool.and_eq_true_iff.mp hs
    exact ⟨of_decide_eq_true hgroup, (hstill hold).2⟩

/-! ## The other actions -/

theorem Joint.told (hj : Joint h g) (hidle : (g i).command = none) :
    Joint { h with seen := Function.update h.seen i (some (fetchStatus h.containers)) }
      (Function.update g i ((g i).told (fetchStatus h.containers))) := by
  obtain ⟨hlocks, hseen, hcommands, hbusy, hstill⟩ := hj.agrees i
  refine joint_update ⟨hlocks, ?_, hcommands, fun s hs => ?_, fun hs => ?_⟩ (fun j hji => ?_)
    hj.positive
  · simp [Ghost.told]
  · exact absurd (hidle.symm.trans hs) nofun
  · obtain ⟨hgroup, hquiet⟩ := Bool.and_eq_true_iff.mp hs
    refine ⟨of_decide_eq_true hgroup, fun s hs => ?_⟩
    have hnot := runningOf_isEmpty_iff.mp hquiet s hs
    rw [Ne, fetchStatus_iff h] at hnot
    exact Bool.eq_false_iff.mpr hnot
  · obtain ⟨hlocks, hseen, hcommands, hbusy, hstill⟩ := hj.agrees j
    exact ⟨hlocks, hseen.trans (Function.update_of_ne hji _ _).symm, hcommands, hbusy, hstill⟩

theorem Joint.begin (hj : Joint h g) {service : String} (hidle : (g i).command = none)
    (hheld : 0 < (g i).held service)
    (hgroup : service ∈ EXCLUSIVE_SERVICES → 0 < (g i).held EXCLUSIVE_GROUP) :
    Joint { h with
        commands := h.commands ++ [(i, service)], seen := Function.update h.seen i none }
      (Function.update g i ((g i).begin service)) := by
  obtain ⟨hlocks, hseen, hcommands, hbusy, hstill⟩ := hj.agrees i
  refine joint_update ⟨hlocks, ?_, fun s => ?_, fun s hs => ?_, nofun⟩ (fun j hji => ?_)
    hj.positive
  · simp [Ghost.begin]
  · have hnone : (i, s) ∉ h.commands := fun hs => by
      rw [hcommands, hidle] at hs
      exact nomatch hs
    rw [List.mem_append, or_iff_right hnone, List.mem_singleton]
    constructor
    · rintro ⟨⟩
      rfl
    · rintro ⟨⟩
      rfl
  · obtain rfl := Option.some.inj hs
    exact ⟨hheld, hgroup, rfl, rfl⟩
  · obtain ⟨hlocks, hseen, hcommands, hbusy, hstill⟩ := hj.agrees j
    refine ⟨hlocks, hseen.trans (Function.update_of_ne hji _ _).symm, fun s => ?_, hbusy, hstill⟩
    rw [List.mem_append, List.mem_singleton, Prod.mk.injEq, ← hcommands]
    exact or_iff_left fun heq => hji heq.1

theorem Joint.finish (hj : Joint h g) (i : Nat) :
    Joint { h with commands := h.commands.filter fun e => e.1 ≠ i }
      (Function.update g i (g i).finish) := by
  obtain ⟨hlocks, hseen, hcommands, hbusy, hstill⟩ := hj.agrees i
  refine joint_update ⟨hlocks, hseen, fun s => ?_, nofun, hstill⟩ (fun j hji => ?_) hj.positive
  · exact iff_of_false (by simp) nofun
  · obtain ⟨hlocks, hseen, hcommands, hbusy, hstill⟩ := hj.agrees j
    refine ⟨hlocks, hseen, fun s => ?_, hbusy, hstill⟩
    rw [← hcommands]
    simp [hji]

/-- Stopping and removing containers makes none run. -/
theorem Joint.quieter (hj : Joint h g) {containers : List Container}
    (hsub : ∀ c ∈ containers, c.state = .running → ∃ c' ∈ h.containers,
      c'.service = c.service ∧ c'.state = .running) :
    Joint { h with containers := containers } g := by
  refine hj.containers fun s _ hquiet _ => Bool.eq_false_iff.mpr fun hrun => ?_
  obtain ⟨c, hc, rfl, hstate⟩ := (Host.running_iff _).mp hrun
  obtain ⟨c', hc', hservice, hstate'⟩ := hsub c hc hstate
  rw [(Host.running_iff h).mpr ⟨c', hc', hservice, hstate'⟩] at hquiet
  exact nomatch hquiet

theorem Joint.perform (request : Request) (hj : Joint h g) (i : Nat) (a : Action)
    (outcome : Outcome) (hpre : (discipline request).pre a (g i)) :
    ∃ g', (discipline request).next a (h.perform i a outcome).2 (g i) g' ∧
      Joint (h.perform i a outcome).1 (Function.update g i g') := by
  have hself : Joint h (Function.update g i (g i)) := by rwa [Function.update_eq_self]
  cases a with
  | acquire key => exact ⟨_, rfl, hj.acquire i key⟩
  | release key =>
      obtain ⟨howned, hjoint⟩ := hj.release hpre.1 hpre.2
      exact ⟨_, ⟨howned, rfl⟩, hjoint⟩
  | containers =>
      cases outcome with
      | completed returncode stdout stderr => exact ⟨_, rfl, hj.told hpre⟩
      | timedOut => exact ⟨_, rfl, hself⟩
      | raised message => exact ⟨_, rfl, hself⟩
  | list service =>
      cases outcome with
      | completed returncode stdout stderr =>
          refine ⟨_, ⟨rfl, fun c hc => ?_⟩, hself⟩
          exact of_decide_eq_true (List.mem_filter.mp hc).2
      | timedOut => exact ⟨_, rfl, hself⟩
      | raised message => exact ⟨_, rfl, hself⟩
  | stop container timeout =>
      refine ⟨_, rfl, ?_⟩
      rw [Function.update_eq_self]
      cases outcome with
      | completed returncode stdout stderr =>
          refine hj.quieter fun c hc hstate => ?_
          obtain ⟨c', hc', rfl⟩ := List.mem_map.mp hc
          split_ifs at hstate ⊢ with hid
          exact ⟨c', hc', rfl, hstate⟩
      | timedOut => exact hj
      | raised message => exact hj
  | remove container =>
      refine ⟨_, rfl, ?_⟩
      rw [Function.update_eq_self]
      cases outcome with
      | completed returncode stdout stderr =>
          exact hj.quieter fun c hc hstate => ⟨c, List.mem_of_mem_filter hc, rfl, hstate⟩
      | timedOut => exact hj
      | raised message => exact hj
  | composeBegin args env timeout =>
      obtain ⟨hidle, hheld, hgroup, -⟩ := hpre
      exact ⟨_, rfl, hj.begin hidle hheld hgroup⟩
  | composeEnd args => exact ⟨_, rfl, hj.finish i⟩
  | strftime => exact ⟨_, rfl, hself⟩

end MgRobot.SystemManager
