import MgRobot.Scenario.AbortFlag

/-!
# The checks of a run

What stops the driver decides its outcome, and a run passes iff every step of the
engine is accepted: it appends no check that is not passed.
-/

namespace MgRobot.Scenario

set_option autoImplicit false

open MgRobot.Lib.Runs

/-! ## What stops the driver is its outcome -/

/-- The outcome of a driver that was stopped at these goals. -/
inductive Stopped : List Nat → Outcome → Prop where
  | never (n : Nat) : Stopped [] ⟨n, n, -1, none⟩
  | at (n reached i : Nat) (failure : String) : Stopped [i] ⟨n, reached, i, some failure⟩

namespace Driver

variable {fixed : Fixed} {spec : Nav2GoalsSpec} {abort : Abort} {d d' : Driver} {e : DriverStep}

/-- The goal at which the step stops the driver: it finds the abort event set where it reads it,
or the navigation to the goal fails. -/
def stopsAt (spec : Nav2GoalsSpec) (abort : Abort) (d : Driver) (e : DriverStep) : List Nat :=
  (((d.readsAt spec e).filter fun _ => abort.event).or (d.failsAt e)).toList

/-- How far the driver is, for the goals at which it has been stopped. -/
def Progress (spec : Nav2GoalsSpec) (stops : List Nat) (d : Driver) : Prop :=
  match d.pc with
  | .goal i => stops = [] ∧ d.reached = i ∧ i ≤ spec.plans.length
  | .before i _ | .inBefore i _ | .check i | .sending i | .accepted i | .polling i _ | .pending i _
  | .waiting i _ | .complete i => stops = [] ∧ d.reached = i ∧ i < spec.plans.length
  | .after i _ | .inAfter i _ => stops = [] ∧ d.reached = i + 1 ∧ i < spec.plans.length
  | .returned o => Stopped stops o
  | .raised _ => True

theorem progress_settle {i : Nat} (failure : Option String)
    (h : d.reached = i ∧ i < spec.plans.length) :
    (d.settle spec i failure).Progress spec (if failure = none then [] else [i]) := by
  cases failure with
  | none => exact ⟨rfl, congrArg (· + 1) h.1, h.2⟩
  | some failure => exact .at _ _ _ _

theorem Progress.step {stops : List Nat} (hp : d.Progress spec stops)
    (habort : abort.event = true → abort.reason ≠ none)
    (h : d.step fixed spec abort e = some d') :
    d'.Progress spec (stops ++ d.stopsAt spec abort e) := by
  obtain ⟨pc, reached⟩ := d
  unfold Driver.step at h
  split at h
  · rename_i i hpc
    obtain rfl : pc = .goal i := hpc
    obtain rfl := Option.some.inj h
    obtain ⟨rfl, hr, hi⟩ := hp
    obtain rfl : reached = i := hr
    rcases hi.lt_or_eq with hlt | heq
    · cases habort' : abort.event with
      | true =>
          obtain ⟨reason, hreason⟩ := Option.ne_none_iff_exists'.mp (habort habort')
          simp only [Progress, stopsAt, readsAt, failsAt, outcome, hlt, hlt.not_ge, habort', hreason,
            if_true, if_false, List.nil_append]
          exact .at _ _ _ _
      | false => simp [Progress, stopsAt, readsAt, failsAt, hlt, hlt.not_ge, habort']
    · have heq : reached = spec.plans.length := heq
      simp only [Progress, stopsAt, readsAt, failsAt, heq, le_refl, lt_irrefl, if_true, if_false]
      exact .never _
  · rename_i i k hpc
    obtain rfl : pc = .before i k := hpc
    obtain ⟨plan, -, rfl⟩ := Option.map_eq_some_iff.mp h
    obtain ⟨rfl, hp⟩ := hp
    cases hnext : (nextAction abort plan.before k).isSome with
    | true => exact ⟨rfl, hp⟩
    | false => exact ⟨rfl, hp⟩
  · rename_i i k hpc
    obtain rfl : pc = .inBefore i k := hpc
    obtain rfl := Option.some.inj h
    obtain ⟨rfl, hp⟩ := hp
    exact ⟨rfl, hp⟩
  · obtain ⟨call, -, rfl⟩ := Option.map_eq_some_iff.mp h
    trivial
  · rename_i i hpc
    obtain rfl : pc = .check i := hpc
    obtain rfl := Option.some.inj h
    obtain ⟨rfl, hp⟩ := hp
    cases habort' : abort.event with
    | true =>
        obtain ⟨reason, hreason⟩ := Option.ne_none_iff_exists'.mp (habort habort')
        simp only [Progress, stopsAt, outcome, habort', hreason, if_true, List.nil_append]
        exact .at _ _ _ _
    | false => simpa [Progress, stopsAt, readsAt, failsAt, habort'] using hp
  · obtain rfl := Option.some.inj h
    trivial
  · rename_i i hpc
    obtain rfl : pc = .sending i := hpc
    obtain rfl := Option.some.inj h
    obtain ⟨rfl, hp⟩ := hp
    exact ⟨rfl, hp⟩
  · rename_i i hpc
    obtain rfl : pc = .sending i := hpc
    obtain rfl := Option.some.inj h
    obtain ⟨rfl, hp⟩ := hp
    exact progress_settle (some "goal rejected") hp
  · rename_i i now hpc
    obtain rfl : pc = .accepted i := hpc
    obtain rfl := Option.some.inj h
    obtain ⟨rfl, hp⟩ := hp
    exact ⟨rfl, hp⟩
  · rename_i i deadline hpc
    obtain rfl : pc = .polling i deadline := hpc
    obtain rfl := Option.some.inj h
    obtain ⟨rfl, hp⟩ := hp
    exact ⟨rfl, hp⟩
  · rename_i i deadline hpc
    obtain rfl : pc = .polling i deadline := hpc
    obtain rfl := Option.some.inj h
    obtain ⟨rfl, hp⟩ := hp
    exact ⟨rfl, hp⟩
  · rename_i i deadline hpc
    obtain rfl : pc = .pending i deadline := hpc
    obtain rfl := Option.some.inj h
    obtain ⟨rfl, hp⟩ := hp
    cases habort' : abort.event with
    | true =>
        have hsettle := progress_settle abort.reason hp
        rw [if_neg (habort habort')] at hsettle
        simpa [stopsAt, readsAt, failsAt, habort', Option.filter] using hsettle
    | false => simpa [Progress, stopsAt, readsAt, failsAt, habort'] using hp
  · rename_i i deadline now hpc
    obtain rfl : pc = .waiting i deadline := hpc
    obtain rfl := Option.some.inj h
    obtain ⟨rfl, hp⟩ := hp
    by_cases hlate : deadline < now
    · have hsettle := progress_settle (some
        ("not finished within " ++ fixed 0 spec.goalTimeoutSec ++ "s")) hp
      simpa [stopsAt, readsAt, failsAt, hlate] using hsettle
    · simpa [Progress, stopsAt, readsAt, failsAt, hlate] using hp
  · rename_i i r hpc
    obtain rfl : pc = .complete i := hpc
    obtain rfl := Option.some.inj h
    obtain ⟨rfl, hp⟩ := hp
    by_cases hr : r = .succeeded
    · have hsettle := progress_settle none hp
      simpa [stopsAt, readsAt, failsAt, hr] using hsettle
    · have hsettle := progress_settle (some ("navigation finished with " ++ r.name)) hp
      simpa [stopsAt, readsAt, failsAt, hr] using hsettle
  · rename_i i k hpc
    obtain rfl : pc = .after i k := hpc
    obtain ⟨plan, -, rfl⟩ := Option.map_eq_some_iff.mp h
    obtain ⟨rfl, hr, hi⟩ := hp
    cases hnext : (nextAction abort plan.after k).isSome with
    | true => exact ⟨rfl, hr, hi⟩
    | false => exact ⟨rfl, hr, hi⟩
  · rename_i i k hpc
    obtain rfl : pc = .inAfter i k := hpc
    obtain rfl := Option.some.inj h
    obtain ⟨rfl, hp⟩ := hp
    exact ⟨rfl, hp⟩
  · obtain ⟨call, -, rfl⟩ := Option.map_eq_some_iff.mp h
    trivial
  · exact nomatch h

theorem settle_not_raised (i : Nat) (failure : Option String) (message : String) :
    (d.settle spec i failure).pc ≠ .raised message := by
  cases failure <;> exact nofun

theorem readsAt_of_failsAt {i : Nat} (h : d.failsAt e = some i) : d.readsAt spec e = none := by
  unfold failsAt at h
  unfold readsAt
  split at h
  · rename_i hpc
    rw [hpc]
  · rename_i hpc
    rw [hpc]
  · rename_i hpc
    rw [hpc]
  · exact nomatch h

/-- The driver raises what a hook or the navigator raises. -/
theorem raised_iff (h : d.step fixed spec abort e = some d') :
    (∃ message, d'.pc = .raised message) ↔ ∃ message, e = .raises message := by
  have hgo {pc : DriverPc} (hd : d'.pc = pc) (hpc : ∀ message, pc ≠ .raised message)
      (he : ∀ message, e ≠ .raises message) :
      (∃ message, d'.pc = .raised message) ↔ ∃ message, e = .raises message := by
    refine iff_of_false ?_ fun ⟨message, h⟩ => he message h
    rintro ⟨message, h⟩
    exact hpc message (hd.symm.trans h)
  have hsettle {i : Nat} {failure : Option String} (hd : d' = d.settle spec i failure)
      (he : ∀ message, e ≠ .raises message) :
      (∃ message, d'.pc = .raised message) ↔ ∃ message, e = .raises message :=
    hgo rfl (fun message => hd ▸ settle_not_raised i failure message) he
  unfold Driver.step at h
  split at h
  · obtain rfl := Option.some.inj h
    refine hgo rfl (fun message => ?_) nofun
    split_ifs <;> exact nofun
  · obtain ⟨plan, -, rfl⟩ := Option.map_eq_some_iff.mp h
    refine hgo rfl (fun message => ?_) nofun
    split_ifs <;> exact nofun
  · obtain rfl := Option.some.inj h
    exact hgo rfl nofun nofun
  · obtain ⟨call, -, rfl⟩ := Option.map_eq_some_iff.mp h
    exact iff_of_true ⟨_, rfl⟩ ⟨_, rfl⟩
  · obtain rfl := Option.some.inj h
    refine hgo rfl (fun message => ?_) nofun
    split_ifs <;> exact nofun
  · obtain rfl := Option.some.inj h
    exact iff_of_true ⟨_, rfl⟩ ⟨_, rfl⟩
  · obtain rfl := Option.some.inj h
    exact hgo rfl nofun nofun
  · exact hsettle (Option.some.inj h).symm nofun
  · obtain rfl := Option.some.inj h
    exact hgo rfl nofun nofun
  · obtain rfl := Option.some.inj h
    exact hgo rfl nofun nofun
  · obtain rfl := Option.some.inj h
    exact hgo rfl nofun nofun
  · split_ifs at h
    · exact hsettle (Option.some.inj h).symm nofun
    · obtain rfl := Option.some.inj h
      exact hgo rfl nofun nofun
  · split_ifs at h
    · exact hsettle (Option.some.inj h).symm nofun
    · obtain rfl := Option.some.inj h
      exact hgo rfl nofun nofun
  · exact hsettle (Option.some.inj h).symm nofun
  · obtain ⟨plan, -, rfl⟩ := Option.map_eq_some_iff.mp h
    refine hgo rfl (fun message => ?_) nofun
    split_ifs <;> exact nofun
  · obtain rfl := Option.some.inj h
    exact hgo rfl nofun nofun
  · obtain ⟨call, -, rfl⟩ := Option.map_eq_some_iff.mp h
    exact iff_of_true ⟨_, rfl⟩ ⟨_, rfl⟩
  · exact nomatch h

theorem step_of_ended (h : d.ended = true) : d.step fixed spec abort e = none := by
  obtain ⟨pc, reached⟩ := d
  cases pc with
  | returned o => rfl
  | raised message => rfl
  | _ => exact nomatch h

theorem stopsAt_of_ended (h : d.ended = true) : d.stopsAt spec abort e = [] := by
  obtain ⟨pc, reached⟩ := d
  cases pc with
  | returned o => rfl
  | raised message => rfl
  | _ => exact nomatch h

theorem ended_of_returned {o : Outcome} (h : d.pc = .returned o) : d.ended = true := by
  rw [ended, h]

end Driver

/-! ## Which checks are passed -/

namespace Expectation

/-- The expectation is met by a run in which the driver is stopped at these goals. -/
def Accepts (start : ℚ) (stops : List Nat) (finished : Option ℚ) (answer : Answer) :
    Expectation → Prop
  | reachedAll => stops = []
  | timeLimit sec => ∃ time, finished = some time ∧ time - start ≤ sec
  | navigationFails index => ∃ i ∈ stops, ∀ j ∈ index, (i : Int) = j
  | other _ => ∃ message, answer = .ok (.passed, message)

theorem judge_passed_iff {fixed : Fixed} {start : ℚ} {stops : List Nat} {finished : Option ℚ}
    {outcome : Outcome} {answer : Answer} (x : Expectation) (h : Stopped stops outcome) :
    (x.judge fixed start finished outcome answer).1 = .passed ↔
      x.Accepts start stops finished answer := by
  cases x with
  | reachedAll =>
      cases h with
      | never n => simp [judge, Accepts]
      | «at» n reached i failure => simp [judge, Accepts]
  | timeLimit sec =>
      cases finished with
      | none => simp [judge, Accepts]
      | some time =>
          simp only [judge, Accepts]
          split_ifs with hle
          · exact iff_of_true rfl ⟨time, rfl, hle⟩
          · refine iff_of_false (by simp) ?_
            rintro ⟨_, ⟨⟩, h⟩
            exact hle h
  | navigationFails index =>
      cases h with
      | never n => simp [judge, Accepts]
      | «at» n reached i failure =>
          cases index with
          | none => simp [judge, Accepts]
          | some j =>
              by_cases hij : (i : Int) = j <;> simp [judge, Accepts, hij]
  | other name =>
      cases answer with
      | error message => simp [judge, Accepts]
      | ok result =>
          obtain ⟨status, message⟩ := result
          simp [judge, Accepts]

end Expectation

/-- The outcome that the engine has from the driver. -/
def EnginePc.outcome : EnginePc → Option Outcome
  | .running | .done _ => none
  | .returned outcome | .emitted outcome => some outcome
  | .stopping executed | .items executed _ | .errors executed | .monitors executed _
  | .teardown executed | .expecting executed _ => executed

namespace World

variable (cfg : Config)

/-- The step appends no check that is not passed. The driver is stopped at these goals. -/
def Accepts (stops : List Nat) (w : World) (e : Event) : Prop :=
  match w.engine, e with
  | .running, .engine .go => ∀ message, w.driver.pc ≠ .raised message
  | .emitted _, .engine .go => w.abort.isError = false
  | .items _ k, .engine .go => ∀ entry item, cfg.timeline.entries[k]? = some entry →
      w.timeline.items[k]? = some item → ¬(entry.required = true ∧ item.firedAt = none)
  | .errors _, .engine .go => w.timeline.errors = []
  | .monitors _ _, .engine (.monitor status _) => status = .passed
  | .teardown _, .engine (.teardown errors) => errors = []
  | .expecting (some _) k, .engine (.expect answer) => ∀ x, cfg.expect[k]? = some x →
      x.Accepts cfg.timeline.start stops w.finishedAt answer
  | _, _ => True

/-- The goal at which the event stops the driver, if it does. -/
def stopsBy (w : World) : Event → List Nat
  | .driver e => w.driver.stopsAt cfg.driver w.abort.read e
  | _ => []

/-- The goals at which the driver is stopped in a run. -/
def stops (events : List Event) : List Nat := outputs (step cfg) (stopsBy cfg) (init cfg) events

variable {cfg} {w w' : World} {e : Event} {events : List Event}

/-- The checks that the step appends. -/
def appended (cfg : Config) (w : World) : Event → List CheckResult
  | .engine e => ((w.engineStep cfg e).map Prod.snd).getD []
  | _ => []

theorem checks_step (h : w.step cfg e = some w') : w'.checks = w.checks ++ w.appended cfg e := by
  cases e with
  | driver e =>
      obtain ⟨d, -, rfl⟩ := Option.map_eq_some_iff.mp h
      exact (List.append_nil _).symm
  | loop e =>
      obtain ⟨⟨t, a⟩, -, rfl⟩ := Option.map_eq_some_iff.mp h
      exact (List.append_nil _).symm
  | item k e =>
      obtain ⟨⟨t, a⟩, -, rfl⟩ := Option.map_eq_some_iff.mp h
      exact (List.append_nil _).symm
  | engine e =>
      obtain ⟨⟨pc, checks⟩, heng, rfl⟩ := Option.map_eq_some_iff.mp h
      rw [appended, heng]
      rfl

/-- What holds after the events of a run. -/
structure Inv (cfg : Config) (events : List Event) (w : World) : Prop where
  reached : exec (step cfg) (init cfg) events = some w
  reasoned : w.timeline.Reasoned w.abort
  progress : w.driver.Progress cfg.driver (stops cfg events)
  outcome : ∀ o, w.engine.outcome = some o → w.driver.pc = .returned o
  ended : w.engine ≠ .running → w.driver.ended = true
  status : ∀ status, w.engine = .done status → status = aggregate w.checks

theorem Inv.init : Inv cfg [] (init cfg) where
  reached := rfl
  reasoned := Timeline.reasoned_initial
  progress := ⟨rfl, rfl, Nat.zero_le _⟩
  outcome := nofun
  ended := absurd rfl
  status := nofun

/-- The engine takes over the outcome of a driver that has returned, and keeps it. -/
theorem EngineEffect.outcome {e : EngineStep} {pc : EnginePc} {checks : List CheckResult}
    (h : EngineEffect cfg w e pc checks)
    (ho : ∀ o, w.engine.outcome = some o → w.driver.pc = .returned o) :
    ∀ o, pc.outcome = some o → w.driver.pc = .returned o := by
  cases h with
  | returned o _ hdriver =>
      rintro o' ⟨⟩
      exact hdriver
  | raised | aborted | verdict => exact nofun
  | emitted _ _ hpc | executed _ hpc | stopped _ hpc | item _ _ _ _ hpc | itemsEnd _ _ hpc
  | errors _ hpc | monitor _ _ _ _ _ hpc | monitorsEnd _ _ hpc | teardown _ _ hpc
  | expect _ _ _ _ hpc =>
      exact fun o h => ho o (hpc ▸ h)

/-- The engine goes on when the driver has ended. -/
theorem EngineEffect.ended {e : EngineStep} {pc : EnginePc} {checks : List CheckResult}
    (h : EngineEffect cfg w e pc checks) (hended : w.engine ≠ .running → w.driver.ended = true) :
    w.driver.ended = true := by
  cases h with
  | returned o _ hdriver => exact Driver.ended_of_returned hdriver
  | raised message _ hdriver => rw [Driver.ended, hdriver]
  | emitted _ _ hpc | aborted _ hpc | executed _ hpc | stopped _ hpc | item _ _ _ _ hpc
  | itemsEnd _ _ hpc | errors _ hpc | monitor _ _ _ _ _ hpc | monitorsEnd _ _ hpc
  | teardown _ _ hpc | expect _ _ _ _ hpc | verdict _ _ hpc =>
      exact hended (by rw [hpc]; nofun)

theorem EngineEffect.status {e : EngineStep} {status : ResultStatus} {checks : List CheckResult}
    (h : EngineEffect cfg w e (.done status) checks) :
    status = aggregate w.checks ∧ checks = [] := by
  cases h
  exact ⟨rfl, rfl⟩

/-- What a step of the engine appends is passed iff the step is accepted. -/
theorem EngineEffect.passed_iff {e : EngineStep} {pc : EnginePc} {checks : List CheckResult}
    {stops : List Nat} (h : EngineEffect cfg w e pc checks)
    (hstops : ∀ o, w.engine.outcome = some o → Stopped stops o) :
    AllPassed checks ↔ w.Accepts cfg stops (.engine e) := by
  have hnone : AllPassed [] := nofun
  cases h with
  | returned o hpc hdriver => simp [Accepts, hpc, hdriver, AllPassed]
  | raised message hpc hdriver => simp [Accepts, hpc, hdriver, AllPassed]
  | emitted o now hpc => simp [Accepts, hpc, AllPassed]
  | aborted o hpc herror => simp [Accepts, hpc, herror, AllPassed]
  | executed o hpc herror => simp [Accepts, hpc, herror, AllPassed]
  | stopped x hpc => simp [Accepts, hpc, AllPassed]
  | item x k entry item hpc hentry hitem =>
      rw [Timeline.allPassed_itemCheck]
      simp [Accepts, hpc, hentry, hitem]
  | itemsEnd x k hpc hnone =>
      simp only [Accepts, hpc]
      exact iff_of_true nofun fun entry item he hi => (hnone entry item he hi).elim
  | errors x hpc =>
      rw [Timeline.allPassed_errorChecks]
      simp [Accepts, hpc]
  | monitor x k name message status hpc => simp [Accepts, hpc, AllPassed]
  | monitorsEnd x k hpc => simp [Accepts, hpc, AllPassed]
  | teardown x errors hpc =>
      cases errors with
      | nil => simp [Accepts, hpc, AllPassed]
      | cons e errors => simp [Accepts, hpc, AllPassed]
  | expect o k answer x hpc hx =>
      have hstopped := hstops o (by rw [hpc]; rfl)
      rw [allPassed_singleton]
      simp only [Accepts, hpc, hx, Option.some.injEq, forall_eq']
      exact Expectation.judge_passed_iff x hstopped
  | verdict x k hpc => cases x <;> simp [Accepts, hpc, AllPassed]

theorem Inv.step (hi : Inv cfg events w) (h : w.step cfg e = some w') :
    Inv cfg (events ++ [e]) w' := by
  have hreached := exec_snoc hi.reached h
  have hstops : stops cfg (events ++ [e]) = stops cfg events ++ w.stopsBy cfg e :=
    outputs_snoc hi.reached h
  cases e with
  | driver e =>
      obtain ⟨d, hd, rfl⟩ := Option.map_eq_some_iff.mp h
      have hrunning : w.engine = .running := by
        by_contra hnot
        rw [Driver.step_of_ended (hi.ended hnot)] at hd
        exact nomatch hd
      refine ⟨hreached, hi.reasoned, ?_, ?_, absurd hrunning, hi.status⟩
      · rw [hstops]
        exact hi.progress.step hi.reasoned.event hd
      · rw [hrunning]
        exact nofun
  | loop e =>
      obtain ⟨⟨t, a⟩, ht, rfl⟩ := Option.map_eq_some_iff.mp h
      refine ⟨hreached, hi.reasoned.loopStep ht, ?_, hi.outcome, hi.ended, hi.status⟩
      rw [hstops.trans (List.append_nil _)]
      exact hi.progress
  | item k e =>
      obtain ⟨⟨t, a⟩, ht, rfl⟩ := Option.map_eq_some_iff.mp h
      refine ⟨hreached, hi.reasoned.itemStep ht, ?_, hi.outcome, hi.ended, hi.status⟩
      rw [hstops.trans (List.append_nil _)]
      exact hi.progress
  | engine e =>
      obtain ⟨⟨pc, checks⟩, heng, rfl⟩ := Option.map_eq_some_iff.mp h
      have heffect := engineEffect_of_step heng
      refine ⟨hreached, ?_, ?_, heffect.outcome hi.outcome, fun _ => heffect.ended hi.ended, ?_⟩
      · dsimp only
        split
        · exact hi.reasoned.stopAll
        · exact hi.reasoned
      · rw [hstops.trans (List.append_nil _)]
        exact hi.progress
      · rintro status rfl
        obtain ⟨rfl, rfl⟩ := heffect.status
        exact congrArg aggregate (List.append_nil _).symm

theorem inv_of_exec (h : exec (step cfg) (init cfg) events = some w) : Inv cfg events w :=
  invariant_of_history (fun _ _ _ _ hi hs => hi.step hs) Inv.init h

theorem ended_step (hended : w.driver.ended = true) (h : w.step cfg e = some w') :
    w'.driver.ended = true := by
  cases e with
  | driver e =>
      obtain ⟨d, hd, -⟩ := Option.map_eq_some_iff.mp h
      rw [Driver.step_of_ended hended] at hd
      exact nomatch hd
  | loop e =>
      obtain ⟨⟨t, a⟩, -, rfl⟩ := Option.map_eq_some_iff.mp h
      exact hended
  | item k e =>
      obtain ⟨⟨t, a⟩, -, rfl⟩ := Option.map_eq_some_iff.mp h
      exact hended
  | engine e =>
      obtain ⟨⟨pc, checks⟩, -, rfl⟩ := Option.map_eq_some_iff.mp h
      exact hended

/-- A driver that has ended is not stopped any more. -/
theorem stops_append_of_ended {pre post : List Event}
    (h : exec (step cfg) (init cfg) pre = some w) (hended : w.driver.ended = true) :
    stops cfg (pre ++ post) = stops cfg pre := by
  have hout : ∀ (s : World) (e : Event), s.driver.ended = true → s.stopsBy cfg e = [] := by
    intro s e hs
    cases e with
    | driver e => exact Driver.stopsAt_of_ended hs
    | loop e => rfl
    | item k e => rfl
    | engine e => rfl
  have hnone : outputs (step cfg) (stopsBy cfg) w post = [] :=
    outputs_eq_nil (fun _ _ _ => ended_step) hout hended
  rw [stops, outputs_append h, hnone, List.append_nil]
  rfl

theorem appended_passed_iff {stops : List Nat}
    (hstops : ∀ o, w.engine.outcome = some o → Stopped stops o) (h : w.step cfg e = some w') :
    AllPassed (w.appended cfg e) ↔ w.Accepts cfg stops e := by
  have hnone : AllPassed [] := nofun
  cases e with
  | engine e =>
      obtain ⟨⟨pc, checks⟩, heng, -⟩ := Option.map_eq_some_iff.mp h
      rw [appended, heng]
      exact (engineEffect_of_step heng).passed_iff hstops
  | driver e => cases hpc : w.engine <;> simp [Accepts, appended, hnone, hpc]
  | loop e => cases hpc : w.engine <;> simp [Accepts, appended, hnone, hpc]
  | item k e => cases hpc : w.engine <;> simp [Accepts, appended, hnone, hpc]

/-- A run that has come to its verdict passes iff all its steps are accepted. -/
theorem passed_iff_meets {status : ResultStatus}
    (h : exec (step cfg) (init cfg) events = some w) (hdone : w.engine = .done status) :
    status = .passed ↔
      Meets (step cfg) (Accepts cfg (stops cfg events)) (init cfg) events := by
  have hinv := inv_of_exec h
  have hchecks := iff_and_meets (P := fun w => AllPassed w.checks)
    (Q := fun w e => AllPassed (w.appended cfg e))
    (fun w e w' hs => by rw [checks_step hs]; exact allPassed_append) h
  have hall : AllPassed (init cfg).checks := nofun
  rw [hinv.status status hdone, aggregate_eq_passed_iff, hchecks, and_iff_right hall]
  refine meets_congr fun pre e post t hsplit hpre => ?_
  have ht := inv_of_exec hpre
  rw [hsplit] at h
  obtain ⟨u, hu, -⟩ := exec_after_cons h hpre
  refine appended_passed_iff (fun o ho => ?_) hu
  have hpc := ht.outcome o ho
  have hstopped := ht.progress
  rw [Driver.Progress, hpc] at hstopped
  rw [hsplit, stops_append_of_ended hpre (Driver.ended_of_returned hpc)]
  exact hstopped

end World

end MgRobot.Scenario
