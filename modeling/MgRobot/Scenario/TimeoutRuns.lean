import MgRobot.Scenario.RunChecks

/-!
# Which verdict a timeout leads to

The abort that a timeout leads to is not a check: it counts only if the driver still
reads the event after the loop has set it, and then only through the expectations.
Everything else that keeps a run from passing goes wrong by itself.
-/

namespace MgRobot.Scenario

set_option autoImplicit false

open MgRobot.Lib.Runs

/-! ## What will not be passed -/

theorem Expectation.Accepts.metBy {start : ℚ} {stops : List Nat} {finished : Option ℚ} {answer : Answer}
    {x : Expectation} (h : x.Accepts start stops finished answer) : x.MetBy (· ∈ stops) := by
  cases x with
  | reachedAll =>
      intro i hi
      rw [show stops = [] from h] at hi
      exact nomatch hi
  | navigationFails index => exact h
  | timeLimit sec => trivial
  | other name => trivial

namespace EnginePc

/-- The run is not `executed`. -/
def failed : EnginePc → Bool
  | stopping executed | items executed _ | errors executed | monitors executed _
  | teardown executed | expecting executed _ => executed.isNone
  | _ => false

/-- `run_finished` has been emitted, if the driver has returned. -/
def emittedFinish : EnginePc → Bool
  | running | returned _ => false
  | _ => true

/-- Expectation `k` has been evaluated, if the run is `executed`. -/
def past (k : Nat) : EnginePc → Bool
  | expecting _ j => k < j
  | done _ => true
  | _ => false

end EnginePc

namespace World

variable {cfg : Config} {w w' : World} {e : Event} {events : List Event} {goals : List Nat}

/-- A check that is not passed is bound to come. -/
inductive Doomed (cfg : Config) (goals : List Nat) (w : World) : Prop where
  | raised (message : String) (hengine : w.engine = .running)
      (hdriver : w.driver.pc = .raised message) : Doomed cfg goals w
  | stalled (hengine : w.engine.looked = false) (herror : w.abort.isError = true)
      (hreason : w.abort.reason ≠ none) : Doomed cfg goals w
  | recorded (hengine : w.engine.collected = false) (herrors : w.timeline.errors ≠ []) :
      Doomed cfg goals w
  | unmet (k : Nat) (x : Expectation) (hx : cfg.expect[k]? = some x)
      (hengine : w.engine.past k = false) (hunmet : ¬ x.MetBy (· ∈ goals)) : Doomed cfg goals w
  | late (k : Nat) (sec now : ℚ) (hx : cfg.expect[k]? = some (.timeLimit sec))
      (hengine : w.engine.past k = false) (hemitted : w.engine.emittedFinish = true)
      (hnow : w.finishedAt = some now) (hlate : ¬ now - cfg.timeline.start ≤ sec) :
      Doomed cfg goals w

section Effects

variable {g : EngineStep} {pc : EnginePc} {checks : List CheckResult}

theorem EngineEffect.failed (h : EngineEffect cfg w g pc checks) (hf : w.engine.failed = false)
    (hacc : w.Accepts cfg goals (.engine g)) : pc.failed = false := by
  cases h with
  | returned | emitted | executed | verdict => rfl
  | raised message hpc hdriver =>
      simp only [Accepts, hpc] at hacc
      exact absurd hdriver (hacc message)
  | aborted o hpc herror =>
      simp only [Accepts, hpc, herror] at hacc
      cases hacc
  | stopped x hpc | itemsEnd x k hpc | errors x hpc | monitorsEnd x k hpc =>
      rw [hpc] at hf
      exact hf
  | item x k _ _ hpc | monitor x k _ _ _ hpc | teardown x _ hpc | expect x k _ _ hpc =>
      rw [hpc] at hf
      exact hf

theorem EngineEffect.not_raised (h : EngineEffect cfg w g pc checks)
    (hacc : w.Accepts cfg goals (.engine g)) (hengine : w.engine = .running) (message : String) :
    w.driver.pc ≠ .raised message := by
  intro hraised
  cases h with
  | returned o hpc hreturned =>
      rw [hreturned] at hraised
      cases hraised
  | raised m hpc hm =>
      simp only [Accepts, hpc] at hacc
      exact hacc m hm
  | emitted _ _ hpc | aborted _ hpc | executed _ hpc | stopped _ hpc | item _ _ _ _ hpc
  | itemsEnd _ _ hpc | errors _ hpc | monitor _ _ _ _ _ hpc | monitorsEnd _ _ hpc
  | teardown _ _ hpc | expect _ _ _ _ hpc | verdict _ _ hpc =>
      rw [hengine] at hpc
      cases hpc

/-- The engine reads `abort_is_error` only while it is not set. -/
theorem EngineEffect.looked (h : EngineEffect cfg w g pc checks)
    (hacc : w.Accepts cfg goals (.engine g)) (hlooked : w.engine.looked = false)
    (herror : w.abort.isError = true) : pc.looked = false := by
  cases h with
  | returned | emitted => rfl
  | raised message hpc hdriver =>
      simp only [Accepts, hpc] at hacc
      exact absurd hdriver (hacc message)
  | aborted o hpc | executed o hpc =>
      simp only [Accepts, hpc, herror] at hacc
      cases hacc
  | stopped x hpc | itemsEnd x k hpc | errors x hpc | monitorsEnd x k hpc | item x k _ _ hpc
  | monitor x k _ _ _ hpc | teardown x _ hpc | expect x k _ _ hpc | verdict x k hpc =>
      rw [hpc] at hlooked
      cases hlooked

/-- The engine collects the errors only while there are none. -/
theorem EngineEffect.collected (h : EngineEffect cfg w g pc checks)
    (hacc : w.Accepts cfg goals (.engine g)) (hcollected : w.engine.collected = false)
    (herrors : w.timeline.errors ≠ []) : pc.collected = false := by
  cases h with
  | returned | emitted | raised | aborted | executed | stopped | item | itemsEnd => rfl
  | errors x hpc =>
      simp only [Accepts, hpc] at hacc
      exact absurd hacc herrors
  | monitorsEnd x k hpc | monitor x k _ _ _ hpc | teardown x _ hpc | expect x k _ _ hpc
  | verdict x k hpc =>
      rw [hpc] at hcollected
      cases hcollected

/-- The engine comes past an expectation only where the driver and the clock meet it. -/
theorem EngineEffect.past {k : Nat} {x : Expectation} (h : EngineEffect cfg w g pc checks)
    (hf : w.engine.failed = false) (hacc : w.Accepts cfg goals (.engine g))
    (hx : cfg.expect[k]? = some x) (hpast : w.engine.past k = false)
    (hunmet : ∀ answer, ¬ x.Accepts cfg.timeline.start goals w.finishedAt answer) :
    pc.past k = false := by
  have hk := (List.getElem?_eq_some_iff.mp hx).1
  cases h with
  | returned | emitted | executed | aborted | raised | stopped | item | itemsEnd | errors | monitor
  | monitorsEnd => rfl
  | teardown => rfl
  | expect o j answer y hpc hy =>
      rw [hpc] at hpast
      have hle : j ≤ k := by simpa [EnginePc.past] using hpast
      have hne : j ≠ k := by
        rintro rfl
        simp only [Accepts, hpc] at hacc
        exact hunmet answer (hacc x hx)
      simp only [EnginePc.past, decide_eq_false_iff_not]
      omega
  | verdict executed j hpc hguard =>
      rw [hpc] at hpast hf
      have hle : j ≤ k := by simpa [EnginePc.past] using hpast
      rcases hguard with rfl | hlen
      · cases hf
      · omega

/-- Only the event `run_finished` sets its time. -/
theorem EngineEffect.emittedFinish (h : EngineEffect cfg w g pc checks)
    (hemitted : w.engine.emittedFinish = true) : pc.emittedFinish = true := by
  cases h with
  | returned o hpc | raised m hpc => exact nomatch (hpc ▸ hemitted :)
  | _ => rfl

end Effects

/-- A step of the engine, by what it does. -/
theorem exists_effect {g : EngineStep} (h : w.step cfg (.engine g) = some w') :
    ∃ checks, EngineEffect cfg w g w'.engine checks ∧ w'.driver = w.driver ∧
      (w.engine.emittedFinish = true → w'.finishedAt = w.finishedAt) := by
  obtain ⟨⟨pc, checks⟩, heng, rfl⟩ := Option.map_eq_some_iff.mp h
  refine ⟨checks, engineEffect_of_step heng, rfl, fun hemitted => ?_⟩
  dsimp only
  split
  · rename_i hpc
    rw [hpc] at hemitted
    exact nomatch hemitted
  · rfl

/-- An abort with an error, the errors of the timeline and an error of the driver stay. -/
theorem others_keep (h : w.step cfg e = some w') (he : ∀ g, e ≠ .engine g) :
    w'.engine = w.engine ∧ w'.finishedAt = w.finishedAt ∧
      (w.abort.reason ≠ none → w'.abort.reason ≠ none ∧ w'.abort.isError = w.abort.isError) ∧
      (w.timeline.errors ≠ [] → w'.timeline.errors ≠ []) ∧
      ∀ message, w.driver.pc = .raised message → w'.driver.pc = .raised message := by
  have htake (reason : String) (error : Bool) (hr : w.abort.reason ≠ none) :
      (w.abort.take reason error).reason ≠ none ∧
        (w.abort.take reason error).isError = w.abort.isError := by
    rw [AbortState.take, if_neg hr]
    exact ⟨hr, rfl⟩
  cases e with
  | driver e =>
      obtain ⟨d, hd, rfl⟩ := Option.map_eq_some_iff.mp h
      refine ⟨rfl, rfl, fun hr => ⟨hr, rfl⟩, id, fun message hraised => ?_⟩
      rw [Driver.step_of_ended (by rw [Driver.ended, hraised])] at hd
      cases hd
  | loop e =>
      obtain ⟨⟨t, a⟩, ht, rfl⟩ := Option.map_eq_some_iff.mp h
      refine ⟨rfl, rfl, ?_, ?_, fun _ => id⟩
      · cases Timeline.loopStep_effect ht with
        | moves | fires | observes | record => exact fun hr => ⟨hr, rfl⟩
        | stallEvent | timeoutEvent | event => exact fun hr => ⟨hr, rfl⟩
        | stallReason | timeoutReason | reason => exact htake _ _
      · cases Timeline.loopStep_effect ht with
        | moves _ _ _ _ _ herrors => exact fun h => (congrArg (· ≠ []) herrors).mpr h
        | record => exact fun _ => List.append_ne_nil_of_right_ne_nil _ (List.cons_ne_nil _ _)
        | fires | stallReason | stallEvent | observes | timeoutReason | timeoutEvent | reason
        | event => exact id
  | item k e =>
      obtain ⟨⟨t, a⟩, ht, rfl⟩ := Option.map_eq_some_iff.mp h
      obtain ⟨item, -, heffect⟩ := Timeline.itemStep_effect ht
      refine ⟨rfl, rfl, ?_, ?_, fun _ => id⟩
      · cases heffect with
        | moves | record | event => exact fun hr => ⟨hr, rfl⟩
        | reason => exact htake _ _
      · cases heffect with
        | record => exact fun _ => List.append_ne_nil_of_right_ne_nil _ (List.cons_ne_nil _ _)
        | moves | reason | event => exact id
  | engine g => exact absurd rfl (he g)

/-- In a run whose steps are accepted, what is bound to come comes nearer. -/
theorem Doomed.step (hd : Doomed cfg goals w) (hf : w.engine.failed = false)
    (hacc : w.Accepts cfg goals e) (h : w.step cfg e = some w') : Doomed cfg goals w' := by
  by_cases he : ∃ g, e = .engine g
  · obtain ⟨g, rfl⟩ := he
    obtain ⟨checks, heffect, hdriver, hfinished⟩ := exists_effect h
    obtain ⟨habort, -, herrors', -⟩ := engine_keeps h
    cases hd with
    | raised message hengine hraised => exact absurd hraised (heffect.not_raised hacc hengine message)
    | stalled hengine herror hreason =>
        have hlooked := heffect.looked hacc hengine herror
        exact .stalled hlooked (habort ▸ herror) (habort ▸ hreason)
    | recorded hengine herrors =>
        exact .recorded (heffect.collected hacc hengine herrors) (herrors' ▸ herrors)
    | unmet k x hx hengine hunmet =>
        refine .unmet k x hx (heffect.past hf hacc hx hengine fun answer h => ?_) hunmet
        exact hunmet h.metBy
    | late k sec now hx hengine hemitted hnow hlate =>
        refine .late k sec now hx (heffect.past hf hacc hx hengine fun answer h => ?_)
          (heffect.emittedFinish hemitted) ((hfinished hemitted).trans hnow) hlate
        obtain ⟨time, htime, hle⟩ := h
        obtain rfl := Option.some.inj (hnow.symm.trans htime)
        exact hlate hle
  · obtain ⟨hsame, hfinished, habort, herrors', hdriver⟩ := others_keep h fun g hg => he ⟨g, hg⟩
    rw [← hsame] at hf
    cases hd with
    | raised message hengine hraised =>
        exact .raised message (hsame.trans hengine) (hdriver message hraised)
    | stalled hengine herror hreason =>
        obtain ⟨hreason', herror'⟩ := habort hreason
        exact .stalled (hsame ▸ hengine) (herror'.trans herror) hreason'
    | recorded hengine herrors => exact .recorded (hsame ▸ hengine) (herrors' herrors)
    | unmet k x hx hengine hunmet => exact .unmet k x hx (hsame ▸ hengine) hunmet
    | late k sec now hx hengine hemitted hnow hlate =>
        exact .late k sec now hx (hsame ▸ hengine) (hsame ▸ hemitted) (hfinished.trans hnow) hlate

theorem failed_step (hf : w.engine.failed = false) (hacc : w.Accepts cfg goals e)
    (h : w.step cfg e = some w') : w'.engine.failed = false := by
  by_cases he : ∃ g, e = .engine g
  · obtain ⟨g, rfl⟩ := he
    obtain ⟨checks, heffect, -⟩ := exists_effect h
    exact heffect.failed hf hacc
  · rw [(others_keep h fun g hg => he ⟨g, hg⟩).1]
    exact hf

/-- What is bound to come has come when the run has its verdict. -/
theorem not_doomed {status : ResultStatus} (h : exec (World.step cfg) w events = some w')
    (hdone : w'.engine = .done status) (hf : w.engine.failed = false)
    (hacc : Meets (World.step cfg) (Accepts cfg goals) w events) : ¬ Doomed cfg goals w := by
  intro hd
  have hend := (invariant (I := fun w : World => Doomed cfg goals w ∧ w.engine.failed = false)
    (fun s e t hs hq hst => ⟨hs.1.step hs.2 hq hst, failed_step hs.2 hq hst⟩) ⟨hd, hf⟩ hacc h).1
  cases hend with
  | raised message hengine => exact nomatch hdone.symm.trans hengine
  | stalled hengine | recorded hengine | unmet _ _ _ hengine | late _ _ _ _ hengine =>
      rw [hdone] at hengine
      exact nomatch hengine

/-! ## A run that passes -/

theorem TakesStall.aborts (h : w.step cfg e = some w') (htakes : w.TakesStall e) :
    w'.engine = w.engine ∧ w'.abort.isError = true ∧ w'.abort.reason ≠ none := by
  cases e with
  | loop l =>
      cases l with
      | go =>
          obtain ⟨hpc, hreason⟩ := htakes
          simp only [World.step, Timeline.loopStep, hpc, Option.map_some, Option.some.injEq] at h
          rw [← h, AbortState.take, if_pos hreason]
          exact ⟨rfl, rfl, Option.some_ne_none _⟩
      | _ => exact htakes.elim
  | _ => exact htakes.elim

theorem Records.errors (h : w.step cfg e = some w') (hrecords : w.Records e) :
    w'.engine = w.engine ∧ w'.timeline.errors ≠ [] := by
  cases e with
  | loop l =>
      cases l with
      | go =>
          obtain ⟨k, message, hpc⟩ := hrecords
          simp only [World.step, Timeline.loopStep, hpc, Timeline.fail, Option.map_some,
            Option.some.injEq] at h
          rw [← h]
          exact ⟨rfl, List.append_ne_nil_of_right_ne_nil _ (List.cons_ne_nil _ _)⟩
      | _ => exact hrecords.elim
  | item k l =>
      cases l with
      | go =>
          obtain ⟨item, message, hitem, hthread⟩ := hrecords
          obtain ⟨⟨t, a⟩, ht, rfl⟩ := Option.map_eq_some_iff.mp h
          obtain ⟨item', hitem', heffect⟩ := Timeline.itemStep_effect ht
          obtain rfl := Option.some.inj (hitem.symm.trans hitem')
          cases heffect with
          | record => exact ⟨rfl, List.append_ne_nil_of_right_ne_nil _ (List.cons_ne_nil _ _)⟩
          | moves _ _ hfrom => exact absurd hthread (hfrom _)
          | reason _ hother | event hother =>
              rw [hthread] at hother
              cases hother
      | _ => exact hrecords.elim
  | _ => exact hrecords.elim

/-- In a run that passes nothing goes wrong. -/
theorem sound_of_accepts {status : ResultStatus}
    (h : exec (World.step cfg) (init cfg) events = some w) (hdone : w.engine = .done status)
    (hacc : Meets (World.step cfg) (Accepts cfg goals) (init cfg) events) :
    Meets (World.step cfg) (Sound cfg) (init cfg) events := by
  rw [meets_iff_forall_split h]
  rintro pre e post u rfl hpre
  obtain ⟨v, hv, hpost⟩ := exec_after_cons h hpre
  have hfailed : u.engine.failed = false :=
    invariant (I := fun w : World => w.engine.failed = false)
      (fun s e t hs hq hst => failed_step hs hq hst) rfl hacc.left hpre
  have hhere := hacc.at hpre
  have hnot : ¬ Doomed cfg goals v :=
    not_doomed hpost hdone (failed_step hfailed hhere hv) ((hacc.right hpre).2 v hv)
  refine ⟨fun htakes => ?_, fun hrecords => ?_, ?_⟩
  · obtain ⟨hsame, herror, hreason⟩ := htakes.aborts hv
    by_contra hlooked
    exact hnot (.stalled (by rw [hsame]; simpa using hlooked) herror hreason)
  · obtain ⟨hsame, herrors⟩ := hrecords.errors hv
    by_contra hcollected
    exact hnot (.recorded (by rw [hsame]; simpa using hcollected) herrors)
  · cases e with
    | driver e =>
        cases e with
        | raises message =>
            obtain ⟨d, hd, rfl⟩ := Option.map_eq_some_iff.mp hv
            obtain ⟨m, hm⟩ := (Driver.raised_iff hd).mpr ⟨message, rfl⟩
            refine hnot (.raised m ?_ hm)
            by_contra hrunning
            rw [Driver.step_of_ended ((inv_of_exec hpre).ended hrunning)] at hd
            exact nomatch hd
        | _ => trivial
    | engine g =>
        obtain ⟨⟨pc, checks⟩, heng, rfl⟩ := Option.map_eq_some_iff.mp hv
        cases engineEffect_of_step heng with
        | returned | raised | aborted | executed | stopped | item | itemsEnd | errors | monitorsEnd
        | verdict => trivial
        | emitted o now hpc =>
            intro sec hsec
            by_contra hlate
            obtain ⟨k, hk⟩ := List.mem_iff_getElem?.mp hsec
            refine hnot (.late k sec now hk rfl rfl ?_ hlate)
            simp only [hpc]
        | monitor x k name message status hpc => simpa only [Accepts, hpc] using hhere
        | teardown x errors hpc => simpa only [Accepts, hpc] using hhere
        | expect o j answer x hpc hx =>
            intro executed k name hengine hk
            obtain ⟨-, rfl⟩ := EnginePc.expecting.inj (hpc.symm.trans hengine)
            simp only [Accepts, hpc] at hhere
            exact hhere _ hk
    | loop e => trivial
    | item k e => trivial

/-- In a run that passes every expectation is met. -/
theorem metBy_of_accepts {status : ResultStatus}
    (h : exec (World.step cfg) (init cfg) events = some w) (hdone : w.engine = .done status)
    (hacc : Meets (World.step cfg) (Accepts cfg goals) (init cfg) events) :
    ∀ x ∈ cfg.expect, x.MetBy (· ∈ goals) := by
  intro x hx
  by_contra hunmet
  obtain ⟨k, hk⟩ := List.mem_iff_getElem?.mp hx
  exact not_doomed h hdone rfl hacc (.unmet k x hk rfl hunmet)

theorem EngineEffect.awaits {k : Nat} {entry : TimelineEntry} {item : Item} {g : EngineStep}
    {pc : EnginePc} {checks : List CheckResult} (h : EngineEffect cfg w g pc checks)
    (hacc : w.Accepts cfg goals (.engine g)) (hentry : cfg.timeline.entries[k]? = some entry)
    (hrequired : entry.required = true) (hitem : w.timeline.items[k]? = some item)
    (hfired : item.firedAt = none) (hawaits : w.engine.awaits k = true) :
    pc.awaits k = true := by
  cases h with
  | returned | emitted | raised | aborted | executed => rfl
  | stopped x hpc => simp [EnginePc.awaits]
  | item x j entry' item' hpc hentry' hitem' =>
      rw [hpc] at hawaits
      have hle : j ≤ k := by simpa [EnginePc.awaits] using hawaits
      have hne : j ≠ k := by
        rintro rfl
        simp only [Accepts, hpc] at hacc
        exact hacc entry item hentry hitem ⟨hrequired, hfired⟩
      simp only [EnginePc.awaits, decide_eq_true_eq]
      omega
  | itemsEnd x j hpc hnone =>
      rw [hpc] at hawaits
      have hle : j ≤ k := by simpa [EnginePc.awaits] using hawaits
      have hentries := (List.getElem?_eq_some_iff.mp hentry).1
      have hitems := (List.getElem?_eq_some_iff.mp hitem).1
      exact (hnone _ _ (List.getElem?_eq_getElem (hle.trans_lt hentries))
        (List.getElem?_eq_getElem (hle.trans_lt hitems))).elim
  | errors x hpc | monitorsEnd x _ hpc | monitor x _ _ _ _ hpc | teardown x _ hpc
  | expect x _ _ _ hpc | verdict x _ hpc =>
      rw [hpc] at hawaits
      cases hawaits

/-- The items stay in their places. -/
theorem items_length (h : w.step cfg e = some w') :
    w'.timeline.items.length = w.timeline.items.length := by
  cases e with
  | driver e =>
      obtain ⟨d, -, rfl⟩ := Option.map_eq_some_iff.mp h
      rfl
  | loop e =>
      obtain ⟨⟨t, a⟩, ht, rfl⟩ := Option.map_eq_some_iff.mp h
      cases Timeline.loopStep_effect ht with
      | moves _ _ _ _ _ _ hitems => simpa using congrArg List.length hitems
      | fires => exact List.length_set
      | _ => rfl
  | item k e =>
      obtain ⟨⟨t, a⟩, ht, rfl⟩ := Option.map_eq_some_iff.mp h
      obtain ⟨item, -, heffect⟩ := Timeline.itemStep_effect ht
      cases heffect with
      | _ => exact List.length_set
  | engine g => simpa using congrArg List.length (engine_keeps h).2.2.2

/-- In a run that passes the required items have fired in time. -/
theorem firesInTime_of_accepts {status : ResultStatus} {k : Nat} {entry : TimelineEntry}
    (h : exec (World.step cfg) (init cfg) events = some w) (hdone : w.engine = .done status)
    (hacc : Meets (World.step cfg) (Accepts cfg goals) (init cfg) events)
    (hentry : cfg.timeline.entries[k]? = some entry) (hrequired : entry.required = true) :
    FiresInTime cfg events k := by
  intro hnever
  have hk := (List.getElem?_eq_some_iff.mp hentry).1
  have hend := invariant (I := fun w : World => w.engine.awaits k = true ∧ w.Unfired k ∧
      w.timeline.items.length = cfg.timeline.entries.length) ?_ ?_ (hacc.and hnever) h
  · rw [hdone] at hend
    exact nomatch hend.1
  · rintro s e t ⟨hawaits, hunfired, hlength⟩ ⟨haccepts, hnot⟩ hst
    have hunfired' := (unfired_step hst).mpr ⟨hunfired, fun hfires => hnot ⟨hfires, hawaits⟩⟩
    refine ⟨?_, hunfired', (items_length hst).trans hlength⟩
    by_cases he : ∃ g, e = .engine g
    · obtain ⟨g, rfl⟩ := he
      obtain ⟨checks, heffect, -⟩ := exists_effect hst
      have hitem := List.getElem?_eq_getElem (hlength.symm ▸ hk : k < s.timeline.items.length)
      exact heffect.awaits haccepts hentry hrequired hitem (hunfired _ hitem) hawaits
    · rw [(others_keep hst fun g hg => he ⟨g, hg⟩).1]
      exact hawaits
  · refine ⟨rfl, fun item hitem => ?_, List.length_map _⟩
    obtain ⟨entry, -, rfl⟩ := List.mem_map.mp (List.mem_of_getElem? hitem)
    rfl

/-! ## A run in which nothing goes wrong -/

/-- Nothing has gone wrong that the engine has yet to look at. -/
structure Safe (cfg : Config) (w : World) : Prop where
  raised : w.engine = .running → ∀ message, w.driver.pc ≠ .raised message
  looked : w.engine.looked = false → w.abort.isError = false
  collected : w.engine.collected = false → w.timeline.errors = []
  finished : w.engine.emittedFinish = true → ∃ now, w.finishedAt = some now ∧
    ∀ sec, .timeLimit sec ∈ cfg.expect → now - cfg.timeline.start ≤ sec

theorem Safe.init : Safe cfg (init cfg) where
  raised _ := nofun
  looked _ := rfl
  collected _ := rfl
  finished := nofun

theorem isError_step (h : w.step cfg e = some w') (hnot : ¬ w.TakesStall e)
    (herror : w.abort.isError = false) : w'.abort.isError = false := by
  have htake (reason : String) : (w.abort.take reason false).isError = false := by
    unfold AbortState.take
    split_ifs
    · rfl
    · exact herror
  cases e with
  | driver e =>
      obtain ⟨d, -, rfl⟩ := Option.map_eq_some_iff.mp h
      exact herror
  | loop e =>
      obtain ⟨⟨t, a⟩, ht, rfl⟩ := Option.map_eq_some_iff.mp h
      cases Timeline.loopStep_effect ht with
      | moves | fires | observes | record | stallEvent | timeoutEvent | event => exact herror
      | timeoutReason | reason => exact htake _
      | stallReason hpc =>
          have hreason : w.abort.reason ≠ none := fun hnone => hnot ⟨hpc, hnone⟩
          dsimp only
          rw [AbortState.take, if_neg hreason]
          exact herror
  | item k e =>
      obtain ⟨⟨t, a⟩, ht, rfl⟩ := Option.map_eq_some_iff.mp h
      obtain ⟨item, -, heffect⟩ := Timeline.itemStep_effect ht
      cases heffect with
      | moves | record | event => exact herror
      | reason => exact htake _
  | engine g =>
      rw [(engine_keeps h).1]
      exact herror

theorem errors_step (h : w.step cfg e = some w') (hnot : ¬ w.Records e)
    (herrors : w.timeline.errors = []) : w'.timeline.errors = [] := by
  cases e with
  | driver e =>
      obtain ⟨d, -, rfl⟩ := Option.map_eq_some_iff.mp h
      exact herrors
  | loop e =>
      obtain ⟨⟨t, a⟩, ht, rfl⟩ := Option.map_eq_some_iff.mp h
      cases Timeline.loopStep_effect ht with
      | moves _ _ _ _ _ hsame => exact hsame.trans herrors
      | record k message hpc => exact absurd ⟨k, message, hpc⟩ hnot
      | fires | stallReason | stallEvent | observes | timeoutReason | timeoutEvent | reason
      | event => exact herrors
  | item k e =>
      obtain ⟨⟨t, a⟩, ht, rfl⟩ := Option.map_eq_some_iff.mp h
      obtain ⟨item, hitem, heffect⟩ := Timeline.itemStep_effect ht
      cases heffect with
      | record message hthread => exact absurd ⟨item, message, hitem, hthread⟩ hnot
      | moves | reason | event => exact herrors
  | engine g =>
      rw [(engine_keeps h).2.2.1]
      exact herrors

theorem Safe.engineStep {g : EngineStep} (hs : Safe cfg w) (hsound : w.Sound cfg (.engine g))
    (h : w.step cfg (.engine g) = some w') : Safe cfg w' := by
  obtain ⟨habort, -, herrors, -⟩ := engine_keeps h
  obtain ⟨⟨pc, checks⟩, heng, rfl⟩ := Option.map_eq_some_iff.mp h
  have heffect := engineEffect_of_step heng
  refine ⟨?_, fun hlooked => habort ▸ hs.looked ?_, fun hcollected => herrors ▸ hs.collected ?_, ?_⟩
  · rintro rfl
    exact nomatch heffect
  · cases heffect with
    | returned _ hpc | emitted _ _ hpc => rw [hpc]; rfl
    | _ => exact nomatch hlooked
  · cases heffect with
    | returned _ hpc | emitted _ _ hpc | raised _ hpc | aborted _ hpc | executed _ hpc
    | stopped _ hpc | item _ _ _ _ hpc | itemsEnd _ _ hpc => rw [hpc]; rfl
    | _ => exact nomatch hcollected
  · intro hemitted
    cases heffect with
    | returned => exact nomatch hemitted
    | raised message hpc hdriver => exact absurd hdriver (hs.raised hpc message)
    | emitted o now hpc =>
        simp only [hpc]
        exact ⟨now, rfl, hsound.2.2⟩
    | aborted _ hpc | executed _ hpc | stopped _ hpc | item _ _ _ _ hpc | itemsEnd _ _ hpc
    | errors _ hpc | monitor _ _ _ _ _ hpc | monitorsEnd _ _ hpc | teardown _ _ hpc
    | expect _ _ _ _ hpc | verdict _ _ hpc =>
        simp only [hpc]
        exact hs.finished (by rw [hpc]; rfl)

theorem Safe.step (hs : Safe cfg w) (hsound : w.Sound cfg e) (h : w.step cfg e = some w') :
    Safe cfg w' := by
  by_cases he : ∃ g, e = .engine g
  · obtain ⟨g, rfl⟩ := he
    exact hs.engineStep hsound h
  · obtain ⟨hsame, hfinished, -⟩ := others_keep h fun g hg => he ⟨g, hg⟩
    refine ⟨?_, ?_, ?_, ?_⟩
    · rw [hsame]
      intro hengine message hraised
      cases e with
      | driver e =>
          obtain ⟨d, hd, rfl⟩ := Option.map_eq_some_iff.mp h
          obtain ⟨m, rfl⟩ := (Driver.raised_iff hd).mp ⟨message, hraised⟩
          exact hsound.2.2
      | loop e =>
          obtain ⟨⟨t, a⟩, -, rfl⟩ := Option.map_eq_some_iff.mp h
          exact hs.raised hengine message hraised
      | item k e =>
          obtain ⟨⟨t, a⟩, -, rfl⟩ := Option.map_eq_some_iff.mp h
          exact hs.raised hengine message hraised
      | engine g => exact he ⟨g, rfl⟩
    · rw [hsame]
      intro hlooked
      refine isError_step h (fun htakes => ?_) (hs.looked hlooked)
      rw [hsound.1 htakes] at hlooked
      exact nomatch hlooked
    · rw [hsame]
      intro hcollected
      refine errors_step h (fun hrecords => ?_) (hs.collected hcollected)
      rw [hsound.2.1 hrecords] at hcollected
      exact nomatch hcollected
    · rw [hsame, hfinished]
      exact hs.finished

/-- The step is accepted if nothing has gone wrong, the expectations are met and, at the check of a
required item, the item has been fired. -/
theorem Safe.accepts (hs : Safe cfg w) (hsound : w.Sound cfg e) (h : w.step cfg e = some w')
    (hmet : ∀ x ∈ cfg.expect, x.MetBy (· ∈ goals))
    (hfired : ∀ executed k entry, w.engine = .items executed k → e = .engine .go →
      cfg.timeline.entries[k]? = some entry → entry.required = true → ¬ w.Unfired k) :
    w.Accepts cfg goals e := by
  cases e with
  | driver e => cases hpc : w.engine <;> simp [Accepts, hpc]
  | loop e => cases hpc : w.engine <;> simp [Accepts, hpc]
  | item k e => cases hpc : w.engine <;> simp [Accepts, hpc]
  | engine g =>
      obtain ⟨⟨pc, checks⟩, heng, rfl⟩ := Option.map_eq_some_iff.mp h
      cases engineEffect_of_step heng with
      | returned o hpc hdriver => simpa only [Accepts, hpc] using hs.raised hpc
      | raised message hpc hdriver => exact absurd hdriver (hs.raised hpc message)
      | emitted o now hpc => simp only [Accepts, hpc]
      | aborted o hpc | executed o hpc =>
          simp only [Accepts, hpc]
          exact hs.looked (by rw [hpc]; rfl)
      | stopped x hpc => simp only [Accepts, hpc]
      | item x k entry item hpc hentry hitem =>
          simp only [Accepts, hpc]
          rintro entry' item' hentry' hitem' ⟨hrequired, hnone⟩
          refine hfired x k entry' hpc rfl hentry' hrequired fun i hi => ?_
          obtain rfl := Option.some.inj (hitem'.symm.trans hi)
          exact hnone
      | itemsEnd x k hpc hnone =>
          simp only [Accepts, hpc]
          exact fun entry item hentry hitem => (hnone entry item hentry hitem).elim
      | errors x hpc =>
          simp only [Accepts, hpc]
          exact hs.collected (by rw [hpc]; rfl)
      | monitor x k name message status hpc => simpa only [Accepts, hpc] using hsound.2.2
      | monitorsEnd x k hpc => simp only [Accepts, hpc]
      | teardown x errors hpc => simpa only [Accepts, hpc] using hsound.2.2
      | expect o k answer x hpc hx =>
          simp only [Accepts, hpc]
          intro y hy
          have hmem := List.mem_of_getElem? hy
          have hmet := hmet y hmem
          cases y with
          | reachedAll => exact List.eq_nil_iff_forall_not_mem.mpr hmet
          | timeLimit sec =>
              obtain ⟨now, hnow, hlimits⟩ := hs.finished (by rw [hpc]; rfl)
              exact ⟨now, hnow, hlimits sec hmem⟩
          | navigationFails index => exact hmet
          | other name => exact hsound.2.2 _ _ name hpc hy
      | verdict x k hpc => cases x <;> simp only [Accepts, hpc]

theorem EngineEffect.checked {k : Nat} {g : EngineStep} {pc : EnginePc}
    {checks : List CheckResult} (h : EngineEffect cfg w g pc checks)
    (hchecked : w.engine.awaits k = false) : pc.awaits k = false := by
  cases h with
  | returned _ hpc | emitted _ _ hpc | raised _ hpc | aborted _ hpc | executed _ hpc
  | stopped _ hpc =>
      rw [hpc] at hchecked
      exact nomatch hchecked
  | item x j entry item hpc =>
      rw [hpc] at hchecked
      simp only [EnginePc.awaits, decide_eq_false_iff_not] at hchecked ⊢
      omega
  | _ => rfl

theorem checked_step {k : Nat} (hchecked : w.engine.awaits k = false)
    (h : w.step cfg e = some w') : w'.engine.awaits k = false := by
  by_cases he : ∃ g, e = .engine g
  · obtain ⟨g, rfl⟩ := he
    obtain ⟨checks, heffect, -⟩ := exists_effect h
    exact heffect.checked hchecked
  · rw [(others_keep h fun g hg => he ⟨g, hg⟩).1]
    exact hchecked

/-- An item whose trigger fires in time has been fired when it is checked. -/
theorem FiresInTime.fired {k : Nat} {executed : Option Outcome} {pre post : List Event} {u : World}
    (hfires : FiresInTime cfg (pre ++ .engine .go :: post) k)
    (h : exec (World.step cfg) (init cfg) (pre ++ .engine .go :: post) = some w)
    (hpre : exec (World.step cfg) (init cfg) pre = some u)
    (hengine : u.engine = .items executed k) : ¬ u.Unfired k := by
  intro hunfired
  have hbefore : Meets (World.step cfg) (fun w e => ¬ w.Fires k e) (init cfg) pre :=
    ((iff_and_meets (P := Unfired k) (fun _ _ _ hst => unfired_step hst) hpre).mp hunfired).2
  refine hfires ((hbefore.mono fun s e hnot hboth => hnot hboth.1).append fun t ht => ?_)
  obtain rfl := Option.some.inj (hpre.symm.trans ht)
  obtain ⟨v, hv, -⟩ := exec_after_cons h hpre
  have hchecked : v.engine.awaits k = false := by
    obtain ⟨checks, heffect, -⟩ := exists_effect hv
    generalize v.engine = pc at heffect
    cases heffect with
    | item x j entry item hpc =>
        obtain ⟨-, rfl⟩ := EnginePc.items.inj (hpc.symm.trans hengine)
        simp [EnginePc.awaits]
    | itemsEnd => rfl
    | returned _ hpc | raised _ hpc | aborted _ hpc | executed _ hpc | stopped _ hpc
    | errors _ hpc | monitorsEnd _ _ hpc | verdict _ _ hpc =>
        exact nomatch hengine.symm.trans hpc
  refine Meets.cons (fun hboth => hboth.1) hv ?_
  refine meets_of_invariant (I := fun w : World => w.engine.awaits k = false)
    (Q := fun _ _ => True) (fun _ _ _ hs _ hst => checked_step hs hst) ?_ hchecked
    (Meets.of_forall fun _ _ => trivial)
  rintro s e hs - ⟨-, hawaits⟩
  rw [hs] at hawaits
  exact nomatch hawaits

/-- A run in which nothing goes wrong and every expectation is met is accepted. -/
theorem accepts_of_sound (h : exec (World.step cfg) (init cfg) events = some w)
    (hmet : ∀ x ∈ cfg.expect, x.MetBy (· ∈ goals))
    (hsound : Meets (World.step cfg) (Sound cfg) (init cfg) events)
    (hfires : ∀ k entry, cfg.timeline.entries[k]? = some entry → entry.required = true →
      FiresInTime cfg events k) :
    Meets (World.step cfg) (Accepts cfg goals) (init cfg) events := by
  rw [meets_iff_forall_split h]
  rintro pre e post u rfl hpre
  obtain ⟨v, hv, -⟩ := exec_after_cons h hpre
  have hsafe : Safe cfg u :=
    invariant (fun _ _ _ hs hq hst => hs.step hq hst) .init hsound.left hpre
  refine hsafe.accepts (hsound.at hpre) hv hmet ?_
  rintro executed k entry hengine rfl hentry hrequired
  exact (hfires k entry hentry hrequired).fired h hpre hengine

/-! ## Where the driver is stopped -/

theorem mem_stopsBy_iff {i : Nat} {a : DriverStep} : i ∈ w.stopsBy cfg (.driver a) ↔
    (w.abort.event = true ∧ w.driver.readsAt cfg.driver a = some i) ∨
      w.driver.failsAt a = some i := by
  rw [stopsBy, Driver.stopsAt, Option.mem_toList, Option.or_eq_some_iff]
  constructor
  · rintro (hreads | ⟨-, hfails⟩)
    · exact .inl ((Option.filter_eq_some_iff.mp hreads).symm.imp_left id)
    · exact .inr hfails
  · rintro (⟨hevent, hreads⟩ | hfails)
    · exact .inl (Option.filter_eq_some_iff.mpr ⟨hreads, hevent⟩)
    · refine .inr ⟨?_, hfails⟩
      rw [Driver.readsAt_of_failsAt hfails, Option.filter_none]

/-- While nothing else goes wrong the driver is stopped by the timeout or by its navigation. -/
theorem mem_stops_iff {i : Nat} (h : exec (World.step cfg) (init cfg) events = some w)
    (hsound : Meets (World.step cfg) (Sound cfg) (init cfg) events) :
    i ∈ stops cfg events ↔ StoppedAt cfg events i := by
  have hrunning {u v : World} {pre : List Event} {a : DriverStep}
      (hpre : exec (World.step cfg) (init cfg) pre = some u)
      (hv : u.step cfg (.driver a) = some v) : u.engine = .running ∧ u.driver.ended = false := by
    obtain ⟨d, hd, -⟩ := Option.map_eq_some_iff.mp hv
    have hended : u.driver.ended = false := by
      by_contra hended
      rw [Driver.step_of_ended (by simpa using hended)] at hd
      cases hd
    refine ⟨?_, hended⟩
    by_contra hnot
    rw [(inv_of_exec hpre).ended hnot] at hended
    cases hended
  rw [stops, mem_outputs_iff h]
  constructor
  · rintro ⟨pre, e, post, u, rfl, hpre, hi⟩
    cases e with
    | driver a =>
        obtain ⟨v, hv, -⟩ := exec_after_cons h hpre
        obtain ⟨hrun, hnot⟩ := hrunning hpre hv
        rcases mem_stopsBy_iff.mp hi with ⟨hevent, hreads⟩ | hfails
        · obtain ⟨pre, now, mid, s, rfl, hs, hpc, hlate, hmid⟩ :=
            exists_observation hpre hsound.left hrun hevent
          refine .inl ⟨pre, now, mid, a, post, s, u, rfl, hs, ⟨hpc, ?_, hlate⟩, hpre, hmid, hreads⟩
          by_contra hended
          have hlater := invariant_of_step (I := fun w : World => w.driver.ended = true)
            (fun _ _ _ => ended_step) (by simpa using hended) (exec_after hpre hs)
          rw [hnot] at hlater
          cases hlater
        · exact .inr ⟨pre, a, post, u, rfl, hpre, hfails⟩
    | _ => cases hi
  · rintro (⟨pre, now, mid, a, post, u, v, rfl, hu, hobs, hv, hmid, hreads⟩ |
      ⟨pre, a, post, v, rfl, hpre, hfails⟩)
    · refine ⟨_, .driver a, post, v, rfl, hv, mem_stopsBy_iff.mpr (.inl ⟨?_, hreads⟩)⟩
      exact event_of_observation hu hobs.1 hobs.2.2 hv hmid
    · exact ⟨pre, .driver a, post, v, rfl, hpre, mem_stopsBy_iff.mpr (.inr hfails)⟩

/-- A run that is timed out does not pass iff an expectation is not met by where the driver is
stopped, or something else goes wrong. The driver is stopped where it reads the event after the
loop has observed the timeout and set it, and where its navigation fails. -/
theorem timeout_noticed_iff {status : ResultStatus}
    (h : exec (World.step cfg) (init cfg) events = some w) (hdone : w.engine = .done status) :
    (TimedOut cfg events → status ≠ .passed) ↔
      (TimedOut cfg events → (∃ x ∈ cfg.expect, ¬ x.MetBy (StoppedAt cfg events)) ∨
        FailsOtherwise cfg events) := by
  refine imp_congr_right fun _ => ?_
  rw [ne_eq, passed_iff_meets h hdone, not_iff_comm]
  unfold FailsOtherwise
  push Not
  have hstops (hsound : Meets (World.step cfg) (Sound cfg) (init cfg) events) :
      (fun i => i ∈ stops cfg events) = StoppedAt cfg events :=
    funext fun i => propext (mem_stops_iff h hsound)
  constructor
  · rintro ⟨hmet, hsound, hfires⟩
    rw [← hstops hsound] at hmet
    exact accepts_of_sound h hmet hsound hfires
  · intro hacc
    have hsound := sound_of_accepts h hdone hacc
    refine ⟨?_, hsound, fun k entry => firesInTime_of_accepts h hdone hacc⟩
    rw [← hstops hsound]
    exact metBy_of_accepts h hdone hacc

/-- One goal without hooks, within ten seconds; the default expectation. -/
def shortScenario (after : List ActionCall) : Config where
  fixed := fun _ _ => ""
  timeline := ⟨some 10, 30, [], 0⟩
  driver := ⟨[⟨"goal[0]", [], after⟩], 300⟩
  monitors := []
  expect := [.reachedAll]

/-- From the start to the wait for the navigation to the goal. -/
def toNavigation : List Event :=
  [.loop (.clocks 0 0), .driver .go, .driver .go, .driver .go, .driver (.sent true),
    .driver (.clock 0)]

/-- The loop observes the timeout and sets the event. -/
def observation : List Event :=
  [.loop .go, .loop (.clocks 11 11), .loop (.elapsed 11), .loop .go, .loop .go]

/-- The engine from the end of `run` to the verdict. -/
def verdict : List Event :=
  [.engine .go, .engine (.emit 12), .engine .go, .engine .go, .engine .go, .engine .go,
    .engine .go, .engine (.teardown []), .engine (.expect (.error "")), .engine .go]

def noticedRun : List Event :=
  toNavigation ++ observation ++ [.driver (.polled false), .driver .go] ++ verdict

/-- The driver reads the event when the navigation is not complete. -/
theorem timeout_noticed_while_navigating : ∃ w status,
    exec (step (shortScenario [])) (init (shortScenario [])) noticedRun = some w ∧
      w.engine = .done status ∧ TimedOut (shortScenario []) noticedRun ∧
        ReadsTimeout (shortScenario []) noticedRun 0 ∧ status ≠ .passed := by
  have hrun : (exec (step (shortScenario [])) (init (shortScenario [])) noticedRun).any
      (fun w => decide (w.engine = .done .failed)) = true := by decide +kernel
  obtain ⟨w, hw, hdone⟩ := exists_exec hrun
  have hobserve : (exec (step (shortScenario [])) (init (shortScenario []))
      (toNavigation ++ [.loop .go, .loop (.clocks 11 11)])).any
        (fun u => decide (u.ObservesTimeout (shortScenario []) (.loop (.elapsed 11)))) = true := by
    decide +kernel
  obtain ⟨u, hu, hobs⟩ := exists_exec hobserve
  have hread : (exec (step (shortScenario [])) (init (shortScenario []))
      (toNavigation ++ [.loop .go, .loop (.clocks 11 11)] ++
        .loop (.elapsed 11) :: [.loop .go, .loop .go, .driver (.polled false)])).any
          (fun v => decide (v.driver.readsAt (shortScenario []).driver .go = some 0)) = true := by
    decide +kernel
  obtain ⟨v, hv, hreads⟩ := exists_exec hread
  have hreadsTimeout : ReadsTimeout (shortScenario []) noticedRun 0 :=
    ⟨_, 11, _, .go, verdict, u, v, rfl, hu, hobs, hv, by decide, hreads⟩
  have htimedOut : TimedOut (shortScenario []) noticedRun := by decide +kernel
  refine ⟨w, _, hw, hdone, htimedOut, hreadsTimeout, ?_⟩
  refine (timeout_noticed_iff hw hdone).mpr (fun _ => .inl ⟨.reachedAll, ?_, ?_⟩) htimedOut
  · exact List.mem_singleton.mpr rfl
  · exact fun hnever => hnever 0 (.inl hreadsTimeout)

/-- The timeout is observed while the hooks after the last goal run. -/
def unnoticedRun : List Event :=
  toNavigation ++ [.driver (.polled true), .driver (.result .succeeded), .driver .go] ++
    observation ++ [.driver .returns, .driver .go, .driver .go] ++ verdict

theorem timeout_unnoticed_in_hooks : ∃ w,
    exec (step (shortScenario [⟨"delay", "run"⟩])) (init (shortScenario [⟨"delay", "run"⟩]))
      unnoticedRun = some w ∧
        w.engine = .done .passed ∧ TimedOut (shortScenario [⟨"delay", "run"⟩]) unnoticedRun := by
  have hrun : (exec (step (shortScenario [⟨"delay", "run"⟩]))
      (init (shortScenario [⟨"delay", "run"⟩])) unnoticedRun).any
        (fun w => decide (w.engine = .done .passed)) = true := by decide +kernel
  obtain ⟨w, hw, hdone⟩ := exists_exec hrun
  exact ⟨w, hw, hdone, by decide +kernel⟩

end World

end MgRobot.Scenario
