import MgRobot.Scenario.Engine

/-!
# Who sets the abort event

What one step of the loop and of the thread of an item can do to the abort state and to
the errors of the timeline. While nothing is recorded and no stalled clock aborts, only
the loop sets the event, two steps after it has observed the timeout.
-/

namespace MgRobot.Scenario

set_option autoImplicit false

open MgRobot.Lib.Runs

/-- Between two steps of an abort. -/
def LoopPc.aborting : LoopPc → Prop
  | .stallEvent | .timeoutReason | .timeoutEvent | .itemFailed _ (.reason _) |
    .itemFailed _ .event => True
  | _ => False

/-- The thread has recorded an error and is about to abort. -/
def Item.aborting (item : Item) : Prop :=
  (∃ message, item.thread = .failing (.reason message)) ∨ item.thread = .failing .event

/-- What the other threads see of an item. -/
def Item.progress (item : Item) : ThreadPc × Option ℚ := (item.thread, item.firedAt)

namespace Timeline

variable {fixed : Fixed} {spec : TimelineSpec} {t t' : Timeline} {a a' : AbortState}

/-- What a step of the loop does. -/
inductive LoopEffect (fixed : Fixed) (spec : TimelineSpec) (t : Timeline) (a : AbortState) :
    LoopStep → Timeline → AbortState → Prop where
  | moves (e : LoopStep) (t' : Timeline) (hpc : ¬ t.pc.aborting) (hpc' : ¬ t'.pc.aborting)
      (hpoll : ∀ k now, t.pc = .item k → e ≠ .poll true now) (herrors : t'.errors = t.errors)
      (hitems : t'.items.map Item.progress = t.items.map Item.progress) :
      LoopEffect fixed spec t a e t' a
  | fires (k : Nat) (now : ℚ) (item : Item) (hpc : t.pc = .item k)
      (hitem : t.items[k]? = some item) (hfired : item.firedAt = none) :
      LoopEffect fixed spec t a (.poll true now)
        { t.setItem k { item with firedAt := some (now - spec.start), thread := .next 0 } with
          pc := .item (k + 1) } a
  | stallReason (hpc : t.pc = .stallReason) :
      LoopEffect fixed spec t a .go { t with pc := .stallEvent } (a.take
        ("simulation clock stalled for " ++ fixed 0 spec.clockStallSec ++ "s (wall)") true)
  | stallEvent (hpc : t.pc = .stallEvent) :
      LoopEffect fixed spec t a .go { t with pc := .timeout } a.set
  | observes (now : ℚ) (hpc : t.pc = .timeout) (hlate : spec.exceeded now = true) :
      LoopEffect fixed spec t a (.elapsed now) { t with pc := .timeoutReason } a
  | timeoutReason (hpc : t.pc = .timeoutReason) :
      LoopEffect fixed spec t a .go { t with pc := .timeoutEvent } (a.take
        ("scenario timeout (" ++ fixed 0 (spec.timeout.getD 0) ++ "s sim time)") false)
  | timeoutEvent (hpc : t.pc = .timeoutEvent) :
      LoopEffect fixed spec t a .go { t with pc := .item 0 } a.set
  | record (k : Nat) (message : String) (hpc : t.pc = .itemFailed k (.record message)) :
      LoopEffect fixed spec t a .go
        { t with errors := t.errors ++ [message], pc := .itemFailed k (.reason message) } a
  | reason (k : Nat) (message : String) (hpc : t.pc = .itemFailed k (.reason message)) :
      LoopEffect fixed spec t a .go { t with pc := .itemFailed k .event }
        (a.take ("timeline error: " ++ message) false)
  | event (k : Nat) (hpc : t.pc = .itemFailed k .event) :
      LoopEffect fixed spec t a .go { t with pc := .item (k + 1) } a.set

theorem stepItem_effect {k : Nat} {item : Item} {entry : TimelineEntry} {e : LoopStep}
    (hpc : t.pc = .item k) (hitem : t.items[k]? = some item)
    (h : t.stepItem spec k item entry e = some t') : LoopEffect fixed spec t a e t' a := by
  have hcalm : ¬ t.pc.aborting := by
    rw [hpc]
    exact id
  unfold stepItem at h
  split at h
  · rename_i hfired
    cases e with
    | poll fires now =>
        cases fires with
        | true =>
            obtain rfl := Option.some.inj h
            exact .fires k now item hpc hitem hfired
        | false =>
            obtain rfl := Option.some.inj h
            exact .moves _ _ hcalm id (fun _ _ _ => nofun) rfl rfl
    | pollRaises message =>
        obtain rfl := Option.some.inj h
        exact .moves _ _ hcalm id (fun _ _ _ => nofun) rfl rfl
    | go => exact nomatch h
    | clocks sim wall => exact nomatch h
    | elapsed now => exact nomatch h
  · cases e with
    | go =>
        obtain rfl := Option.some.inj h
        refine .moves _ _ hcalm ?_ (fun _ _ _ => nofun) rfl rfl
        dsimp only
        split_ifs <;> exact id
    | poll fires now => exact nomatch h
    | pollRaises message => exact nomatch h
    | clocks sim wall => exact nomatch h
    | elapsed now => exact nomatch h

theorem pollUntil_effect {k : Nat} {item : Item} {entry : TimelineEntry} {e : LoopStep}
    (hpc : t.pc = .untilPoll k) (hitem : t.items[k]? = some item)
    (h : t.pollUntil k item entry e = some t') : LoopEffect fixed spec t a e t' a := by
  have hcalm : ¬ t.pc.aborting := by
    rw [hpc]
    exact id
  have hpoll : ∀ j now, t.pc = .item j → e ≠ .poll true now := by
    rw [hpc]
    nofun
  cases e with
  | poll fires now =>
      cases fires with
      | true =>
          obtain rfl := Option.some.inj h
          refine .moves _ _ hcalm id hpoll rfl (List.ext_getElem? fun j => ?_)
          by_cases hj : k = j
          · subst hj
            obtain ⟨hlt, rfl⟩ := List.getElem?_eq_some_iff.mp hitem
            simp [setItem, hlt, Item.progress]
          · simp [setItem, hj]
      | false =>
          obtain rfl := Option.some.inj h
          exact .moves _ _ hcalm id hpoll rfl rfl
  | pollRaises message =>
      obtain rfl := Option.some.inj h
      exact .moves _ _ hcalm id hpoll rfl rfl
  | go => exact nomatch h
  | clocks sim wall => exact nomatch h
  | elapsed now => exact nomatch h

theorem loopStep_effect {e : LoopStep} (h : t.loopStep fixed spec a e = some (t', a')) :
    LoopEffect fixed spec t a e t' a' := by
  have hmoves {pc : LoopPc} {t' : Timeline} (hpc : t.pc = pc) (hfrom : ¬ pc.aborting)
      (hpoll : ∀ k now, pc = .item k → e ≠ .poll true now) (hpc' : ¬ t'.pc.aborting)
      (herrors : t'.errors = t.errors)
      (hitems : t'.items.map Item.progress = t.items.map Item.progress) :
      LoopEffect fixed spec t a e t' a :=
    .moves e t' (hpc ▸ hfrom) hpc' (fun k now h => hpoll k now (hpc.symm.trans h)) herrors hitems
  unfold Timeline.loopStep at h
  split at h
  · rename_i hpc
    obtain ⟨rfl, rfl⟩ := Prod.mk.inj (Option.some.inj h)
    exact hmoves hpc id nofun id rfl rfl
  · rename_i hpc
    obtain ⟨rfl, rfl⟩ := Prod.mk.inj (Option.some.inj h)
    refine hmoves hpc id nofun ?_ rfl rfl
    dsimp only
    split_ifs <;> exact id
  · rename_i hpc
    split_ifs at h
    all_goals
      obtain ⟨rfl, rfl⟩ := Prod.mk.inj (Option.some.inj h)
      exact hmoves hpc id nofun id rfl rfl
  · rename_i hpc
    obtain ⟨rfl, rfl⟩ := Prod.mk.inj (Option.some.inj h)
    exact .stallReason hpc
  · rename_i hpc
    obtain ⟨rfl, rfl⟩ := Prod.mk.inj (Option.some.inj h)
    exact .stallEvent hpc
  · rename_i now hpc
    obtain ⟨rfl, rfl⟩ := Prod.mk.inj (Option.some.inj h)
    by_cases hlate : spec.exceeded now = true
    · rw [if_pos hlate]
      exact .observes now hpc hlate
    · rw [if_neg hlate]
      exact hmoves hpc id nofun id rfl rfl
  · rename_i hpc
    obtain ⟨rfl, rfl⟩ := Prod.mk.inj (Option.some.inj h)
    exact .timeoutReason hpc
  · rename_i hpc
    obtain ⟨rfl, rfl⟩ := Prod.mk.inj (Option.some.inj h)
    exact .timeoutEvent hpc
  · rename_i hpc
    split at h
    · rename_i hitem _
      obtain ⟨u, hu, heq⟩ := Option.map_eq_some_iff.mp h
      obtain ⟨rfl, rfl⟩ := Prod.mk.inj heq
      exact stepItem_effect hpc hitem hu
    · split at h
      · obtain ⟨rfl, rfl⟩ := Prod.mk.inj (Option.some.inj h)
        exact hmoves hpc id (fun _ _ _ => nofun) id rfl rfl
      · exact nomatch h
  · rename_i hpc
    split at h
    · rename_i hitem _
      obtain ⟨u, hu, heq⟩ := Option.map_eq_some_iff.mp h
      obtain ⟨rfl, rfl⟩ := Prod.mk.inj heq
      exact pollUntil_effect hpc hitem hu
    · exact nomatch h
  · rename_i k pc hpc
    obtain ⟨rfl, rfl⟩ := Prod.mk.inj (Option.some.inj h)
    cases pc with
    | record message => exact .record k message hpc
    | reason message => exact .reason k message hpc
    | event => exact .event k hpc
  · rename_i hpc
    obtain ⟨rfl, rfl⟩ := Prod.mk.inj (Option.some.inj h)
    exact hmoves hpc id nofun id rfl rfl
  · exact nomatch h

/-- From the observation on the loop gives the reason, and then sets the event. -/
theorem loopStep_observes {now : ℚ} (hpc : t.pc = .timeout) (hlate : spec.exceeded now = true)
    (h : t.loopStep fixed spec a (.elapsed now) = some (t', a')) : t'.pc = .timeoutReason := by
  simp only [Timeline.loopStep, hpc, hlate, if_true, Option.some.injEq, Prod.mk.injEq] at h
  rw [← h.1]

theorem loopStep_timeoutReason {e : LoopStep} (hpc : t.pc = .timeoutReason)
    (h : t.loopStep fixed spec a e = some (t', a')) : t'.pc = .timeoutEvent := by
  cases e <;> simp only [Timeline.loopStep, hpc, Option.some.injEq, Prod.mk.injEq, reduceCtorEq] at h
  rw [← h.1]

theorem loopStep_timeoutEvent {e : LoopStep} (hpc : t.pc = .timeoutEvent)
    (h : t.loopStep fixed spec a e = some (t', a')) : a'.event = true := by
  cases e <;> simp only [Timeline.loopStep, hpc, Option.some.injEq, Prod.mk.injEq, reduceCtorEq] at h
  rw [← h.2]
  rfl

/-- What a step of the thread of item `k` does. -/
inductive ItemEffect (t : Timeline) (a : AbortState) (k : Nat) (item : Item) :
    ItemStep → Timeline → AbortState → Prop where
  | moves (e : ItemStep) (item' : Item) (hfrom : ∀ pc, item.thread ≠ .failing pc)
      (hpc : ¬ item'.aborting) (hfired : item'.firedAt = item.firedAt) :
      ItemEffect t a k item e (t.setItem k item') a
  | record (message : String) (hthread : item.thread = .failing (.record message)) :
      ItemEffect t a k item .go
        ({ t with errors := t.errors ++ [message] }.setItem k
          { item with thread := .failing (.reason message) }) a
  | reason (message : String) (hthread : item.thread = .failing (.reason message)) :
      ItemEffect t a k item .go (t.setItem k { item with thread := .failing .event })
        (a.take ("timeline error: " ++ message) false)
  | event (hthread : item.thread = .failing .event) :
      ItemEffect t a k item .go (t.setItem k { item with thread := .ended, finished := true }) a.set

theorem itemStep_effect {k : Nat} {e : ItemStep} (h : t.itemStep spec a k e = some (t', a')) :
    ∃ item, t.items[k]? = some item ∧ ItemEffect t a k item e t' a' := by
  obtain ⟨entry, -, h⟩ := Option.bind_eq_some_iff.mp h
  obtain ⟨item, hitem, h⟩ := Option.bind_eq_some_iff.mp h
  have hmoves (thread : ThreadPc) (interrupted finished : Bool)
      (hfrom : ∀ pc, item.thread ≠ .failing pc)
      (hpc : ∀ pc, thread = .failing pc → ∃ message, pc = .record message) :
      ItemEffect t a k item e (t.setItem k { item with thread, interrupted, finished }) a := by
    refine .moves _ _ hfrom ?_ rfl
    rintro (⟨message, h⟩ | h)
    · exact nomatch hpc _ h
    · exact nomatch hpc _ h
  refine ⟨item, hitem, ?_⟩
  split at h
  · rename_i hthread _ _
    have hfrom : ∀ pc, item.thread ≠ .failing pc := by
      rw [hthread]
      nofun
    split_ifs at h
    · obtain ⟨rfl, rfl⟩ := Prod.mk.inj (Option.some.inj h)
      exact hmoves _ _ _ hfrom nofun
    · obtain ⟨rfl, rfl⟩ := Prod.mk.inj (Option.some.inj h)
      exact hmoves _ _ _ hfrom nofun
  · rename_i hthread _ _
    obtain ⟨rfl, rfl⟩ := Prod.mk.inj (Option.some.inj h)
    exact hmoves _ _ _ (by rw [hthread]; nofun) nofun
  · rename_i hthread _ _
    obtain ⟨call, -, heq⟩ := Option.map_eq_some_iff.mp h
    obtain ⟨rfl, rfl⟩ := Prod.mk.inj heq
    refine hmoves _ _ _ (by rw [hthread]; nofun) fun pc hpc => ?_
    exact ⟨_, (ThreadPc.failing.inj hpc).symm⟩
  · rename_i pc hthread _ _
    obtain ⟨rfl, rfl⟩ := Prod.mk.inj (Option.some.inj h)
    cases pc with
    | record message => exact .record message hthread
    | reason message => exact .reason message hthread
    | event => exact .event hthread
  · exact nomatch h

/-! ## The event is set for a reason -/

/-- Whoever has set the event, or is about to, has given a reason. -/
structure Reasoned (t : Timeline) (a : AbortState) : Prop where
  event : a.event = true → a.reason ≠ none
  loop : t.pc = .stallEvent ∨ t.pc = .timeoutEvent ∨ (∃ k, t.pc = .itemFailed k .event) →
    a.reason ≠ none
  items : ∀ item ∈ t.items, item.thread = .failing .event → a.reason ≠ none

end Timeline

theorem AbortState.reason_take (a : AbortState) (reason : String) (error : Bool) :
    (a.take reason error).reason ≠ none := by
  unfold take
  split_ifs with h
  · simp
  · exact h

theorem AbortState.event_take (a : AbortState) (reason : String) (error : Bool) :
    (a.take reason error).event = a.event := by
  unfold take
  split_ifs <;> rfl

namespace Timeline

variable {fixed : Fixed} {spec : TimelineSpec} {t t' : Timeline} {a a' : AbortState}

/-- The threads of the items are where they were. -/
theorem exists_progress (h : t'.items.map Item.progress = t.items.map Item.progress) {item' : Item}
    (hitem : item' ∈ t'.items) :
    ∃ item ∈ t.items, item.thread = item'.thread ∧ item.firedAt = item'.firedAt := by
  have hmem := List.mem_map_of_mem (f := Item.progress) hitem
  rw [h] at hmem
  obtain ⟨item, hitem, heq⟩ := List.mem_map.mp hmem
  exact ⟨item, hitem, congrArg Prod.fst heq, congrArg Prod.snd heq⟩

theorem mem_setItem {k : Nat} {item item' : Item} (h : item' ∈ (t.setItem k item).items) :
    item' ∈ t.items ∨ item' = item := List.mem_or_eq_of_mem_set h

theorem Reasoned.loopStep {e : LoopStep} (hr : t.Reasoned a)
    (h : t.loopStep fixed spec a e = some (t', a')) : t'.Reasoned a' := by
  cases loopStep_effect h with
  | moves _ _ _ hpc' _ _ hitems =>
      refine ⟨hr.event, fun hloop => ?_, fun item' hitem' hthread => ?_⟩
      · rcases hloop with heq | heq | ⟨k, heq⟩ <;> exact absurd (heq ▸ trivial) hpc'
      · obtain ⟨item, hitem, hsame, -⟩ := exists_progress hitems hitem'
        exact hr.items item hitem (hsame.trans hthread)
  | fires k now item hpc hitem hfired =>
      refine ⟨hr.event, nofun, fun item' hitem' hthread => ?_⟩
      rcases mem_setItem hitem' with hmem | rfl
      · exact hr.items item' hmem hthread
      · exact nomatch hthread
  | stallReason | timeoutReason | reason =>
      have hreason := a.reason_take
      exact ⟨fun _ => hreason _ _, fun _ => hreason _ _, fun _ _ _ => hreason _ _⟩
  | observes now hpc hlate => exact ⟨hr.event, nofun, hr.items⟩
  | record k message hpc => exact ⟨hr.event, nofun, hr.items⟩
  | stallEvent hpc => exact ⟨fun _ => hr.loop (.inl hpc), nofun, hr.items⟩
  | timeoutEvent hpc => exact ⟨fun _ => hr.loop (.inr (.inl hpc)), nofun, hr.items⟩
  | event k hpc => exact ⟨fun _ => hr.loop (.inr (.inr ⟨k, hpc⟩)), nofun, hr.items⟩

theorem Reasoned.itemStep {k : Nat} {e : ItemStep} (hr : t.Reasoned a)
    (h : t.itemStep spec a k e = some (t', a')) : t'.Reasoned a' := by
  obtain ⟨item, hitem, heffect⟩ := itemStep_effect h
  have hitems (item' : Item) (hother : item'.thread ≠ .failing .event) :
      ∀ x ∈ (t.setItem k item').items, x.thread = .failing .event → a.reason ≠ none := by
    intro x hx hthread
    rcases mem_setItem hx with hmem | rfl
    · exact hr.items x hmem hthread
    · exact absurd hthread hother
  cases heffect with
  | moves _ item' _ hpc _ =>
      exact ⟨hr.event, hr.loop, hitems item' fun hthread => hpc (.inr hthread)⟩
  | record message hthread => exact ⟨hr.event, hr.loop, hitems _ nofun⟩
  | reason message hthread =>
      have hreason := a.reason_take
      exact ⟨fun _ => hreason _ _, fun _ => hreason _ _, fun _ _ _ => hreason _ _⟩
  | event hthread =>
      have hreason := hr.items item (List.mem_of_getElem? hitem) hthread
      exact ⟨fun _ => hreason, hr.loop, hitems _ nofun⟩

theorem Reasoned.stopAll (hr : t.Reasoned a) : t.stopAll.Reasoned a := by
  refine ⟨hr.event, hr.loop, fun x hx hthread => ?_⟩
  obtain ⟨y, hy, rfl⟩ := List.mem_map.mp hx
  exact hr.items y hy hthread

theorem reasoned_initial : (initial spec).Reasoned ⟨false, none, false⟩ := by
  refine ⟨nofun, nofun, fun x hx hthread => ?_⟩
  obtain ⟨entry, -, rfl⟩ := List.mem_map.mp hx
  exact nomatch hthread

end Timeline

namespace World

variable {cfg : Config} {w w' : World} {e : Event} {events : List Event}

/-- What a step of the engine can be. -/
inductive EngineEffect (cfg : Config) (w : World) :
    EngineStep → EnginePc → List CheckResult → Prop where
  | returned (o : Outcome) (hpc : w.engine = .running) (hdriver : w.driver.pc = .returned o) :
      EngineEffect cfg w .go (.returned o) []
  | raised (message : String) (hpc : w.engine = .running)
      (hdriver : w.driver.pc = .raised message) :
      EngineEffect cfg w .go (.stopping none) [⟨"execution", .error, message⟩]
  | emitted (o : Outcome) (now : ℚ) (hpc : w.engine = .returned o) :
      EngineEffect cfg w (.emit now) (.emitted o) []
  | aborted (o : Outcome) (hpc : w.engine = .emitted o) (herror : w.abort.isError = true) :
      EngineEffect cfg w .go (.stopping none)
        [⟨"execution", .error, w.abort.reason.getD "None"⟩]
  | executed (o : Outcome) (hpc : w.engine = .emitted o) (herror : w.abort.isError = false) :
      EngineEffect cfg w .go (.stopping (some o)) []
  | stopped (x : Option Outcome) (hpc : w.engine = .stopping x) :
      EngineEffect cfg w .go (.items x 0) []
  | item (x : Option Outcome) (k : Nat) (entry : TimelineEntry) (item : Item)
      (hpc : w.engine = .items x k) (hentry : cfg.timeline.entries[k]? = some entry)
      (hitem : w.timeline.items[k]? = some item) :
      EngineEffect cfg w .go (.items x (k + 1)) (Timeline.itemCheck cfg.fixed entry item)
  | itemsEnd (x : Option Outcome) (k : Nat) (hpc : w.engine = .items x k)
      (hnone : ∀ entry item, cfg.timeline.entries[k]? = some entry →
        w.timeline.items[k]? = some item → False) :
      EngineEffect cfg w .go (.errors x) []
  | errors (x : Option Outcome) (hpc : w.engine = .errors x) :
      EngineEffect cfg w .go (.monitors x 0) w.timeline.errorChecks
  | monitor (x : Option Outcome) (k : Nat) (name message : String) (status : ResultStatus)
      (hpc : w.engine = .monitors x k) :
      EngineEffect cfg w (.monitor status message) (.monitors x (k + 1))
        [⟨"monitor:" ++ name, status, message⟩]
  | monitorsEnd (x : Option Outcome) (k : Nat) (hpc : w.engine = .monitors x k) :
      EngineEffect cfg w .go (.teardown x) []
  | teardown (x : Option Outcome) (errors : List String) (hpc : w.engine = .teardown x) :
      EngineEffect cfg w (.teardown errors) (.expecting x 0)
        (errors.map fun e => ⟨"teardown", .error, e⟩)
  | expect (o : Outcome) (k : Nat) (answer : Answer) (x : Expectation)
      (hpc : w.engine = .expecting (some o) k) (hx : cfg.expect[k]? = some x) :
      EngineEffect cfg w (.expect answer) (.expecting (some o) (k + 1))
        [x.check cfg.fixed cfg.timeline.start w.finishedAt o answer]
  | verdict (x : Option Outcome) (k : Nat) (hpc : w.engine = .expecting x k)
      (hguard : x = none ∨ cfg.expect.length ≤ k) :
      EngineEffect cfg w .go (.done (aggregate w.checks)) []

theorem engineEffect_of_step {e : EngineStep} {pc : EnginePc} {checks : List CheckResult}
    (h : w.engineStep cfg e = some (pc, checks)) : EngineEffect cfg w e pc checks := by
  unfold engineStep at h
  split at h
  · rename_i hpc
    split at h
    · rename_i o hdriver
      obtain ⟨rfl, rfl⟩ := Prod.mk.inj (Option.some.inj h)
      exact .returned o hpc hdriver
    · rename_i message hdriver
      obtain ⟨rfl, rfl⟩ := Prod.mk.inj (Option.some.inj h)
      exact .raised message hpc hdriver
    · exact nomatch h
  · rename_i o now hpc
    obtain ⟨rfl, rfl⟩ := Prod.mk.inj (Option.some.inj h)
    exact .emitted o now hpc
  · rename_i o hpc
    split_ifs at h with herror
    · obtain ⟨rfl, rfl⟩ := Prod.mk.inj (Option.some.inj h)
      exact .aborted o hpc herror
    · obtain ⟨rfl, rfl⟩ := Prod.mk.inj (Option.some.inj h)
      exact .executed o hpc (by simpa using herror)
  · rename_i x hpc
    obtain ⟨rfl, rfl⟩ := Prod.mk.inj (Option.some.inj h)
    exact .stopped x hpc
  · rename_i x k hpc
    split at h
    · rename_i entry item hentry hitem
      obtain ⟨rfl, rfl⟩ := Prod.mk.inj (Option.some.inj h)
      exact .item x k entry item hpc hentry hitem
    · rename_i hnone
      obtain ⟨rfl, rfl⟩ := Prod.mk.inj (Option.some.inj h)
      exact .itemsEnd x k hpc hnone
  · rename_i x hpc
    obtain ⟨rfl, rfl⟩ := Prod.mk.inj (Option.some.inj h)
    exact .errors x hpc
  · rename_i x k status message hpc
    obtain ⟨name, -, heq⟩ := Option.map_eq_some_iff.mp h
    obtain ⟨rfl, rfl⟩ := Prod.mk.inj heq
    exact .monitor x k name message status hpc
  · rename_i x k hpc
    split_ifs at h
    obtain ⟨rfl, rfl⟩ := Prod.mk.inj (Option.some.inj h)
    exact .monitorsEnd x k hpc
  · rename_i x errors hpc
    obtain ⟨rfl, rfl⟩ := Prod.mk.inj (Option.some.inj h)
    exact .teardown x errors hpc
  · rename_i o k answer hpc
    obtain ⟨x, hx, heq⟩ := Option.map_eq_some_iff.mp h
    obtain ⟨rfl, rfl⟩ := Prod.mk.inj heq
    exact .expect o k answer x hpc hx
  · rename_i x k hpc
    split_ifs at h with hguard
    obtain ⟨rfl, rfl⟩ := Prod.mk.inj (Option.some.inj h)
    exact .verdict x k hpc hguard
  · exact nomatch h

/-- A step of the engine leaves what the other threads see as it was. -/
theorem engine_keeps {e : EngineStep} (h : w.step cfg (.engine e) = some w') :
    w'.abort = w.abort ∧ w'.timeline.pc = w.timeline.pc ∧
      w'.timeline.errors = w.timeline.errors ∧
      w'.timeline.items.map Item.progress = w.timeline.items.map Item.progress := by
  obtain ⟨⟨pc, checks⟩, -, rfl⟩ := Option.map_eq_some_iff.mp h
  dsimp only
  split
  · refine ⟨rfl, rfl, rfl, ?_⟩
    rw [Timeline.stopAll, List.map_map]
    rfl
  · exact ⟨rfl, rfl, rfl, rfl⟩

theorem running_of_step (h : w.step cfg e = some w') (hrunning : w'.engine = .running) :
    w.engine = .running := by
  cases e with
  | driver e =>
      obtain ⟨d, -, rfl⟩ := Option.map_eq_some_iff.mp h
      exact hrunning
  | loop e =>
      obtain ⟨⟨t, a⟩, -, rfl⟩ := Option.map_eq_some_iff.mp h
      exact hrunning
  | item k e =>
      obtain ⟨⟨t, a⟩, -, rfl⟩ := Option.map_eq_some_iff.mp h
      exact hrunning
  | engine e =>
      obtain ⟨⟨pc, checks⟩, heng, rfl⟩ := Option.map_eq_some_iff.mp h
      obtain rfl : pc = .running := hrunning
      exact nomatch engineEffect_of_step heng

theorem running_of_exec (h : exec (step cfg) w events = some w') (hrunning : w'.engine = .running) :
    w.engine = .running := by
  by_contra hnot
  exact invariant_of_step (I := fun w : World => w.engine ≠ .running)
    (fun _ _ _ hnot hs hrunning => hnot (running_of_step hs hrunning)) hnot h hrunning

/-! ## The event of the timeout -/

/-- Only the timeout has set the event, or is about to. -/
structure Unharmed (w : World) : Prop where
  items : ∀ item ∈ w.timeline.items, ¬ item.aborting
  loop : ∀ k pc, w.timeline.pc = .itemFailed k pc → ∃ message, pc = .record message
  reason : w.abort.reason ≠ none → w.abort.event = true ∨ w.timeline.pc = .timeoutEvent
  stall : w.timeline.pc = .stallEvent → w.abort.event = true

theorem Unharmed.init : (init cfg).Unharmed where
  items item hitem := by
    obtain ⟨entry, -, rfl⟩ := List.mem_map.mp hitem
    rintro (⟨message, h⟩ | h) <;> exact nomatch h
  loop := nofun
  reason h := absurd rfl h
  stall := nofun

theorem Unharmed.loopStep {e : LoopStep} {t : Timeline} {a : AbortState} (hu : w.Unharmed)
    (hrunning : w.engine = .running) (hsound : w.Sound cfg (.loop e))
    (h : w.timeline.loopStep cfg.fixed cfg.timeline w.abort e = some (t, a)) :
    ({ w with timeline := t, abort := a } : World).Unharmed := by
  obtain ⟨hstall, hrecords, -⟩ := hsound
  rw [hrunning] at hstall hrecords
  have hreason (hpc : w.timeline.pc ≠ .timeoutEvent) (hr : w.abort.reason ≠ none) :
      w.abort.event = true := (hu.reason hr).resolve_right hpc
  cases Timeline.loopStep_effect h with
  | moves _ _ hpc hpc' _ _ hitems =>
      refine ⟨fun item' hitem' haborting => ?_, fun k pc heq => ?_, fun hr => .inl ?_, fun heq => ?_⟩
      · obtain ⟨item, hitem, hsame, -⟩ := Timeline.exists_progress hitems hitem'
        refine hu.items item hitem ?_
        rwa [Item.aborting, hsame]
      · have hpc : ¬ t.pc.aborting := hpc'
        rw [show t.pc = .itemFailed k pc from heq] at hpc
        cases pc with
        | record message => exact ⟨message, rfl⟩
        | reason message => exact absurd trivial hpc
        | event => exact absurd trivial hpc
      · exact hreason (fun heq => hpc (heq ▸ trivial)) hr
      · exact absurd (show t.pc.aborting by rw [show t.pc = .stallEvent from heq]; trivial) hpc'
  | fires k now item hpc hitem hfired =>
      refine ⟨fun item' hitem' haborting => ?_, nofun, fun hr => .inl ?_, nofun⟩
      · rcases Timeline.mem_setItem hitem' with hmem | rfl
        · exact hu.items item' hmem haborting
        · rcases haborting with ⟨message, h⟩ | h <;> exact nomatch h
      · exact hreason (by rw [hpc]; nofun) hr
  | stallReason hpc =>
      have hr : w.abort.reason ≠ none := fun hnone => nomatch hstall ⟨hpc, hnone⟩
      have hevent := hreason (by rw [hpc]; nofun) hr
      refine ⟨hu.items, nofun, fun _ => .inl ?_, fun _ => ?_⟩
      · rw [AbortState.take, if_neg hr]
        exact hevent
      · rw [AbortState.take, if_neg hr]
        exact hevent
  | stallEvent hpc => exact ⟨hu.items, nofun, fun _ => .inl rfl, nofun⟩
  | observes now hpc hlate =>
      exact ⟨hu.items, nofun, fun hr => .inl (hreason (by rw [hpc]; nofun) hr), nofun⟩
  | timeoutReason hpc => exact ⟨hu.items, nofun, fun _ => .inr rfl, nofun⟩
  | timeoutEvent hpc => exact ⟨hu.items, nofun, fun _ => .inl rfl, nofun⟩
  | record k message hpc => exact nomatch hrecords ⟨k, message, hpc⟩
  | reason k message hpc => exact nomatch hu.loop k _ hpc
  | event k hpc => exact nomatch hu.loop k _ hpc

theorem Unharmed.itemStep {k : Nat} {e : ItemStep} {t : Timeline} {a : AbortState}
    (hu : w.Unharmed) (hrunning : w.engine = .running) (hsound : w.Sound cfg (.item k e))
    (h : w.timeline.itemStep cfg.timeline w.abort k e = some (t, a)) :
    ({ w with timeline := t, abort := a } : World).Unharmed := by
  obtain ⟨-, hrecords, -⟩ := hsound
  rw [hrunning] at hrecords
  obtain ⟨item, hitem, heffect⟩ := Timeline.itemStep_effect h
  have hcalm := hu.items item (List.mem_of_getElem? hitem)
  cases heffect with
  | moves _ item' _ hpc _ =>
      refine ⟨fun x hx => ?_, hu.loop, hu.reason, hu.stall⟩
      rcases Timeline.mem_setItem hx with hmem | rfl
      · exact hu.items x hmem
      · exact hpc
  | record message hthread => exact nomatch hrecords ⟨item, message, hitem, hthread⟩
  | reason message hthread => exact absurd (.inl ⟨message, hthread⟩) hcalm
  | event hthread => exact absurd (.inr hthread) hcalm

theorem Unharmed.step (hu : w.Unharmed) (hrunning : w.engine = .running) (hsound : w.Sound cfg e)
    (h : w.step cfg e = some w') : w'.Unharmed := by
  cases e with
  | driver e =>
      obtain ⟨d, -, rfl⟩ := Option.map_eq_some_iff.mp h
      exact ⟨hu.items, hu.loop, hu.reason, hu.stall⟩
  | loop e =>
      obtain ⟨⟨t, a⟩, ht, rfl⟩ := Option.map_eq_some_iff.mp h
      exact hu.loopStep hrunning hsound ht
  | item k e =>
      obtain ⟨⟨t, a⟩, ht, rfl⟩ := Option.map_eq_some_iff.mp h
      exact hu.itemStep hrunning hsound ht
  | engine e =>
      obtain ⟨⟨pc, checks⟩, -, rfl⟩ := Option.map_eq_some_iff.mp h
      rw [hrunning]
      exact ⟨hu.items, hu.loop, hu.reason, hu.stall⟩

/-- While the engine waits for the driver and all is sound, only the timeout aborts. -/
theorem unharmed_of_exec (h : exec (World.step cfg) (init cfg) events = some w)
    (hsound : Meets (World.step cfg) (Sound cfg) (init cfg) events)
    (hrunning : w.engine = .running) : w.Unharmed := by
  refine invariant (I := fun w : World => w.engine = .running → w.Unharmed) ?_
    (fun _ => .init) hsound h hrunning
  intro s e t hs hq hst ht
  have hs' := running_of_step hst ht
  exact (hs hs').step hs' hq hst

/-- Where the event comes to be set, the loop is about to set it for the timeout. -/
theorem Unharmed.setsEvent (hu : w.Unharmed) (h : w.step cfg e = some w')
    (hbefore : ¬ w.abort.event = true) (hafter : w'.abort.event = true) :
    w.timeline.pc = .timeoutEvent ∧ e = .loop .go := by
  cases e with
  | driver e =>
      obtain ⟨d, -, rfl⟩ := Option.map_eq_some_iff.mp h
      exact absurd hafter hbefore
  | loop e =>
      obtain ⟨⟨t, a⟩, ht, rfl⟩ := Option.map_eq_some_iff.mp h
      have hkept {a : AbortState} (ha : a.event = w.abort.event) : ¬ a.event = true := ha ▸ hbefore
      cases Timeline.loopStep_effect ht with
      | moves | fires | observes | record => exact absurd hafter hbefore
      | stallReason | timeoutReason | reason =>
          exact absurd hafter (hkept (w.abort.event_take _ _))
      | stallEvent hpc => exact absurd (hu.stall hpc) hbefore
      | timeoutEvent hpc => exact ⟨hpc, rfl⟩
      | event k hpc => exact nomatch hu.loop k _ hpc
  | item k e =>
      obtain ⟨⟨t, a⟩, ht, rfl⟩ := Option.map_eq_some_iff.mp h
      obtain ⟨item, hitem, heffect⟩ := Timeline.itemStep_effect ht
      have hcalm := hu.items item (List.mem_of_getElem? hitem)
      cases heffect with
      | moves | record => exact absurd hafter hbefore
      | reason message hthread => exact absurd (.inl ⟨message, hthread⟩) hcalm
      | event hthread => exact absurd (.inr hthread) hcalm
  | engine e =>
      obtain ⟨⟨pc, checks⟩, -, rfl⟩ := Option.map_eq_some_iff.mp h
      exact absurd hafter hbefore

/-- What else than the loop moves leaves its place alone. -/
theorem loop_of_step (h : w.step cfg e = some w') (hpc : w'.timeline.pc ≠ w.timeline.pc) :
    ∃ l, e = .loop l ∧ w.timeline.loopStep cfg.fixed cfg.timeline w.abort l =
      some (w'.timeline, w'.abort) := by
  cases e with
  | driver e =>
      obtain ⟨d, -, rfl⟩ := Option.map_eq_some_iff.mp h
      exact absurd rfl hpc
  | loop e =>
      obtain ⟨⟨t, a⟩, ht, rfl⟩ := Option.map_eq_some_iff.mp h
      exact ⟨e, rfl, ht⟩
  | item k e =>
      obtain ⟨⟨t, a⟩, ht, rfl⟩ := Option.map_eq_some_iff.mp h
      obtain ⟨item, -, heffect⟩ := Timeline.itemStep_effect ht
      cases heffect with
      | moves | record | reason | event => exact absurd rfl hpc
  | engine e => exact absurd (engine_keeps h).2.1 hpc

/-- The loop comes to set the event only from the step before. -/
theorem timeoutEvent_of_step (h : w.step cfg e = some w') (hpc : w.timeline.pc ≠ .timeoutEvent)
    (hpc' : w'.timeline.pc = .timeoutEvent) :
    w.timeline.pc = .timeoutReason ∧ e = .loop .go := by
  obtain ⟨l, rfl, hl⟩ := loop_of_step h (by rw [hpc']; exact hpc.symm)
  generalize w'.timeline = t at hl hpc'
  generalize w'.abort = a at hl
  cases Timeline.loopStep_effect hl with
  | timeoutReason hfrom => exact ⟨hfrom, rfl⟩
  | moves _ _ _ hmoved => exact absurd (hpc' ▸ trivial) hmoved
  | fires | stallReason | stallEvent | observes | timeoutEvent | record | reason | event =>
      exact nomatch hpc'

theorem timeoutReason_of_step (h : w.step cfg e = some w') (hpc : w.timeline.pc ≠ .timeoutReason)
    (hpc' : w'.timeline.pc = .timeoutReason) :
    w.timeline.pc = .timeout ∧
      ∃ now, e = .loop (.elapsed now) ∧ cfg.timeline.exceeded now = true := by
  obtain ⟨l, rfl, hl⟩ := loop_of_step h (by rw [hpc']; exact hpc.symm)
  generalize w'.timeline = t at hl hpc'
  generalize w'.abort = a at hl
  cases Timeline.loopStep_effect hl with
  | observes now hfrom hlate => exact ⟨hfrom, now, rfl, hlate⟩
  | moves _ _ _ hmoved => exact absurd (hpc' ▸ trivial) hmoved
  | fires | stallReason | stallEvent | timeoutReason | timeoutEvent | record | reason | event =>
      exact nomatch hpc'

/-- If only the timeout aborts, an event that is set was set after the loop had observed it. -/
theorem exists_observation (h : exec (World.step cfg) (init cfg) events = some w)
    (hsound : Meets (World.step cfg) (Sound cfg) (init cfg) events)
    (hrunning : w.engine = .running) (hevent : w.abort.event = true) :
    ∃ pre now mid u, events = pre ++ .loop (.elapsed now) :: mid ∧
      exec (World.step cfg) (init cfg) pre = some u ∧ u.timeline.pc = .timeout ∧
      cfg.timeline.exceeded now = true ∧ 2 ≤ mid.countP Event.isLoop := by
  obtain ⟨pre, e, post, u, v, rfl, hu, hset, hpost, hbefore, hafter⟩ :=
    exists_change (s := init cfg) (P := fun w : World => w.abort.event = true) nofun h hevent
  have hunharmed := unharmed_of_exec hu hsound.left
    (running_of_step hset (running_of_exec hpost hrunning))
  obtain ⟨hpc, rfl⟩ := hunharmed.setsEvent hset hbefore hafter
  obtain ⟨pre, e, mid, s, s', rfl, hs, hreason, -, hbefore, hafter⟩ :=
    exists_change (s := init cfg) (P := fun w : World => w.timeline.pc = .timeoutEvent) nofun hu hpc
  obtain ⟨hpc', rfl⟩ := timeoutEvent_of_step hreason hbefore hafter
  obtain ⟨pre, e, mid', t, t', rfl, ht, hobs, -, hbefore, hafter⟩ :=
    exists_change (s := init cfg) (P := fun w : World => w.timeline.pc = .timeoutReason) nofun hs
      hpc'
  obtain ⟨hfrom, now, rfl, hlate⟩ := timeoutReason_of_step hobs hbefore hafter
  refine ⟨pre, now, mid' ++ .loop .go :: mid ++ .loop .go :: post, t, by simp, ht, hfrom, hlate, ?_⟩
  simp only [List.countP_append, List.countP_cons, Event.isLoop, if_true]
  omega

/-- What is left to the loop after it has observed the timeout: `n` is the number of its steps. -/
def SetsIn (n : Nat) (w : World) : Prop :=
  w.abort.event = true ∨ (n = 0 ∧ w.timeline.pc = .timeoutReason) ∨
    (n = 1 ∧ w.timeline.pc = .timeoutEvent)

theorem event_of_step (h : w.step cfg e = some w') (hevent : w.abort.event = true) :
    w'.abort.event = true := by
  cases e with
  | driver e =>
      obtain ⟨d, -, rfl⟩ := Option.map_eq_some_iff.mp h
      exact hevent
  | loop e =>
      obtain ⟨⟨t, a⟩, ht, rfl⟩ := Option.map_eq_some_iff.mp h
      cases Timeline.loopStep_effect ht with
      | moves | fires | observes | record => exact hevent
      | stallReason | timeoutReason | reason => exact (w.abort.event_take _ _).trans hevent
      | stallEvent | timeoutEvent | event => rfl
  | item k e =>
      obtain ⟨⟨t, a⟩, ht, rfl⟩ := Option.map_eq_some_iff.mp h
      obtain ⟨item, -, heffect⟩ := Timeline.itemStep_effect ht
      cases heffect with
      | moves | record => exact hevent
      | reason => exact (w.abort.event_take _ _).trans hevent
      | event => rfl
  | engine e =>
      obtain ⟨⟨pc, checks⟩, -, rfl⟩ := Option.map_eq_some_iff.mp h
      exact hevent

/-- The loop stays where it is until its next step. -/
theorem SetsIn.step {n : Nat} (hs : w.SetsIn n) (h : w.step cfg e = some w') :
    w'.SetsIn (n + if e.isLoop then 1 else 0) := by
  rcases hs with hevent | hs
  · exact .inl (event_of_step h hevent)
  · cases e with
    | driver e =>
        obtain ⟨d, -, rfl⟩ := Option.map_eq_some_iff.mp h
        exact .inr hs
    | loop e =>
        obtain ⟨⟨t, a⟩, ht, rfl⟩ := Option.map_eq_some_iff.mp h
        rcases hs with ⟨rfl, hpc⟩ | ⟨rfl, hpc⟩
        · exact .inr (.inr ⟨rfl, Timeline.loopStep_timeoutReason hpc ht⟩)
        · exact .inl (Timeline.loopStep_timeoutEvent hpc ht)
    | item k e =>
        obtain ⟨⟨t, a⟩, ht, rfl⟩ := Option.map_eq_some_iff.mp h
        obtain ⟨item, -, heffect⟩ := Timeline.itemStep_effect ht
        cases heffect with
        | moves | record | reason | event => exact .inr hs
    | engine e =>
        refine .inr ?_
        rw [(engine_keeps h).2.1]
        exact hs

/-- From the observation on the loop sets the event in two steps. -/
theorem event_of_observation {pre mid : List Event} {now : ℚ} {u : World}
    (hpre : exec (World.step cfg) (init cfg) pre = some u) (hpc : u.timeline.pc = .timeout)
    (hlate : cfg.timeline.exceeded now = true)
    (h : exec (World.step cfg) (init cfg) (pre ++ .loop (.elapsed now) :: mid) = some w)
    (hmid : 2 ≤ mid.countP Event.isLoop) : w.abort.event = true := by
  obtain ⟨v, hv, h⟩ := exec_after_cons h hpre
  obtain ⟨⟨t, a⟩, ht, rfl⟩ := Option.map_eq_some_iff.mp hv
  have hreason := Timeline.loopStep_observes hpc hlate ht
  have hsets : w.SetsIn (mid.countP Event.isLoop) := by
    refine invariant_of_history (H := fun es (w : World) => w.SetsIn (es.countP Event.isLoop)) ?_
      (.inr (.inl ⟨rfl, hreason⟩)) h
    intro es s e s' hs hstep
    rw [List.countP_append, List.countP_singleton]
    exact hs.step hstep
  rcases hsets with hevent | ⟨hzero, -⟩ | ⟨hone, -⟩
  · exact hevent
  · omega
  · omega

/-! ## Triggers that fire -/

/-- Item `k` has not been fired. -/
def Unfired (k : Nat) (w : World) : Prop :=
  ∀ item, w.timeline.items[k]? = some item → item.firedAt = none

theorem unfired_congr {k : Nat}
    (h : w'.timeline.items.map Item.progress = w.timeline.items.map Item.progress) :
    w'.Unfired k ↔ w.Unfired k := by
  have hget := congrArg (fun items => items[k]?) h
  simp only [List.getElem?_map] at hget
  unfold Unfired
  cases hk : w.timeline.items[k]? with
  | none =>
      rw [hk, Option.map_none, Option.map_eq_none_iff] at hget
      rw [hget]
  | some item =>
      rw [hk, Option.map_some, Option.map_eq_some_iff] at hget
      obtain ⟨item', hitem', heq⟩ := hget
      have hfired : item'.firedAt = item.firedAt := congrArg Prod.snd heq
      simp [hitem', hfired]

theorem fires_loop_iff {k : Nat} {l : LoopStep} :
    w.Fires k (.loop l) ↔ ∃ now, w.timeline.pc = .item k ∧ l = .poll true now := by
  cases l with
  | poll fires now => simp [Fires]
  | go | clocks | elapsed | pollRaises => simp [Fires]

/-- An item is fired by its trigger, and once. -/
theorem unfired_step {k : Nat} (h : w.step cfg e = some w') :
    w'.Unfired k ↔ w.Unfired k ∧ ¬ w.Fires k e := by
  cases e with
  | driver e =>
      obtain ⟨d, -, rfl⟩ := Option.map_eq_some_iff.mp h
      exact (and_iff_left id).symm
  | loop e =>
      obtain ⟨⟨t, a⟩, ht, rfl⟩ := Option.map_eq_some_iff.mp h
      cases Timeline.loopStep_effect ht with
      | moves _ _ _ _ hpoll _ hitems =>
          rw [unfired_congr (w := w) hitems]
          refine (and_iff_left fun hfires => ?_).symm
          obtain ⟨now, hpc, he⟩ := fires_loop_iff.mp hfires
          exact hpoll k now hpc he
      | fires j now item hpc hitem hfired =>
          by_cases hj : j = k
          · subst hj
            obtain ⟨hlt, -⟩ := List.getElem?_eq_some_iff.mp hitem
            refine iff_of_false (fun hunfired => ?_) fun hnot => hnot.2 ⟨hpc, rfl⟩
            have hnone := hunfired _ (List.getElem?_set_self hlt)
            exact nomatch hnone
          · have hother : ¬ w.Fires k (.loop (.poll true now)) := by
              intro hfires
              exact hj (LoopPc.item.inj (hpc.symm.trans hfires.1))
            rw [and_iff_left hother]
            unfold Unfired Timeline.setItem
            dsimp only
            rw [List.getElem?_set_ne hj]
      | stallReason | stallEvent | observes | timeoutReason | timeoutEvent | record | reason | event =>
          exact (and_iff_left id).symm
  | item j e =>
      obtain ⟨⟨t, a⟩, ht, rfl⟩ := Option.map_eq_some_iff.mp h
      obtain ⟨item, hitem, heffect⟩ := Timeline.itemStep_effect ht
      have hset (t : Timeline) (item' : Item) (ht : t.items = w.timeline.items)
          (hfired : item'.firedAt = item.firedAt) :
          (∀ x, (t.setItem j item').items[k]? = some x → x.firedAt = none) ↔ w.Unfired k := by
        unfold Unfired Timeline.setItem
        dsimp only
        rw [ht]
        by_cases hj : j = k
        · subst hj
          obtain ⟨hlt, -⟩ := List.getElem?_eq_some_iff.mp hitem
          rw [List.getElem?_set_self hlt, hitem]
          simp [hfired]
        · rw [List.getElem?_set_ne hj]
      refine Iff.trans ?_ (and_iff_left (show ¬ w.Fires k (.item j e) from id)).symm
      cases heffect with
      | moves _ item' _ _ hfired => exact hset _ _ rfl hfired
      | record => exact hset _ _ rfl rfl
      | reason => exact hset _ _ rfl rfl
      | event => exact hset _ _ rfl rfl
  | engine e =>
      rw [unfired_congr (engine_keeps h).2.2.2]
      exact (and_iff_left id).symm

end World

end MgRobot.Scenario
