import MgRobot.Watchdog.Node

/-!
# A tick that lags

What is left of a monitor's verdict after a tick that lagged: the check
forgives the silence, but not what a diagnosis has made of it before.
-/

namespace MgRobot.Watchdog

set_option autoImplicit false

open MgRobot.Lib.Runs

variable {R : Type*} [Field R] [LinearOrder R] [IsStrictOrderedRing R]

namespace ActivityMonitor

variable {m : ActivityMonitor R} {now : R}

/-- The silence can be forgiven: there is a message to date up, or none is due. -/
def Forgivable (m : ActivityMonitor R) (now : R) : Prop :=
  m.received = true ∨ m.armedOnFirst = true ∨ now ≤ m.startTime + m.startupGrace + m.staleTimeout

/-- The last bad verdict, if the monitor is under one, has been held back for long enough. -/
def Held (m : ActivityMonitor R) (next now : R) : Prop :=
  m.faulted = true → m.recoverHold ≤ now - m.goodSince.getD next

theorem not_bad_forgive_iff (hok : m.ok = true) (htimeout : 0 ≤ m.staleTimeout) :
    ¬ (m.forgive now).Bad now ↔ m.Forgivable now := by
  have hbad : (m.forgive now).Bad now ↔ m.staleTimeout < (m.forgive now).staleSec now :=
    or_iff_left (by rw [show (m.forgive now).ok = m.ok from rfl, hok]; exact nofun)
  rw [hbad, not_lt]
  cases hrx : m.lastRx with
  | some rx =>
      have hstale : (m.forgive now).staleSec now = 0 := by
        simp [staleSec, forgive, hrx]
      rw [hstale]
      exact iff_of_true htimeout (.inl (by rw [received, hrx]; rfl))
  | none =>
      have hnot : m.received ≠ true := by rw [received, hrx]; exact nofun
      cases harmed : m.armedOnFirst with
      | true =>
          have hstale : (m.forgive now).staleSec now = 0 := by
            simp [staleSec, forgive, hrx, harmed]
          rw [hstale]
          exact iff_of_true htimeout (.inr (.inl harmed))
      | false =>
          have hstale : (m.forgive now).staleSec now =
              max 0 (now - (m.startTime + m.startupGrace)) := by
            simp [staleSec, forgive, hrx, harmed]
          rw [hstale, max_le_iff, Forgivable, or_iff_right hnot, or_iff_right (by simp [harmed]),
            and_iff_right htimeout]
          constructor
          · intro h
            linarith
          · intro h
            linarith

/-- The verdict right after a tick that lagged. -/
theorem forgive_update_iff (hok : m.ok = true) (htimeout : 0 ≤ m.staleTimeout) :
    ((m.forgive now).update now).faulted = false ↔ m.Forgivable now ∧ m.Held now now := by
  rw [← not_bad_forgive_iff hok htimeout]
  by_cases hbad : (m.forgive now).Bad now
  · rw [update_bad hbad]
    exact iff_of_false nofun fun h => h.1 hbad
  · rw [and_iff_right hbad]
    cases hf : m.faulted with
    | false =>
        rw [update_good hbad hf]
        exact iff_of_true hf fun h => absurd (hf.symm.trans h) nofun
    | true =>
        by_cases hhold : m.recoverHold ≤ now - m.goodSince.getD now
        · rw [update_recovered hbad hf hhold]
          exact iff_of_true rfl fun _ => hhold
        · rw [update_holding hbad hf hhold]
          exact iff_of_false (by simp [forgive, hf]) fun h => hhold (h hf)

/-- A diagnosis before the tick: a bad one has to be held back from the next evaluation on. -/
theorem held_update_iff {next t : R} (hd : now ≤ next) (hnext : next ≤ t)
    (hsince : m.faulted = true → ∀ g ∈ m.goodSince, g ≤ now) :
    (m.update now).Held next t ↔ (m.Bad now → m.recoverHold ≤ t - next) ∧ m.Held now t := by
  by_cases hbad : m.Bad now
  · rw [update_bad hbad]
    constructor
    · intro h
      have hhold : m.recoverHold ≤ t - next := h rfl
      refine ⟨fun _ => hhold, fun hf => ?_⟩
      cases hg : m.goodSince with
      | none =>
          show m.recoverHold ≤ t - now
          linarith
      | some g =>
          have hle := hsince hf g hg
          show m.recoverHold ≤ t - g
          linarith
    · rintro ⟨hhold, -⟩ -
      exact hhold hbad
  · rw [and_iff_right fun h => absurd h hbad]
    cases hf : m.faulted with
    | false =>
        rw [update_good hbad hf]
        exact iff_of_true (fun h => absurd (hf.symm.trans h) nofun)
          fun h => absurd (hf.symm.trans h) nofun
    | true =>
        by_cases hhold : m.recoverHold ≤ now - m.goodSince.getD now
        · rw [update_recovered hbad hf hhold]
          refine iff_of_true nofun fun _ => ?_
          linarith
        · rw [update_holding hbad hf hhold]
          rfl

/-- A monitor that an update leaves unfaulted is connected, and its timeout is a time. -/
theorem sound_of_update (h : (m.update now).faulted = false) :
    (m.update now).ok = true ∧ 0 ≤ (m.update now).staleTimeout := by
  have hgood := not_bad_of_update h
  obtain ⟨faulted, goodSince, hframe⟩ := m.update_frame now
  rw [hframe]
  refine ⟨?_, ?_⟩
  · cases hok : m.ok with
    | true => rfl
    | false => exact absurd (.inr hok) hgood
  · exact le_trans (m.staleSec_nonneg now) (not_lt.mp fun hstale => hgood (.inl hstale))

end ActivityMonitor

namespace DriverWatchdogNode

variable (cfg : WatchdogConfig R)

/-- When source `i` is evaluated next, if the tick comes at `t`. -/
def nextEvaluation (i : Nat) (t : R) : List (Callback R) → R
  | [] => t
  | .diagnose j now :: rest => if j = i then now else nextEvaluation i t rest
  | _ :: rest => nextEvaluation i t rest

/-- What a callback other than the check does to the monitor of source `i`. -/
def Callback.touch (i : Nat) (c : Callback R) (m : ActivityMonitor R) : ActivityMonitor R :=
  match c with
  | .message j now ok => if j = i then m.onMessage now ok else m
  | .diagnose j now => if j = i then m.update now else m
  | .check _ _ | .publishPause => m

def Callback.IsCheck : Callback R → Prop
  | .check _ _ => True
  | _ => False

omit [IsStrictOrderedRing R]

theorem checkSource_monitor (findPids : String → List Nat) (t : ProcessTerminator R)
    (w : WatchedSource R) (now : R) (lagged : Bool) :
    (checkSource cfg findPids t w now lagged).2.1.monitor = checkMonitor w.monitor now lagged := by
  unfold checkSource
  dsimp only
  split_ifs
  · rfl
  · rfl
  · rfl

theorem checkSources_monitor (findPids : String → List Nat) (t : ProcessTerminator R) (now : R)
    (lagged : Bool) (sources : List (WatchedSource R)) :
    (checkSources cfg findPids t now lagged sources).2.1.map WatchedSource.monitor =
      sources.map fun w => checkMonitor w.monitor now lagged := by
  induction sources generalizing t with
  | nil => rfl
  | cons w rest ih =>
      have hhead := checkSource_monitor cfg findPids t w now lagged
      have htail := ih (checkSource cfg findPids t w now lagged).1
      simp only [checkSources, List.map_cons, hhead, htail]

omit [Field R] [LinearOrder R] in
theorem publishPause_frame (n : DriverWatchdogNode R) :
    ∃ pausedBy, (n.publishPause cfg).1 = { n with pausedBy := pausedBy } := by
  unfold publishPause
  dsimp only
  split_ifs
  · exact ⟨n.pausedBy, rfl⟩
  · exact ⟨n.pausedBy, rfl⟩
  · exact ⟨_, rfl⟩

end DriverWatchdogNode

namespace World

open DriverWatchdogNode

variable {cfg : WatchdogConfig R} {w w' w₂ : World R} {c : Callback R} {mid : List (Callback R)}
  {m : ActivityMonitor R} {i : Nat} {t : R}

section

omit [IsStrictOrderedRing R]

theorem step_clock (h : step cfg w c = some w') :
    (∀ now ∈ c.time, w.clock ≤ now) ∧ w' = ⟨run cfg w.node c, c.time.getD w.clock⟩ := by
  unfold step at h
  split_ifs at h with htime
  · refine ⟨fun now hnow => ?_, (Option.some.inj h).symm⟩
    rw [Option.mem_def.mp hnow] at htime
    exact of_decide_eq_true htime

theorem clock_le_step (h : step cfg w c = some w') : w.clock ≤ w'.clock := by
  obtain ⟨htime, rfl⟩ := step_clock h
  cases hnow : c.time with
  | none => exact le_refl w.clock
  | some now => exact htime now hnow

/-- The check evaluates every monitor, forgiven if the tick lagged. -/
theorem monitor?_check {findPids : String → List Nat}
    (h : step cfg w (.check t findPids) = some w') :
    w'.monitor? i = (w.monitor? i).map fun m => checkMonitor m t (w.node.guard.check t).2 := by
  obtain ⟨-, rfl⟩ := step_clock h
  have hmap := checkSources_monitor cfg findPids w.node.terminator t (w.node.guard.check t).2
    w.node.sources
  have hget := congrArg (fun l => l[i]?) hmap
  simp only [List.getElem?_map] at hget
  simp only [monitor?, Option.map_map]
  exact hget

theorem guard_check {findPids : String → List Nat}
    (h : step cfg w (.check t findPids) = some w') :
    w'.node.guard = { w.node.guard with last := some t } := by
  obtain ⟨-, rfl⟩ := step_clock h
  rfl

omit [Field R] [LinearOrder R] in
theorem monitor?_modify (f : ActivityMonitor R → ActivityMonitor R) (j : Nat)
    (sources : List (WatchedSource R)) :
    ((sources.modify j fun w => { w with monitor := f w.monitor })[i]?).map WatchedSource.monitor =
      (sources[i]?.map WatchedSource.monitor).map fun m => if j = i then f m else m := by
  rw [List.getElem?_modify, Option.map_eq_map, Option.map_map, Option.map_map]
  congr 1
  funext w
  by_cases hj : j = i
  · simp [hj]
  · simp [hj]

theorem monitor?_touch (h : step cfg w c = some w') (hc : ¬ c.IsCheck) :
    w'.monitor? i = (w.monitor? i).map (c.touch i) := by
  obtain ⟨-, rfl⟩ := step_clock h
  cases c with
  | message j now ok => exact monitor?_modify (fun m => m.onMessage now ok) j w.node.sources
  | check now findPids => exact absurd trivial hc
  | diagnose j now => exact monitor?_modify (fun m => m.update now) j w.node.sources
  | publishPause =>
      obtain ⟨pausedBy, hnode⟩ := publishPause_frame cfg w.node
      rw [monitor?, run, hnode]
      exact Option.map_id'.symm

theorem guard_touch (h : step cfg w c = some w') (hc : ¬ c.IsCheck) :
    w'.node.guard = w.node.guard := by
  obtain ⟨-, rfl⟩ := step_clock h
  cases c with
  | message j now ok => rfl
  | check now findPids => exact absurd trivial hc
  | diagnose j now => rfl
  | publishPause =>
      obtain ⟨pausedBy, hnode⟩ := publishPause_frame cfg w.node
      rw [run, hnode]

theorem guard_exec (hexec : exec (step cfg) w mid = some w₂) (hmid : ∀ c ∈ mid, ¬ c.IsCheck) :
    w₂.node.guard = w.node.guard :=
  invariant_of_mem (I := fun u => u.node.guard = w.node.guard)
    (fun _ c _ hc hu hs => (guard_touch hs (hmid c hc)).trans hu) rfl hexec

theorem nextEvaluation_bounds (hexec : exec (step cfg) w mid = some w₂) (ht : w₂.clock ≤ t) :
    w.clock ≤ nextEvaluation i t mid ∧ nextEvaluation i t mid ≤ t := by
  induction mid generalizing w with
  | nil =>
      obtain rfl := Option.some.inj hexec
      exact ⟨ht, le_refl t⟩
  | cons c rest ih =>
      obtain ⟨u, hu, hrest⟩ := exec_cons_iff.mp hexec
      obtain ⟨hle, hge⟩ := ih hrest
      have hclock := clock_le_step hu
      cases c with
      | diagnose j now =>
          obtain ⟨htime, rfl⟩ := step_clock hu
          unfold nextEvaluation
          split_ifs with hj
          · exact ⟨htime now rfl, le_trans hle hge⟩
          · exact ⟨le_trans hclock hle, hge⟩
      | message j now ok => exact ⟨le_trans hclock hle, hge⟩
      | check now findPids => exact ⟨le_trans hclock hle, hge⟩
      | publishPause => exact ⟨le_trans hclock hle, hge⟩

/-- Every diagnosis that calls source `i` stale is followed by an evaluation from which on
the tick at `t` finds the recovery time over. -/
def StaleHeldBack (cfg : WatchdogConfig R) (i : Nat) (t : R) (w : World R)
    (mid : List (Callback R)) : Prop :=
  ∀ before now rest u m, mid = before ++ .diagnose i now :: rest →
    exec (step cfg) w before = some u → u.monitor? i = some m →
    m.staleTimeout < m.staleSec now → m.recoverHold ≤ t - nextEvaluation i t rest

theorem staleHeldBack_cons_iff (hstep : step cfg w c = some w') (hm : w.monitor? i = some m) :
    StaleHeldBack cfg i t w (c :: mid) ↔
      (∀ now, c = .diagnose i now → m.staleTimeout < m.staleSec now →
        m.recoverHold ≤ t - nextEvaluation i t mid) ∧ StaleHeldBack cfg i t w' mid := by
  constructor
  · intro h
    refine ⟨fun now hc => h [] now mid w m (by rw [hc]; rfl) rfl hm, ?_⟩
    intro before now rest u m' hmid hexec
    exact h (c :: before) now rest u m' (by rw [hmid]; rfl) (exec_cons_iff.mpr ⟨w', hstep, hexec⟩)
  · rintro ⟨hhead, htail⟩ before now rest u m' hmid hexec hm'
    cases before with
    | nil =>
        obtain ⟨hc, rfl⟩ := List.cons.inj hmid
        obtain rfl := Option.some.inj hexec
        obtain rfl := Option.some.inj (hm.symm.trans hm')
        exact hhead now hc
    | cons a before =>
        obtain ⟨rfl, hrest⟩ := List.cons.inj hmid
        obtain ⟨v, hv, hexec⟩ := exec_cons_iff.mp hexec
        obtain rfl := Option.some.inj (hstep.symm.trans hv)
        exact htail before now rest u m' hrest hexec hm'

theorem staleHeldBack_of_notMem (h : ∀ now, .diagnose i now ∉ mid) :
    StaleHeldBack cfg i t w mid := by
  intro before now rest u m' hmid
  refine absurd ?_ (h now)
  rw [hmid]
  exact List.mem_append_right before List.mem_cons_self

/-! What one callback between two checks leaves of the verdict on source `i`. -/

theorem touch_kept (hc : ¬ c.IsCheck) (hstep : step cfg w c = some w')
    (hmsg : ∀ now ok, c = .message i now ok → ok = true) (hok : m.ok = true)
    (hsince : m.faulted = true → ∀ g ∈ m.goodSince, g ≤ w.clock) :
    (c.touch i m).ok = true ∧ (c.touch i m).staleTimeout = m.staleTimeout ∧
      ((c.touch i m).faulted = true → ∀ g ∈ (c.touch i m).goodSince, g ≤ w'.clock) := by
  have hlater : m.faulted = true → ∀ g ∈ m.goodSince, g ≤ w'.clock := fun hf g hg =>
    le_trans (hsince hf g hg) (clock_le_step hstep)
  obtain ⟨htime, rfl⟩ := step_clock hstep
  cases c with
  | message j now ok =>
      simp only [Callback.touch]
      split_ifs with hj
      · exact ⟨hmsg now ok (by rw [hj]), rfl, hlater⟩
      · exact ⟨hok, rfl, hlater⟩
  | check now findPids => exact absurd trivial hc
  | diagnose j now =>
      simp only [Callback.touch]
      split_ifs with hj
      · refine ⟨?_, ?_, ActivityMonitor.update_goodSince_le hlater⟩
        · obtain ⟨faulted, goodSince, hframe⟩ := m.update_frame now
          rw [hframe]
          exact hok
        · obtain ⟨faulted, goodSince, hframe⟩ := m.update_frame now
          rw [hframe]
      · exact ⟨hok, rfl, hlater⟩
  | publishPause => exact ⟨hok, rfl, hlater⟩

end

theorem held_touch_iff (hc : ¬ c.IsCheck) (hstep : step cfg w c = some w') (hok : m.ok = true)
    (hsince : m.faulted = true → ∀ g ∈ m.goodSince, g ≤ w.clock)
    (hnext : w'.clock ≤ nextEvaluation i t mid) (ht : nextEvaluation i t mid ≤ t) :
    (c.touch i m).Held (nextEvaluation i t mid) t ↔
      (∀ now, c = .diagnose i now → m.staleTimeout < m.staleSec now →
        m.recoverHold ≤ t - nextEvaluation i t mid) ∧
      m.Held (nextEvaluation i t (c :: mid)) t := by
  obtain ⟨htime, rfl⟩ := step_clock hstep
  cases c with
  | message j now ok =>
      rw [and_iff_right nofun]
      simp only [Callback.touch]
      split_ifs with hj
      · rfl
      · rfl
  | check now findPids => exact absurd trivial hc
  | diagnose j now =>
      by_cases hj : j = i
      · subst hj
        have hbad : m.Bad now ↔ m.staleTimeout < m.staleSec now :=
          or_iff_left (by rw [hok]; exact nofun)
        have hsince' : m.faulted = true → ∀ g ∈ m.goodSince, g ≤ now :=
          fun hf g hg => le_trans (hsince hf g hg) (htime now rfl)
        have hnext' : now ≤ nextEvaluation j t mid := hnext
        have hheld := ActivityMonitor.held_update_iff hnext' ht hsince'
        rw [hbad] at hheld
        simp only [Callback.touch, nextEvaluation, if_true]
        rw [hheld]
        refine and_congr_left fun _ => ⟨?_, fun h => h now rfl⟩
        rintro h _ ⟨⟩
        exact h
      · simp only [Callback.touch, nextEvaluation, if_neg hj]
        refine (and_iff_right fun now' heq => ?_).symm
        obtain ⟨hij, -⟩ := Callback.diagnose.inj heq
        exact absurd hij hj
  | publishPause => exact (and_iff_right nofun).symm

/-- What the callbacks between two checks leave of the verdict on source `i`. -/
theorem held_exec_iff (hexec : exec (step cfg) w mid = some w₂) (ht : w₂.clock ≤ t)
    (hmid : ∀ c ∈ mid, ¬ c.IsCheck) (hmsg : ∀ now ok, .message i now ok ∈ mid → ok = true)
    (hm : w.monitor? i = some m) (hok : m.ok = true)
    (hsince : m.faulted = true → ∀ g ∈ m.goodSince, g ≤ w.clock) :
    ∃ m₂, w₂.monitor? i = some m₂ ∧ m₂.ok = true ∧ m₂.staleTimeout = m.staleTimeout ∧
      (m₂.Held t t ↔ StaleHeldBack cfg i t w mid ∧ m.Held (nextEvaluation i t mid) t) := by
  induction mid generalizing w m with
  | nil =>
      obtain rfl := Option.some.inj hexec
      exact ⟨m, hm, hok, rfl, (and_iff_right (staleHeldBack_of_notMem nofun)).symm⟩
  | cons c rest ih =>
      obtain ⟨u, hu, hrest⟩ := exec_cons_iff.mp hexec
      have hc := hmid c List.mem_cons_self
      have hmu : u.monitor? i = some (c.touch i m) := by
        rw [monitor?_touch hu hc, hm]
        rfl
      obtain ⟨hnext, hle⟩ := nextEvaluation_bounds (i := i) hrest ht
      obtain ⟨hoku, htimeout, hsinceu⟩ := touch_kept hc hu
        (fun now ok heq => hmsg now ok (by rw [← heq]; exact List.mem_cons_self)) hok hsince
      obtain ⟨m₂, hm₂, hok₂, htimeout₂, hiff⟩ := ih hrest
        (fun c hc => hmid c (List.mem_cons_of_mem _ hc))
        (fun now ok hmem => hmsg now ok (List.mem_cons_of_mem _ hmem)) hmu hoku hsinceu
      refine ⟨m₂, hm₂, hok₂, htimeout₂.trans htimeout, ?_⟩
      rw [hiff, held_touch_iff hc hu hok hsince hnext hle, staleHeldBack_cons_iff hu hm,
        ← and_assoc, and_comm (a := StaleHeldBack cfg i t u rest)]

/-- After a tick that lagged, a source that the last check left unfaulted is unfaulted exactly
if its silence can be forgiven and no diagnosis has called it stale too shortly before. -/
theorem lag_forgiven_iff {w₀ w₁ w₂ w₃ : World R} {t₁ t₂ : R}
    {findPids₁ findPids₂ : String → List Nat}
    (hfirst : step cfg w₀ (.check t₁ findPids₁) = some w₁)
    (hm : w₁.monitor? i = some m) (hfaulted : m.faulted = false)
    (hexec : exec (step cfg) w₁ mid = some w₂) (hmid : ∀ c ∈ mid, ¬ c.IsCheck)
    (hmsg : ∀ now ok, .message i now ok ∈ mid → ok = true)
    (hlag : w₁.node.guard.maxGap < t₂ - t₁)
    (hsecond : step cfg w₂ (.check t₂ findPids₂) = some w₃) :
    (∃ m, w₃.monitor? i = some m ∧ m.faulted = false) ↔
      (∀ m, w₂.monitor? i = some m → m.Forgivable t₂) ∧ StaleHeldBack cfg i t₂ w₁ mid := by
  have ht : w₂.clock ≤ t₂ := (step_clock hsecond).1 t₂ rfl
  have hcheck := monitor?_check (i := i) hfirst
  rw [hm] at hcheck
  obtain ⟨m₀, -, rfl⟩ := Option.map_eq_some_iff.mp hcheck.symm
  obtain ⟨hok, htimeout⟩ := ActivityMonitor.sound_of_update hfaulted
  obtain ⟨m₂, hm₂, hok₂, htimeout₂, hheld⟩ := held_exec_iff hexec ht hmid hmsg hm hok
    fun hf => absurd (hfaulted.symm.trans hf) nofun
  have hlagged : (w₂.node.guard.check t₂).2 = true := by
    rw [guard_exec hexec hmid, guard_check hfirst]
    rw [guard_check hfirst] at hlag
    exact decide_eq_true hlag
  have hverdict : w₃.monitor? i = some ((m₂.forgive t₂).update t₂) := by
    rw [monitor?_check hsecond, hm₂, hlagged]
    rfl
  have hsound : 0 ≤ m₂.staleTimeout := by
    rw [htimeout₂]
    exact htimeout
  have hnotheld : (checkMonitor m₀ t₁ (w₀.node.guard.check t₁).2).Held
      (nextEvaluation i t₂ mid) t₂ := fun hf => absurd (hfaulted.symm.trans hf) nofun
  rw [hverdict, hm₂]
  simp only [Option.some.injEq, exists_eq_left', forall_eq']
  rw [ActivityMonitor.forgive_update_iff hok₂ hsound, hheld, and_iff_left hnotheld]

/-- The shipped parameters; on whole seconds `format` and `round` do no rounding. -/
def shipped : WatchdogConfig ℚ where
  hzWarnRatio := 1 / 2
  pauseOnFault := true
  pauseRequester := "driver_watchdog"
  restartEnabled := true
  fixed n x := toString x.num ++ "." ++ String.ofList (List.replicate n '0')
  round x := x

def started : World ℚ where
  node :=
    { guard := ⟨2, none⟩
      terminator := ⟨3, .empty⟩
      sources :=
        [{ id := "odom"
           topic := "odom"
           expectedHz := 20
           faultLevel := .error
           restartNode := ""
           monitor := ActivityMonitor.create 1 2 0 30 false
           policy := ⟨3, 10, none⟩
           restarts := 0
           faulted := false }]
      pausedBy := [] }
  clock := 0

def noPids (_ : String) : List Nat := []

/-- The last message is four seconds old, and the check forgives it. -/
theorem lag_forgiven_in_check :
    ∃ w, exec (step shipped) started
        [.message 0 10 true, .check 10 noPids, .message 0 11 true, .check 15 noPids] = some w ∧
      ∃ m, w.monitor? 0 = some m ∧ m.faulted = false := by
  have hrun : (exec (step shipped) started
      [.message 0 10 true, .check 10 noPids, .message 0 11 true, .check 15 noPids]).isSome := by
    decide +kernel
  obtain ⟨w₃, hw₃⟩ := Option.isSome_iff_exists.mp hrun
  refine ⟨w₃, hw₃, ?_⟩
  obtain ⟨w₀, h₀, hw₃⟩ := exec_cons_iff.mp hw₃
  obtain ⟨w₁, h₁, hw₃⟩ := exec_cons_iff.mp hw₃
  obtain ⟨w₂, h₂, hw₃⟩ := exec_cons_iff.mp hw₃
  obtain ⟨w, h₃, hw⟩ := exec_cons_iff.mp hw₃
  obtain rfl := Option.some.inj hw
  have hfirst : (exec (step shipped) started [.message 0 10 true, .check 10 noPids]).any
      (fun w => decide ((w.monitor? 0).any (fun m => !m.faulted) = true ∧
        w.node.guard.maxGap < 15 - 10)) = true := by decide +kernel
  rw [exec_cons_iff.mpr ⟨w₀, h₀, exec_single h₁⟩] at hfirst
  obtain ⟨hgood, hgap⟩ := of_decide_eq_true hfirst
  obtain ⟨m, hm, hfaulted⟩ := (Option.any_eq_true _ _).mp hgood
  have hreceived : (exec (step shipped) started
      [.message 0 10 true, .check 10 noPids, .message 0 11 true]).any
      (fun w => decide (∀ m ∈ w.monitor? 0, m.received = true)) = true := by decide +kernel
  rw [exec_cons_iff.mpr ⟨w₀, h₀, exec_cons_iff.mpr ⟨w₁, h₁, exec_single h₂⟩⟩] at hreceived
  refine (lag_forgiven_iff h₁ hm (by simpa using hfaulted) (exec_single h₂) ?_ ?_ hgap h₃).mpr
    ⟨fun m hm => .inl (of_decide_eq_true hreceived m hm), ?_⟩
  · rintro c hc
    obtain rfl := List.mem_singleton.mp hc
    exact id
  · rintro now ok hmem
    cases List.mem_singleton.mp hmem
    rfl
  · exact staleHeldBack_of_notMem fun now hmem => nomatch List.mem_singleton.mp hmem

/-- The diagnosis comes before the check and calls the source stale. The check forgives the
silence but holds the verdict, and the robot is paused. -/
theorem lag_not_forgiven_after_diagnosis :
    ∃ w₁ w₃, exec (step shipped) started [.message 0 10 true, .check 10 noPids] = some w₁ ∧
      exec (step shipped) w₁ [.diagnose 0 13, .check 13 noPids] = some w₃ ∧
      (w₁.monitor? 0).any (fun m => !m.faulted) = true ∧ w₁.node.guard.maxGap < 13 - 10 ∧
      (w₃.monitor? 0).any (fun m => m.faulted) = true := by
  have hfirst : (exec (step shipped) started [.message 0 10 true, .check 10 noPids]).any
      (fun w => decide ((w.monitor? 0).any (fun m => !m.faulted) = true ∧
        w.node.guard.maxGap < 13 - 10)) = true := by decide +kernel
  have hrun : (exec (step shipped) started
      ([.message 0 10 true, .check 10 noPids] ++ [.diagnose 0 13, .check 13 noPids])).any
      (fun w => decide ((w.monitor? 0).any (fun m => m.faulted) = true)) = true := by
    decide +kernel
  obtain ⟨w₃, hw₃, hfaulted⟩ := exists_exec hrun
  obtain ⟨w₁, hw₁, hw₃⟩ := exec_append_iff.mp hw₃
  rw [hw₁] at hfirst
  obtain ⟨hgood, hgap⟩ := of_decide_eq_true hfirst
  exact ⟨w₁, w₃, hw₁, hw₃, hgood, hgap, hfaulted⟩

end World

end MgRobot.Watchdog
