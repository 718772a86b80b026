import MgRobot.Localization.SupervisorRuns

/-!
# What an isolation rests on

The counters of the machine against the verdicts of the whole run. A counter
never exceeds the true verdicts since the last false one, so a long run of one
check is what it says. A jump is another matter: the counters it is held
against go on counting from before it.
-/

namespace MgRobot.Localization

set_option autoImplicit false

open MgRobot.Lib.Runs

variable {R : Type*}

/-- The checks other than the jump. -/
inductive Check where
  | gnss | scan | diff
  deriving DecidableEq, Repr

namespace Check

def verdict : Check → Checks → Option Bool
  | gnss, x => x.gnss
  | scan, x => x.scan
  | diff, x => x.diff

def count : Check → SupervisorMachine R → Nat
  | gnss, m => m.gnssRun
  | scan, m => m.scanRun
  | diff, m => m.diffRun

def isolateTicks : Check → MachineConfig R → Int
  | gnss, cfg => cfg.gnssIsolateTicks
  | scan, cfg => cfg.scanIsolateTicks
  | diff, cfg => cfg.diffIsolateTicks

/-- The true verdicts of a check since its last false one. -/
def trueVerdicts (c : Check) (l : List Checks) : Nat :=
  (l.reverse.takeWhile fun x => c.verdict x != some false).countP fun x => c.verdict x == some true

variable {c : Check} {m : SupervisorMachine R} {checks : Checks} {l : List Checks}

theorem trueVerdicts_snoc : c.trueVerdicts (l ++ [checks]) =
    run (c.trueVerdicts l) (c.verdict checks) := by
  rw [trueVerdicts, List.reverse_append, List.reverse_singleton, List.singleton_append]
  cases hv : c.verdict checks with
  | none => simp [run, trueVerdicts, hv]
  | some b => cases b <;> simp [run, trueVerdicts, hv]

@[simp] theorem count_updateRuns :
    c.count (m.updateRuns checks) = run (c.count m) (c.verdict checks) := by
  cases c <;> rfl

@[simp] theorem count_countClear : c.count (m.countClear checks) = c.count m := by
  obtain ⟨n, hn⟩ := SupervisorMachine.countClear_eq (m := m)
  rw [hn]
  cases c <;> rfl

@[simp] theorem count_countOk : c.count (m.countOk checks) = c.count m := by
  obtain ⟨n, hn⟩ := SupervisorMachine.countOk_eq (m := m)
  rw [hn]
  cases c <;> rfl

theorem run_mono {n k : Nat} (h : n ≤ k) (v : Option Bool) : run n v ≤ run k v := by
  cases v with
  | none => exact h
  | some b =>
      cases b with
      | false => exact Nat.le_refl 0
      | true => exact Nat.succ_le_succ h

end Check

namespace SupervisorMachine

variable {cfg : MachineConfig R} {m m' : SupervisorMachine R} {now : R} {checks : Checks}
  {r : SupervisorMachine R × Decision}

theorem isolateReason_cases (h : m.isolateReason cfg ≠ "") :
    (∃ c : Check, c.isolateTicks cfg ≤ c.count m) ∨
      m.jumpSeen = true ∧ ∃ c : Check, cfg.corroborateTicks ≤ c.count m := by
  rcases isolateReason_ne_empty.mp h with h | h | h | ⟨hj, h⟩
  · exact Or.inl ⟨.gnss, h⟩
  · exact Or.inl ⟨.scan, h⟩
  · exact Or.inl ⟨.diff, h⟩
  · refine Or.inr ⟨hj, ?_⟩
    have h' : cfg.corroborateTicks ≤ m.gnssRun ∨ cfg.corroborateTicks ≤ m.scanRun ∨
        cfg.corroborateTicks ≤ m.diffRun := by omega
    rcases h' with h' | h' | h'
    exacts [⟨.gnss, h'⟩, ⟨.scan, h'⟩, ⟨.diff, h'⟩]

theorem Effect.count_le (he : Effect cfg m now checks r) (c : Check) :
    c.count r.1 ≤ run (c.count m) (c.verdict checks) := by
  have hu : c.count (m.updateRuns checks) = run (c.count m) (c.verdict checks) :=
    Check.count_updateRuns
  have ho : c.count ((m.updateRuns checks).countOk checks) = _ := Check.count_countOk.trans hu
  cases he with
  | cleared | recovered | alertCleared => cases c <;> exact Nat.zero_le _
  | watched | alertHeld => exact (Check.count_countClear.trans hu).le
  | retried | gaveUp | confirming => cases c <;> exact ho.le
  | calm | suspected | alerted | isolated | recoveryStarted | held | degradedHeld =>
      cases c <;> exact hu.le

/-- The checks of a run. -/
def rounds (es : List (R × Checks)) : List Checks := es.map Prod.snd

theorem rounds_snoc {es : List (R × Checks)} {e : R × Checks} :
    rounds (es ++ [e]) = rounds es ++ [e.2] := by
  rw [rounds, List.map_append]
  rfl

/-- The run of a check that a jump is held against counts only what backs the jump, or it
makes no difference that it counts more. -/
def Holds (cfg : MachineConfig R) (c : Check) (count backing : Nat) : Prop :=
  count ≤ backing ∨ cfg.corroborateTicks ≤ backing ∨
    c.isolateTicks cfg ≤ cfg.corroborateTicks ∨ c.isolateTicks cfg ≤ count

instance {c : Check} {count backing : Nat} : Decidable (Holds cfg c count backing) :=
  inferInstanceAs (Decidable (_ ∨ _))

theorem Holds.run {c : Check} {count backing : Nat} (h : Holds cfg c count backing)
    (v : Option Bool) : Holds cfg c (run count v) (run backing v) := by
  cases v with
  | none => exact h
  | some b =>
      cases b with
      | false => exact Or.inl (Nat.le_refl 0)
      | true =>
          unfold Holds at h ⊢
          simp only [Localization.run]
          omega

variable [Sub R] [LE R] [DecidableLE R]

/-- The step isolates AMCL, or gives the alert that takes its place when recovery is disabled. -/
def Isolates (cfg : MachineConfig R) (m : SupervisorMachine R) (e : R × Checks) : Prop :=
  .isolate ∈ emitted cfg m e ∨ cfg.recoveryEnabled = false ∧ .notifyDegraded ∈ emitted cfg m e

theorem Isolates.suspect {e : R × Checks} (h : Coherent cfg m) (hi : Isolates cfg m e) :
    m.state = .suspect ∧ (m.updateRuns e.2).isolateReason cfg ≠ "" := by
  have he : Effect cfg m e.1 e.2 (m.step cfg e.1 e.2) := step_effect
  have hi' : .isolate ∈ (m.step cfg e.1 e.2).2.actions ∨ cfg.recoveryEnabled = false ∧
      .notifyDegraded ∈ (m.step cfg e.1 e.2).2.actions := hi
  revert hi'
  generalize m.step cfg e.1 e.2 = r at he
  intro hi'
  cases he with
  | alerted hs _ hr | isolated hs _ hr => exact ⟨hs, hr⟩
  | gaveUp hs =>
      have hen := h.enabled (Or.inr hs)
      rcases hi' with hi' | ⟨hd, _⟩
      · simp at hi'
      · rw [hd] at hen
        cases hen
  | _ => simp [startRecovery] at hi'

/-- A jump that no earlier jump goes before since NORMAL finds no check with true verdicts from
before it, or none for which they matter. -/
def Fresh (cfg : MachineConfig R) (own : Bool) (m : SupervisorMachine R) (e : R × Checks) : Prop :=
  e.2.jump = some true → m.state = .normal ∨ m.state = .suspect ∧ m.jumpSeen = false →
    ∀ c : Check, Holds cfg c (run (c.count m) (c.verdict e.2))
      (if own then run 0 (c.verdict e.2) else 0)

variable [Zero R]

/-- A jump of the run, seen in the last step taken in NORMAL or after it, with the rounds that
may back it. `own` counts the round of the jump itself among them. -/
def JumpAt (cfg : MachineConfig R) (own : Bool) (es : List (R × Checks))
    (backing : List Checks) : Prop :=
  ∃ pre x post m, es = pre ++ x :: post ∧ exec (next cfg) init (pre ++ [x]) = some m ∧
    x.2.jump = some true ∧ Meets (next cfg) (fun m _ => m.state ≠ .normal) m post ∧
    backing = rounds (if own then x :: post else post)

/-- What an isolation must rest on: `isolate_ticks` true verdicts of one check, or a jump with
`corroborate_ticks` true verdicts of one check after it. -/
def Backed (cfg : MachineConfig R) (own : Bool) (es : List (R × Checks)) : Prop :=
  (∃ c : Check, c.isolateTicks cfg ≤ c.trueVerdicts (rounds es)) ∨
    ∃ backing, JumpAt cfg own es backing ∧
      ∃ c : Check, cfg.corroborateTicks ≤ c.trueVerdicts backing

/-- The jump that the machine holds, if it holds one in SUSPECT. -/
def HeldJump (cfg : MachineConfig R) (own : Bool) (es : List (R × Checks)) (count : Check → Nat) :
    Prop :=
  ∃ backing, JumpAt cfg own es backing ∧ ∀ c, Holds cfg c (count c) (c.trueVerdicts backing)

variable {own : Bool} {es : List (R × Checks)} {e : R × Checks} {count : Check → Nat}

theorem JumpAt.snoc {backing : List Checks} (h : JumpAt cfg own es backing)
    (hr : exec (next cfg) init es = some m) (hs : m.state ≠ .normal) :
    JumpAt cfg own (es ++ [e]) (backing ++ [e.2]) := by
  obtain ⟨pre, x, post, mx, rfl, hx, hj, hm, rfl⟩ := h
  refine ⟨pre, x, post ++ [e], mx, by simp, hx, hj, ?_, ?_⟩
  · refine hm.append fun t ht => ⟨?_, fun _ _ => trivial⟩
    rw [List.append_cons] at hr
    obtain rfl := Option.some.inj (ht.symm.trans (exec_after hr hx))
    exact hs
  · cases own <;> simp [rounds]

theorem HeldJump.snoc (h : HeldJump cfg own es count) (hr : exec (next cfg) init es = some m)
    (hs : m.state ≠ .normal) :
    HeldJump cfg own (es ++ [e]) fun c => run (count c) (c.verdict e.2) := by
  obtain ⟨backing, hj, hc⟩ := h
  refine ⟨backing ++ [e.2], hj.snoc hr hs, fun c => ?_⟩
  rw [Check.trueVerdicts_snoc]
  exact (hc c).run _

theorem heldJump_of_fresh (hf : Fresh cfg own m e) (hj : e.2.jump = some true)
    (hs : m.state = .normal ∨ m.state = .suspect ∧ m.jumpSeen = false)
    (hr : exec (next cfg) init es = some m) :
    HeldJump cfg own (es ++ [e]) fun c => run (c.count m) (c.verdict e.2) := by
  have hn : next cfg m e = some (m.step cfg e.1 e.2).1 := rfl
  refine ⟨_, ⟨es, e, [], _, rfl, exec_snoc hr hn, hj, trivial, rfl⟩, fun c => ?_⟩
  have h := hf hj hs c
  cases own with
  | false => exact h
  | true =>
      show Holds cfg c _ (c.trueVerdicts ([] ++ [e.2]))
      rw [Check.trueVerdicts_snoc]
      exact h

/-- What the machine's counters say about the run. -/
structure Recorded (cfg : MachineConfig R) (own : Bool) (es : List (R × Checks))
    (m : SupervisorMachine R) : Prop where
  count_le : ∀ c : Check, c.count m ≤ c.trueVerdicts (rounds es)
  held : m.state = .suspect → m.jumpSeen = true → HeldJump cfg own es fun c => c.count m

/-- The jump that a step in SUSPECT is judged by. -/
theorem Recorded.held_updateRuns (h : Recorded cfg own es m)
    (hr : exec (next cfg) init es = some m) (hf : Fresh cfg own m e) (hs : m.state = .suspect)
    (hj : (m.updateRuns e.2).jumpSeen = true) :
    HeldJump cfg own (es ++ [e]) fun c => run (c.count m) (c.verdict e.2) := by
  cases hm : m.jumpSeen with
  | true => exact (h.held hs hm).snoc hr (by rw [hs]; decide)
  | false =>
      have hjump : e.2.jump = some true := by
        by_contra hne
        simp [updateRuns, hne, hm] at hj
      exact heldJump_of_fresh hf hjump (Or.inr ⟨hs, hm⟩) hr

theorem Recorded.step (h : Recorded cfg own es m) (hr : exec (next cfg) init es = some m)
    (hf : Fresh cfg own m e) (hn : next cfg m e = some m') : Recorded cfg own (es ++ [e]) m' := by
  have he : Effect cfg m e.1 e.2 (m.step cfg e.1 e.2) := step_effect
  obtain rfl := Option.some.inj hn
  revert he
  generalize m.step cfg e.1 e.2 = r
  intro he
  refine ⟨fun c => ?_, fun hs' hj' => ?_⟩
  · rw [rounds_snoc, Check.trueVerdicts_snoc]
    exact (he.count_le c).trans (Check.run_mono (h.count_le c) _)
  · cases he with
    | suspected hs =>
        have hheld := heldJump_of_fresh hf (of_decide_eq_true hj') (Or.inl hs) hr
        obtain ⟨backing, hb, hc⟩ := hheld
        refine ⟨backing, hb, fun c => ?_⟩
        have := hc c
        cases c <;> exact this
    | watched hs =>
        have hj : (m.updateRuns e.2).jumpSeen = true := by
          obtain ⟨n, hcl⟩ := countClear_eq (m := m.updateRuns e.2)
          rw [hcl] at hj'
          exact hj'
        have hheld := h.held_updateRuns hr hf hs hj
        simp only [Check.count_countClear, Check.count_updateRuns]
        exact hheld
    | held hs | degradedHeld hs => rw [state_updateRuns, hs] at hs'; cases hs'
    | alertHeld hs => rw [state_countClear, state_updateRuns, hs] at hs'; cases hs'
    | confirming hs => rw [state_countOk, state_updateRuns, hs] at hs'; cases hs'
    | _ => cases hs'

theorem recorded_run (hm : Meets (next cfg) (Fresh cfg own) init es)
    (hr : exec (next cfg) init es = some m) : Recorded cfg own es m := by
  have hrun := invariant_of_history (s := init) (t := m)
    (H := fun es m => exec (next cfg) init es = some m ∧
      (Meets (next cfg) (Fresh cfg own) init es → Recorded cfg own es m)) ?_ ?_ hr
  · exact hrun.2 hm
  · rintro es s e t ⟨hs, h⟩ hn
    refine ⟨exec_snoc hs hn, fun hm => ?_⟩
    exact (h hm.left).step hs (hm.at hs) hn
  · refine ⟨rfl, fun _ => ⟨fun c => ?_, fun hs => ?_⟩⟩
    · cases c <;> exact Nat.zero_le _
    · cases hs

/-- In every run whose jumps are all fresh, what isolates is backed. -/
theorem isolation_backed (cfg : MachineConfig R) (own : Bool) (es : List (R × Checks))
    (e : R × Checks) (m : SupervisorMachine R) (hr : exec (next cfg) init es = some m)
    (hi : Isolates cfg m e) (hm : Meets (next cfg) (Fresh cfg own) init (es ++ [e])) :
    Backed cfg own (es ++ [e]) := by
  have h := recorded_run hm.left hr
  obtain ⟨hs, hreason⟩ := hi.suspect (coherent_run hr)
  have hcount : ∀ c : Check, run (c.count m) (c.verdict e.2) ≤
      c.trueVerdicts (rounds (es ++ [e])) := by
    intro c
    rw [rounds_snoc, Check.trueVerdicts_snoc]
    exact Check.run_mono (h.count_le c) _
  have hlong : ∀ c : Check, c.isolateTicks cfg ≤ run (c.count m) (c.verdict e.2) →
      Backed cfg own (es ++ [e]) := by
    intro c hc
    exact Or.inl ⟨c, hc.trans (Int.ofNat_le.mpr (hcount c))⟩
  rcases isolateReason_cases hreason with ⟨c, hc⟩ | ⟨hj, c, hc⟩
  · rw [Check.count_updateRuns] at hc
    exact hlong c hc
  · rw [Check.count_updateRuns] at hc
    obtain ⟨backing, hb, hholds⟩ := h.held_updateRuns hr (hm.at hr) hs hj
    rcases hholds c with h1 | h2 | h3 | h4
    · exact Or.inr ⟨backing, hb, c, hc.trans (Int.ofNat_le.mpr h1)⟩
    · exact Or.inr ⟨backing, hb, c, h2⟩
    · exact hlong c (h3.trans hc)
    · exact hlong c h4

/-- A jump in NORMAL, a scan anomaly in the same round and in the next one. -/
theorem isolation_backed_scan :
    let cfg : MachineConfig ℤ := { MachineConfig.defaults with recoveryEnabled := true }
    let es : List (ℤ × Checks) := [(0, { jump := some true, scan := some true })]
    let e : ℤ × Checks := (1, { scan := some true })
    Isolates cfg (init.step cfg 0 { jump := some true, scan := some true }).1 e ∧
      Backed cfg true (es ++ [e]) := by
  refine ⟨Or.inl (by decide +kernel), ?_⟩
  apply isolation_backed _ true _ _ _ rfl (Or.inl (by decide +kernel))
  refine ⟨?_, fun t ht => ⟨?_, fun _ _ => trivial⟩⟩
  · intro _ _ c
    cases c <;> decide +kernel
  · intro hj
    cases hj

/-- Two scan anomalies, then a jump. -/
def jumpAfterScan : List (ℤ × Checks) :=
  [(0, { scan := some true }), (1, { scan := some true }), (2, { jump := some true })]

/-- A round in which nothing can be told isolates AMCL on the verdicts from before the jump. -/
theorem isolation_not_backed :
    let cfg : MachineConfig ℤ := { MachineConfig.defaults with recoveryEnabled := true }
    let e : ℤ × Checks := (3, Checks.mk none none none none none)
    ∃ m, exec (next cfg) init jumpAfterScan = some m ∧ Isolates cfg m e ∧
      ∀ own, ¬ Backed cfg own (jumpAfterScan ++ [e]) := by
  refine ⟨_, rfl, Or.inl (by decide +kernel), fun own h => ?_⟩
  rcases h with ⟨c, hc⟩ | ⟨_, ⟨pre, x, post, _, hsplit, _, hj, _, rfl⟩, c, hc⟩
  · revert hc
    cases c <;> decide +kernel
  · -- the jump is the third round, and only the last one comes after it
    rcases pre with _ | ⟨_, _ | ⟨_, _ | ⟨_, _ | ⟨_, pre⟩⟩⟩⟩ <;> simp [jumpAfterScan] at hsplit
    · rw [← hsplit.1] at hj
      cases hj
    · rw [← hsplit.2.1] at hj
      cases hj
    · obtain ⟨_, _, rfl, rfl⟩ := hsplit
      revert hc
      cases own <;> cases c <;> decide +kernel
    · rw [← hsplit.2.2.2.1] at hj
      cases hj

end SupervisorMachine

end MgRobot.Localization
