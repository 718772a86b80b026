import Mathlib.Data.List.Nodup

/-!
# Runs of a partial step function

A system is a step function `σ → α → Option σ`: the event `a` is enabled in `s`
when `step s a` is a state. `exec` runs a list of events, `Always` and `Meets`
speak about the states and the steps a run goes through, and `outputs` collects
what the steps emit. The rules below carry one-step facts to whole runs.
-/

namespace MgRobot.Lib.Runs

set_option autoImplicit false

variable {σ α ι : Type*}

/-- The state after a list of events, if every one of them is enabled in turn. -/
def exec (step : σ → α → Option σ) : σ → List α → Option σ
  | s, [] => some s
  | s, a :: rest => (step s a).bind fun t => exec step t rest

/-- `P` holds in every state the run goes through, its two ends included. -/
def Always (step : σ → α → Option σ) (P : σ → Prop) : σ → List α → Prop
  | s, [] => P s
  | s, a :: rest => P s ∧ ∀ t, step s a = some t → Always step P t rest

/-- Every step of the run meets `Q`, read in the state the step is taken from. -/
def Meets (step : σ → α → Option σ) (Q : σ → α → Prop) : σ → List α → Prop
  | _, [] => True
  | s, a :: rest => Q s a ∧ ∀ t, step s a = some t → Meets step Q t rest

/-- What the steps of a run emit, in order. -/
def outputs (step : σ → α → Option σ) (out : σ → α → List ι) : σ → List α → List ι
  | _, [] => []
  | s, a :: rest => out s a ++
      match step s a with
      | some t => outputs step out t rest
      | none => []

variable {step : σ → α → Option σ} {out : σ → α → List ι} {s t u : σ} {a : α} {as bs : List α}

@[simp] theorem exec_nil : exec step s [] = some s := rfl

theorem exec_cons_iff : exec step s (a :: as) = some u ↔
    ∃ t, step s a = some t ∧ exec step t as = some u := by
  simp only [exec, Option.bind_eq_some_iff]

theorem outputs_cons (h : step s a = some t) :
    outputs step out s (a :: as) = out s a ++ outputs step out t as := by
  simp only [outputs, h]

theorem exec_single (h : step s a = some t) : exec step s [a] = some t :=
  exec_cons_iff.mpr ⟨t, h, rfl⟩

theorem exec_append_iff : exec step s (as ++ bs) = some u ↔
    ∃ t, exec step s as = some t ∧ exec step t bs = some u := by
  induction as generalizing s with
  | nil => simp
  | cons a rest ih =>
      simp only [List.cons_append, exec_cons_iff, ih]
      constructor
      · rintro ⟨v, hv, w, hw, hu⟩
        exact ⟨w, ⟨v, hv, hw⟩, hu⟩
      · rintro ⟨w, ⟨v, hv, hw⟩, hu⟩
        exact ⟨v, hv, w, hw, hu⟩

theorem exec_append (h : exec step s as = some t) (h' : exec step t bs = some u) :
    exec step s (as ++ bs) = some u :=
  exec_append_iff.mpr ⟨t, h, h'⟩

/-- The rest of a run whose first part is known. -/
theorem exec_after (h : exec step s (as ++ bs) = some u) (hr : exec step s as = some t) :
    exec step t bs = some u := by
  obtain ⟨t', ht', hrest⟩ := exec_append_iff.mp h
  obtain rfl := Option.some.inj (hr.symm.trans ht')
  exact hrest

theorem exec_after_cons (h : exec step s (as ++ a :: bs) = some u) (hr : exec step s as = some t) :
    ∃ v, step t a = some v ∧ exec step v bs = some u :=
  exec_cons_iff.mp (exec_after h hr)

theorem exec_snoc (h : exec step s as = some t) (h' : step t a = some u) :
    exec step s (as ++ [a]) = some u :=
  exec_append h (exec_single h')

/-- A run on fixed events whose end is decided to satisfy `P`. -/
theorem exists_exec {P : σ → Prop} [DecidablePred P]
    (h : (exec step s as).any (fun t => decide (P t)) = true) :
    ∃ t, exec step s as = some t ∧ P t := by
  obtain ⟨t, ht, hp⟩ := (Option.any_eq_true _ _).mp h
  exact ⟨t, ht, of_decide_eq_true hp⟩

variable {P I : σ → Prop} {Q Q' : σ → α → Prop}

theorem Always.head (h : Always step P s as) : P s := by
  cases as with
  | nil => exact h
  | cons a rest => exact h.1

theorem Always.snoc (h : Always step P s as) (hr : exec step s as = some t)
    (ha : ∀ u, step t a = some u → P u) : Always step P s (as ++ [a]) := by
  induction as generalizing s with
  | nil =>
      obtain rfl := Option.some.inj hr
      exact ⟨h, ha⟩
  | cons b rest ih =>
      obtain ⟨v, hv, hr⟩ := exec_cons_iff.mp hr
      refine ⟨h.1, fun w hw => ?_⟩
      obtain rfl := Option.some.inj (hv.symm.trans hw)
      exact ih (h.2 v hv) hr

theorem Meets.cons (hQ : Q s a) (ht : step s a = some t) (h : Meets step Q t as) :
    Meets step Q s (a :: as) := by
  refine ⟨hQ, fun u hu => ?_⟩
  obtain rfl := Option.some.inj (ht.symm.trans hu)
  exact h

theorem Meets.mono (hQ : ∀ s a, Q s a → Q' s a) (h : Meets step Q s as) :
    Meets step Q' s as := by
  induction as generalizing s with
  | nil => trivial
  | cons a rest ih => exact ⟨hQ s a h.1, fun t ht => ih (h.2 t ht)⟩

theorem Meets.and (h : Meets step Q s as) (h' : Meets step Q' s as) :
    Meets step (fun s a => Q s a ∧ Q' s a) s as := by
  induction as generalizing s with
  | nil => trivial
  | cons a rest ih => exact ⟨⟨h.1, h'.1⟩, fun t ht => ih (h.2 t ht) (h'.2 t ht)⟩

theorem Meets.left (h : Meets step Q s (as ++ bs)) : Meets step Q s as := by
  induction as generalizing s with
  | nil => trivial
  | cons a rest ih => exact ⟨h.1, fun t ht => ih (h.2 t ht)⟩

theorem Meets.right (h : Meets step Q s (as ++ bs)) (hr : exec step s as = some t) :
    Meets step Q t bs := by
  induction as generalizing s with
  | nil =>
      obtain rfl := Option.some.inj hr
      exact h
  | cons a rest ih =>
      obtain ⟨v, hv, hr⟩ := exec_cons_iff.mp hr
      exact ih (h.2 v hv) hr

theorem Meets.append (h : Meets step Q s as)
    (h' : ∀ t, exec step s as = some t → Meets step Q t bs) : Meets step Q s (as ++ bs) := by
  induction as generalizing s with
  | nil => exact h' s rfl
  | cons a rest ih =>
      refine ⟨h.1, fun t ht => ih (h.2 t ht) fun u hu => h' u ?_⟩
      exact exec_cons_iff.mpr ⟨t, ht, hu⟩

theorem Meets.of_forall (hQ : ∀ s a, Q s a) : Meets step Q s as := by
  induction as generalizing s with
  | nil => trivial
  | cons a rest ih => exact ⟨hQ s a, fun t _ => ih⟩

theorem Meets.of_forall_mem (hQ : ∀ a ∈ as, ∀ s, Q s a) : Meets step Q s as := by
  induction as generalizing s with
  | nil => trivial
  | cons a rest ih =>
      refine ⟨hQ a List.mem_cons_self s, fun t _ => ih fun b hb => ?_⟩
      exact hQ b (List.mem_cons_of_mem a hb)

instance decidableMeets [∀ s a, Decidable (Q s a)] :
    ∀ s as, Decidable (Meets step Q s as)
  | _, [] => isTrue trivial
  | s, a :: rest =>
      match h : step s a with
      | none => decidable_of_iff (Q s a)
          ⟨fun hq => ⟨hq, fun t ht => by rw [h] at ht; cases ht⟩, fun hm => hm.1⟩
      | some v =>
          have : Decidable (Meets step Q v rest) := decidableMeets v rest
          decidable_of_iff (Q s a ∧ Meets step Q v rest)
            ⟨fun hm => ⟨hm.1, fun t ht => by rw [h] at ht; cases ht; exact hm.2⟩,
              fun hm => ⟨hm.1, hm.2 v h⟩⟩

/-- The invariant rule: what holds at the start and is kept by every step that meets `Q`
holds after a run whose steps all meet `Q`. -/
theorem invariant (hstep : ∀ s a t, I s → Q s a → step s a = some t → I t)
    (hs : I s) (hm : Meets step Q s as) (hr : exec step s as = some t) : I t := by
  induction as generalizing s with
  | nil =>
      obtain rfl := Option.some.inj hr
      exact hs
  | cons a rest ih =>
      obtain ⟨v, hv, hr⟩ := exec_cons_iff.mp hr
      exact ih (hstep s a v hs hm.1 hv) (hm.2 v hv) hr

/-- The invariant rule without a condition on the steps. -/
theorem invariant_of_step (hstep : ∀ s a t, I s → step s a = some t → I t)
    (hs : I s) (hr : exec step s as = some t) : I t :=
  invariant (Q := fun _ _ => True) (fun s a t h _ hst => hstep s a t h hst) hs
    (Meets.of_forall fun _ _ => trivial) hr

/-- The invariant rule for the events of one run. -/
theorem invariant_of_mem (hstep : ∀ s a t, a ∈ as → I s → step s a = some t → I t)
    (hs : I s) (hr : exec step s as = some t) : I t := by
  induction as generalizing s with
  | nil =>
      obtain rfl := Option.some.inj hr
      exact hs
  | cons a rest ih =>
      obtain ⟨v, hv, hr⟩ := exec_cons_iff.mp hr
      exact ih (fun s b t hb => hstep s b t (List.mem_cons_of_mem a hb))
        (hstep s a v List.mem_cons_self hs hv) hr

/-- The invariant rule for invariants that look back at the run. -/
theorem invariant_of_history {H : List α → σ → Prop}
    (hstep : ∀ es s a t, H es s → step s a = some t → H (es ++ [a]) t)
    (hs : H [] s) (hr : exec step s as = some t) : H as t := by
  have hrun : ∀ (es rest : List α) (s : σ), H es s → exec step s rest = some t →
      H (es ++ rest) t := by
    intro es rest
    induction rest generalizing es with
    | nil =>
        intro s h hr
        obtain rfl := Option.some.inj hr
        rw [List.append_nil]
        exact h
    | cons a rest ih =>
        intro s h hr
        obtain ⟨v, hv, hr⟩ := exec_cons_iff.mp hr
        rw [List.append_cons]
        exact ih _ v (hstep es s a v h hv) hr
  exact hrun [] as s hs hr

/-- Under an invariant, a condition on every step gives another one on every step. -/
theorem meets_of_invariant (hstep : ∀ s a t, I s → Q s a → step s a = some t → I t)
    (hQ : ∀ s a, I s → Q s a → Q' s a) (hs : I s) (hm : Meets step Q s as) :
    Meets step Q' s as := by
  induction as generalizing s with
  | nil => trivial
  | cons a rest ih =>
      exact ⟨hQ s a hs hm.1, fun t ht => ih (hstep s a t hs hm.1 ht) (hm.2 t ht)⟩

/-- What an invariant implies holds in every state of a run whose steps all meet `Q`. -/
theorem always_of_invariant {J : σ → Prop} (hstep : ∀ s a t, J s → Q s a → step s a = some t → J t)
    (hI : ∀ s, J s → I s) (hs : J s) (hm : Meets step Q s as) : Always step I s as := by
  induction as generalizing s with
  | nil => exact hI s hs
  | cons a rest ih => exact ⟨hI s hs, fun t ht => ih (hstep s a t hs hm.1 ht) (hm.2 t ht)⟩

/-- Two conditions that an invariant makes the same on every step, when one of them keeps it. -/
theorem meets_iff_meets (hstep : ∀ s a t, I s → Q s a → step s a = some t → I t)
    (hQ : ∀ s a t, I s → step s a = some t → (Q s a ↔ Q' s a)) (hs : I s)
    (hr : exec step s as = some t) : Meets step Q s as ↔ Meets step Q' s as := by
  induction as generalizing s with
  | nil => exact Iff.rfl
  | cons a rest ih =>
      obtain ⟨v, hv, hr⟩ := exec_cons_iff.mp hr
      have hiff := hQ s a v hs hv
      constructor
      · rintro ⟨hq, h⟩
        have hnext := (ih (hstep s a v hs hq hv) hr).mp (h v hv)
        exact Meets.cons (hiff.mp hq) hv hnext
      · rintro ⟨hq, h⟩
        have hq := hiff.mpr hq
        exact Meets.cons hq hv ((ih (hstep s a v hs hq hv) hr).mpr (h v hv))

/-- The exactness rule: when, under an invariant `J` that the steps meeting `Q` keep, a step from
a good state leads to a good state exactly if it meets `Q`, a run stays good exactly if all its
steps meet `Q`. -/
theorem always_iff_meets_of_kept {J : σ → Prop}
    (hJ : ∀ s a t, J s → Q s a → step s a = some t → J t)
    (hstep : ∀ s a t, J s → I s → step s a = some t → (I t ↔ Q s a)) (hj : J s) (hs : I s)
    (hr : exec step s as = some t) : Always step I s as ↔ Meets step Q s as := by
  induction as generalizing s with
  | nil => exact ⟨fun _ => trivial, fun _ => hs⟩
  | cons a rest ih =>
      obtain ⟨v, hv, hr⟩ := exec_cons_iff.mp hr
      have hiff := hstep s a v hj hs hv
      constructor
      · rintro ⟨_, h⟩
        have hv' := (h v hv).head
        have hq := hiff.mp hv'
        exact Meets.cons hq hv ((ih (hJ s a v hj hq hv) hv' hr).mp (h v hv))
      · rintro ⟨hq, h⟩
        refine ⟨hs, fun w hw => ?_⟩
        obtain rfl := Option.some.inj (hv.symm.trans hw)
        exact (ih (hJ s a v hj hq hv) (hiff.mpr hq) hr).mpr (h v hv)

/-- The exactness rule under an invariant that every step keeps. -/
theorem always_iff_meets {J : σ → Prop} (hJ : ∀ s a t, J s → step s a = some t → J t)
    (hstep : ∀ s a t, J s → I s → step s a = some t → (I t ↔ Q s a)) (hj : J s) (hs : I s)
    (hr : exec step s as = some t) : Always step I s as ↔ Meets step Q s as :=
  always_iff_meets_of_kept (fun s a t h _ hst => hJ s a t h hst) hstep hj hs hr

/-- The exactness rule where the events of the run are enabled in every good state. -/
theorem always_iff_meets_of_mem {J : σ → Prop}
    (hstep : ∀ s a, a ∈ as → J s → I s → ∃ t, step s a = some t ∧ J t ∧ (I t ↔ Q s a)) (hj : J s)
    (hs : I s) : Always step I s as ↔ Meets step Q s as := by
  induction as generalizing s with
  | nil => exact ⟨fun _ => trivial, fun _ => hs⟩
  | cons a rest ih =>
      obtain ⟨v, hv, hjv, hiff⟩ := hstep s a List.mem_cons_self hj hs
      have hrest : J v → I v → (Always step I v rest ↔ Meets step Q v rest) :=
        ih fun s b hb => hstep s b (List.mem_cons_of_mem a hb)
      have hnext : ∀ {P : σ → Prop}, (∀ w, step s a = some w → P w) ↔ P v := by
        intro P
        refine ⟨fun h => h v hv, fun h w hw => ?_⟩
        obtain rfl := Option.some.inj (hv.symm.trans hw)
        exact h
      rw [Always, Meets, hnext, hnext, and_iff_right hs]
      constructor
      · exact fun h => ⟨hiff.mp h.head, (hrest hjv h.head).mp h⟩
      · exact fun h => (hrest hjv (hiff.mpr h.1)).mpr h.2

/-- The exactness rule for a system in which every event is enabled in a good state. -/
theorem always_iff_meets_of_enabled {J : σ → Prop}
    (hstep : ∀ s a, J s → I s → ∃ t, step s a = some t ∧ J t ∧ (I t ↔ Q s a)) (hj : J s)
    (hs : I s) : Always step I s as ↔ Meets step Q s as :=
  always_iff_meets_of_mem (fun s a _ => hstep s a) hj hs

/-- Every step of a run is taken from a state that an earlier part of the run reaches. -/
theorem Meets.at (h : Meets step Q s (as ++ a :: bs)) (hr : exec step s as = some t) : Q t a := by
  induction as generalizing s with
  | nil =>
      obtain rfl := Option.some.inj hr
      exact h.1
  | cons b rest ih =>
      obtain ⟨v, hv, hr⟩ := exec_cons_iff.mp hr
      exact ih (h.2 v hv) hr

/-- To meet a condition that keeps an invariant, each step may be looked at under the invariant. -/
theorem meets_of_prefixes (hstep : ∀ s a t, I s → Q s a → step s a = some t → I t) (hs : I s)
    (hr : exec step s as = some u) (h : ∀ pre a post t v, as = pre ++ a :: post →
      exec step s pre = some t → step t a = some v → I t → Q t a) : Meets step Q s as := by
  induction as generalizing s with
  | nil => trivial
  | cons a rest ih =>
      obtain ⟨v, hv, hr⟩ := exec_cons_iff.mp hr
      have hq : Q s a := h [] a rest s v rfl rfl hv hs
      refine Meets.cons hq hv (ih (hstep s a v hs hq hv) hr ?_)
      intro pre b post t w hrest hpre hw
      exact h (a :: pre) b post t w (by rw [hrest]; rfl) (exec_cons_iff.mpr ⟨v, hv, hpre⟩) hw

/-- A condition on states that each step keeps exactly if it meets `Q`. -/
theorem iff_and_meets (hstep : ∀ s a t, step s a = some t → (P t ↔ P s ∧ Q s a))
    (hr : exec step s as = some t) : P t ↔ P s ∧ Meets step Q s as := by
  induction as generalizing s with
  | nil =>
      obtain rfl := Option.some.inj hr
      exact ⟨fun h => ⟨h, trivial⟩, And.left⟩
  | cons a rest ih =>
      obtain ⟨v, hv, hr⟩ := exec_cons_iff.mp hr
      rw [ih hr, hstep s a v hv, and_assoc]
      refine and_congr_right fun _ => and_congr_right fun _ => ⟨fun h w hw => ?_, fun h => h v hv⟩
      obtain rfl := Option.some.inj (hv.symm.trans hw)
      exact h

/-- Two conditions on steps that agree wherever the run goes. -/
theorem meets_congr (h : ∀ pre a post t, as = pre ++ a :: post → exec step s pre = some t →
    (Q t a ↔ Q' t a)) : Meets step Q s as ↔ Meets step Q' s as := by
  induction as generalizing s with
  | nil => exact Iff.rfl
  | cons a rest ih =>
      refine and_congr (h [] a rest s rfl rfl) (forall₂_congr fun v hv => ih ?_)
      intro pre b post t hrest hr
      exact h (a :: pre) b post t (by rw [hrest]; rfl) (exec_cons_iff.mpr ⟨v, hv, hr⟩)

/-- What holds of every step of a run holds of a step wherever the run is split. -/
theorem meets_iff_forall_split (hr : exec step s as = some u) : Meets step Q s as ↔
    ∀ pre a post t, as = pre ++ a :: post → exec step s pre = some t → Q t a := by
  constructor
  · rintro h pre a post t rfl hpre
    exact h.at hpre
  · intro h
    refine meets_of_prefixes (I := fun _ => True) (fun _ _ _ _ _ _ => trivial) trivial hr ?_
    intro pre a post t v hsplit hpre _ _
    exact h pre a post t hsplit hpre

/-- What comes to hold in a run is made to hold by one of its steps. -/
theorem exists_change (hs : ¬ P s) (hr : exec step s as = some t) (ht : P t) :
    ∃ pre a post u v, as = pre ++ a :: post ∧ exec step s pre = some u ∧ step u a = some v ∧
      exec step v post = some t ∧ ¬ P u ∧ P v := by
  induction as generalizing s with
  | nil =>
      obtain rfl := Option.some.inj hr
      exact absurd ht hs
  | cons a rest ih =>
      obtain ⟨v, hv, hr⟩ := exec_cons_iff.mp hr
      by_cases hp : P v
      · exact ⟨[], a, rest, s, v, rfl, rfl, hv, hr, hs, hp⟩
      · obtain ⟨pre, b, post, u, w, hsplit, hpre, hstep, hpost, hu, hw⟩ := ih hp hr
        refine ⟨a :: pre, b, post, u, w, congrArg (a :: ·) hsplit, ?_, hstep, hpost, hu, hw⟩
        exact exec_cons_iff.mpr ⟨v, hv, hpre⟩

/-- What a run emits is emitted by one of its steps. -/
theorem mem_outputs_iff {i : ι} (hr : exec step s as = some u) : i ∈ outputs step out s as ↔
    ∃ pre a post t, as = pre ++ a :: post ∧ exec step s pre = some t ∧ i ∈ out t a := by
  have hmeets : Meets step (fun t a => i ∉ out t a) s as ↔ i ∉ outputs step out s as := by
    induction as generalizing s with
    | nil => exact iff_of_true trivial nofun
    | cons a rest ih =>
        obtain ⟨v, hv, hr⟩ := exec_cons_iff.mp hr
        rw [outputs_cons hv, List.mem_append, not_or, ← ih hr]
        refine and_congr_right fun _ => ⟨fun h => h v hv, fun h w hw => ?_⟩
        obtain rfl := Option.some.inj (hv.symm.trans hw)
        exact h
  rw [← not_iff_not, ← hmeets, meets_iff_forall_split hr]
  push Not
  rfl

section Simulation

variable {τ β : Type*} {step' : τ → β → Option τ} {f : σ → τ} {g : α → β} {Q'' : τ → β → Prop}

/-- The simulation rule: a run of a system that another one follows step by step. -/
theorem exec_map (hstep : ∀ s a t, step s a = some t → step' (f s) (g a) = some (f t))
    (hr : exec step s as = some t) : exec step' (f s) (as.map g) = some (f t) := by
  induction as generalizing s with
  | nil => exact congrArg (some ∘ f) (Option.some.inj hr)
  | cons a rest ih =>
      obtain ⟨v, hv, hr⟩ := exec_cons_iff.mp hr
      exact exec_cons_iff.mpr ⟨f v, hstep s a v hv, ih hr⟩

/-- The simulation rule under an invariant. -/
theorem exec_map_of_invariant
    (hstep : ∀ s a t, I s → step s a = some t → I t ∧ step' (f s) (g a) = some (f t))
    (hs : I s) (hr : exec step s as = some t) :
    I t ∧ exec step' (f s) (as.map g) = some (f t) := by
  induction as generalizing s with
  | nil =>
      obtain rfl := Option.some.inj hr
      exact ⟨hs, rfl⟩
  | cons a rest ih =>
      obtain ⟨v, hv, hr⟩ := exec_cons_iff.mp hr
      obtain ⟨hi, hv'⟩ := hstep s a v hs hv
      obtain ⟨ht, hrest⟩ := ih hi hr
      exact ⟨ht, exec_cons_iff.mpr ⟨f v, hv', hrest⟩⟩

/-- The simulation rule for a system each step of which another one matches by a run. -/
theorem exec_matched (hstep : ∀ s a t, step s a = some t → ∃ bs, exec step' (f s) bs = some (f t))
    (hr : exec step s as = some t) : ∃ bs, exec step' (f s) bs = some (f t) := by
  induction as generalizing s with
  | nil =>
      obtain rfl := Option.some.inj hr
      exact ⟨[], rfl⟩
  | cons a rest ih =>
      obtain ⟨v, hv, hr⟩ := exec_cons_iff.mp hr
      obtain ⟨bs, hbs⟩ := hstep s a v hv
      obtain ⟨cs, hcs⟩ := ih hr
      exact ⟨bs ++ cs, exec_append hbs hcs⟩

theorem Meets.map (hstep : ∀ s a t, step s a = some t → step' (f s) (g a) = some (f t))
    (hQ : ∀ s a, Q s a → Q'' (f s) (g a)) (hm : Meets step Q s as)
    (hr : exec step s as = some t) : Meets step' Q'' (f s) (as.map g) := by
  induction as generalizing s with
  | nil => trivial
  | cons a rest ih =>
      obtain ⟨v, hv, hr⟩ := exec_cons_iff.mp hr
      refine ⟨hQ s a hm.1, fun w hw => ?_⟩
      obtain rfl := Option.some.inj ((hstep s a v hv).symm.trans hw)
      exact ih (hm.2 v hv) hr

end Simulation

variable {retired : σ → ι → Prop} {x : ι}

/-- What is retired is never emitted again. -/
theorem not_mem_outputs (hout : ∀ s a x, x ∈ out s a → ¬ retired s x)
    (hstable : ∀ s a t x, retired s x → step s a = some t → retired t x)
    (hs : retired s x) : x ∉ outputs step out s as := by
  induction as generalizing s with
  | nil => simp [outputs]
  | cons a rest ih =>
      simp only [outputs, List.mem_append, not_or]
      refine ⟨fun h => hout s a x h hs, ?_⟩
      cases hv : step s a with
      | none => simp
      | some v => exact ih (hstable s a v x hs hv)

/-- A run whose steps retire what they emit emits nothing twice. -/
theorem outputs_nodup (hnodup : ∀ s a, (out s a).Nodup)
    (hout : ∀ s a x, x ∈ out s a → ¬ retired s x)
    (hretire : ∀ s a t x, x ∈ out s a → step s a = some t → retired t x)
    (hstable : ∀ s a t x, retired s x → step s a = some t → retired t x) :
    (outputs step out s as).Nodup := by
  induction as generalizing s with
  | nil => simp [outputs]
  | cons a rest ih =>
      simp only [outputs]
      cases hv : step s a with
      | none => simpa using hnodup s a
      | some v =>
          apply List.Nodup.append (hnodup s a) ih
          intro y hy hy'
          exact not_mem_outputs hout hstable (hretire s a v y hy hv) hy'

/-- Nothing is emitted from a state that the run does not leave and that emits nothing. -/
theorem outputs_eq_nil (hstep : ∀ s a t, I s → step s a = some t → I t)
    (hout : ∀ s a, I s → out s a = []) (hs : I s) : outputs step out s as = [] := by
  induction as generalizing s with
  | nil => rfl
  | cons a rest ih =>
      rw [outputs, hout s a hs, List.nil_append]
      cases hv : step s a with
      | none => rfl
      | some v => exact ih (hstep s a v hs hv)

theorem outputs_append (h : exec step s as = some t) :
    outputs step out s (as ++ bs) = outputs step out s as ++ outputs step out t bs := by
  induction as generalizing s with
  | nil =>
      obtain rfl := Option.some.inj h
      rfl
  | cons a rest ih =>
      obtain ⟨v, hv, h⟩ := exec_cons_iff.mp h
      rw [List.cons_append, outputs_cons hv, outputs_cons hv, ih h, List.append_assoc]

theorem outputs_snoc (h : exec step s as = some t) (h' : step t a = some u) :
    outputs step out s (as ++ [a]) = outputs step out s as ++ out t a := by
  rw [outputs_append h, outputs_cons h', outputs, List.append_nil]

theorem filter_outputs (p : ι → Bool) : (outputs step out s as).filter p =
    outputs step (fun s a => (out s a).filter p) s as := by
  induction as generalizing s with
  | nil => rfl
  | cons a rest ih =>
      simp only [outputs, List.filter_append]
      cases step s a with
      | none => rfl
      | some t => exact congrArg _ ih

/-- A list that goes `x, y, x, …`. -/
def Alternates : ι → ι → List ι → Prop
  | _, _, [] => True
  | x, y, z :: rest => z = x ∧ Alternates y x rest

instance Alternates.decidable [DecidableEq ι] : ∀ (x y : ι) l, Decidable (Alternates x y l)
  | _, _, [] => isTrue trivial
  | x, y, z :: rest =>
      have : Decidable (Alternates y x rest) := Alternates.decidable y x rest
      inferInstanceAs (Decidable (z = x ∧ Alternates y x rest))

/-- The alternation rule: a switch `on` is turned off by `x` and on by `y`, and nothing else
is emitted. -/
theorem alternates_outputs {y : ι} (on : σ → Bool)
    (hstep : ∀ s a t, I s → step s a = some t → I t ∧
      (out s a = [] ∧ on t = on s ∨ out s a = [if on s then x else y] ∧ on t = !on s))
    (hs : I s) (hr : exec step s as = some u) :
    Alternates (if on s then x else y) (if on s then y else x) (outputs step out s as) := by
  induction as generalizing s with
  | nil => trivial
  | cons a rest ih =>
      obtain ⟨t, ht, hr⟩ := exec_cons_iff.mp hr
      obtain ⟨hi, h⟩ := hstep s a t hs ht
      have h' := ih hi hr
      rw [outputs_cons ht]
      rcases h with ⟨hout, hon⟩ | ⟨hout, hon⟩
      · rw [hout, List.nil_append, ← hon]
        exact h'
      · rw [hout, List.singleton_append]
        refine ⟨rfl, ?_⟩
        rw [hon] at h'
        cases hb : on s <;> simpa [hb] using h'

/-- Every entry of a log is good in view of the entries before it. -/
def Logged (P : List ι → ι → Prop) (log : List ι) : Prop :=
  ∀ pre x post, log = pre ++ x :: post → P pre x

section Logs

variable {P : List ι → ι → Prop} {log outs : List ι}

theorem Logged.nil : Logged P [] := by
  intro pre x post h
  have := congrArg List.length h
  simp at this

theorem Logged.append (h : Logged P log)
    (houts : ∀ pre x post, outs = pre ++ x :: post → P (log ++ pre) x) :
    Logged P (log ++ outs) := by
  intro pre x post heq
  rcases List.append_eq_append_iff.mp heq with ⟨pre', hpre, hnew⟩ | ⟨post', hold, hrest⟩
  · rw [hpre]
    exact houts pre' x post hnew
  · cases post' with
    | nil =>
        rw [List.append_nil] at hold
        rw [← hold, ← List.append_nil log]
        exact houts [] x post hrest.symm
    | cons y post' =>
        obtain ⟨rfl, _⟩ := List.cons.inj hrest
        exact h pre x post' hold

theorem Logged.snoc (h : Logged P log) (hx : P log x) : Logged P (log ++ [x]) := by
  refine h.append fun pre y post heq => ?_
  cases pre with
  | nil =>
      obtain ⟨rfl, _⟩ := List.cons.inj heq
      rwa [List.append_nil]
  | cons z pre =>
      have := congrArg List.length (List.cons.inj heq).2
      simp at this

end Logs

end MgRobot.Lib.Runs
