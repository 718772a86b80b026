import MgRobot.SystemManager.LogHub

/-!
# What the hub keeps

The two tables stay in step, and the task table always points to the one task of
a service that is not cancelled. So every subscribed service is streamed once
for as long as no such task ends, and none is started again once it has.
-/

namespace MgRobot.SystemManager

set_option autoImplicit false

open MgRobot.Lib.Runs

variable {σ ι : Type*}

theorem countP_of_unique {α : Type*} {p : α → Bool} {l : List α} {i : Nat} {x : α}
    (hx : l[i]? = some x) (hu : ∀ j y, l[j]? = some y → p y = true → j = i) :
    l.countP p = if p x then 1 else 0 := by
  induction l generalizing i with
  | nil => exact nomatch hx
  | cons a rest ih =>
      rw [List.countP_cons]
      cases i with
      | zero =>
          obtain rfl := Option.some.inj hx
          have hrest : rest.countP p = 0 := by
            rw [List.countP_eq_zero]
            intro y hy hp
            obtain ⟨j, hj⟩ := List.mem_iff_getElem?.mp hy
            exact absurd (hu (j + 1) y hj hp) (Nat.succ_ne_zero j)
          rw [hrest, Nat.zero_add]
      | succ i =>
          have ha : ¬ p a = true := fun ha => absurd (hu 0 a rfl ha).symm (Nat.succ_ne_zero i)
          rw [if_neg ha, Nat.add_zero]
          exact ih hx fun j y hj hp => Nat.succ.inj (hu (j + 1) y hj hp)

namespace LogHub

/-- Every task that is not cancelled is live. -/
def Lively (s : LogHub σ ι) : Prop :=
  ∀ (id : Nat) (t : StreamTask σ), s.created[id]? = some t → t.cancelled = false → t.pc ≠ .done

theorem lively_init {buffers : ι → Subscriber σ} : Lively (init buffers) := by
  intro id t h
  cases h

variable [DecidableEq σ] {s : LogHub σ ι}

/-- The two tables have the same services, and an entry of the task table is the one task of its
service that is not cancelled. -/
structure Tabled (s : LogHub σ ι) : Prop where
  keys : ∀ service, service ∈ s.subscribers ↔ service ∈ s.tasks
  nonempty : ∀ service, service ∈ s.subscribers ↔ (s.subscribersOf service).Nonempty
  current : ∀ service (id : Nat), s.tasks.lookup service = some id →
    ∃ t, s.created[id]? = some t ∧ t.service = service ∧ t.cancelled = false
  listed : ∀ (id : Nat) (t : StreamTask σ), s.created[id]? = some t → t.cancelled = false →
    s.tasks.lookup t.service = some id

theorem tabled_init {buffers : ι → Subscriber σ} : Tabled (init buffers) where
  keys _ := Iff.rfl
  nonempty _ := iff_of_false (AList.notMem_empty _) Finset.not_nonempty_empty
  current _ _ h := nomatch h
  listed _ _ h := nomatch h

/-- Under the tables, streaming once means that no current task has ended. -/
theorem Tabled.streamsOnce_iff (h : Tabled s) : s.StreamsOnce ↔ s.Lively := by
  have hcount : ∀ service (id : Nat) (t : StreamTask σ), s.created[id]? = some t → t.service = service →
      t.cancelled = false → (s.streams service).length = if t.pc = .done then 0 else 1 := by
    rintro service id t ht rfl hc
    rw [streams, ← List.countP_eq_length_filter, countP_of_unique ht]
    · simp [hc]
    · intro j u hu hp
      simp only [Bool.decide_and, Bool.and_eq_true, decide_eq_true_eq] at hp
      have hj := h.listed j u hu hp.2.1
      rw [hp.1, h.listed id t ht hc] at hj
      exact (Option.some.inj hj).symm
  constructor
  · intro ho id t ht hc hd
    have hs := ho t.service
    have hmem : t.service ∈ s.tasks := AList.lookup_isSome.mp (by rw [h.listed id t ht hc]; rfl)
    rw [hcount _ id t ht rfl hc, if_pos hd,
      if_pos ((h.nonempty _).mp ((h.keys _).mpr hmem))] at hs
    cases hs
  · intro hl service
    by_cases hsub : (s.subscribersOf service).Nonempty
    · rw [if_pos hsub]
      have hmem := (h.keys _).mp ((h.nonempty service).mpr hsub)
      obtain ⟨id, hid⟩ := Option.isSome_iff_exists.mp (AList.lookup_isSome.mpr hmem)
      obtain ⟨t, ht, hservice, hc⟩ := h.current service id hid
      rw [hcount service id t ht hservice hc, if_neg (hl id t ht hc)]
    · rw [if_neg hsub, streams, List.length_eq_zero_iff, List.filter_eq_nil_iff]
      intro t ht hp
      simp only [Bool.decide_and, Bool.and_eq_true, decide_eq_true_eq] at hp
      obtain ⟨id, hid⟩ := List.mem_iff_getElem?.mp ht
      have hmem : t.service ∈ s.tasks :=
        AList.lookup_isSome.mp (by rw [h.listed id t hid hp.2.1]; rfl)
      exact hsub (hp.1 ▸ (h.nonempty _).mp ((h.keys _).mpr hmem))

variable {service : σ}

/-- A table in which only services with subscribers are keys. -/
def NonemptyKeys (m : AList fun _ : σ => Finset ι) : Prop :=
  ∀ k, k ∈ m ↔ ((m.lookup k).getD ∅).Nonempty

theorem NonemptyKeys.insert {m : AList fun _ : σ => Finset ι} {set : Finset ι}
    (h : NonemptyKeys m) (hne : set.Nonempty) : NonemptyKeys (m.insert service set) := by
  intro k
  by_cases hk : k = service
  · subst hk
    rw [AList.lookup_insert]
    exact iff_of_true ((AList.mem_insert _).mpr (Or.inl rfl)) hne
  · rw [AList.lookup_insert_ne hk, AList.mem_insert, or_iff_right hk]
    exact h k

theorem NonemptyKeys.erase {m : AList fun _ : σ => Finset ι} (h : NonemptyKeys m) :
    NonemptyKeys (m.erase service) := by
  intro k
  by_cases hk : k = service
  · subst hk
    rw [AList.lookup_erase]
    exact iff_of_false (by simp [AList.mem_erase]) Finset.not_nonempty_empty
  · rw [AList.lookup_erase_ne hk, AList.mem_erase, and_iff_right hk]
    exact h k

/-- Once cancellations have completed, the streams of a service are all its live tasks. -/
theorem streams_of_settled (hs : s.Settled) : s.streams service = s.liveTasks service := by
  unfold streams liveTasks
  refine List.filter_congr fun t ht => ?_
  cases hc : t.cancelled with
  | false => simp
  | true => simp [hs t ht hc]

section Operations

variable [DecidableEq ι] {s' : LogHub σ ι} {subscriber : ι}

theorem Tabled.add (h : Tabled s) : Tabled (s.add service subscriber) := by
  have hne : NonemptyKeys (s.subscribers.insert service
      (Insert.insert subscriber (s.subscribersOf service))) :=
    NonemptyKeys.insert h.nonempty (Finset.insert_nonempty _ _)
  unfold LogHub.add
  dsimp only
  split_ifs with hmem
  · refine ⟨fun k => ?_, hne, h.current, h.listed⟩
    rw [AList.mem_insert, h.keys]
    constructor
    · rintro (rfl | hk)
      · exact hmem
      · exact hk
    · exact Or.inr
  · refine ⟨fun k => ?_, hne, fun k id hid => ?_, fun id t ht hc => ?_⟩
    · rw [AList.mem_insert, AList.mem_insert, h.keys]
    · by_cases hk : k = service
      · subst hk
        rw [AList.lookup_insert] at hid
        obtain rfl := Option.some.inj hid
        exact ⟨_, List.getElem?_concat_length, rfl, rfl⟩
      · rw [AList.lookup_insert_ne hk] at hid
        obtain ⟨t, ht, hservice, hc⟩ := h.current k id hid
        have hlt := (List.getElem?_eq_some_iff.mp ht).1
        exact ⟨t, (List.getElem?_append_left hlt).trans ht, hservice, hc⟩
    · rcases lt_or_ge id s.created.length with hlt | hge
      · rw [List.getElem?_append_left hlt] at ht
        have hid := h.listed id t ht hc
        have hk : t.service ≠ service := by
          rintro rfl
          exact hmem (AList.lookup_isSome.mp (by rw [hid]; rfl))
        exact (AList.lookup_insert_ne hk).trans hid
      · have hlast : id = s.created.length := by
          have hlt := (List.getElem?_eq_some_iff.mp ht).1
          rw [List.length_append, List.length_singleton] at hlt
          omega
        subst hlast
        rw [List.getElem?_concat_length] at ht
        obtain rfl := Option.some.inj ht
        exact AList.lookup_insert _

theorem Lively.add (h : Lively s) : Lively (s.add service subscriber) := by
  unfold LogHub.add
  dsimp only
  split_ifs
  · exact h
  · intro id t ht hc
    rcases List.mem_append.mp (List.mem_of_getElem? ht) with hmem | hmem
    · obtain ⟨j, hj⟩ := List.mem_iff_getElem?.mp hmem
      exact h j t hj hc
    · obtain rfl := List.mem_singleton.mp hmem
      exact nofun

theorem Tabled.remove (h : Tabled s) : Tabled (s.remove service subscriber) := by
  unfold LogHub.remove
  split
  · exact h
  · next set hset =>
    have hkey : service ∈ s.subscribers := AList.lookup_isSome.mp (by rw [hset]; rfl)
    dsimp only
    split_ifs with hne
    · refine ⟨fun k => ?_, NonemptyKeys.insert h.nonempty (Finset.nonempty_iff_ne_empty.mpr hne),
        h.current, h.listed⟩
      rw [AList.mem_insert, ← h.keys]
      constructor
      · rintro (rfl | hk)
        · exact hkey
        · exact hk
      · exact Or.inr
    · obtain ⟨id, hid⟩ := Option.isSome_iff_exists.mp
        (AList.lookup_isSome.mpr ((h.keys service).mp hkey))
      obtain ⟨t, ht, hservice, -⟩ := h.current service id hid
      simp only [hid]
      refine ⟨fun k => ?_, NonemptyKeys.erase h.nonempty, fun k j hj => ?_, fun j u hu hc => ?_⟩
      · rw [AList.mem_erase, AList.mem_erase, h.keys]
      · have hk : k ≠ service := by
          rintro rfl
          rw [AList.lookup_erase] at hj
          cases hj
        rw [AList.lookup_erase_ne hk] at hj
        obtain ⟨u, hu, hus, hc⟩ := h.current k j hj
        have hne : id ≠ j := by
          rintro rfl
          obtain rfl := Option.some.inj (ht.symm.trans hu)
          exact hk (hus.symm.trans hservice)
        exact ⟨u, (List.getElem?_modify_ne _ _ hne).trans hu, hus, hc⟩
      · by_cases hj : id = j
        · subst hj
          rw [List.getElem?_modify_eq, ht] at hu
          obtain rfl := Option.some.inj hu
          cases hc
        · rw [List.getElem?_modify_ne _ _ hj] at hu
          have hlook := h.listed j u hu hc
          have hk : u.service ≠ service := by
            intro hk
            rw [hk, hid] at hlook
            exact hj (Option.some.inj hlook)
          exact (AList.lookup_erase_ne hk).trans hlook

theorem Lively.remove (h : Lively s) : Lively (s.remove service subscriber) := by
  unfold LogHub.remove
  split
  · exact h
  · dsimp only
    split_ifs
    · exact h
    · split
      · exact h
      · next id hid =>
        intro j u hu hc
        by_cases hj : id = j
        · subst hj
          rw [List.getElem?_modify_eq] at hu
          obtain ⟨t, -, rfl⟩ := Option.map_eq_some_iff.mp hu
          cases hc
        · rw [List.getElem?_modify_ne _ _ hj] at hu
          exact h j u hu hc

theorem Tabled.setServices {services : List σ} (h : Tabled s) :
    Tabled (s.setServices subscriber services) := by
  have hleft := List.foldlRecOn (s.subscribers.keys.filter fun service => service ∉ services)
    (fun s service => s.remove service subscriber) h fun _ h _ _ => h.remove
  exact List.foldlRecOn services (fun s service => s.add service subscriber) hleft
    fun _ h _ _ => h.add

theorem Lively.setServices {services : List σ} (h : Lively s) :
    Lively (s.setServices subscriber services) := by
  have hleft := List.foldlRecOn (s.subscribers.keys.filter fun service => service ∉ services)
    (fun s service => s.remove service subscriber) h fun _ h _ _ => h.remove
  exact List.foldlRecOn services (fun s service => s.add service subscriber) hleft
    fun _ h _ _ => h.add

/-- What a wake does to the tables: nothing but the place of one task. -/
theorem wake_effect {id : Nat} {w : Wake} (hs : s.wake id w = some s') :
    ∃ t pc, s.created[id]? = some t ∧ s'.subscribers = s.subscribers ∧ s'.tasks = s.tasks ∧
      s'.created = s.created.set id { t with pc := pc } ∧
      (t.cancelled = false → (pc = .done ↔ t.pc.raises w = true)) := by
  unfold LogHub.wake at hs
  split at hs
  · cases hs
  · next t ht =>
    split at hs
    · cases hs
    · next hc _ =>
      cases hs
      exact ⟨t, _, ht, rfl, rfl, rfl, fun hf => nomatch hc.symm.trans hf⟩
    · obtain ⟨⟨pc, out⟩, hr, rfl⟩ := Option.map_eq_some_iff.mp hs
      exact ⟨t, pc, ht, rfl, rfl, rfl, fun _ => StreamPc.resume_eq_done hr⟩
    · obtain ⟨⟨pc, out⟩, hr, rfl⟩ := Option.map_eq_some_iff.mp hs
      exact ⟨t, pc, ht, rfl, rfl, rfl, fun _ => StreamPc.resume_eq_done hr⟩
    · cases hs

/-- The wake does not take a task out of its loop that is not cancelled: neither `get_container`
nor the start of the docker process nor the reading of a line has raised. -/
def NothingRaised (s : LogHub σ ι) : HubEvent σ ι → Prop
  | .wake id w => ∀ t ∈ s.created[id]?, t.cancelled = false → t.pc.raises w = false
  | _ => True

instance NothingRaised.decidable :
    ∀ (s : LogHub σ ι) (e : HubEvent σ ι), Decidable (s.NothingRaised e)
  | s, .wake id w =>
      inferInstanceAs (Decidable (∀ t ∈ s.created[id]?, t.cancelled = false → t.pc.raises w = false))
  | _, .setServices _ _ | _, .removeSubscriber _ | _, .drain _ => isTrue trivial

theorem Tabled.wake {id : Nat} {w : Wake} (h : Tabled s) (hs : s.wake id w = some s') :
    Tabled s' := by
  obtain ⟨t, pc, ht, hsub, htasks, hcreated, -⟩ := wake_effect hs
  have hlt := (List.getElem?_eq_some_iff.mp ht).1
  refine ⟨fun k => ?_, fun k => ?_, fun k j hj => ?_, fun j u hu hc => ?_⟩
  · rw [hsub, htasks, h.keys]
  · rw [subscribersOf, hsub]
    exact h.nonempty k
  · rw [htasks] at hj
    obtain ⟨u, hu, hservice, hc⟩ := h.current k j hj
    rw [hcreated]
    by_cases hij : id = j
    · subst hij
      obtain rfl := Option.some.inj (ht.symm.trans hu)
      exact ⟨_, List.getElem?_set_self hlt, hservice, hc⟩
    · exact ⟨u, (List.getElem?_set_ne hij).trans hu, hservice, hc⟩
  · rw [htasks]
    rw [hcreated] at hu
    by_cases hij : id = j
    · subst hij
      rw [List.getElem?_set_self hlt] at hu
      obtain rfl := Option.some.inj hu
      exact h.listed id t ht hc
    · rw [List.getElem?_set_ne hij] at hu
      exact h.listed j u hu hc

theorem Tabled.step {e : HubEvent σ ι} (h : Tabled s) (hs : s.step e = some s') : Tabled s' := by
  cases e with
  | setServices subscriber services =>
      cases hs
      exact h.setServices
  | removeSubscriber subscriber =>
      cases hs
      exact List.foldlRecOn s.subscribers.keys (fun s service => s.remove service subscriber) h
        fun _ h _ _ => h.remove
  | drain subscriber =>
      cases hs
      exact ⟨h.keys, h.nonempty, h.current, h.listed⟩
  | wake id w => exact h.wake hs

/-- A step leaves the current tasks live exactly if nothing is raised in one of them. -/
theorem Lively.step_iff {e : HubEvent σ ι} (h : Lively s) (hs : s.step e = some s') :
    Lively s' ↔ s.NothingRaised e := by
  cases e with
  | setServices subscriber services =>
      cases hs
      exact iff_of_true h.setServices trivial
  | removeSubscriber subscriber =>
      cases hs
      refine iff_of_true ?_ trivial
      exact List.foldlRecOn s.subscribers.keys (fun s service => s.remove service subscriber) h
        fun _ h _ _ => h.remove
  | drain subscriber =>
      cases hs
      exact iff_of_true h trivial
  | wake id w =>
      obtain ⟨t, pc, ht, -, -, hcreated, hdone⟩ := wake_effect hs
      have hlt := (List.getElem?_eq_some_iff.mp ht).1
      constructor
      · intro hl u hu hc
        obtain rfl := Option.some.inj (ht.symm.trans hu)
        have hpc : pc ≠ .done := by
          refine hl id { t with pc := pc } ?_ hc
          rw [hcreated]
          exact List.getElem?_set_self hlt
        rw [← Bool.not_eq_true, ← hdone hc]
        exact hpc
      · intro hq j u hu hc
        rw [hcreated] at hu
        by_cases hij : id = j
        · subst hij
          rw [List.getElem?_set_self hlt] at hu
          obtain rfl := Option.some.inj hu
          intro hpc
          have hr := (hdone hc).mp hpc
          rw [hq t ht hc] at hr
          cases hr
        · rw [List.getElem?_set_ne hij] at hu
          exact h j u hu hc

/-- A line that the current task of a service reads reaches everybody subscribed to it. -/
theorem line_received {id : Nat} {t : StreamTask σ} {raw text : String} {w : ι}
    (ht : s.created[id]? = some t) (hc : t.cancelled = false) (hpc : t.pc = .reading)
    (htext : lineText raw = some text) (hw : w ∈ s.subscribersOf t.service) :
    ∃ s', s.step (.wake id (.line raw)) = some s' ∧
      .line t.service text ∈ (s'.buffers w).entries := by
  obtain ⟨service, cancelled, pc⟩ := t
  obtain rfl : cancelled = false := hc
  obtain rfl : pc = .reading := hpc
  refine ⟨{ s with created := s.created.set id ⟨service, false, .reading⟩ }.publish service
    [.line service text], ?_, ?_⟩
  · simp [step, LogHub.wake, ht, StreamPc.resume, htext]
  · have hpush : (LogHub.publish { s with created := s.created.set id ⟨service, false, .reading⟩ }
        service [.line service text]).buffers w = (s.buffers w).push (.line service text) :=
      if_pos hw
    rw [hpush]
    exact Subscriber.mem_push _ _

theorem tabled_run {buffers : ι → Subscriber σ} {es : List (HubEvent σ ι)}
    (hr : exec step (init buffers) es = some s) : Tabled s :=
  invariant_of_step (fun _ _ _ h hs => h.step hs) tabled_init hr

/-- Every service with subscribers is streamed by exactly one live task and every other service by
none, in every state of a run, exactly if nothing is raised in a task that is not cancelled; then
a subscriber has such a task, and gets each line that it reads. -/
theorem streams_once_iff (buffers : ι → Subscriber σ) (es : List (HubEvent σ ι)) (s : LogHub σ ι)
    (hr : exec step (init buffers) es = some s) :
    (Always step StreamsOnce (init buffers) es ↔ Meets step NothingRaised (init buffers) es) ∧
      (Meets step NothingRaised (init buffers) es → ∀ service, ∀ w ∈ s.subscribersOf service,
        ∃ (id : Nat) (t : StreamTask σ), s.created[id]? = some t ∧ t.service = service ∧
          t.cancelled = false ∧ t.pc ≠ .done ∧ (t.pc = .reading → ∀ raw text,
            lineText raw = some text → ∃ s', s.step (.wake id (.line raw)) = some s' ∧
              .line service text ∈ (s'.buffers w).entries)) := by
  have hinit : Lively (init buffers) := lively_init
  constructor
  · refine always_iff_meets (fun _ _ _ h hs => Tabled.step h hs) (fun u e v hu ho hs => ?_)
      tabled_init (tabled_init.streamsOnce_iff.mpr hinit) hr
    rw [(hu.step hs).streamsOnce_iff]
    exact (hu.streamsOnce_iff.mp ho).step_iff hs
  · intro hm service w hw
    have htab := tabled_run hr
    have hl : Lively s :=
      invariant (fun _ _ _ h hq hs => (Lively.step_iff h hs).mpr hq) hinit hm hr
    have hmem := (htab.keys _).mp ((htab.nonempty service).mpr ⟨w, hw⟩)
    obtain ⟨id, hid⟩ := Option.isSome_iff_exists.mp (AList.lookup_isSome.mpr hmem)
    obtain ⟨t, ht, rfl, hc⟩ := htab.current service id hid
    exact ⟨id, t, ht, rfl, hc, hl id t ht hc, fun hpc raw text htext =>
      line_received ht hc hpc htext hw⟩

/-- The buffers that `logs_stream` makes. -/
def emptyBuffers : Nat → Subscriber String :=
  fun _ => ⟨2000, [], 0, false, by decide, Nat.zero_le _⟩

/-- Two subscribers, a container that ends and one that reads on. -/
def sharedRun : List (HubEvent String Nat) :=
  [.setServices 0 ["slam"], .wake 0 .start, .wake 0 (.lookup .found), .wake 0 (.spawned true),
    .setServices 1 ["slam", "navigation"], .wake 0 (.line "hello"), .wake 0 .eof, .wake 0 .exited,
    .removeSubscriber 0, .wake 0 .slept, .wake 0 (.lookup .notFound), .wake 1 .start]

theorem streams_once_shared : Always step StreamsOnce (init emptyBuffers) sharedRun := by
  obtain ⟨s, hs, -⟩ : ∃ s, exec step (init emptyBuffers) sharedRun = some s ∧ True :=
    exists_exec (by decide +kernel)
  exact (streams_once_iff emptyBuffers sharedRun s hs).1.mpr (by decide +kernel)

/-- `get_container` raises once: nothing streams the service any more, also for a subscriber that
comes later. -/
theorem stream_not_restarted : ∃ s : LogHub String Nat,
    exec step (init emptyBuffers) [.setServices 0 ["slam"], .wake 0 .start,
      .wake 0 (.lookup .raised), .setServices 1 ["slam"]] = some s ∧
      s.Settled ∧ ¬ s.StreamsOnce := by
  obtain ⟨s, hs, hset, hsub, hnone⟩ : ∃ s : LogHub String Nat,
      exec step (init emptyBuffers) [.setServices 0 ["slam"], .wake 0 .start,
        .wake 0 (.lookup .raised), .setServices 1 ["slam"]] = some s ∧
      (∀ t ∈ s.created, t.cancelled = true → t.pc = .done) ∧
      (s.subscribersOf "slam").Nonempty ∧ (s.streams "slam").length = 0 :=
    exists_exec (by decide +kernel)
  refine ⟨s, hs, hset, fun h => ?_⟩
  have h := h "slam"
  rw [hnone, if_pos hsub] at h
  cases h

end Operations

end LogHub

end MgRobot.SystemManager
