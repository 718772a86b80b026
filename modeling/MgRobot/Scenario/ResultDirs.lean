import Mathlib.Data.List.Nodup
import Mathlib.Data.List.Pairwise
import MgRobot.Lib.Words
import MgRobot.Scenario.RunPlan

/-!
# The result directories of a suite

The directories of the planned runs and of their retries differ exactly if the names of
the scenario files do, and no name is that of a retry of another one.
-/

namespace MgRobot.Scenario

set_option autoImplicit false

open MgRobot.Lib

/-! ## Paths -/

section Paths

variable {directory p q : String}

theorem slash_notMem_basename (path : String) : '/' ∉ (basename path).toList := by
  rw [basename, String.toList_ofList]
  intro h
  exact absurd (List.mem_rtakeWhile_imp h) (by simp)

theorem slash_notMem_splitextRoot (h : '/' ∉ p.toList) : '/' ∉ (splitextRoot p).toList := by
  unfold splitextRoot
  dsimp only
  split_ifs
  · exact h
  · rw [String.toList_ofList]
    exact fun hmem =>
      h ((List.rdropWhile_prefix _ _).subset ((List.dropLast_prefix _).subset hmem))

theorem slash_notMem_nameOf (path : String) : '/' ∉ (nameOf path).toList :=
  slash_notMem_splitextRoot (slash_notMem_basename path)

theorem slash_notMem_append (hp : '/' ∉ p.toList) (hq : '/' ∉ q.toList) :
    '/' ∉ (p ++ q).toList := by
  rw [String.toList_append, List.mem_append, not_or]
  exact ⟨hp, hq⟩

theorem head_ne_slash (h : '/' ∉ p.toList) : p.toList.head? ≠ some '/' :=
  fun heq => h (List.mem_of_head? heq)

theorem joinPath_eq (h : '/' ∉ p.toList) : joinPath directory p =
    (if directory.toList.getLast?.all fun c => c = '/' then directory else directory ++ "/") ++ p := by
  rw [joinPath, if_neg (head_ne_slash h)]
  split_ifs <;> rfl

theorem joinPath_inj (hp : '/' ∉ p.toList) (hq : '/' ∉ q.toList) :
    joinPath directory p = joinPath directory q ↔ p = q := by
  rw [joinPath_eq hp, joinPath_eq hq, String.append_right_inj]

end Paths

/-! ## Names -/

/-- The last part of the directory of an attempt. -/
def attemptName (args : PlanArgs) (k : Nat) (name : String) (attempt : Nat) : String :=
  attemptDir (name ++ repeatSuffix args k) attempt

section Names

variable {args : PlanArgs} {k k' attempt attempt' : Nat} {name name' : String}

theorem slash_notMem_attemptDir {dir : String} (h : '/' ∉ dir.toList) :
    '/' ∉ (attemptDir dir attempt).toList := by
  unfold attemptDir
  split_ifs
  · exact h
  · exact slash_notMem_append (slash_notMem_append h (by decide))
      (Numbered.notMem_toString (by decide))

theorem slash_notMem_repeat (h : '/' ∉ name.toList) :
    '/' ∉ (name ++ repeatSuffix args k).toList := by
  unfold repeatSuffix
  split_ifs
  · exact slash_notMem_append h
      (slash_notMem_append (by decide) (Numbered.notMem_toString (by decide)))
  · exact slash_notMem_append h (by decide)

theorem slash_notMem_attemptName (h : '/' ∉ name.toList) :
    '/' ∉ (attemptName args k name attempt).toList :=
  slash_notMem_attemptDir (slash_notMem_repeat h)

theorem attemptDir_joinPath {directory p : String} (h : '/' ∉ p.toList) :
    attemptDir (joinPath directory p) attempt = joinPath directory (attemptDir p attempt) := by
  rw [joinPath_eq h, joinPath_eq (slash_notMem_attemptDir h)]
  unfold attemptDir
  split_ifs <;> simp [String.append_assoc]

theorem attemptDir_inj {dir dir' : String} (hpos : 0 < attempt) (hpos' : 0 < attempt') :
    attemptDir dir attempt = attemptDir dir' attempt' ↔ dir = dir' ∧ attempt = attempt' := by
  rw [attemptDir, attemptDir, if_neg hpos.ne', if_neg hpos'.ne',
    Numbered.append_toString_inj (by simp) (by simp), String.append_left_inj]

/-- A name with `_run` and a number does not end in `_retry` and a number. -/
theorem run_ne_retry : name ++ ("_run" ++ toString k) ≠ name' ++ "_retry" ++ toString attempt := by
  rw [← String.append_assoc]
  intro h
  obtain ⟨hstem, -⟩ := (Numbered.append_toString_inj (by simp) (by simp)).mp h
  have hlast := congrArg (fun s => s.toList.getLast?) hstem
  simp at hlast

/-- In a plan with repetitions the names tell the attempts apart. -/
theorem attemptName_inj_of_repeat (h : 1 < args.repeatCount) :
    attemptName args k name attempt = attemptName args k' name' attempt' ↔
      name = name' ∧ k = k' ∧ attempt = attempt' := by
  constructor
  · unfold attemptName repeatSuffix
    rw [if_pos h, if_pos h]
    intro heq
    have hruns : name ++ ("_run" ++ toString (k + 1)) = name' ++ ("_run" ++ toString (k' + 1)) →
        name = name' ∧ k = k' := by
      rw [← String.append_assoc, ← String.append_assoc,
        Numbered.append_toString_inj (by simp) (by simp), String.append_left_inj, Nat.succ_inj]
      exact id
    rcases Nat.eq_zero_or_pos attempt with rfl | hpos
    · rcases Nat.eq_zero_or_pos attempt' with rfl | hpos'
      · obtain ⟨hname, hk⟩ := hruns heq
        exact ⟨hname, hk, rfl⟩
      · rw [attemptDir, if_pos rfl, attemptDir, if_neg hpos'.ne'] at heq
        exact absurd heq run_ne_retry
    · rcases Nat.eq_zero_or_pos attempt' with rfl | hpos'
      · rw [attemptDir, if_neg hpos.ne', attemptDir, if_pos rfl] at heq
        exact absurd heq.symm run_ne_retry
      · obtain ⟨hdir, hattempt⟩ := (attemptDir_inj hpos hpos').mp heq
        obtain ⟨hname, hk⟩ := hruns hdir
        exact ⟨hname, hk, hattempt⟩
  · rintro ⟨rfl, rfl, rfl⟩
    rfl

/-- Without repetitions a name may be that of a retry of another one. -/
theorem attemptName_inj_of_once (h : ¬ 1 < args.repeatCount) :
    attemptName args k name attempt = attemptName args k' name' attempt' ↔
      name = name' ∧ attempt = attempt' ∨
        (attempt = 0 ∧ 0 < attempt' ∧ name = name' ++ "_retry" ++ toString attempt') ∨
          (0 < attempt ∧ attempt' = 0 ∧ name ++ "_retry" ++ toString attempt = name') := by
  have hsuffix : ∀ j, repeatSuffix args j = "" := fun j => if_neg h
  unfold attemptName
  rw [hsuffix, hsuffix, String.append_empty, String.append_empty]
  rcases Nat.eq_zero_or_pos attempt with rfl | hpos
  · rcases Nat.eq_zero_or_pos attempt' with rfl | hpos'
    · simp [attemptDir]
    · rw [attemptDir, if_pos rfl, attemptDir, if_neg hpos'.ne']
      simp [hpos', hpos'.ne]
  · rcases Nat.eq_zero_or_pos attempt' with rfl | hpos'
    · rw [attemptDir, if_neg hpos.ne', attemptDir, if_pos rfl]
      simp [hpos, hpos.ne']
    · rw [attemptDir_inj hpos hpos']
      simp [hpos.ne', hpos'.ne']

end Names

/-! ## The plan -/

/-- The directories of a run: of its first attempt and of its retries. -/
def resultDirs (args : PlanArgs) (run : PlannedRun) : List String :=
  (List.range (args.infraRetries.toNat + 1)).map (attemptDir run.outDir)

/-- No two runs or retries of a suite have one directory. -/
def KeepsApart (args : PlanArgs) (scenarios : List String) : Prop :=
  ((planned args scenarios).flatMap (resultDirs args)).Nodup

instance (args : PlanArgs) (scenarios : List String) : Decidable (KeepsApart args scenarios) :=
  inferInstanceAs (Decidable (List.Nodup _))

section Plan

variable {args : PlanArgs} {scenarios : List String} {k k' : Nat}

theorem attemptDir_injective (dir : String) : Function.Injective (attemptDir dir) := by
  have hlonger : ∀ a, 0 < a → attemptDir dir a ≠ dir := by
    intro a ha h
    rw [attemptDir, if_neg ha.ne'] at h
    have hlength := congrArg (fun s => s.toList.length) h
    simp at hlength
  intro a b h
  rcases Nat.eq_zero_or_pos a with rfl | ha
  · rcases Nat.eq_zero_or_pos b with rfl | hb
    · rfl
    · exact absurd h.symm (hlonger b hb)
  · rcases Nat.eq_zero_or_pos b with rfl | hb
    · exact absurd h (hlonger a ha)
    · exact ((attemptDir_inj ha hb).mp h).2

theorem mem_resultDirs {path dir : String} : dir ∈ resultDirs args (plannedRun args k path) ↔
    ∃ a ≤ args.infraRetries.toNat,
      joinPath args.resultsDir (attemptName args k (nameOf path) a) = dir := by
  have hslash : '/' ∉ (nameOf path ++ repeatSuffix args k).toList :=
    slash_notMem_repeat (slash_notMem_nameOf path)
  have hdir : ∀ a, attemptDir (plannedRun args k path).outDir a =
      joinPath args.resultsDir (attemptName args k (nameOf path) a) := by
    intro a
    rw [plannedRun, attemptName, attemptDir_joinPath hslash]
  rw [resultDirs, List.mem_map]
  refine exists_congr fun a => ?_
  rw [List.mem_range, Nat.lt_succ_iff, hdir]

/-- No attempt of one run has the name of an attempt of the other. -/
def NamesApart (args : PlanArgs) (k k' : Nat) (path path' : String) : Prop :=
  ∀ a ≤ args.infraRetries.toNat, ∀ a' ≤ args.infraRetries.toNat,
    attemptName args k (nameOf path) a ≠ attemptName args k' (nameOf path') a'

instance (args : PlanArgs) (k : Nat) : Std.Symm (NamesApart args k k) where
  symm _ _ h a ha a' ha' heq := h a' ha' a ha heq.symm

/-- Two runs keep apart if the names of their attempts differ. -/
theorem disjoint_resultDirs_iff {path path' : String} :
    List.Disjoint (resultDirs args (plannedRun args k path))
        (resultDirs args (plannedRun args k' path')) ↔ NamesApart args k k' path path' := by
  have hslash : ∀ j p a, '/' ∉ (attemptName args j (nameOf p) a).toList := fun j p a =>
    slash_notMem_attemptName (slash_notMem_nameOf p)
  constructor
  · intro h a ha a' ha' heq
    exact h (mem_resultDirs.mpr ⟨a, ha, rfl⟩)
      (mem_resultDirs.mpr ⟨a', ha', (joinPath_inj (hslash _ _ _) (hslash _ _ _)).mpr heq.symm⟩)
  · intro h dir hdir hdir'
    obtain ⟨a, ha, rfl⟩ := mem_resultDirs.mp hdir
    obtain ⟨a', ha', heq⟩ := mem_resultDirs.mp hdir'
    exact h a ha a' ha' ((joinPath_inj (hslash _ _ _) (hslash _ _ _)).mp heq.symm)

/-- Every two runs of a plan keep apart. -/
theorem keepsApart_iff_pairwise : KeepsApart args scenarios ↔
    (∀ k < args.repeatCount.toNat, scenarios.Pairwise (NamesApart args k k)) ∧
      (List.range args.repeatCount.toNat).Pairwise fun k k' =>
        ∀ path ∈ scenarios, ∀ path' ∈ scenarios, NamesApart args k k' path path' := by
  have hself : ∀ run ∈ planned args scenarios, (resultDirs args run).Nodup := fun run _ =>
    List.nodup_range.map (attemptDir_injective run.outDir)
  rw [KeepsApart, List.nodup_flatMap, and_iff_right hself, planned, List.pairwise_flatMap]
  simp only [List.pairwise_map, List.mem_map, List.mem_range, Function.onFun,
    forall_exists_index, and_imp, forall_apply_eq_imp_iff₂, disjoint_resultDirs_iff]

theorem keepsApart_of_nonpos (h : args.repeatCount ≤ 0) : KeepsApart args scenarios := by
  rw [keepsApart_iff_pairwise, Int.toNat_of_nonpos h]
  exact ⟨fun k hk => absurd hk (Nat.not_lt_zero k), List.Pairwise.nil⟩

theorem keepsApart_iff_of_repeat (h : 1 < args.repeatCount) :
    KeepsApart args scenarios ↔ (scenarios.map nameOf).Nodup := by
  rw [keepsApart_iff_pairwise, List.Nodup, List.pairwise_map]
  constructor
  · intro hapart
    refine (hapart.1 0 (by omega)).imp fun hnames hname => ?_
    refine hnames 0 (Nat.zero_le _) 0 (Nat.zero_le _) ?_
    rw [hname]
  · intro hnames
    refine ⟨fun k _ => hnames.imp fun hne a _ a' _ heq => ?_, ?_⟩
    · exact hne ((attemptName_inj_of_repeat h).mp heq).1
    · refine List.pairwise_lt_range.imp fun hlt path _ path' _ a _ a' _ heq => ?_
      exact hlt.ne ((attemptName_inj_of_repeat h).mp heq).2.1

theorem keepsApart_iff_of_once (h : args.repeatCount = 1) :
    KeepsApart args scenarios ↔ (scenarios.map nameOf).Nodup ∧
      ∀ a : Nat, 0 < a → a ≤ args.infraRetries → ∀ name ∈ scenarios.map nameOf,
        name ++ "_retry" ++ toString a ∉ scenarios.map nameOf := by
  have honce : ¬ 1 < args.repeatCount := by omega
  have hrange : args.repeatCount.toNat = 1 := by omega
  rw [keepsApart_iff_pairwise, hrange, List.Nodup, List.pairwise_map]
  constructor
  · intro hapart
    have hpairs := hapart.1 0 Nat.one_pos
    refine ⟨hpairs.imp fun hnames hname => ?_, ?_⟩
    · refine hnames 0 (Nat.zero_le _) 0 (Nat.zero_le _) ?_
      rw [hname]
    · intro a ha hle name hname hretry
      obtain ⟨path, hpath, rfl⟩ := List.mem_map.mp hname
      obtain ⟨path', hpath', heq⟩ := List.mem_map.mp hretry
      -- the retry of `path` has the directory of the first attempt of `path'`
      have hsame : attemptName args 0 (nameOf path) a = attemptName args 0 (nameOf path') 0 :=
        (attemptName_inj_of_once honce).mpr (.inr (.inr ⟨ha, rfl, heq.symm⟩))
      have hne : path ≠ path' := by
        rintro rfl
        have hlength := congrArg (fun s => s.toList.length) heq
        simp at hlength
      exact hpairs.forall hpath hpath' hne a (by omega) 0 (Nat.zero_le _) hsame
  · rintro ⟨hnames, hretry⟩
    refine ⟨fun k _ => ?_, List.pairwise_singleton _ _⟩
    refine hnames.imp_of_mem fun {path path'} hpath hpath' hne a ha a' ha' heq => ?_
    have hmem := List.mem_map_of_mem (f := nameOf) hpath
    have hmem' := List.mem_map_of_mem (f := nameOf) hpath'
    rcases (attemptName_inj_of_once honce).mp heq with ⟨hname, -⟩ | ⟨-, hpos, hname⟩ | ⟨hpos, -, hname⟩
    · exact hne hname
    · rw [hname] at hmem
      exact hretry a' hpos (by omega) _ hmem' hmem
    · rw [← hname] at hmem'
      exact hretry a hpos (by omega) _ hmem hmem'

/-- The directories differ exactly if the scenario files have different names and, without
repetitions, no name is another one followed by `_retry` and the number of a retry. -/
theorem keepsApart_iff (args : PlanArgs) (scenarios : List String) :
    KeepsApart args scenarios ↔ args.repeatCount ≤ 0 ∨
      (scenarios.map nameOf).Nodup ∧ (args.repeatCount = 1 → ∀ a : Nat, 0 < a →
        a ≤ args.infraRetries → ∀ name ∈ scenarios.map nameOf,
          name ++ "_retry" ++ toString a ∉ scenarios.map nameOf) := by
  rcases le_or_gt args.repeatCount 0 with hnone | hpos
  · exact iff_of_true (keepsApart_of_nonpos hnone) (.inl hnone)
  · rw [or_iff_right hpos.not_ge]
    rcases (show (1 : Int) ≤ args.repeatCount from hpos).lt_or_eq with hmany | hone
    · rw [keepsApart_iff_of_repeat hmany]
      exact (and_iff_left fun hone => absurd hone hmany.ne').symm
    · rw [keepsApart_iff_of_once hone.symm]
      exact and_congr_right fun _ => ⟨fun hretry _ => hretry, fun hretry => hretry hone.symm⟩

/-- Two files of one name in different directories share their result directory; and the retry of
`door` writes to the directory of `door_retry1`. -/
theorem not_keepsApart :
    ¬ KeepsApart ⟨"results", 1, 1⟩ ["regression/door.yaml", "examples/door.yaml"] ∧
      ¬ KeepsApart ⟨"results", 1, 1⟩ ["regression/door.yaml", "regression/door_retry1.yaml"] := by
  decide +kernel

/-! ## The attempts that are made -/

/-- The attempts go through the directories of the run in order. -/
theorem prefix_attempts (results : Nat → RunRecord) (outDir : String) (n attempt : Nat) :
    (attempts results outDir n attempt).1 <+: (List.range' attempt n).map (attemptDir outDir) := by
  induction n generalizing attempt with
  | zero => exact List.prefix_rfl
  | succ n ih =>
      rw [attempts, List.range'_succ, List.map_cons]
      dsimp only
      split_ifs
      · exact List.cons_prefix_cons.mpr ⟨rfl, ih (attempt + 1)⟩
      · exact List.cons_prefix_cons.mpr ⟨rfl, List.nil_prefix⟩

/-- A run of which an attempt is made has a record. -/
theorem attempts_isSome (results : Nat → RunRecord) (outDir : String) {n : Nat} (hn : 0 < n)
    (attempt : Nat) : (attempts results outDir n attempt).2.isSome = true := by
  induction n generalizing attempt with
  | zero => exact absurd hn (Nat.lt_irrefl 0)
  | succ n ih =>
      rw [attempts]
      dsimp only
      split_ifs with hretry
      · exact ih hretry.2 (attempt + 1)
      · rfl

theorem used_sublist (args : PlanArgs) (results : Nat → Nat → RunRecord) (runs : List PlannedRun) :
    ((runAll args results runs).flatMap Prod.fst).Sublist (runs.flatMap (resultDirs args)) := by
  induction runs generalizing results with
  | nil => exact List.Sublist.refl _
  | cons run rest ih =>
      rw [runAll, List.mapIdx_cons, List.flatMap_cons, List.flatMap_cons]
      refine List.Sublist.append ?_ (ih fun index => results (index + 1))
      refine (prefix_attempts (results 0) run.outDir _ 0).sublist.trans (List.Sublist.map _ ?_)
      rw [← List.range_eq_range']
      exact List.range_sublist.mpr (by omega)

/-- Whatever the runs yield, the directories used in a suite that keeps its runs apart are
different. -/
theorem KeepsApart.used_nodup (h : KeepsApart args scenarios) (results : Nat → Nat → RunRecord) :
    ((runAll args results (planned args scenarios)).flatMap Prod.fst).Nodup :=
  h.sublist (used_sublist args results _)

/-- The records have one entry for every planned run. -/
theorem runAll_records (hretries : 0 ≤ args.infraRetries) (results : Nat → Nat → RunRecord)
    (runs : List PlannedRun) :
    (runAll args results runs).length = runs.length ∧
      ∀ entry ∈ runAll args results runs, entry.2.isSome = true := by
  refine ⟨List.length_mapIdx, fun entry hentry => ?_⟩
  obtain ⟨i, hi, rfl⟩ := List.mem_mapIdx.mp hentry
  exact attempts_isSome _ _ (by omega) 0

end Plan

end MgRobot.Scenario
