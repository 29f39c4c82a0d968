import HouseStyle.Proofs.Project.Listed
import HouseStyle.Proofs.Project.Restriction
import HouseStyle.Proofs.Project.SharedScan
import HouseStyle.Proofs.Survey.Steps
import Mathlib.Logic.Relation

/-!
# Reading files in any order

The files of a language are read one after another, or several of them at the same time.  What the
reading of a file gives is noted when it ends, with the position of the file.  The law of a step is
that what is noted and what is still to be noted are together a permutation of what they were
(`Schedule.Step.perm`), so when nothing is left to read every file has given its result once
(`Schedule.Completes.perm`).

The results are put at their positions, which makes the order forgotten in which they were noted
(`Schedule.Completes.placed_eq`), and then into the order of the paths as they are shown.  Different
files have different paths, but these may look the same if they are no texts.  Then they keep the
order of their positions.  So the facts about a language, and with them the profile that is
learned, do not depend on how the files were read, and every file is represented in the facts or
counted as skipped.
-/

namespace HouseStyle

/-! ### The reading of some files -/

/-- How far the reading of some files is. -/
structure Schedule where
  /-- The files that are still to be read, with their positions. -/
  waiting : List (ProjectFile × Nat)
  /-- The files that are being read. -/
  running : List (ProjectFile × Nat)
  /-- What was noted, with the positions of the files. -/
  results : List (Option FileFacts × Nat)

namespace Schedule

/-- The reading of some files, before it starts. -/
def ofFiles (files : List ProjectFile) : Schedule := ⟨files.zipIdx, [], []⟩

/-- The reading of some files, when all of them are read. -/
def done (results : List (Option FileFacts × Nat)) : Schedule := ⟨[], [], results⟩

/-- What is noted of a file. -/
def note (l : Language) (x : ProjectFile × Nat) : Option FileFacts × Nat := (x.1.facts? l, x.2)

/-- A step of the reading of files in a language.  Unless files may be read at the same time, the
next one is started when nothing is being read. -/
inductive Step (parallel : Bool) (l : Language) : Schedule → Schedule → Prop
  /-- A file is started. -/
  | start (before behind : List (ProjectFile × Nat)) (f : ProjectFile × Nat)
    (running : List (ProjectFile × Nat)) (results : List (Option FileFacts × Nat))
    (h : parallel = true ∨ before = [] ∧ running = []) :
    Step parallel l ⟨before ++ f :: behind, running, results⟩
      ⟨before ++ behind, f :: running, results⟩
  /-- A file is finished. -/
  | finish (waiting before behind : List (ProjectFile × Nat)) (f : ProjectFile × Nat)
    (results : List (Option FileFacts × Nat)) :
    Step parallel l ⟨waiting, before ++ f :: behind, results⟩
      ⟨waiting, before ++ behind, results ++ [note l f]⟩

/-- Any number of steps. -/
abbrev Runs (parallel : Bool) (l : Language) : Schedule → Schedule → Prop :=
  Relation.ReflTransGen (Step parallel l)

/-- Whether the reading of some files can end with some results. -/
def Completes (parallel : Bool) (l : Language) (files : List ProjectFile)
    (results : List (Option FileFacts × Nat)) : Prop :=
  Runs parallel l (ofFiles files) (done results)

/-- The results at their positions. -/
def placed (results : List (Option FileFacts × Nat)) : List (Option FileFacts) :=
  (results.mergeSort fun a b => decide (a.2 ≤ b.2)).map Prod.fst

/-- What was noted and what will be. -/
def outcome (l : Language) (r : Schedule) : List (Option FileFacts × Nat) :=
  r.results ++ (r.running ++ r.waiting).map (note l)

/-- The number of steps that are left. -/
def stepsLeft (r : Schedule) : Nat := 2 * r.waiting.length + r.running.length

variable {parallel : Bool} {l : Language} {r r' : Schedule} {files : List ProjectFile}
  {results : List (Option FileFacts × Nat)}

lemma Step.perm (h : Step parallel l r r') : (r.outcome l).Perm (r'.outcome l) := by
  cases h with
  | start before behind f running results h =>
    refine (List.Perm.map _ ?_).append_left results
    rw [← List.append_assoc, List.cons_append, ← List.append_assoc]
    exact List.perm_middle
  | finish waiting before behind f results =>
    simp only [outcome, List.append_assoc, List.cons_append, List.map_append, List.map_cons,
      List.nil_append]
    exact List.perm_middle.append_left results

lemma Runs.perm (h : Runs parallel l r r') : (r.outcome l).Perm (r'.outcome l) := by
  induction h with
  | refl => exact .refl _
  | tail _ hstep ih => exact ih.trans hstep.perm

/-- Each file has given its result when all of them are read. -/
theorem Completes.perm (h : Completes parallel l files results) :
    results.Perm (files.zipIdx.map (note l)) := by
  have hperm := Runs.perm h
  simp only [outcome, ofFiles, done, List.nil_append, List.map_nil, List.append_nil] at hperm
  exact hperm.symm

/-- The results are at the positions of their files, in whatever order they were noted. -/
theorem Completes.placed_eq (h : Completes parallel l files results) :
    placed results = files.map (ProjectFile.facts? l) := by
  have hfst : (files.zipIdx.map (note l)).map Prod.fst = files.map (ProjectFile.facts? l) := by
    rw [List.map_map, ← List.zipIdx_map_fst 0 files, List.map_map, List.zipIdx_map_fst]
    rfl
  have hsnd : (files.zipIdx.map (note l)).map Prod.snd = List.range files.length := by
    rw [List.map_map, List.range_eq_range', ← List.zipIdx_map_snd 0 files]
    rfl
  have hpositions : (files.zipIdx.map (note l)).Pairwise fun a b => a.2 < b.2 := by
    rw [← List.pairwise_map (f := Prod.snd) (R := (· < ·)), hsnd]
    exact List.pairwise_lt_range
  have hsorted : (files.zipIdx.map (note l)).mergeSort (fun a b => decide (a.2 ≤ b.2))
      = files.zipIdx.map (note l) :=
    List.mergeSort_of_pairwise (hpositions.imp fun hlt => decide_eq_true (Nat.le_of_lt hlt))
  have hnodup : ((files.zipIdx.map (note l)).map Prod.snd).Nodup := by
    rw [hsnd]
    exact List.nodup_range
  rw [placed, ← hfst, ← hsorted]
  refine congrArg _ (mergeSort_congr (fun a b c hab hbc => ?_) (fun a b => ?_) h.perm
    fun a ha b hb hab hba => ?_)
  · rw [decide_eq_true_eq] at hab hbc ⊢
    exact Nat.le_trans hab hbc
  · rw [decide_eq_true_eq, decide_eq_true_eq]
    exact Nat.le_total _ _
  · rw [decide_eq_true_eq] at hab hba
    exact List.inj_on_of_nodup_map hnodup (h.perm.mem_iff.1 ha) (h.perm.mem_iff.1 hb)
      (Nat.le_antisymm hab hba)

lemma Step.stepsLeft_lt (h : Step parallel l r r') : r'.stepsLeft < r.stepsLeft := by
  cases h <;> simp only [stepsLeft, List.length_append, List.length_cons] <;> omega

/-- Something can be done until all files are read. -/
lemma eq_done_or_exists_step (parallel : Bool) (l : Language) (r : Schedule) :
    r = done r.results ∨ ∃ r', Step parallel l r r' := by
  obtain ⟨waiting, running, results⟩ := r
  cases running with
  | cons f behind => exact Or.inr ⟨_, .finish waiting [] behind f results⟩
  | nil =>
    cases waiting with
    | cons f behind => exact Or.inr ⟨_, .start [] behind f [] results (Or.inr ⟨rfl, rfl⟩)⟩
    | nil => exact Or.inl rfl

/-- Whatever was done so far, the reading can go on to its end. -/
theorem exists_runs_done (parallel : Bool) (l : Language) (r : Schedule) :
    ∃ results, Runs parallel l r (done results) := by
  induction hn : r.stepsLeft using Nat.strong_induction_on generalizing r with
  | _ n ih =>
    rcases eq_done_or_exists_step parallel l r with hdone | ⟨r', hstep⟩
    · rw [hdone]
      exact ⟨_, .refl⟩
    · obtain ⟨results, hruns⟩ := ih r'.stepsLeft (hn ▸ hstep.stepsLeft_lt) r' rfl
      exact ⟨results, .head hstep hruns⟩

/-- Files that may be read at the same time can be finished in any order. -/
theorem runs_of_perm (l : Language) {files order : List (ProjectFile × Nat)}
    (h : files.Perm order) (results : List (Option FileFacts × Nat)) :
    Runs true l ⟨files, [], results⟩ (done (results ++ order.map (note l))) := by
  induction order generalizing files results with
  | nil =>
    rw [h.eq_nil, List.map_nil, List.append_nil]
    exact .refl
  | cons f order ih =>
    obtain ⟨before, behind, rfl⟩ := List.append_of_mem (h.mem_iff.2 List.mem_cons_self)
    have hrest : (before ++ behind).Perm order :=
      (List.perm_middle.symm.trans h).cons_inv
    have hlater := ih hrest (results ++ [note l f])
    rw [List.append_assoc, List.singleton_append] at hlater
    exact .head (.start before behind f [] results (Or.inl rfl))
      (.head (.finish (before ++ behind) [] [] f results) hlater)

end Schedule

/-! ### What is gathered -/

namespace Survey

lemma decide_path_trans (a b c : FileFacts) (hab : decide (a.path ≤ b.path) = true)
    (hbc : decide (b.path ≤ c.path) = true) : decide (a.path ≤ c.path) = true := by
  rw [decide_eq_true_eq] at hab hbc ⊢
  exact String.le_trans hab hbc

lemma decide_path_total (a b : FileFacts) :
    (decide (a.path ≤ b.path) || decide (b.path ≤ a.path)) = true := by
  rw [Bool.or_eq_true_iff, decide_eq_true_eq, decide_eq_true_eq]
  exact String.le_total _ _

/-- Whether some facts and a number of skipped files account for some files: the files have
different paths and the facts stand in the order of these as they are shown, each file of which
something is known is represented once and by what is known of it, and the others are counted.
Files with paths that look the same keep their order. -/
structure Accounts (l : Language) (files : List ProjectFile) (found : List FileFacts × Nat) :
    Prop where
  distinct : (files.map ProjectFile.path).Nodup
  ascending : found.1.Pairwise fun f g => f.path ≤ g.path
  represented : found.1.Perm (files.filterMap (ProjectFile.facts? l))
  alike : ∀ path : String, found.1.filter (fun g => g.path == path)
    = (files.filter fun f => f.path.text == path).filterMap (ProjectFile.facts? l)
  skipped : found.2 = files.countP fun f => (f.facts? l).isNone
  total : found.1.length + found.2 = files.length

/-- Whether the facts about some files can be told apart by the paths that are shown: these are
strictly ascending, and under the path of each file stands what is known of it. -/
structure ToldApart (l : Language) (files : List ProjectFile) (found : List FileFacts) :
    Prop where
  ascending : found.Pairwise fun f g => f.path < g.path
  represented : ∀ f ∈ files,
    found.filter (fun g => g.path == f.path.text) = (f.facts? l).toList

variable {l : Language} {files : List ProjectFile}

lemma survey_perm (l : Language) (files : List ProjectFile) :
    (Workload.mk l files).survey.1.Perm (files.filterMap (ProjectFile.facts? l)) := by
  rw [Workload.survey, gather, List.filterMap_map, Function.id_comp]
  exact List.mergeSort_perm _ _

/-- What is known of the files with some path stands in the order of these files. -/
lemma filter_path_survey (l : Language) (files : List ProjectFile) (path : String) :
    (Workload.mk l files).survey.1.filter (fun g => g.path == path)
      = (files.filter fun f => f.path.text == path).filterMap (ProjectFile.facts? l) := by
  have hfound : (files.filter fun f => f.path.text == path).filterMap (ProjectFile.facts? l)
      = (files.filterMap (ProjectFile.facts? l)).filter fun g => g.path == path := by
    rw [List.filterMap_filter, List.filter_filterMap]
    refine List.filterMap_congr fun f _ => ?_
    cases hfacts : f.facts? l with
    | none => simp
    | some g => simp [ProjectFile.path_of_facts? hfacts, Option.filter, beq_iff_eq]
  have hperm := (survey_perm l files).filter fun g => g.path == path
  -- the facts with one path are in order as they are, and sorting keeps them so
  have hsorted : ((files.filterMap (ProjectFile.facts? l)).filter fun g => g.path == path).Sublist
      (Workload.mk l files).survey.1 := by
    rw [Workload.survey, gather, List.filterMap_map, Function.id_comp]
    refine List.sublist_mergeSort decide_path_trans decide_path_total ?_ List.filter_sublist
    refine List.pairwise_of_forall_mem_list fun a ha b hb => decide_eq_true ?_
    have heq : a.path = b.path :=
      (beq_iff_eq.1 (List.mem_filter.1 ha).2).trans (beq_iff_eq.1 (List.mem_filter.1 hb).2).symm
    exact heq ▸ String.le_refl a.path
  have hsub := hsorted.filter fun g => g.path == path
  rw [List.filter_filter] at hsub
  simp only [Bool.and_self] at hsub
  rw [hfound]
  exact (hsub.eq_of_length hperm.length_eq.symm).symm

/-- Nothing is lost of files with different paths. -/
theorem accounts_survey (h : (files.map ProjectFile.path).Nodup) :
    Accounts l files (Workload.mk l files).survey := by
  have hskipped : (Workload.mk l files).survey.2 = files.countP fun f => (f.facts? l).isNone := by
    rw [Workload.survey, gather, List.countP_map]
    rfl
  refine ⟨h, ?_, survey_perm l files, filter_path_survey l files, hskipped, ?_⟩
  · exact (List.pairwise_mergeSort decide_path_trans decide_path_total _).imp of_decide_eq_true
  · have hlength : (Workload.mk l files).survey.1.length
        = files.countP fun f => (f.facts? l).isSome := by
      rw [(survey_perm l files).length_eq, List.length_filterMap_eq_countP]
    have hnot : (fun f : ProjectFile => decide ¬(f.facts? l).isSome = true)
        = fun f => (f.facts? l).isNone := by
      funext f
      cases f.facts? l <;> rfl
    rw [hlength, hskipped, List.length_eq_countP_add_countP fun f => (f.facts? l).isSome, hnot]

/-- If all paths look different, then the facts can be told apart by them. -/
theorem Accounts.toldApart {found : List FileFacts × Nat} (h : Accounts l files found)
    (htexts : (files.map fun f => f.path.text).Nodup) : ToldApart l files found.1 := by
  have hpaths : (found.1.map FileFacts.path).Nodup := by
    refine (h.represented.map _).nodup_iff.2 (List.pairwise_map.2 ?_)
    refine (List.pairwise_map.1 htexts).filterMap _ fun f g hne a ha b hb heq => hne ?_
    rwa [ProjectFile.path_of_facts? ha, ProjectFile.path_of_facts? hb] at heq
  refine ⟨(h.ascending.and (List.pairwise_map.1 hpaths)).imp fun hfg =>
    Std.lt_of_le_of_ne hfg.1 hfg.2, fun f hf => ?_⟩
  -- no other file looks like this one
  have hown : files.filter (fun f' => f'.path.text == f.path.text) = [f] := by
    refine List.perm_singleton.1 ((List.perm_ext_iff_of_nodup
      (htexts.of_map.filter _) (List.nodup_singleton f)).2 fun f' => ?_)
    rw [List.mem_filter, beq_iff_eq, List.mem_singleton]
    refine ⟨fun ⟨hf', heq⟩ => List.inj_on_of_nodup_map htexts hf' hf heq, ?_⟩
    rintro rfl
    exact ⟨hf, rfl⟩
  rw [h.alike, hown]
  cases hfacts : f.facts? l <;> simp [hfacts]

end Survey

lemma Schedule.Completes.gather_eq {parallel : Bool} {w : Workload}
    {results : List (Option FileFacts × Nat)} (h : Completes parallel w.language w.files results) :
    Survey.gather (placed results) = w.survey := by
  rw [h.placed_eq, Workload.survey]

/-! ### Projects -/

namespace ProjectTree

variable {α : Type} [Scalar α] [NumberText α]

/-- Whether learning a profile can give a result when the files are read in some order. -/
def CanLearn (p : ProjectTree) (s : Settings α) (now : α)
    (result : Except (ProjectFault α) (Profile α)) : Prop :=
  match p.mainWork .sound s with
  | .error fault => result = .error fault
  | .ok (w, layout) => ∃ results, Schedule.Completes s.parallel w.language w.files results ∧
      let found := Survey.gather (Schedule.placed results)
      result = .ok (Profile.learn s.leastConfidence now
        (Analysis.ofFiles s.acceptance w.language.id found.1 found.2 layout) layout)

variable {p : ProjectTree} {s : Settings α} {now : α}

omit [Scalar α] [NumberText α] in
/-- The files that are read of a language are told apart by whatever tells the files of the
project apart. -/
lemma nodup_collect {γ : Type} {what : ProjectFile → γ} (h : (p.files.map what).Nodup)
    (x : Exclusion) (limit : Option Nat) (l : Language) :
    ((p.collect x limit l).map what).Nodup := by
  have hall : ((p.collect x none l).map what).Nodup := by
    refine ((List.mergeSort_perm _ _).map _).nodup_iff.2 (h.sublist (List.Sublist.map _ ?_))
    exact List.filter_sublist.trans List.filter_sublist
  cases limit with
  | none => exact hall
  | some n =>
    rw [collect_some]
    exact hall.sublist ((List.take_sublist _ _).map _)

/-- The order in which files are read does not matter for learning. -/
lemma canLearn_iff {result : Except (ProjectFault α) (Profile α)} :
    p.CanLearn s now result ↔ result = p.learn s now := by
  rw [CanLearn, learn, learnWith, analyzeMainWith]
  cases hw : p.mainWork .sound s with
  | error fault => rfl
  | ok main =>
    obtain ⟨w, layout⟩ := main
    constructor
    · rintro ⟨results, hcompletes, rfl⟩
      simp only [hcompletes.gather_eq]
      rfl
    · rintro rfl
      obtain ⟨results, hcompletes⟩ :=
        Schedule.exists_runs_done s.parallel w.language (.ofFiles w.files)
      refine ⟨results, hcompletes, ?_⟩
      simp only [Schedule.Completes.gather_eq hcompletes]
      rfl

/-- A disk with three files of a language, of which one cannot be read. -/
def scripts : Disk :=
  { entries := [(["b.py"], .file (Text.encode "x = 1\n") .all), (["a.py"], .file [] ⟨false, true⟩),
      (["lib"], .directory), (["lib", "a.py"], .file (Text.encode "y_z = 2\n") .all)]
    home := []
    limits := .none }

/-- A disk with two more files, which have different names that look the same. -/
def alikeScripts : Disk :=
  { scripts with
    entries := ([.raw ⟨[0xFF, 0x2E, 0x70, 0x79], by decide⟩], .file (Text.encode "u = 3\n") .all) ::
      ([.raw ⟨[0xFE, 0x2E, 0x70, 0x79], by decide⟩], .file (Text.encode "v_w = 4\n") .all) ::
      scripts.entries }

end ProjectTree

end HouseStyle
