import HouseStyle.Proofs.Project.Outcome
import HouseStyle.Proofs.Project.Restriction

/-!
# Projects whose main language says nothing

A file that cannot be read, is no text or does not follow the grammar of its language only adds to
the number of files about which nothing is known.  If no file of the main language is better than
that, the language is analyzed like one without files, so nothing is learned and an overview leaves
it out, whatever else the project holds (`learn_eq_unlearned`).
-/

namespace HouseStyle

/-- Why nothing can be known about a file of a language. -/
inductive ProjectFile.Unextractable (l : Language) (f : ProjectFile) : Prop
  /-- It cannot be read. -/
  | unreadable (h : f.bytes? = none)
  /-- It is no text. -/
  | encoding {bytes : List UInt8} {fault : Text.Utf8Fault} (h : f.bytes? = some bytes)
      (hdecode : Text.decode bytes = .error fault)
  /-- It does not follow the grammar. -/
  | grammar {bytes : List UInt8} {source : List Char} (h : f.bytes? = some bytes)
      (hdecode : Text.decode bytes = .ok source)
      (hread : Survey.readText? l f.path source = none)

lemma ProjectFile.facts?_eq_none_iff {l : Language} {f : ProjectFile} :
    f.facts? l = none ↔ f.Unextractable l := by
  constructor
  · intro h
    cases hbytes : f.bytes? with
    | none => exact .unreadable hbytes
    | some bytes =>
      cases hdecode : Text.decode bytes with
      | error fault => exact .encoding hbytes hdecode
      | ok source =>
        cases hread : Survey.readText? l f.path source with
        | none => exact .grammar hbytes hdecode hread
        | some facts =>
          rw [facts?, hbytes, Option.bind_some, Survey.extract, hdecode] at h
          simp only [hread] at h
          cases h
  · rintro (hbytes | ⟨hbytes, hdecode⟩ | ⟨hbytes, hdecode, hread⟩)
    · rw [facts?, hbytes, Option.bind_none]
    · rw [facts?, hbytes, Option.bind_some, Survey.extract, hdecode]
    · rw [facts?, hbytes, Option.bind_some, Survey.extract, hdecode]
      simp only [hread]

/-- A language all of whose files are refused is analyzed like one without files. -/
lemma Workload.analysis_of_unextractable {α : Type} [Scalar α] [NumberText α] {w : Workload}
    (h : ∀ f ∈ w.files, f.Unextractable w.language) (s : Settings α) (layout : Layout) :
    w.analysis s layout
      = Analysis.ofFiles s.acceptance w.language.id [] w.files.length layout := by
  have hfacts : ∀ result ∈ w.files.map (ProjectFile.facts? w.language), result = none :=
    List.forall_mem_map.2 fun f hf => ProjectFile.facts?_eq_none_iff.2 (h f hf)
  have hnothing : (w.files.map (ProjectFile.facts? w.language)).filterMap id = [] :=
    List.filterMap_eq_nil_iff.2 hfacts
  have hskipped : (w.files.map (ProjectFile.facts? w.language)).countP Option.isNone
      = w.files.length := by
    rw [List.countP_eq_length.2 fun result hresult => by rw [hfacts result hresult]; rfl,
      List.length_map]
  rw [analysis, survey, Survey.gather, hnothing, hskipped, List.mergeSort_nil]

namespace ProjectTree

variable {p : ProjectTree} {s : Settings Float} {x : Exclusion} {l : Language}

/-- What is read of the main language says nothing, whether or not its files are counted. -/
lemma learn_of_unextractable (hs : s.Sensible) (hx : s.exclusion = .ok x)
    (hl : l.id = s.mainLanguage (p.layout x))
    (hfiles : ∀ f ∈ p.collect x s.maxFiles l, f.Unextractable l) (now : Float) :
    p.learn s now = .ok (.unlearned l.id now) := by
  obtain ⟨q, hq⟩ := exists_learn hs p now
  obtain ⟨w, layout, hw, rfl⟩ := exists_mainWork hq
  obtain ⟨rfl, hname, hread⟩ := mainWork_spec hx hw
  obtain rfl : w.language = l := Language.id_injective (hname.trans hl.symm)
  have hall : ∀ f ∈ w.files, f.Unextractable w.language := by
    rcases hread with ⟨-, hnil⟩ | ⟨-, -, hwork⟩
    · rw [hnil]
      exact nofun
    · rw [hwork]
      exact hfiles
  rw [hq, Workload.analysis_of_unextractable hall, Profile.learn_of_nil]

/-- There is no analysis of a language that says nothing. -/
lemma get?_analysesOf_of_unextractable {work : List Workload} {layout : Layout}
    (hx : s.exclusion = .ok x) (hwork : p.allWork .sound s = .ok (work, layout))
    (hfiles : ∀ f ∈ p.collect x s.maxFiles l, f.Unextractable l) :
    (analysesOf s work layout).get? l.id = none := by
  by_contra hsome
  obtain ⟨a, ha⟩ := Option.ne_none_iff_exists'.1 hsome
  obtain ⟨hdata, w, hw, hname, rfl⟩ := get?_analysesOf ha
  obtain ⟨-, hall⟩ := allWork_spec hx hwork
  obtain ⟨-, -, -, hread⟩ := hall w hw
  obtain rfl : w.language = l := Language.id_injective hname
  have hrefused : ∀ f ∈ w.files, f.Unextractable w.language := by
    rw [hread]
    exact hfiles
  rw [Workload.analysis_of_unextractable hrefused] at hdata
  cases hdata

/-- An overview is made from the profile of a language about which nothing is known, and leaves the
language out. -/
lemma overview_of_unextractable {now : Float} {o : Overview Float} (hx : s.exclusion = .ok x)
    (hlearn : p.learn s now = .ok (.unlearned l.id now))
    (hfiles : ∀ f ∈ p.collect x s.maxFiles l, f.Unextractable l) (ho : p.overview s now = .ok o) :
    o.primary = some (.unlearned l.id now) ∧ o.metrics.get? l.id = none ∧
      o.rules.get? l.id = none := by
  rw [learn] at hlearn
  rw [overview, overviewWith_eq, hlearn] at ho
  obtain ⟨⟨analyses, layout⟩, hall, ho⟩ := exists_of_bind_eq_ok ho
  obtain rfl := Except.ok.inj ho
  obtain ⟨x', work, hx', hwork, rfl⟩ := exists_allWork hall
  obtain rfl := Except.ok.inj (hx.symm.trans hx')
  have hmetrics : (metricsOf (analysesOf s work layout)).get? l.id = none := by
    rw [metricsOf, SortedMap.get?_map, get?_analysesOf_of_unextractable hx hwork hfiles,
      Option.map_none]
  refine ⟨rfl, hmetrics, ?_⟩
  simp only [Overview.integrate]
  rw [SortedMap.get?_map, SortedMap.get?_filter, hmetrics, Option.filter_none, Option.map_none]

/-- Where no file of the main language can be extracted, nothing is learned: the profile is that of
a language about which nothing is known, whatever else the project holds and whatever the settings
ask for.  An overview has this profile, and neither measures nor rules for the language. -/
theorem learn_eq_unlearned (hs : s.check = .ok ()) (p : ProjectTree) :
    ∃ x l, s.exclusion = .ok x ∧ l.id = s.mainLanguage (p.layout x) ∧
      ((∀ f ∈ p.collect x s.maxFiles l, f.Unextractable l) → ∀ now,
        p.learn s now = .ok (.unlearned l.id now) ∧
        ∃ o, p.overview s now = .ok o ∧ o.primary = some (.unlearned l.id now) ∧
          o.metrics.get? l.id = none ∧ o.rules.get? l.id = none) := by
  have hsensible := Settings.sensible_of_check hs
  obtain ⟨x, hx⟩ := hsensible.exists_exclusion
  obtain ⟨l, hl⟩ := Language.exists_ofId? (hsensible.mainLanguage (p.layout x))
  have hmain := Language.id_of_ofId? hl
  refine ⟨x, l, hx, hmain, fun hfiles now => ?_⟩
  have hlearn := learn_of_unextractable hsensible hx hmain hfiles now
  obtain ⟨o, q, ho, -⟩ := exists_overview hsensible p now
  exact ⟨hlearn, o, ho, overview_of_unextractable hx hlearn hfiles ho⟩

/-- A project with a rich layout and a file of Go, whose files of Python all say nothing: one cannot
be read, one is no text, and one is not closed. -/
def muted : ProjectTree :=
  ⟨⟨"."⟩, [⟨["src", "a.py"], none⟩, ⟨["src", "b.py"], some [255]⟩,
    ⟨["src", "c.py"], some (Text.encode "x = (\n")⟩,
    ⟨["main.go"], some (Text.encode "package main\n")⟩], ["src", "tests", "docs", "scripts"]⟩

theorem learn_eq_unlearned_muted :
    (Settings.standard : Settings Float).check = .ok () ∧
    muted.learn .standard 0.0 = .ok (.unlearned "python" 0.0) ∧
    ∃ o, muted.overview (.standard : Settings Float) 0.0 = .ok o ∧
      o.metrics.get? "python" = none := by
  have hcheck : (Settings.standard : Settings Float).check = .ok () := rfl
  obtain ⟨x, l, hx, hl, hlearn⟩ := learn_eq_unlearned hcheck muted
  obtain rfl : (⟨Settings.neverSources, []⟩ : Exclusion) = x := Except.ok.inj hx
  have hmain : (Settings.standard : Settings Float).mainLanguage
      (muted.layout ⟨Settings.neverSources, []⟩) = Language.python.id := by decide +kernel
  obtain rfl : l = .python := Language.id_injective (hl.trans hmain)
  have hall : ∀ f ∈ muted.files, muted.languageOf? f = some .python → f.facts? .python = none := by
    decide +kernel
  have hfiles : ∀ f ∈ muted.collect ⟨Settings.neverSources, []⟩ none .python,
      f.Unextractable .python := by
    intro f hf
    obtain ⟨hvisible, hlanguage⟩ := mem_collect_none.1 hf
    exact ProjectFile.facts?_eq_none_iff.1 (hall f (List.mem_filter.1 hvisible).1 hlanguage)
  obtain ⟨hprofile, o, ho, -, hmetrics, -⟩ := hlearn hfiles 0.0
  exact ⟨hcheck, hprofile, o, ho, hmetrics⟩

end ProjectTree

end HouseStyle
