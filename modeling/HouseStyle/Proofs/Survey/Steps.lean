import HouseStyle.Number.Reading
import HouseStyle.Project.Learn
import HouseStyle.Proofs.Json.Numeral
import HouseStyle.Proofs.Number.Laws
import HouseStyle.Proofs.Survey.Found
import HouseStyle.Proofs.Tally

/-!
# The labels of steps

The step of an indentation is counted by a label, the number of its columns.  All readers count
steps in the same way, and the tallies of the files of a language are only added up, so the
dominant label still spells a number when the width of a step is read off it.
-/

namespace HouseStyle

/-! ### Labels that spell columns -/

namespace Tally

/-- Every label is a number of columns. -/
def Columns (t : Tally) : Prop := ∀ e ∈ t.counts.entries, ∃ n : Nat, e.1 = Nat.repr n

lemma columns_empty : empty.Columns := nofun

lemma Columns.addTimes {t : Tally} (h : t.Columns) (n k : Nat) :
    (t.addTimes (Nat.repr n) k).Columns := by
  rw [Tally.addTimes]
  split
  · exact SortedMap.forall_upsert h ⟨n, rfl⟩
  · exact h

lemma Columns.merge {t other : Tally} (h : t.Columns) (hother : other.Columns) :
    (t.merge other).Columns := by
  suffices hfold : ∀ (l : List (String × Nat)) (t : Tally), t.Columns →
      (∀ e ∈ l, ∃ n : Nat, e.1 = Nat.repr n) →
        (l.foldl (fun acc e => acc.addTimes e.1 e.2) t).Columns from
    hfold other.counts.entries t h hother
  intro l
  induction l with
  | nil => exact fun t h _ => h
  | cons a l ih =>
    intro t h hl
    rw [List.forall_mem_cons] at hl
    obtain ⟨⟨n, hn⟩, hl⟩ := hl
    have hadd := h.addTimes n a.2
    rw [← hn] at hadd
    exact ih _ hadd hl

end Tally

namespace Survey

lemma columns_marginsIndentation (margins : List (List Char)) (previous : Nat) :
    (marginsIndentation previous margins).steps.Columns := by
  induction margins generalizing previous with
  | nil => exact Tally.columns_empty
  | cons m rest ih =>
    have hlater := ih (column m)
    unfold marginsIndentation
    dsimp only
    split
    · split
      · exact hlater.addTimes _ 1
      · exact hlater
    · exact hlater
    · exact hlater

lemma columns_fileFacts (path : SourcePath) (language : String) (source : List Char)
    (found : List Finding) : (fileFacts path language source found).indentation.steps.Columns :=
  columns_marginsIndentation _ 0

end Survey

/-- What is known about a file is the measure of its text, with what was found in it. -/
lemma ProjectFile.exists_fileFacts_of_facts? {language : Language} {file : ProjectFile}
    {f : FileFacts} (h : file.facts? language = some f) :
    ∃ source found, f = Survey.fileFacts file.path language.id source found := by
  rw [facts?, Option.bind_eq_some_iff] at h
  obtain ⟨bytes, -, h⟩ := h
  split at h
  next facts hextract =>
    obtain rfl := Option.some.inj h
    exact Survey.exists_fileFacts_of_extract hextract
  next => cases h

lemma ProjectFile.columns_of_facts? {language : Language} {file : ProjectFile} {f : FileFacts}
    (h : file.facts? language = some f) : f.indentation.steps.Columns := by
  obtain ⟨source, found, rfl⟩ := exists_fileFacts_of_facts? h
  exact Survey.columns_fileFacts _ _ _ _

/-- The path of a file is noted in what is known about it. -/
lemma ProjectFile.path_of_facts? {language : Language} {file : ProjectFile} {f : FileFacts}
    (h : file.facts? language = some f) : f.path = file.path.text := by
  obtain ⟨source, found, rfl⟩ := exists_fileFacts_of_facts? h
  rfl

lemma Workload.columns_survey {w : Workload} {f : FileFacts} (h : f ∈ w.survey.1) :
    f.indentation.steps.Columns := by
  have hgathered : some f ∈ w.files.map (ProjectFile.facts? w.language) := by
    obtain ⟨x, hx, rfl⟩ := List.mem_filterMap.1 (List.mem_mergeSort.1 h)
    exact hx
  obtain ⟨file, -, hfile⟩ := List.mem_map.1 hgathered
  exact ProjectFile.columns_of_facts? hfile

/-- Adding up files keeps what the labels of steps are. -/
lemma LanguageFacts.columns_ofFiles {language : String} {files : List FileFacts} {layout : Layout}
    (h : ∀ f ∈ files, f.indentation.steps.Columns) :
    (ofFiles language files layout).indentation.steps.Columns := by
  suffices hfold : ∀ facts : LanguageFacts, facts.indentation.steps.Columns →
      (files.foldl addFile facts).indentation.steps.Columns from
    hfold _ Tally.columns_empty
  induction files with
  | nil => exact fun facts hfacts => hfacts
  | cons f files ih =>
    intro facts hfacts
    rw [List.forall_mem_cons] at h
    exact ih h.2 _ (hfacts.merge h.1)

/-! ### The number that a label spells -/

namespace Number

variable {α : Type} [Scalar α] [NumberText α]

lemma sign_of_isDigit {c : Char} (h : c.isDigit = true) (cs : List Char) :
    sign (c :: cs) = (false, c :: cs) := by
  unfold sign
  split
  next heq =>
    obtain ⟨rfl, -⟩ := List.cons.inj heq
    exact absurd h (by decide)
  next heq =>
    obtain ⟨rfl, -⟩ := List.cons.inj heq
    exact absurd h (by decide)
  next => rfl

/-- Digits are none of the words that stand for a number. -/
lemma ofList_toLower_ne {c : Char} (h : c.isDigit = true) (cs : List Char) {word : String}
    (hword : word.toList.head?.any Char.isDigit = false) :
    (String.ofList ((c :: cs).map Char.toLower) == word) = false := by
  rw [beq_eq_false_iff_ne]
  rintro rfl
  have hlower : c.toLower = c := by
    simp only [Char.isDigit, Bool.and_eq_true, decide_eq_true_eq] at h
    refine dif_neg ?_
    rintro ⟨hA, -⟩
    exact absurd (UInt32.le_trans hA h.2) (by decide)
  rw [String.toList_ofList, List.map_cons, List.head?_cons, Option.any_some, hlower, h] at hword
  cases hword

/-- A whole number is written with digits, and at least one of them. -/
lemma exists_toDigits (n : Nat) : ∃ c cs, Nat.toDigits 10 n = c :: cs ∧ c.isDigit = true := by
  obtain ⟨c, cs, hcs⟩ := List.exists_cons_of_ne_nil (@Nat.toDigits_ne_nil n 10)
  exact ⟨c, cs, hcs, Document.isDigit_of_mem_toDigits (hcs ▸ List.mem_cons_self)⟩

lemma ofDigits_toDigits (n : Nat) : ofDigits (Nat.toDigits 10 n) = n :=
  Document.digitsValue_toDigits n

lemma unsigned?_toDigits (n : Nat) :
    unsigned? (Nat.toDigits 10 n) = some (.finite n 0) := by
  have hvalue := ofDigits_toDigits n
  have hdigits : ∀ c ∈ Nat.toDigits 10 n, c.isDigit = true :=
    fun c hc => Document.isDigit_of_mem_toDigits hc
  obtain ⟨c, cs, hcs, hc⟩ := exists_toDigits n
  rw [hcs] at hvalue hdigits ⊢
  have hwhole := List.takeWhile_eq_self_iff.2 hdigits
  have hrest := List.dropWhile_eq_nil_iff.2 hdigits
  have hinf := ofList_toLower_ne hc cs (by decide : "inf".toList.head?.any Char.isDigit = false)
  have hinfinity :=
    ofList_toLower_ne hc cs (by decide : "infinity".toList.head?.any Char.isDigit = false)
  have hnan := ofList_toLower_ne hc cs (by decide : "nan".toList.head?.any Char.isDigit = false)
  simp only [unsigned?, hinf, hinfinity, hnan, hwhole, hrest]
  simp [exponent?, hvalue]

/-- A label that is a number of columns spells a finite number. -/
lemma exists_ofLabel?_repr {n : Nat} (h : NumberText.Reads α n) :
    ∃ x : α, ofLabel? (Nat.repr n) = some x ∧ Scalar.isFinite x = true := by
  obtain ⟨x, hx, hfinite⟩ := h
  refine ⟨x, ?_, hfinite⟩
  have hsign : sign (Nat.repr n).toList = (false, Nat.toDigits 10 n) := by
    obtain ⟨c, cs, hcs, hc⟩ := exists_toDigits n
    rw [Nat.repr, String.toList_ofList, hcs]
    exact sign_of_isDigit hc cs
  rw [ofLabel?, hsign]
  simp only [unsigned?_toDigits]
  simp [Spelled.value, hx]

end Number

end HouseStyle
