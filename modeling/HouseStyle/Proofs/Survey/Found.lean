import HouseStyle.Proofs.Grammar.Walk
import HouseStyle.Survey.Extract
import Mathlib.Tactic.Common

/-!
# What is found in a file

The readers of all languages measure a text in the same way, and differ in what they find in it.
Where there is a grammar, things are found in a tree, so what is known about a file can be said for
any tree, whichever one the grammar gives to the text.
-/

namespace HouseStyle

open Survey

namespace Grammar

variable {path : SourcePath} {source : List Char} {f : FileFacts}

/-- What is known about a Python file with a tree. -/
def Python.treeFacts (path : SourcePath) (source : List Char) (tree : PythonTree) : FileFacts :=
  let found := tree.search (visit source.toArray) [] .zero
  fileFacts path Language.python.id source (found ++ frameworkFindings path.isTest found)

/-- What is known about a Go file with a tree. -/
def Go.treeFacts (path : SourcePath) (source : List Char) (tree : GoTree) : FileFacts :=
  let found := tree.search (visit source.toArray) [] ()
  let labels := (found.filterMap Finding.import?).filterMap fun i => frameworkOf? i.module
  fileFacts path Language.go.id source (found ++ labels.map .framework)

/-- What is known about a Rust file with a tree. -/
def Rust.treeFacts (path : SourcePath) (source : List Char) (tree : RustTree) : FileFacts :=
  fileFacts path Language.rust.id source (tree.search (visit source.toArray) [] ())

lemma Python.exists_treeFacts (h : read? Language.python.id path source = some f) :
    ∃ tree, f = treeFacts path source tree := by
  simp only [read?, Option.bind_eq_bind, Option.bind_eq_some_iff] at h
  obtain ⟨_, -, tree, -, h⟩ := h
  rw [Tree.gather_eq_search] at h
  exact ⟨tree, (Option.some.inj h).symm⟩

lemma Go.exists_treeFacts (h : read? Language.go.id path source = some f) :
    ∃ tree, f = treeFacts path source tree := by
  simp only [read?, Option.bind_eq_bind, Option.bind_eq_some_iff] at h
  obtain ⟨_, -, tree, -, h⟩ := h
  rw [Tree.gather_eq_search] at h
  exact ⟨tree, (Option.some.inj h).symm⟩

lemma Rust.exists_treeFacts (h : read? Language.rust.id path source = some f) :
    ∃ tree, f = treeFacts path source tree := by
  simp only [read?, Option.bind_eq_bind, Option.bind_eq_some_iff] at h
  obtain ⟨_, -, tree, -, h⟩ := h
  rw [Tree.gather_eq_search] at h
  exact ⟨tree, (Option.some.inj h).symm⟩

end Grammar

namespace Survey

/-- What is known about a text is the measure of the text, with what was found in it. -/
lemma exists_fileFacts_of_readText? {language : Language} {path : SourcePath} {source : List Char}
    {f : FileFacts} (h : readText? language path source = some f) :
    ∃ found, f = fileFacts path language.id source found := by
  cases language with
  | javascript | typescript => exact ⟨_, (Option.some.inj h).symm⟩
  | python =>
    obtain ⟨tree, rfl⟩ := Grammar.Python.exists_treeFacts h
    exact ⟨_, rfl⟩
  | go =>
    obtain ⟨tree, rfl⟩ := Grammar.Go.exists_treeFacts h
    exact ⟨_, rfl⟩
  | rust =>
    obtain ⟨tree, rfl⟩ := Grammar.Rust.exists_treeFacts h
    exact ⟨_, rfl⟩

/-- What is known about a file is the measure of its text, with what was found in it. -/
lemma exists_fileFacts_of_extract {language : Language} {path : SourcePath} {bytes : List UInt8}
    {f : FileFacts} (h : extract language path bytes = .ok f) :
    ∃ source found, f = fileFacts path language.id source found := by
  rw [extract] at h
  split at h
  · cases h
  next source hsource =>
    split at h
    next hread =>
      obtain rfl := Except.ok.inj h
      exact ⟨source, exists_fileFacts_of_readText? hread⟩
    next => cases h

end Survey

end HouseStyle
