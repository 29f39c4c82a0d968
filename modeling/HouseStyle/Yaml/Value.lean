/-!
# Values of configuration files

A configuration file is written in the indented format: scalars, lists and tables.  Whether a
scalar is a number, a flag or a text is decided where it is read; only quotes make it a text
for certain, so the value records whether there were quotes.
-/

namespace HouseStyle

/-- A value of a configuration file. -/
inductive Yaml where
  /-- A scalar, and whether it is written without quotes. -/
  | scalar (plain : Bool) (text : String)
  /-- A list. -/
  | list (items : List Yaml)
  /-- A table. -/
  | table (entries : List (Yaml × Yaml))

namespace Yaml

instance : Inhabited Yaml := ⟨scalar true ""⟩

/-- What is written by leaving a value out. -/
def blank : Yaml := scalar true ""

end Yaml

end HouseStyle
