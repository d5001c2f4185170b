/-
  ApiDocs.Dict

  Dictionaries with string keys. They list their entries in ascending order of the keys,
  and two of them are equal as soon as they give every key the same value.
-/

import Std.Data.ExtTreeMap

namespace ApiDocs

/-- A dictionary with string keys. -/
abbrev Dict (α : Type) := Std.ExtTreeMap String α

namespace Dict

/-- The values, in the order of their keys. -/
def contents {α : Type} (d : Dict α) : List α :=
  d.toList.map (·.2)

/-- All entries of `other` put over those of `base`. -/
def extend {α : Type} (base other : Dict α) : Dict α :=
  other.toList.foldl (fun d (key, value) => d.insert key value) base

/-- The dictionary with these entries; of two with one key the later counts. -/
def ofEntries {α : Type} (entries : List (String × α)) : Dict α :=
  entries.foldl (fun d (key, value) => d.insert key value) ∅

end Dict
end ApiDocs
