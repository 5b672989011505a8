/-!
# KCut.Text.Record

One-line descriptions of values: `Name { field: value, … }`.

Design points:

* A description is built from texts that are already rendered, so nesting one
  record in another needs no further rule.
* Braces are written as escapes in this module's literals; `opening` and
  `closing` are the only places that hold them.
-/

namespace KCut.Text

/-- The text between the name of a record and its first field. -/
def opening : String := " \x7b "

/-- The text after the last field of a record. -/
def closing : String := " \x7d"

/-- A record with its named fields, in the given order. -/
def record (name : String) (fields : List (String × String)) : String :=
  name ++ opening ++ ", ".intercalate (fields.map fun field => field.1 ++ ": " ++ field.2) ++ closing

/-- A record that shows none of its fields. -/
def opaqueRecord (name : String) : String :=
  name ++ opening ++ ".." ++ closing

/-- A value wrapped by a named tag. -/
def tagged (name : String) (values : List String) : String :=
  name ++ "(" ++ ", ".intercalate values ++ ")"

/-- A value that may be absent. -/
def optional (render : β → String) : Option β → String
  | none => "None"
  | some x => tagged "Some" [render x]

def sequence (values : List String) : String :=
  "[" ++ ", ".intercalate values ++ "]"

def truth (b : Bool) : String :=
  if b then "true" else "false"

end KCut.Text
