import KCut.Config.Toml.Scalar
import KCut.Config.Toml.Table

/-!
# KCut.Config.Toml

TOML documents.

Design points:

* A document is read line by line: headers, which open a table, and entries,
  which set a key in the open table.
* Values nest, and each level of nesting takes characters off the text. The
  number of characters is therefore a bound for all loops below.
* Nesting has a limit of its own, `nestingLimit`, for values and for keys.
* A byte order mark at the front of a text is passed over.
-/

namespace KCut.Config.Toml

open KCut.Text (Reader)

def blanks : Reader Unit :=
  Reader.skipWhile isBlank

/-- Passes over a comment, if one comes next. -/
def comment : Reader Unit := do
  if ← Reader.accept ['#'] then Reader.skipWhile isText else return ()

/-- Passes over blanks, comments and line breaks, at most `bound` lines. -/
def fill : (bound : Nat) → Reader Unit
  | 0 => Reader.fail
  | bound + 1 => do
      blanks
      comment
      if ← lineBreak then fill bound else return ()

/-- Reads the end of a line: blanks, a comment, and a line break or the end of
the text. -/
def lineEnd : Reader Unit := do
  blanks
  comment
  if ← lineBreak then return ()
  if (← Reader.peek).isSome then Reader.fail

/-- Characters of keys without quotes. -/
def isBare (c : Char) : Bool :=
  c.isAlphanum || c = '_' || c = '-'

def simpleKey (bound : Nat) : Reader String := do
  if ← Reader.accept ['"'] then
    return String.ofList (← basicString bound [])
  else if ← Reader.accept ['\''] then
    return String.ofList (← literalString)
  else
    let key ← Reader.takeWhile isBare
    if key.isEmpty then Reader.fail else return String.ofList key

/-- Values nest less deep than this, and keys have fewer parts. -/
def nestingLimit : Nat := 80

/-- Reads the parts of a key, with dots between them: all parts but the last
one, and the last one. -/
def keyParts : (bound : Nat) → Reader (List String × String)
  | 0 => Reader.fail
  | bound + 1 => do
      let key ← simpleKey bound
      blanks
      if ← Reader.accept ['.'] then
        blanks
        let (path, last) ← keyParts bound
        return (key :: path, last)
      else return ([], key)

/-- Reads a key that has not too many parts. -/
def dottedKey (bound : Nat) : Reader (List String × String) := do
  let (path, last) ← keyParts bound
  if path.length + 1 < nestingLimit then return (path, last) else Reader.fail

mutual

/-- Reads a value inside of `depth` others. -/
def value (depth : Nat) : (bound : Nat) → Reader Value
  | 0 => Reader.fail
  | bound + 1 => do
      let isNested := (← Reader.peek) = some '[' || (← Reader.peek) = some '\x7b'
      if isNested && nestingLimit ≤ depth + 1 then Reader.fail
      match ← Reader.peek with
      | some '[' =>
          Reader.char '['
          return .list (← elements (depth + 1) bound [])
      | some '\x7b' =>
          Reader.char '\x7b'
          blanks
          if ← Reader.accept ['\x7d'] then return .table []
          return (← members (depth + 1) bound (.headed [])).toValue
      | some '"' | some '\'' => return .text (← string bound)
      | _ => word

/-- Reads the elements of an array after its bracket or a comma. -/
def elements (depth : Nat) : (bound : Nat) → List Value → Reader (List Value)
  | 0, _ => Reader.fail
  | bound + 1, done => do
      fill bound
      if ← Reader.accept [']'] then return done.reverse
      let element ← value depth bound
      fill bound
      if ← Reader.accept [','] then elements depth bound (element :: done)
      else
        Reader.char ']'
        return (element :: done).reverse

/-- Reads the entries of a table in braces after its brace or a comma. -/
def members (depth : Nat) : (bound : Nat) → Table → Reader Table
  | 0, _ => Reader.fail
  | bound + 1, t => do
      let (path, key) ← dottedKey bound
      Reader.char '='
      blanks
      let d ← value depth bound
      blanks
      match t.insert path key d with
      | none => Reader.fail
      | some t =>
          if ← Reader.accept [','] then
            blanks
            members depth bound t
          else
            Reader.char '\x7d'
            return t

end

/-- A document while it is being read: its tables and the path of the open one. -/
structure Draft where
  root : Table
  opened : List String

def header (bound : Nat) (d : Draft) : Reader Draft := do
  let isElement ← Reader.accept ['[']
  blanks
  let (path, key) ← dottedKey bound
  Reader.char ']'
  if isElement then Reader.char ']'
  lineEnd
  let changed := if isElement then d.root.openElement path key else d.root.openTable path key
  match changed with
  | some root => return ⟨root, path ++ [key]⟩
  | none => Reader.fail

def entry (bound : Nat) (d : Draft) : Reader Draft := do
  let (path, key) ← dottedKey bound
  Reader.char '='
  blanks
  let v ← value 0 bound
  lineEnd
  match d.root.change false (Table.insert path key v) d.opened with
  | some root => return { d with root }
  | none => Reader.fail

def lines : (bound : Nat) → Draft → Reader Draft
  | 0, _ => Reader.fail
  | bound + 1, d => do
      blanks
      match ← Reader.peek with
      | none => return d
      | some '[' =>
          Reader.char '['
          lines bound (← header bound d)
      | some c =>
          if c = '#' ∨ c = '\n' ∨ c = '\r' then
            lineEnd
            lines bound d
          else
            lines bound (← entry bound d)

/-- The characters of a text, without a byte order mark. -/
def characters (text : String) : List Char :=
  match text.toList with
  | '\ufeff' :: rest => rest
  | cs => cs

def table? (text : String) : Option Value := do
  let cs := characters text
  let (d, _) ← (lines (cs.length + 2) ⟨.headed [], []⟩).run cs
  return d.root.toValue

end Toml

def ofToml (text : String) : Except ConfigError Config :=
  match (Toml.table? text).bind Toml.format.config? with
  | some c => .ok c
  | none => .error .toml

end KCut.Config
