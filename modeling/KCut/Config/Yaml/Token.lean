import KCut.Config.Yaml.Tag

/-!
# KCut.Config.Yaml.Token

Tokens of YAML texts, and the place in a text while its tokens are being found.

Design points:

* Indentation becomes tokens: a block starts with a token of its own and ends
  with `blockEnd` where the text comes back to a smaller column.
* A key of one line is recognised only at the colon after it. The place of
  every token that may turn out to be such a key is remembered, one for each
  level of brackets, and the key token is put in front of it afterwards.
* Only the text itself is looked at: what the tokens mean, and whether they fit
  together, is for the nodes to say.
-/

namespace KCut.Config.Yaml

/-- How a scalar was written. -/
inductive ScalarForm
  | plain
  | quoted
  /-- In lines that are kept. -/
  | literal
  /-- In lines that are joined. -/
  | folded
deriving Repr, DecidableEq

inductive Token
  | version (major minor : Nat)
  | tagHandle (handle : String) (base : Tag)
  | documentStart
  | documentEnd
  | blockSequence
  | blockMapping
  | blockEnd
  | flowSequence
  | flowSequenceEnd
  | flowMapping
  | flowMappingEnd
  | entry
  | comma
  | key
  | value
  | alias (name : String)
  | anchor (name : String)
  | tag (handle : String) (suffix : Tag)
  | scalar (text : String) (form : ScalarForm)
deriving Repr, DecidableEq

/-- A token that may turn out to be a key of one line. -/
structure PossibleKey where
  /-- No other reading is possible. -/
  required : Bool
  token : Nat
  offset : Nat
  line : Nat
  column : Nat
deriving Repr

/-- A place in a text, and the tokens before it. -/
structure Scanner where
  /-- The characters that follow. -/
  rest : List Char
  /-- The number of octets before, in UTF-8. -/
  offset : Nat
  /-- The number of lines before. -/
  line : Nat
  /-- The number of characters before in the line. -/
  column : Nat
  tokens : Array Token
  /-- The column of the innermost block; -1 outside all blocks. -/
  indent : Int
  /-- The columns of the blocks around it. -/
  outer : List Int
  /-- Whether a key may start here. -/
  keyAllowed : Bool
  /-- The possible key of each level of brackets, the innermost first. -/
  keys : List (Option PossibleKey)

/-- A step on a scanner that may fail. -/
abbrev Scan (β : Type) := StateT Scanner Option β

/-! ### Characters -/

/-- Space and tab. -/
def isBlank (c : Char) : Bool :=
  c = ' ' || c = '\t'

/-- Line breaks. -/
def isBreak (c : Char) : Bool :=
  c = '\n' || c = '\r' || c = '\u0085' || c = '\u2028' || c = '\u2029'

/-- The end of a word: a blank, a line break or the end of the text. -/
def endsWord : Option Char → Bool
  | none => true
  | some c => isBlank c || isBreak c

/-- Letters, digits, the underscore and the hyphen. -/
def isNameChar (c : Char) : Bool :=
  c.isAlphanum || c = '_' || c = '-'

/-- The characters that may stand in a text at all. -/
def isAllowed (c : Char) : Bool :=
  c = '\t' || c = '\n' || c = '\r' || c = '\u0085' || (' ' ≤ c && c ≤ '~') ||
    ('\u00a0' ≤ c && c ≠ '\ufffe' && c ≠ '\uffff')

/-- The character that a line break is read as: line and paragraph separators
stay what they are, and the others are alike. -/
def readBreak (c : Char) : Char :=
  if c = '\u2028' ∨ c = '\u2029' then c else '\n'

/-! ### Moving on -/

namespace Scanner

def start (cs : List Char) : Scanner :=
  ⟨cs, 0, 0, 0, #[], -1, [], true, [none]⟩

/-- The number of brackets that are open. -/
def flowLevel (s : Scanner) : Nat :=
  s.keys.length - 1

def inFlow (s : Scanner) : Bool :=
  s.flowLevel != 0

/-- The character after the next `n`. -/
def at? (s : Scanner) (n : Nat) : Option Char :=
  s.rest[n]?

/-- The place `n` characters on, none of which is a line break. -/
def advance (s : Scanner) (n : Nat) : Scanner :=
  { s with
    rest := s.rest.drop n
    offset := s.offset + ((s.rest.take n).map Char.utf8Size).foldl (· + ·) 0
    column := s.column + n }

/-- The place after the line break that comes next. -/
def advanceLine (s : Scanner) : Scanner :=
  let next (rest : List Char) (octets : Nat) : Scanner :=
    { s with rest, offset := s.offset + octets, line := s.line + 1, column := 0 }
  match s.rest with
  | '\r' :: '\n' :: rest => next rest 2
  | c :: rest => next rest c.utf8Size
  | [] => s

/-- Whether three given characters stand alone at the start of a line. -/
def atMark (s : Scanner) (c : Char) : Bool :=
  s.column = 0 && s.rest.take 3 = [c, c, c] && endsWord (s.at? 3)

/-- Whether a document starts or ends here. -/
def atDocumentMark (s : Scanner) : Bool :=
  s.atMark '-' || s.atMark '.'

end Scanner

namespace Scan

def fail {β : Type} : Scan β := fun _ => none

/-- Fails unless a condition holds. -/
def require (b : Bool) : Scan Unit :=
  if b then return () else fail

/-- Takes the longest run of characters that meet a condition, which no line
break does. -/
def takeWhile (p : Char → Bool) : Scan (List Char) := do
  let run := (← get).rest.takeWhile p
  modify (·.advance run.length)
  return run

def emit (t : Token) : Scan Unit :=
  modify fun s => { s with tokens := s.tokens.push t }

/-- Lets a key start here or not. -/
def allowKey (b : Bool) : Scan Unit :=
  modify fun s => { s with keyAllowed := b }

end Scan

end KCut.Config.Yaml
