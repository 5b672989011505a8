import KCut.Config.Yaml.Scalar

/-!
# KCut.Config.Yaml.Tokens

The tokens of a YAML text.

Each step passes over blanks and comments, closes the blocks that the text has
left, and finds one token. Every step but the last one takes a character off the
text, so the number of characters bounds the number of steps.
-/

namespace KCut.Config.Yaml

namespace Scan

/-! ### Keys and blocks -/

/-- Forgets the possible key of the innermost level; fails if no other reading of
its token is possible. -/
def dropKey : Scan Unit := do
  let s ← get
  match s.keys with
  | some k :: keys =>
      require !k.required
      set { s with keys := none :: keys }
  | _ => return ()

/-- Remembers that the next token may be a key, if a key may start here. -/
def saveKey : Scan Unit := do
  if (← get).keyAllowed then
    dropKey
    modify fun s =>
      let required := !s.inFlow && s.indent == (s.column : Int)
      let k : PossibleKey := ⟨required, s.tokens.size, s.offset, s.line, s.column⟩
      { s with keys := some k :: s.keys.drop 1 }

/-- Closes the blocks that start to the right of a column. -/
def closeBlocks (column : Int) : Scan Unit := do
  let s ← get
  if s.inFlow then return ()
  let closed := (s.indent :: s.outer).takeWhile (column < ·)
  let left := (s.indent :: s.outer).drop closed.length
  set { s with
    tokens := s.tokens ++ Array.replicate closed.length Token.blockEnd
    indent := left.headD (-1)
    outer := left.drop 1 }

/-- Opens a block at a column, if it lies to the right of the innermost block:
puts the token in front of token number `position`. -/
def openBlock (column position : Nat) (t : Token) : Scan Unit := do
  let s ← get
  if !s.inFlow && s.indent < (column : Int) then
    set { s with
      tokens := s.tokens.insertIdxIfInBounds position t
      indent := column
      outer := s.indent :: s.outer }

/-- Opens a block at the current column. -/
def openBlockHere (t : Token) : Scan Unit := do
  let s ← get
  openBlock s.column s.tokens.size t

/-! ### Tokens -/

/-- Passes over blanks, comments and line breaks. Tabs count as blanks where they
could not be taken for indentation, and a line may start with a byte order mark. -/
def toNextToken : (bound : Nat) → Scan Unit
  | 0 => return ()
  | bound + 1 => do
      modify fun s => if s.column = 0 ∧ s.rest.head? = some '\ufeff' then s.advance 1 else s
      let s ← get
      let _ ← takeWhile fun c => c = ' ' || (c = '\t' && (s.inFlow || !s.keyAllowed))
      if (← get).rest.head? = some '#' then
        let _ ← takeWhile fun c => !isBreak c
      let s ← get
      if s.rest.head?.any isBreak then
        let s := s.advanceLine
        set (if s.inFlow then s else { s with keyAllowed := true })
        toNextToken bound

/-- Ends what went on before a directive or a document mark. -/
def endContent : Scan Unit := do
  closeBlocks (-1)
  dropKey
  allowKey false

/-- A mark between documents. -/
def documentMark (t : Token) : Scan Unit := do
  endContent
  modify (·.advance 3)
  emit t

/-- The digits of a version number. -/
def versionNumber : Scan Nat := do
  let digits ← takeWhile Char.isDigit
  require (decide (digits.length ≤ 9))
  match Text.number? 10 digits with
  | some n => return n
  | none => fail

/-- Characters of tags. -/
def isTagChar (c : Char) : Bool :=
  isNameChar c || ";/?:@&=+$.!~*'()%".toList.contains c

/-- Characters of tags that are given in full. -/
def isFullTagChar (c : Char) : Bool :=
  isTagChar c || c = ',' || c = '[' || c = ']'

/-- The tag that characters are written for; there has to be one. -/
def tagOf (cs : List Char) : Scan Tag := do
  require !cs.isEmpty
  match Tag.ofChars? cs with
  | some tag => return tag
  | none => fail

/-- A tag handle: an exclamation mark, or a name between two of them. -/
def tagHandle : Scan (List Char) := do
  let s ← get
  require (s.rest.head? = some '!')
  let name := (s.rest.drop 1).takeWhile isNameChar
  if s.at? (name.length + 1) = some '!' then
    set (s.advance (name.length + 2))
    return '!' :: name ++ ['!']
  else
    set (s.advance (name.length + 1))
    return '!' :: name

/-- A directive: the version of the format, or a handle for tags. -/
def directive : Scan Unit := do
  endContent
  modify (·.advance 1)
  let name ← takeWhile isNameChar
  require (endsWord (← get).rest.head?)
  let _ ← takeWhile isBlank
  if name = "YAML".toList then
    let major ← versionNumber
    require ((← get).rest.head? = some '.')
    modify (·.advance 1)
    let minor ← versionNumber
    emit (.version major minor)
  else if name = "TAG".toList then
    let handle ← tagHandle
    require (handle = ['!'] ∨ (1 < handle.length ∧ handle.getLast? = some '!'))
    require ((← get).rest.head?.any isBlank)
    let _ ← takeWhile isBlank
    let base ← tagOf (← takeWhile isFullTagChar)
    require (endsWord (← get).rest.head?)
    emit (.tagHandle (String.ofList handle) base)
  else fail
  takeLineEnd

def openFlow (t : Token) : Scan Unit := do
  saveKey
  modify fun s => { s with keys := none :: s.keys }
  allowKey true
  modify (·.advance 1)
  emit t

def closeFlow (t : Token) : Scan Unit := do
  dropKey
  modify fun s => if s.inFlow then { s with keys := s.keys.drop 1 } else s
  allowKey false
  modify (·.advance 1)
  emit t

def comma : Scan Unit := do
  dropKey
  allowKey true
  modify (·.advance 1)
  emit .comma

def blockEntry : Scan Unit := do
  let s ← get
  require (s.inFlow || s.keyAllowed)
  openBlockHere .blockSequence
  dropKey
  allowKey true
  modify (·.advance 1)
  emit .entry

/-- The mark of a key that stands for itself. -/
def explicitKey : Scan Unit := do
  let s ← get
  require (s.inFlow || s.keyAllowed)
  openBlockHere .blockMapping
  dropKey
  allowKey !s.inFlow
  modify (·.advance 1)
  emit .key

/-- Whether a possible key can still be one: it stands in the current line and
is not too long, up to the colon. -/
def isFresh (s : Scanner) (k : PossibleKey) : Bool :=
  k.line = s.line && decide (s.offset ≤ k.offset + 1024)

/-- The colon between a key and its value. -/
def valueMark : Scan Unit := do
  let s ← get
  match s.keys.head?.join with
  | some k =>
      if isFresh s k then
        modify fun s => { s with
          tokens := s.tokens.insertIdxIfInBounds k.token .key
          keys := none :: s.keys.drop 1 }
        openBlock k.column k.token .blockMapping
        allowKey false
      else
        require !k.required
        valueAlone s
  | none => valueAlone s
  modify (·.advance 1)
  emit .value
where
  /-- A colon without a key of one line before it. -/
  valueAlone (s : Scanner) : Scan Unit := do
    require (s.inFlow || s.keyAllowed)
    openBlockHere .blockMapping
    allowKey !s.inFlow

/-- The name after the mark of an anchor or an alias. -/
def anchorName : Scan String := do
  modify (·.advance 1)
  let name ← takeWhile isNameChar
  let next := (← get).rest.head?
  require (!name.isEmpty && (endsWord next || next.any ("?:,]\x7d%@\x60".toList.contains ·)))
  return String.ofList name

/-- The mark of a reference to a node, or of a node that can be referred to. -/
def nodeName (t : String → Token) : Scan Unit := do
  saveKey
  allowKey false
  emit (t (← anchorName))

/-- A tag: in full between angle brackets, after a handle, or after a single
exclamation mark. That mark alone is the tag that it looks like. -/
def nodeTag : Scan Unit := do
  saveKey
  allowKey false
  let s ← get
  if s.at? 1 = some '<' then
    modify (·.advance 2)
    emit (.tag "" (← tagOf (← takeWhile isFullTagChar)))
    require ((← get).rest.head? = some '>')
    modify (·.advance 1)
  else
    let handle ← tagHandle
    let suffix ← takeWhile isTagChar
    if 1 < handle.length ∧ handle.getLast? = some '!' then
      emit (.tag (String.ofList handle) (← tagOf suffix))
    else
      match Tag.ofChars? (handle.drop 1 ++ suffix) with
      | none => fail
      | some tag => emit (if tag.octets.isEmpty then .tag "" .nonSpecific else .tag "!" tag)
  let s ← get
  require (endsWord s.rest.head? || (s.inFlow && s.rest.head? = some ','))

def quoted (quote : Char) (bound : Nat) : Scan Unit := do
  saveKey
  allowKey false
  emit (.scalar (← quotedScalar quote bound) .quoted)

def inLines (fold : Bool) (bound : Nat) : Scan Unit := do
  dropKey
  allowKey true
  emit (.scalar (← blockScalar fold bound) (if fold then .folded else .literal))

def plain (bound : Nat) : Scan Unit := do
  saveKey
  allowKey false
  emit (.scalar (← plainScalar bound) .plain)

/-- Characters that no plain scalar starts with. -/
def isIndicator (c : Char) : Bool :=
  "-?:,[]\x7b\x7d#&*!|>'\"%@\x60".toList.contains c

/-- Whether a plain scalar may start with `c`, before `next`. -/
def startsPlain (inFlow : Bool) (c : Char) (next : Option Char) : Bool :=
  !(isIndicator c || endsWord (some c)) || (c = '-' && !next.any isBlank) ||
    (!inFlow && (c = '?' || c = ':') && !endsWord next)

/-- The token that starts with `c`. -/
def tokenAt (s : Scanner) (c : Char) (bound : Nat) : Scan Unit :=
  let next := s.at? 1
  if c = '%' && s.column = 0 then directive
  else if s.atMark '-' then documentMark .documentStart
  else if s.atMark '.' then documentMark .documentEnd
  else if c = '[' then openFlow .flowSequence
  else if c = '\x7b' then openFlow .flowMapping
  else if c = ']' then closeFlow .flowSequenceEnd
  else if c = '\x7d' then closeFlow .flowMappingEnd
  else if c = ',' then comma
  else if c = '-' && endsWord next then blockEntry
  else if c = '?' && (s.inFlow || endsWord next) then explicitKey
  else if c = ':' && (s.inFlow || endsWord next) then valueMark
  else if c = '*' then nodeName .alias
  else if c = '&' then nodeName .anchor
  else if c = '!' then nodeTag
  else if c = '|' && !s.inFlow then inLines false bound
  else if c = '>' && !s.inFlow then inLines true bound
  else if c = '\'' || c = '"' then quoted c bound
  else if startsPlain s.inFlow c next then plain bound
  else fail

def allTokens : (bound : Nat) → Scan Unit
  | 0 => fail
  | bound + 1 => do
      toNextToken bound
      let s ← get
      closeBlocks s.column
      match s.rest.head? with
      | none => endContent
      | some c =>
          tokenAt s c bound
          allTokens bound

end Scan

def tokens? (cs : List Char) : Option (List Token) := do
  if cs.all isAllowed then
    let (_, s) ← (Scan.allTokens (cs.length + 2)).run (.start cs)
    return s.tokens.toList
  else none

end KCut.Config.Yaml
