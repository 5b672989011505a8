import KCut.Config.Yaml.Token
import KCut.Text.Reader

/-!
# KCut.Config.Yaml.Scalar

The texts of scalars: plain, between quotes, and in lines of their own.

Design points:

* A scalar may go on over several lines. A single line break between two words
  is read as a space, and of several line breaks the first one is dropped. Line
  and paragraph separators are kept, with the line breaks after them.
* A plain scalar ends at a colon with a blank after it, at a comment, and where
  the text comes back to the column of the block around it.
* The loops below take characters off the text. Each has a bound, which is right
  if it is larger than the number of characters that follow.
-/

namespace KCut.Config.Yaml

/-- The text of the line breaks between two words. -/
def foldBreaks : List Char → List Char
  | ['\n'] => [' ']
  | '\n' :: breaks => breaks
  | breaks => breaks

/-- Takes line breaks and the blanks at the start of each new line. A tab fails
if it stands in a column below `indent`. -/
def takeBreaks (indent : Int) : (bound : Nat) → Scan (List Char)
  | 0 => return []
  | bound + 1 => do
      let s ← get
      match s.rest.head?.filter isBreak with
      | none => return []
      | some c =>
          set s.advanceLine
          let blanks ← Scan.takeWhile isBlank
          Scan.require !((blanks.take indent.toNat).contains '\t')
          return readBreak c :: (← takeBreaks indent bound)

/-- What stands between two words: its text, and whether it holds a line break. -/
structure Gap where
  text : List Char
  broken : Bool

/-- Takes the blanks and line breaks between two words. -/
def takeGap (indent : Int) (bound : Nat) : Scan Gap := do
  let blanks ← Scan.takeWhile isBlank
  let breaks ← takeBreaks indent bound
  if breaks.isEmpty then return ⟨blanks, false⟩ else return ⟨foldBreaks breaks, true⟩

/-- Takes an escaped line break, which does not count as a space, and the blanks
and line breaks after it. -/
def takeEscapedBreak (bound : Nat) : Scan (List Char) := do
  modify (·.advanceLine)
  let _ ← Scan.takeWhile isBlank
  takeBreaks (-1) bound

/-! ### Plain scalars -/

/-- Characters that end a plain scalar between brackets. -/
def isFlowMark (c : Char) : Bool :=
  c = ',' || c = '[' || c = ']' || c = '\x7b' || c = '\x7d'

/-- The word of a plain scalar at the front of a text. -/
def plainWord (inFlow : Bool) : List Char → Option (List Char)
  | [] => some []
  | c :: rest =>
      if endsWord (some c) then some []
      else if c = ':' && inFlow && rest.head?.any (fun d => isFlowMark d || d = '?') then none
      else if c = ':' && endsWord rest.head? then some []
      else if inFlow && isFlowMark c then some []
      else (plainWord inFlow rest).map (c :: ·)

/-- Takes the words of a plain scalar, after what was taken already, in reverse,
and the gap after it. -/
def plainWords (indent : Int) : (bound : Nat) → List Char → Gap → Scan (List Char)
  | 0, _, _ => Scan.fail
  | bound + 1, done, gap => do
      let s ← get
      let stop : Scan (List Char) := do
        if gap.broken then Scan.allowKey true
        return done.reverse
      if s.atDocumentMark || s.rest.head? = some '#' then stop
      else if !s.inFlow && decide ((s.column : Int) < indent) && gap.broken then stop
      else
        match plainWord s.inFlow s.rest with
        | none => Scan.fail
        | some [] => stop
        | some word =>
            set (s.advance word.length)
            let done := word.reverse ++ gap.text.reverse ++ done
            plainWords indent bound done (← takeGap indent bound)

def plainScalar (bound : Nat) : Scan String := do
  return String.ofList (← plainWords ((← get).indent + 1) bound [] ⟨[], false⟩)

/-! ### Scalars between quotes -/

/-- The character of an escape with one letter. -/
def shortEscape? : Char → Option Char
  | '0' => some '\x00'
  | 'a' => some '\x07'
  | 'b' => some '\x08'
  | 't' | '\t' => some '\t'
  | 'n' => some '\n'
  | 'v' => some '\x0b'
  | 'f' => some '\x0c'
  | 'r' => some '\r'
  | 'e' => some '\x1b'
  | ' ' => some ' '
  | '"' => some '"'
  | '/' => some '/'
  | '\\' => some '\\'
  | 'N' => some '\u0085'
  | '_' => some '\u00a0'
  | 'L' => some '\u2028'
  | 'P' => some '\u2029'
  | _ => none

/-- The number of digits of an escape with a code point. -/
def escapeDigits? : Char → Option Nat
  | 'x' => some 2
  | 'u' => some 4
  | 'U' => some 8
  | _ => none

/-- The character of the escape at the front of a text, and the number of
characters that it takes. -/
def escape? : List Char → Option (Char × Nat)
  | '\\' :: c :: rest =>
      match shortEscape? c, escapeDigits? c with
      | some d, _ => some (d, 2)
      | none, some n => do
          let digits := rest.take n
          if digits.length < n then none
          else return (← Text.codePoint? (← Text.number? 16 digits), n + 2)
      | none, none => none
  | _ => none

/-- Takes the rest of a scalar between quotes, after what was taken already, in
reverse. -/
def quotedRest (quote : Char) : (bound : Nat) → List Char → Scan (List Char)
  | 0, _ => Scan.fail
  | bound + 1, done => do
      let s ← get
      Scan.require !s.atDocumentMark
      match s.rest with
      | [] => Scan.fail
      | c :: rest =>
          if c = quote then
            if quote = '\'' ∧ rest.head? = some quote then
              set (s.advance 2)
              quotedRest quote bound (quote :: done)
            else
              set (s.advance 1)
              return done.reverse
          else if quote = '"' ∧ c = '\\' then
            if rest.head?.any isBreak then
              set (s.advance 1)
              quotedRest quote bound ((← takeEscapedBreak bound).reverse ++ done)
            else
              match escape? s.rest with
              | some (d, n) =>
                  set (s.advance n)
                  quotedRest quote bound (d :: done)
              | none => Scan.fail
          else if endsWord (some c) then
            quotedRest quote bound ((← takeGap (-1) bound).text.reverse ++ done)
          else
            set (s.advance 1)
            quotedRest quote bound (c :: done)

def quotedScalar (quote : Char) (bound : Nat) : Scan String := do
  modify (·.advance 1)
  return String.ofList (← quotedRest quote bound [])

/-! ### Scalars in lines of their own -/

/-- What happens to the line breaks at the end of a scalar. -/
inductive Chomping
  | clip
  | strip
  | keep
deriving DecidableEq

/-- Takes the marks at the head of a scalar in lines: the chomping, and the
depth of its lines below the block around it. -/
def blockMarks : Scan (Chomping × Option Nat) := do
  let chomping? : Scan (Option Chomping) := do
    match (← get).rest.head? with
    | some '+' =>
        modify (·.advance 1)
        return some .keep
    | some '-' =>
        modify (·.advance 1)
        return some .strip
    | _ => return none
  let depth? : Scan (Option Nat) := do
    match (← get).rest.head? with
    | some c =>
        if c.isDigit then
          Scan.require (c != '0')
          modify (·.advance 1)
          return some (c.toNat - '0'.toNat)
        else return none
    | none => return none
  match ← chomping? with
  | some chomping => return (chomping, ← depth?)
  | none =>
      match ← depth? with
      | some depth => return ((← chomping?).getD .clip, some depth)
      | none => return (.clip, none)

/-- Takes the end of a line: blanks, a comment and a line break. -/
def takeLineEnd : Scan Unit := do
  let _ ← Scan.takeWhile isBlank
  if (← get).rest.head? = some '#' then
    let _ ← Scan.takeWhile fun c => !isBreak c
  let s ← get
  match s.rest.head? with
  | none => return ()
  | some c => if isBreak c then set s.advanceLine else Scan.fail

/-- Takes the blank lines before a line of a scalar and the indentation of that
line: at most `indent` columns, or any number if that is not known yet. Gives
the line breaks and the largest column seen. -/
def takeBlankLines (indent : Option Nat) : (bound : Nat) → (widest : Nat) →
    Scan (List Char × Nat)
  | 0, widest => return ([], widest)
  | bound + 1, widest => do
      let s ← get
      let spaces := (s.rest.takeWhile (· = ' ')).length
      let s := s.advance (match indent with
        | some n => min spaces (n - s.column)
        | none => spaces)
      set s
      let widest := max widest s.column
      let below := indent.all (s.column < ·)
      match s.rest.head? with
      | some c =>
          Scan.require !(below && c = '\t')
          if isBreak c then
            set s.advanceLine
            let (breaks, widest) ← takeBlankLines indent bound widest
            return (readBreak c :: breaks, widest)
          else return ([], widest)
      | none => return ([], widest)

/-- Lines of a scalar, in reverse, each with the line breaks in front of it. -/
structure Lines where
  done : List (List Char × List Char)
  /-- The line break at the end of the last line, if there is one. -/
  lineBreak : List Char
  /-- The line breaks after that. -/
  blank : List Char

/-- Takes the lines of a scalar, after those that were taken already. -/
def takeLines (indent : Nat) : (bound : Nat) → Lines → Scan Lines
  | 0, lines => return lines
  | bound + 1, lines => do
      let s ← get
      if s.column = indent ∧ !s.rest.isEmpty then
        let line ← Scan.takeWhile fun c => !isBreak c
        let done := (lines.lineBreak ++ lines.blank, line) :: lines.done
        let s ← get
        match s.rest.head? with
        | none => return ⟨done, [], []⟩
        | some c =>
            set s.advanceLine
            let (blank, _) ← takeBlankLines (some indent) bound 0
            takeLines indent bound ⟨done, [readBreak c], blank⟩
      else return lines

/-- Joins the lines of a scalar. In a folded one, a line break between two lines
that do not start with a blank is a space, or is dropped before a blank line. -/
def joinLines (fold : Bool) : List (List Char × List Char) → (afterBlank isFirst : Bool) →
    List Char
  | [], _, _ => []
  | (breaks, line) :: rest, afterBlank, isFirst =>
      let startsBlank := line.head?.any isBlank
      let between :=
        if isFirst || !fold || afterBlank || startsBlank then breaks else foldBreaks breaks
      between ++ line ++ joinLines fold rest startsBlank false

def blockScalar (fold : Bool) (bound : Nat) : Scan String := do
  modify (·.advance 1)
  let (chomping, depth) ← blockMarks
  takeLineEnd
  let s ← get
  let given := depth.map (s.indent.toNat + ·)
  let (blank, widest) ← takeBlankLines given bound 0
  let indent := given.getD (max (max widest (s.indent + 1).toNat) 1)
  let lines ← takeLines indent bound ⟨[], [], blank⟩
  let tail := match chomping with
    | .strip => []
    | .clip => lines.lineBreak
    | .keep => lines.lineBreak ++ lines.blank
  return String.ofList (joinLines fold lines.done.reverse false true ++ tail)

end KCut.Config.Yaml
