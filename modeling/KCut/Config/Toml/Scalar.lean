import KCut.Config.Toml.Value
import KCut.Text.Reader

/-!
# KCut.Config.Toml.Scalar

Scalars of TOML documents: strings, numbers, truth values, dates and times.

Design points:

* Strings are read from their opening quote on. The words of the other scalars
  are runs of letters, digits and `+ - . _ :`, and a word is classified as a
  whole.
* Integers have 64 bits with a sign. Fractions, dates and times are checked and
  kept as their texts; a positive fraction must not round to infinity.
-/

namespace KCut.Config.Toml

open KCut.Text (Reader)

/-- Space and tab. -/
def isBlank (c : Char) : Bool :=
  c = ' ' || c = '\t'

/-- Characters that may stand in a line of text: all but the controls. -/
def isText (c : Char) : Bool :=
  c = '\t' || (' ' ≤ c && c ≠ '\x7f')

/-- The character of an escape with one letter. -/
def shortEscape? : Char → Option Char
  | 'b' => some '\x08'
  | 't' => some '\t'
  | 'n' => some '\n'
  | 'f' => some '\x0c'
  | 'r' => some '\r'
  | '"' => some '"'
  | '\\' => some '\\'
  | _ => none

/-- Reads what follows the backslash of an escape. -/
def escape : Reader Char := fun cs =>
  match cs with
  | 'u' :: rest => long 4 rest
  | 'U' :: rest => long 8 rest
  | c :: rest => (shortEscape? c).map (·, rest)
  | [] => none
where
  /-- The character with the code point in the next `n` digits. -/
  long (n : Nat) (cs : List Char) : Option (Char × List Char) := do
    if cs.length < n then none
    else return (← Text.codePoint? (← Text.number? 16 (cs.take n)), cs.drop n)

/-- Reads a string of one line after its opening quote, with a bound for the
number of its characters. -/
def basicString : (bound : Nat) → List Char → Reader (List Char)
  | 0, _ => Reader.fail
  | bound + 1, done => do
      match ← Reader.peek with
      | none => Reader.fail
      | some c =>
          Reader.char c
          if c = '"' then return done.reverse
          else if c = '\\' then basicString bound ((← escape) :: done)
          else if isText c then basicString bound (c :: done)
          else Reader.fail

/-- Reads a string without escapes after its opening quote. -/
def literalString : Reader (List Char) := do
  let text ← Reader.takeWhile fun c => c ≠ '\'' && isText c
  Reader.char '\''
  return text

/-- Takes a line break, if one comes next. -/
def lineBreak : Reader Bool := do
  if ← Reader.accept ['\r', '\n'] then return true else Reader.accept ['\n']

/-- Passes over blanks and line breaks, at most `bound` of them. -/
def skipSpace : (bound : Nat) → Reader Unit
  | 0 => return ()
  | bound + 1 => do
      Reader.skipWhile isBlank
      if ← lineBreak then skipSpace bound else return ()

/-- Reads a string of several lines after its opening quotes. The closing quotes
may follow up to two quotes that belong to the string. -/
def multiLine (quote : Char) (escapes : Bool) :
    (bound : Nat) → List Char → Reader (List Char)
  | 0, _ => Reader.fail
  | bound + 1, done => do
      match ← Reader.peek with
      | none => Reader.fail
      | some c =>
          if c = quote then
            let quotes := ((← Reader.rest).takeWhile (· = quote)).length
            let taken := List.replicate (min quotes 5) quote
            let _ ← Reader.accept taken
            if 3 ≤ quotes then return done.reverse ++ taken.drop 3
            else multiLine quote escapes bound (taken ++ done)
          else if ← lineBreak then multiLine quote escapes bound ('\n' :: done)
          else
            Reader.char c
            if escapes && c = '\\' then
              let after := (← Reader.rest).dropWhile isBlank
              if after.head? = some '\n' ∨ after.take 2 = ['\r', '\n'] then
                skipSpace bound
                multiLine quote escapes bound done
              else multiLine quote escapes bound ((← escape) :: done)
            else if isText c then multiLine quote escapes bound (c :: done)
            else Reader.fail

def string (bound : Nat) : Reader String := do
  if ← Reader.accept ['"', '"', '"'] then
    let _ ← lineBreak
    return String.ofList (← multiLine '"' true bound [])
  else if ← Reader.accept ['\'', '\'', '\''] then
    let _ ← lineBreak
    return String.ofList (← multiLine '\'' false bound [])
  else if ← Reader.accept ['"'] then
    return String.ofList (← basicString bound [])
  else
    Reader.char '\''
    return String.ofList (← literalString)

/-! ### Words -/

/-- The digits of a group in which underscores may stand between two digits. -/
def groupedDigits? (base : Nat) : List Char → Option (List Char)
  | [] => none
  | [c] => if (Text.digit? base c).isSome then some [c] else none
  | c :: '_' :: rest =>
      if (Text.digit? base c).isSome then (groupedDigits? base rest).map (c :: ·) else none
  | c :: rest =>
      if (Text.digit? base c).isSome then (groupedDigits? base rest).map (c :: ·) else none

/-- The digits of a decimal integer, which has no leading zero. -/
def wholeDigits? (cs : List Char) : Option (List Char) :=
  match groupedDigits? 10 cs with
  | some ('0' :: _ :: _) => none
  | digits => digits

/-- Whether a word is negative, and the word without its sign. -/
def splitSign : List Char → Bool × List Char
  | '-' :: rest => (true, rest)
  | '+' :: rest => (false, rest)
  | cs => (false, cs)

/-- An integer of any size: decimal digits with a sign, or digits in another
base after its mark. -/
def unboundedInteger? : List Char → Option Int
  | '0' :: 'x' :: digits => inBase 16 digits
  | '0' :: 'o' :: digits => inBase 8 digits
  | '0' :: 'b' :: digits => inBase 2 digits
  | cs => do
      let (negative, digits) := splitSign cs
      let n ← Text.number? 10 (← wholeDigits? digits)
      return if negative then -(n : Int) else n
where
  /-- The number of digits in a base. -/
  inBase (base : Nat) (digits : List Char) : Option Int := do
    return (← Text.number? base (← groupedDigits? base digits) : Nat)

/-- An integer of 64 bits with a sign. -/
def integer? (cs : List Char) : Option Int := do
  let i ← unboundedInteger? cs
  if -0x8000_0000_0000_0000 ≤ i ∧ i < 0x8000_0000_0000_0000 then some i else none

/-- The parts of a fraction: digits with a point, an exponent or both. -/
structure Fraction where
  negative : Bool
  whole : List Char
  places : List Char
  exponent : Int

/-- The exponent of a fraction: digits with a sign, where leading zeros may stand. -/
def exponent? (cs : List Char) : Option Int := do
  let (negative, digits) := splitSign cs
  let n ← Text.number? 10 (← groupedDigits? 10 digits)
  return if negative then -(n : Int) else n

def fraction? (cs : List Char) : Option Fraction := do
  let (negative, cs) := splitSign cs
  let isMark := fun c => c = 'e' || c = 'E'
  let mantissa := cs.takeWhile (!isMark ·)
  let hasPoint := mantissa.contains '.'
  let hasExponent := cs.any isMark
  if !hasPoint && !hasExponent then none
  let whole ← wholeDigits? (mantissa.takeWhile (· ≠ '.'))
  let places ←
    if hasPoint then groupedDigits? 10 ((mantissa.dropWhile (· ≠ '.')).drop 1) else some []
  let exponent ←
    if hasExponent then exponent? ((cs.dropWhile (!isMark ·)).drop 1) else some 0
  return ⟨negative, whole, places, exponent⟩

/-- The least number that binary64 rounds to infinity: half a unit in the last
place above the largest finite one. -/
def overflowBound : Nat := Nat.pow 2 1024 - Nat.pow 2 970

/-- Whether the size of a fraction rounds to infinity in binary64. The number of
places before its point settles all cases but one without computing it. -/
def Fraction.overflows (f : Fraction) : Bool :=
  let digits := (f.whole ++ f.places).dropWhile (· = '0')
  let magnitude : Int := digits.length - f.places.length + f.exponent
  if digits.isEmpty || magnitude < 309 then false
  else if 309 < magnitude then true
  else
    match Text.number? 10 digits with
    | some n => overflowBound * Nat.pow 10 digits.length ≤ n * Nat.pow 10 309
    | none => false

def isFraction (cs : List Char) : Bool :=
  let unsigned := (splitSign cs).2
  if unsigned = "inf".toList ∨ unsigned = "nan".toList then true
  else
    match fraction? cs with
    | some f => f.negative || !f.overflows
    | none => false

/-- Two digits up to a limit. -/
def twoDigits? (limit : Nat) (a b : Char) : Option Nat := do
  let n ← Text.number? 10 [a, b]
  if n ≤ limit then some n else none

def daysOf (year month : Nat) : Nat :=
  if month = 2 then
    if year % 4 = 0 ∧ (year % 100 ≠ 0 ∨ year % 400 = 0) then 29 else 28
  else if month = 4 ∨ month = 6 ∨ month = 9 ∨ month = 11 then 30
  else 31

/-- What follows a date at the front of a word. -/
def afterDate? : List Char → Option (List Char)
  | y₁ :: y₂ :: y₃ :: y₄ :: '-' :: m₁ :: m₂ :: '-' :: d₁ :: d₂ :: rest => do
      let year ← Text.number? 10 [y₁, y₂, y₃, y₄]
      let month ← twoDigits? 12 m₁ m₂
      let day ← twoDigits? (daysOf year month) d₁ d₂
      if 1 ≤ month ∧ 1 ≤ day then some rest else none
  | _ => none

/-- What follows a time of day at the front of a word. -/
def afterTime? : List Char → Option (List Char)
  | h₁ :: h₂ :: ':' :: m₁ :: m₂ :: ':' :: s₁ :: s₂ :: rest => do
      let _ ← twoDigits? 23 h₁ h₂
      let _ ← twoDigits? 59 m₁ m₂
      let _ ← twoDigits? 60 s₁ s₂
      match rest with
      | '.' :: fraction =>
          if (fraction.head?.any Char.isDigit) then some (fraction.dropWhile Char.isDigit) else none
      | rest => some rest
  | _ => none

/-- Whether a word is the offset of a time zone. -/
def isOffset : List Char → Bool
  | ['Z'] | ['z'] => true
  | [sign, h₁, h₂, ':', m₁, m₂] =>
      (sign = '+' || sign = '-') && (twoDigits? 23 h₁ h₂).isSome && (twoDigits? 59 m₁ m₂).isSome
  | _ => false

def isDate (cs : List Char) : Bool :=
  afterDate? cs = some []

/-- Whether a word is a time of day, with an offset or without. -/
def isTime (offset : Bool) (cs : List Char) : Bool :=
  match afterTime? cs with
  | some [] => true
  | some rest => offset && isOffset rest
  | none => false

/-- Whether a word is a date, a time of day or both. -/
def isMoment (cs : List Char) : Bool :=
  isDate cs || isTime false cs ||
    match afterDate? cs with
    | some (mark :: rest) => (mark = 'T' || mark = 't' || mark = ' ') && isTime true rest
    | _ => false

def isWord (c : Char) : Bool :=
  c.isAlphanum || c = '+' || c = '-' || c = '.' || c = '_' || c = ':'

def word? (cs : List Char) : Option Value :=
  if cs = "true".toList then some (.truth true)
  else if cs = "false".toList then some (.truth false)
  else
    match integer? cs with
    | some i => some (.integer i)
    | none =>
        if isFraction cs then some (.fraction (String.ofList cs))
        else if isMoment cs then some (.moment (String.ofList cs))
        else none

/-- Reads a word. A date may be followed by a blank and a time of day. -/
def word : Reader Value := fun cs => do
  let first := cs.takeWhile isWord
  let rest := cs.dropWhile isWord
  let whole :=
    match isDate first, rest with
    | true, ' ' :: more => first ++ ' ' :: more.takeWhile isWord
    | _, _ => first
  if whole ≠ first ∧ isMoment whole then
    return (.moment (String.ofList whole), cs.drop whole.length)
  else
    return (← word? first, rest)

end KCut.Config.Toml
