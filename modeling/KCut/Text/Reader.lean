/-!
# KCut.Text.Reader

Readers: functions that take something off the front of a text, or fail.
-/

namespace KCut.Text

/-- A reader for a `β` on the characters of a text. -/
abbrev Reader (β : Type) := StateT (List Char) Option β

namespace Reader

variable {β : Type}

def fail : Reader β := fun _ => none

def rest : Reader (List Char) := fun cs => some (cs, cs)

/-- The next character, which stays unread. -/
def peek : Reader (Option Char) := fun cs => some (cs.head?, cs)

/-- Takes the given character. -/
def char (c : Char) : Reader Unit := fun cs =>
  match cs with
  | d :: rest => if d = c then some ((), rest) else none
  | [] => none

/-- Takes the longest run of characters that meet a condition. -/
def takeWhile (p : Char → Bool) : Reader (List Char) := fun cs =>
  some (cs.takeWhile p, cs.dropWhile p)

/-- Passes over the longest run of characters that meet a condition. -/
def skipWhile (p : Char → Bool) : Reader Unit := fun cs =>
  some ((), cs.dropWhile p)

/-- Takes the given characters if they come next; gives whether they did. -/
def accept (word : List Char) : Reader Bool := fun cs =>
  if word.isPrefixOf cs then some (true, cs.drop word.length) else some (false, cs)

end Reader

/-- The value of a digit in a base up to sixteen. -/
def digit? (base : Nat) (c : Char) : Option Nat :=
  let value :=
    if '0' ≤ c ∧ c ≤ '9' then c.toNat - '0'.toNat
    else if 'a' ≤ c ∧ c ≤ 'f' then c.toNat - 'a'.toNat + 10
    else if 'A' ≤ c ∧ c ≤ 'F' then c.toNat - 'A'.toNat + 10
    else base
  if value < base then some value else none

/-- The number that digits in a base stand for; there has to be a digit. -/
def number? (base : Nat) (digits : List Char) : Option Nat :=
  if digits.isEmpty then none
  else digits.foldlM (fun n c => return n * base + (← digit? base c)) 0

/-- The character with a code point, which must not be a surrogate. -/
def codePoint? (n : Nat) : Option Char :=
  if h : n.isValidChar then some (Char.ofNatAux n h) else none

end KCut.Text
