import KCut.Config.Yaml.Token
import KCut.Config.Yaml.Word

/-!
# KCut.Config.Yaml.Node

The nodes of YAML documents.

Design points:

* A node that was given a name carries a label. Two nodes may have the same
  label, and a reference stands for the last one that has its label.
* References are followed when their node is asked for: a node may hold a
  reference to itself, which fits no setting but does no harm elsewhere.
* A scalar is a word unless there are quotes around it. A node that was left out
  is the empty word; it stands for an empty list or table, but for no number.
-/

namespace KCut.Config.Yaml

inductive Node
  /-- An alias of a labelled node. -/
  | reference (label : Nat)
  | scalar (label : Option Nat) (tag : Option Tag) (text : String) (form : ScalarForm)
  | sequence (label : Option Nat) (items : List Node)
  | mapping (label : Option Nat) (entries : List (Node × Node))
deriving Repr, Inhabited

namespace Node

/-- The node that stands where nothing was written. -/
def empty (label : Option Nat) (tag : Option Tag) : Node :=
  scalar label tag "" .plain

def label? : Node → Option Nat
  | reference _ => none
  | scalar label .. | sequence label _ | mapping label _ => label

/-- Puts a node in front of others, if it is labelled. -/
def withLabel (n : Node) (others : List (Nat × Node)) : List (Nat × Node) :=
  match n.label? with
  | some label => (label, n) :: others
  | none => others

mutual

/-- Puts the labelled nodes of a node in front of others, the last one first. -/
def labelled (n : Node) (others : List (Nat × Node)) : List (Nat × Node) :=
  match n with
  | reference _ | scalar .. => n.withLabel others
  | sequence _ items => labelledItems items (n.withLabel others)
  | mapping _ entries => labelledEntries entries (n.withLabel others)

/-- Puts the labelled nodes of items in front of others. -/
def labelledItems : List Node → List (Nat × Node) → List (Nat × Node)
  | [], others => others
  | n :: rest, others => labelledItems rest (n.labelled others)

/-- Puts the labelled nodes of entries in front of others. -/
def labelledEntries : List (Node × Node) → List (Nat × Node) → List (Nat × Node)
  | [], others => others
  | (key, value) :: rest, others => labelledEntries rest (value.labelled (key.labelled others))

end

/-- The node that a node stands for, given the labelled ones. -/
def resolve? (others : List (Nat × Node)) : Node → Option Node
  | reference label => others.lookup label
  | n => some n

/-- The word that a scalar is. Under its own tag, one in lines is a word too. -/
def word? (own : Tag) : Node → Option String
  | scalar _ _ text .plain => some text
  | scalar _ tag text .literal => if tag = some own then some text else none
  | _ => none

def natural? (n : Node) : Option Nat :=
  (n.word? .int).bind Word.natural?

def truth? (n : Node) : Option Bool :=
  (n.word? .bool).bind Word.truth?

/-- Whether a node is more than null or nothing. Under any tag but that of null
a word counts as something, and under that one it has to be null. -/
def isGiven? : Node → Option Bool
  | scalar _ none text .plain => some !(text.isEmpty || Word.isNull text)
  | scalar _ (some tag) text .plain =>
      if tag = .null then if Word.isNull text then some false else none else some true
  | _ => some true

/-- Whether a node is the empty word. -/
def isNothing : Node → Bool
  | scalar _ _ text .plain => text.isEmpty
  | _ => false

def items? : Node → Option (List Node)
  | sequence _ items => some items
  | n => if n.isNothing then some [] else none

def entries? : Node → Option (List (Node × Node))
  | mapping _ entries => some entries
  | n => if n.isNothing then some [] else none

/-- The text of a scalar of any form, as a key. -/
def key? : Node → Option String
  | scalar _ _ text _ => some text
  | _ => none

end Node

end KCut.Config.Yaml
