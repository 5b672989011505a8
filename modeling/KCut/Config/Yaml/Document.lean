import KCut.Config.Yaml.Node
import KCut.Config.Yaml.Tokens

/-!
# KCut.Config.Yaml.Document

The document of a YAML text, read from its tokens.

Design points:

* The grammar takes one token after another off a list. Every rule either takes
  a token or hands on to a smaller rule, so a multiple of the number of tokens
  bounds the recursion.
* A text holds one document. More of them are refused.
* A name counts from the start of its node on, so a node may hold an alias of
  itself.
-/

namespace KCut.Config.Yaml

/-- The tokens that follow, the labels of the names so far and the handles for
tags. -/
structure Grammar where
  tokens : List Token
  labels : List (String × Nat)
  handles : List (String × Tag)

abbrev Rule (β : Type) := StateT Grammar Option β

namespace Rule

def fail {β : Type} : Rule β := fun _ => none

/-- The next token, which stays. -/
def peek : Rule (Option Token) := do
  return (← get).tokens.head?

def skip : Rule Unit :=
  modify fun g => { g with tokens := g.tokens.drop 1 }

/-- Takes a token if it comes next; gives whether it did. -/
def accept (t : Token) : Rule Bool := do
  if (← peek) = some t then
    skip
    return true
  else return false

/-- Takes a token that has to come next. -/
def expect (t : Token) : Rule Unit := do
  if ← accept t then return () else fail

def isNext (ts : List Token) : Rule Bool := do
  match ← peek with
  | some t => return ts.contains t
  | none => return false

/-! ### Properties -/

/-- The handles for tags that need no directive. -/
def standardHandles : List (String × Tag) :=
  [("!", .ofString "!"), ("!!", .ofString "tag:yaml.org,2002:")]

/-- A tag in full. -/
def resolveTag (handle : String) (suffix : Tag) : Rule Tag := do
  if handle.isEmpty then return suffix
  match ((← get).handles ++ standardHandles).lookup handle with
  | some base => return base.append suffix
  | none => fail

/-- The properties in front of a node: a name, a tag or both. -/
def properties : Rule (Option String × Option Tag) := do
  let name? : Rule (Option String) := do
    match ← peek with
    | some (.anchor name) =>
        skip
        return some name
    | _ => return none
  let tag? : Rule (Option Tag) := do
    match ← peek with
    | some (.tag handle suffix) =>
        skip
        return some (← resolveTag handle suffix)
    | _ => return none
  match ← name? with
  | some name => return (some name, ← tag?)
  | none =>
      match ← tag? with
      | some tag => return (← name?, some tag)
      | none => return (none, none)

/-- Labels a node with the number of different names before its own. A name that
is given again adds none to them, so the next node with a name shares its label. -/
def label (name : Option String) : Rule (Option Nat) := do
  match name with
  | none => return none
  | some name =>
      let g ← get
      let count := g.labels.length
      set { g with labels := (name, count) :: g.labels.filter (·.1 != name) }
      return some count

/-! ### Nodes -/

mutual

/-- A node. Block collections are allowed with `block`, and with `bare` also a
sequence that does not stand deeper than its key. -/
def node (block bare : Bool) : (bound : Nat) → Rule Node
  | 0 => fail
  | bound + 1 => do
      match ← peek with
      | some (.alias name) =>
          skip
          match (← get).labels.lookup name with
          | some label => return .reference label
          | none => fail
      | _ =>
          let (name, tag) ← properties
          content block bare (← label name) tag bound

/-- What follows the properties of a node. After one of them nothing may follow. -/
def content (block bare : Bool) (label : Option Nat) (tag : Option Tag) :
    (bound : Nat) → Rule Node
  | 0 => fail
  | bound + 1 => do
      let nothing : Rule Node :=
        if label.isSome || tag.isSome then return .empty label tag else fail
      match ← peek with
      | some (.scalar text form) =>
          skip
          return .scalar label (tag.filter (· ≠ .nonSpecific)) text form
      | some .flowSequence =>
          skip
          return .sequence label (← flowItems true bound)
      | some .flowMapping =>
          skip
          return .mapping label (← flowEntries true bound)
      | some .entry =>
          if bare then return .sequence label (← bareItems bound) else nothing
      | some .blockSequence =>
          if block then
            skip
            return .sequence label (← blockItems bound)
          else nothing
      | some .blockMapping =>
          if block then
            skip
            return .mapping label (← blockEntries bound)
          else nothing
      | _ => nothing

/-- A node, or nothing if one of the given tokens comes next. -/
def nodeUnless (ends : List Token) (block bare : Bool) : (bound : Nat) → Rule Node
  | 0 => fail
  | bound + 1 => do
      if ← isNext ends then return .empty none none else node block bare bound

/-- The items of a block sequence, up to its end. -/
def blockItems : (bound : Nat) → Rule (List Node)
  | 0 => fail
  | bound + 1 => do
      if ← accept .entry then
        let n ← nodeUnless [.entry, .blockEnd] true false bound
        return n :: (← blockItems bound)
      else
        expect .blockEnd
        return []

/-- The items of a sequence that does not stand deeper than its key. -/
def bareItems : (bound : Nat) → Rule (List Node)
  | 0 => fail
  | bound + 1 => do
      if ← accept .entry then
        let n ← nodeUnless [.entry, .key, .value, .blockEnd] true false bound
        return n :: (← bareItems bound)
      else return []

/-- The entries of a block mapping, up to its end. -/
def blockEntries : (bound : Nat) → Rule (List (Node × Node))
  | 0 => fail
  | bound + 1 => do
      if ← accept .key then
        let k ← nodeUnless [.key, .value, .blockEnd] true true bound
        let v ←
          if ← accept .value then nodeUnless [.key, .value, .blockEnd] true true bound
          else pure (Node.empty none none)
        return (k, v) :: (← blockEntries bound)
      else
        expect .blockEnd
        return []

/-- The items of a sequence in brackets, up to its end. An item may be a single
entry of a mapping. -/
def flowItems (isFirst : Bool) : (bound : Nat) → Rule (List Node)
  | 0 => fail
  | bound + 1 => do
      if ← accept .flowSequenceEnd then return []
      if !isFirst then expect .comma
      if ← accept .flowSequenceEnd then return []
      let n ← if ← accept .key then flowPair bound else node false false bound
      return n :: (← flowItems false bound)

/-- A single entry in brackets, after the mark of its key. A token that cannot
start the key is passed over, and the key is empty. -/
def flowPair : (bound : Nat) → Rule Node
  | 0 => fail
  | bound + 1 => do
      let k ←
        if ← isNext [.value, .comma, .flowSequenceEnd] then
          skip
          pure (Node.empty none none)
        else node false false bound
      let v ←
        if ← accept .value then nodeUnless [.comma, .flowSequenceEnd] false false bound
        else pure (Node.empty none none)
      return .mapping none [(k, v)]

/-- The entries of a mapping in braces, up to its end. -/
def flowEntries (isFirst : Bool) : (bound : Nat) → Rule (List (Node × Node))
  | 0 => fail
  | bound + 1 => do
      if ← accept .flowMappingEnd then return []
      if !isFirst then expect .comma
      if ← accept .flowMappingEnd then return []
      let pair ←
        if ← accept .key then
          let k ← nodeUnless [.value, .comma, .flowMappingEnd] false false bound
          let v ←
            if ← accept .value then
              nodeUnless [.comma, .flowMappingEnd] false false bound
            else pure (Node.empty none none)
          pure (k, v)
        else
          pure (← node false false bound, Node.empty none none)
      return pair :: (← flowEntries false bound)

end

/-! ### Documents -/

/-- The directives in front of a document. The version and each handle may be
given once. -/
def directives : (bound : Nat) → (versioned : Bool) → Rule Unit
  | 0, _ => fail
  | bound + 1, versioned => do
      match ← peek with
      | some (.version major minor) =>
          if versioned ∨ major ≠ 1 ∨ (minor ≠ 1 ∧ minor ≠ 2) then fail
          skip
          directives bound true
      | some (.tagHandle handle base) =>
          if ((← get).handles.lookup handle).isSome then fail
          skip
          modify fun g => { g with handles := (handle, base) :: g.handles }
          directives bound versioned
      | _ => return ()

/-- A document after the mark of its start. It is empty if the next document
starts, or the text ends. -/
def marked (bound : Nat) : Rule Node := do
  match ← peek with
  | none | some .documentStart | some .documentEnd => return .empty none none
  | some (.version ..) | some (.tagHandle ..) => return .empty none none
  | _ => node true false bound

/-- The one document of a text; none if the text holds none. -/
def document (bound : Nat) : Rule (Option Node) := do
  match ← peek with
  | none => return none
  | some t =>
      let n ←
        match t with
        | .version .. | .tagHandle .. | .documentStart => do
            directives bound false
            expect .documentStart
            marked bound
        | _ => node true false bound
      if (← get).tokens.all (· = .documentEnd) then return some n else fail

end Rule

/-- The document of a text; none inside if the text holds none. -/
def document? (cs : List Char) : Option (Option Node) := do
  let tokens ← tokens? cs
  let (n, _) ← (Rule.document (4 * tokens.length + 4)).run ⟨tokens, [], []⟩
  return n

end KCut.Config.Yaml
