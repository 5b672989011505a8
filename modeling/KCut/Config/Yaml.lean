import KCut.Config.Format
import KCut.Config.Yaml.Document

/-!
# KCut.Config.Yaml

YAML documents as configurations.

A text without a document asks for nothing, and so does an empty document.
-/

namespace KCut.Config

namespace Yaml

/-- What nodes are good for, given the labelled ones. -/
def format (labelled : List (Nat × Node)) : Format Node where
  natural? n := (n.resolve? labelled).bind Node.natural?
  truth? n := (n.resolve? labelled).bind Node.truth?
  isGiven? n := (n.resolve? labelled).bind Node.isGiven?
  items? n := (n.resolve? labelled).bind Node.items?
  entries? _ n := do
    let entries ← (n.resolve? labelled).bind Node.entries?
    entries.mapM fun (key, value) => do
      return (← (key.resolve? labelled).bind Node.key?, value)

end Yaml

def ofYaml (text : String) : Except ConfigError Config :=
  match Yaml.document? text.toList with
  | none => .error .yaml
  | some none => .ok .default
  | some (some n) =>
      match (Yaml.format (n.labelled [])).config? n with
      | some c => .ok c
      | none => .error .yaml

end KCut.Config
