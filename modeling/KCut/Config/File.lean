import KCut.Config.Basic

/-!
# KCut.Config.File

Configurations from files.
-/

namespace KCut.Config

def noSuchFile : String := "No such file or directory (os error 2)"

/-- The text of the failure to read a file as text. -/
def noText : String := "stream did not contain valid UTF-8"

/-- The configuration in a file, with a reader for its format. The content is
none where there is no file, and the text in it is none where the bytes of the
file are no text. -/
def ofFile (read : String → Except ConfigError Config) :
    Option (Option String) → Except ConfigError Config
  | none => .error (.io noSuchFile)
  | some none => .error (.io noText)
  | some (some text) => read text

end KCut.Config
