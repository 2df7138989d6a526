import PromptFiles.Text.Blank

/-!
# Metadata mode and default settings

The mode says what happens to the front matter of a file. The settings hold the mode
of every parse that names none, and whether an ignored header is worth a warning.
-/

namespace PromptFiles

inductive Mode where
  /-- Front matter is required, and so are title, description and version. -/
  | strict
  /-- Front matter is read where there is some. -/
  | allow
  /-- The whole file is the body. -/
  | ignore
deriving DecidableEq, Repr

namespace Mode

def name : Mode → String
  | strict => "strict"
  | allow => "allow"
  | ignore => "ignore"

def ofName? : String → Option Mode
  | "strict" => some strict
  | "allow" => some allow
  | "ignore" => some ignore
  | _ => none

def parse? (text : String) : Option Mode :=
  ofName? (Text.lowered (Text.trimmed text))

def refusal (text : String) : String :=
  "invalid metadata mode: '" ++ text ++ "' (expected 'strict', 'allow', or 'ignore')"

end Mode

structure Settings where
  mode : Mode := .allow
  warnOnIgnored : Bool := true
deriving DecidableEq, Repr

namespace Settings

def modeVariable : String := "TEXTPROMPTS_METADATA_MODE"

def initial (modeText : Option String) : Settings :=
  { mode := (modeText.bind Mode.parse?).getD .allow }

def resolve (settings : Settings) (explicit : Option Mode) : Mode :=
  explicit.getD settings.mode

def withMode (settings : Settings) (mode : Mode) : Settings :=
  { settings with mode }

def withModeText? (settings : Settings) (text : String) : Option Settings :=
  (Mode.parse? text).map settings.withMode

def withWarning (settings : Settings) (warnOnIgnored : Bool) : Settings :=
  { settings with warnOnIgnored }

end Settings

end PromptFiles
