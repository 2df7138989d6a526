import PromptFiles.Number.Numeral
import PromptFiles.Settings
import PromptFiles.Text.Quoted

/-!
# Log events

What the library tells about its work, besides its results. Only the advisory about an
ignored header is a warning. Each event comes from a part of the program, which filters
know by its name.
-/

namespace PromptFiles.Log

inductive Level where
  | error
  | warn
  | info
  | debug
  | trace
deriving DecidableEq, Repr

namespace Level

def name : Level → String
  | error => "ERROR"
  | warn => "WARN"
  | info => "INFO"
  | debug => "DEBUG"
  | trace => "TRACE"

def weight : Level → Nat
  | error => 5
  | warn => 4
  | info => 3
  | debug => 2
  | trace => 1

end Level

/-- The least weighty level that passes, none if nothing does. -/
abbrev Threshold := Option Level

namespace Threshold

def ofName? (name : String) : Option Threshold :=
  match Text.lowered name with
  | "off" => some none
  | "error" => some (some .error)
  | "warn" => some (some .warn)
  | "info" => some (some .info)
  | "debug" => some (some .debug)
  | "trace" => some (some .trace)
  | _ => none

/-- White space around the name does not matter, and any other text stands for `info`. -/
def ofSetting (setting : String) : Threshold :=
  (ofName? (Text.trimmed setting)).getD (some .info)

def admits (threshold : Threshold) (level : Level) : Bool :=
  threshold.any (·.weight ≤ level.weight)

end Threshold

inductive Event where
  | ignoredHeader (source : String)
  | unreadableDate (value : String)
  | decodedHeader (title : Option String) (extra : Nat)
  | parsedPrompt (source : String) (mode : Mode) (bodyBytes : Nat)
  | changedMode (mode : Mode)
  | noConfig (path : String)
  | savedPrompt (path : String)
  | loadedPrompts (count : Nat)
  | checkedFiles (checked failed : Nat)
  | resolvedConfig (source : Option String)
deriving DecidableEq, Repr

namespace Event

def level : Event → Level
  | ignoredHeader _ => .warn
  | _ => .debug

def target : Event → String
  | ignoredHeader _ | parsedPrompt .. => "textprompts_core::prompts::parser"
  | unreadableDate _ | decodedHeader .. => "textprompts_core::frontmatter::decoder"
  | changedMode _ => "textprompts_core::config::global"
  | noConfig _ => "textprompts_core::config::loader"
  | savedPrompt _ => "textprompts_core::prompts::saver"
  | loadedPrompts _ => "textprompts_core::prompts::loader"
  | checkedFiles .. => "textprompts::cmd::check"
  | resolvedConfig _ => "textprompts::cmd::doctor"

def message : Event → String
  | ignoredHeader _ =>
    "content starts with '---' but metadata is ignored; use the allow or strict mode to parse it"
  | unreadableDate _ => "ignoring unparseable 'created' date"
  | decodedHeader .. => "decoded front matter"
  | parsedPrompt .. => "parsed prompt"
  | changedMode _ => "default metadata mode changed"
  | noConfig _ => "no config file, using defaults"
  | savedPrompt _ => "saved prompt"
  | loadedPrompts _ => "loaded prompts"
  | checkedFiles .. => "check finished"
  | resolvedConfig _ => "config resolved"

def optional (quoted : Option String) : String :=
  match quoted with
  | some text => "Some(" ++ text ++ ")"
  | none => "None"

def fields : Event → List (String × String)
  | ignoredHeader source => [("source", Text.quoted source)]
  | unreadableDate value => [("value", value)]
  | decodedHeader title extra =>
    [("title", optional (title.map Text.quoted)), ("extra", Number.numeral extra)]
  | parsedPrompt source mode bodyBytes =>
    [("source", Text.quoted source), ("mode", mode.name), ("body_len", Number.numeral bodyBytes)]
  | changedMode mode => [("mode", mode.name)]
  | noConfig path => [("path", path)]
  | savedPrompt path => [("path", path)]
  | loadedPrompts count => [("count", Number.numeral count)]
  | checkedFiles checked failed =>
    [("checked", Number.numeral checked), ("failed", Number.numeral failed)]
  | resolvedConfig source => [("source", optional (source.map Text.quotedPath))]

/-- The level in five places, the message, and the fields. -/
def line (e : Event) : String :=
  let name := e.level.name
  let margin := String.ofList (List.replicate (5 - name.length) ' ')
  margin ++ name ++ " " ++ e.message ++
    String.join (e.fields.map fun (key, value) => " " ++ key ++ "=" ++ value)

def fieldNames (e : Event) : List String :=
  "message" :: e.fields.map Prod.fst

end Event

end PromptFiles.Log
