import PromptFiles.Command.Arguments

/-!
# Commands

The six commands with what each of them is given, and their forms on the command line.
The configuration file may be named before the command or among its arguments, where it
counts for more.
-/

namespace PromptFiles.Command

structure CheckRequest where
  paths : List String
  recursive : Bool := false
  glob : Option String := none
  mode : Option Mode := none
  /-- No limit if it is zero. -/
  maxFiles : Option Nat := none
deriving DecidableEq, Repr

structure FormatRequest where
  file : String
  named : List (String × String) := []
  positional : List String := []
  isPartial : Bool := false
  mode : Option Mode := none
deriving DecidableEq, Repr

structure NewRequest where
  file : String
  title : Option String := none
  description : Option String := none
  version : Option String := none
  author : Option String := none
  body : Option String := none
  overwrite : Bool := false
deriving DecidableEq, Repr

inductive Action where
  | doctor
  | view (file : String) (mode : Option Mode) (asJson : Bool)
  | placeholders (file : String) (mode : Option Mode) (asJson : Bool)
  | format (request : FormatRequest)
  | check (request : CheckRequest)
  | create (request : NewRequest)
deriving DecidableEq, Repr

def Action.paths : Action → List String
  | .doctor => []
  | .view file _ _ | .placeholders file _ _ => [file]
  | .format request => [request.file]
  | .check request => request.paths
  | .create request => [request.file]

structure Invocation where
  config : Option String := none
  action : Action
deriving DecidableEq, Repr

/-! ## Forms -/

def configOption : ValueOption := ⟨"config", .path, false⟩

def commonForm : Form where
  flags := ["help", "version"]
  letters := [('h', "help"), ('V', "version")]
  options := [configOption]

def form (flags : List String) (letters : List (Char × String)) (options : List ValueOption)
    (leastOperands : Nat) (mostOperands : Option Nat) : Form where
  flags := "help" :: flags
  letters := ('h', "help") :: letters
  options := configOption :: options
  leastOperands
  mostOperands

def modeOption : ValueOption := ⟨"meta", .mode, false⟩

def viewForm : Form :=
  form ["json"] [] [modeOption] 1 (some 1)

def formatForm : Form :=
  form ["partial"] [] [⟨"var", .binding, true⟩, ⟨"arg", .text, true⟩, modeOption] 1 (some 1)

def checkForm : Form :=
  form ["recursive"] [('r', "recursive")]
    [⟨"glob", .text, false⟩, modeOption, ⟨"max-files", .count, false⟩] 1 none

def newForm : Form :=
  form ["force"] []
    (["title", "description", "version", "author", "body"].map (⟨·, .text, false⟩)) 1 (some 1)

/-! ## From what is given to actions -/

namespace Given

def file (g : Given) : String :=
  g.operands.headD ""

def mode? (g : Given) : Option Mode :=
  (g.value? "meta").bind Mode.parse?

def toFormat (g : Given) : FormatRequest where
  file := g.file
  named := (g.valuesOf "var").filterMap binding?
  positional := g.valuesOf "arg"
  isPartial := g.has "partial"
  mode := g.mode?

def toCheck (g : Given) : CheckRequest where
  paths := g.operands
  recursive := g.has "recursive"
  glob := g.value? "glob"
  mode := g.mode?
  maxFiles := (g.value? "max-files").bind count?

def toNew (g : Given) : NewRequest where
  file := g.file
  title := g.value? "title"
  description := g.value? "description"
  version := g.value? "version"
  author := g.value? "author"
  body := g.value? "body"
  overwrite := g.has "force"

end Given

def command? : String → Option (Form × (Given → Action))
  | "doctor" => some (form [] [] [] 0 (some 0), fun _ => .doctor)
  | "show" => some (viewForm, fun g => .view g.file g.mode? (g.has "json"))
  | "placeholders" => some (viewForm, fun g => .placeholders g.file g.mode? (g.has "json"))
  | "format" => some (formatForm, fun g => .format g.toFormat)
  | "check" => some (checkForm, fun g => .check g.toCheck)
  | "new" => some (newForm, fun g => .create g.toNew)
  | _ => none

/-- A request for help may also be written as a command, of which one more may be named. -/
def helpRequest : List String → Stop
  | [] => .help
  | [name] => if (command? name).isSome || name = "help" then .help else .misuse
  | _ => .misuse

/-- What a command line asks for. -/
def Invocation.parse (arguments : List String) : Except Stop Invocation := do
  let (before, rest) := items commonForm true arguments
  let common ← Given.ofItems commonForm before
  match rest with
  | [] => .error .misuse
  | "help" :: rest => .error (helpRequest rest)
  | name :: rest =>
    match command? name with
    | none => .error .misuse
    | some (form, action) =>
      let given ← Given.ofItems form (items form false rest).1
      return ⟨given.value? "config" <|> common.value? "config", action given⟩

end PromptFiles.Command
