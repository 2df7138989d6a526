import PromptFiles.Config.Basic
import PromptFiles.Log.Filter

/-!
# Starting and ending a command

A command starts with its configuration, which sets the defaults for this run, and with
the log file that it names. It ends with a status, lines for each of the two output
streams, and the file tree. Log lines go to the second stream; nothing is logged before
the log is open. What is logged depends on the environment's filter, or else on the level
of the configuration; the filter is read once for the stream and once more for a file.
-/

namespace PromptFiles.Command

structure Outcome where
  tree : FileTree
  status : Nat := 0
  output : List String := []
  errors : List String := []

namespace Outcome

def text (lines : List String) : String :=
  String.join (lines.map (· ++ "\n"))

def outputText (o : Outcome) : String :=
  text o.output

def errorText (o : Outcome) : String :=
  text o.errors

end Outcome

structure Started where
  config : Config
  settings : Settings
  filter : Log.Filter
  complaints : List String

inductive StartError where
  | config (cause : ConfigError)
  | log (complaints : List String) (file : String) (cause : FileTree.Fault)
deriving DecidableEq, Repr

def StartError.lines : StartError → List String
  | config cause => ["Error loading config: " ++ cause.message]
  | log complaints file cause =>
    complaints ++ ["Error: failed to open log file " ++ file ++ ": " ++ cause.message]

/-- The log file is there to be written to, with the directories above it. The text of the log is not
kept, so a log file inside a directory that is checked is read as it was. -/
def openLog (t : FileTree) (file : String) : FileTree × Except FileTree.Fault Unit :=
  match t.makeParents file with
  | (t, .error (_, fault)) => (t, .error fault)
  | (t, .ok ()) =>
    match t.touch file with
    | .ok t => (t, .ok ())
    | .error fault => (t, .error fault)

def start (t : FileTree) (env : Environment) (configPath : Option String) :
    FileTree × Except StartError Started :=
  match Config.load t env configPath with
  | .error cause => (t, .error (.config cause))
  | .ok config =>
    let directives := (env.get? Log.Filter.variableName).getD ""
    let complaints := Log.Filter.complaints directives
    let started : Started :=
      { config
        settings := config.apply (.initial (env.get? Settings.modeVariable))
        filter := .ofText directives (.ofSetting config.logging.level)
        complaints }
    match config.logging.file with
    | none => (t, .ok started)
    | some file =>
      match openLog t file with
      | (t, .ok ()) => (t, .ok { started with complaints := complaints ++ complaints })
      | (t, .error fault) => (t, .error (.log complaints file fault))

namespace Started

def log (s : Started) (events : List Log.Event) : List String :=
  s.complaints ++ s.filter.lines events

def finish (s : Started) (t : FileTree) (events : List Log.Event) :
    Except String (List String) → Outcome
  | .ok output => { tree := t, output, errors := s.log events }
  | .error message => { tree := t, status := 1, errors := s.log events ++ ["Error: " ++ message] }

end Started

end PromptFiles.Command
