import PromptFiles.Command.Invocation
import PromptFiles.Command.Outcome
import PromptFiles.Prompt.Save

/-!
# Running the commands

Each command works on a file tree and ends with an outcome; only `new`, and an open log,
change the tree. The status is 0 if all went well, 1 after an error and 2 if the command
line was not understood.
-/

namespace PromptFiles.Command

def onPrompt (s : Started) (t : FileTree) (file : String) (mode : Option Mode)
    (report : Prompt → Except PromptError (List String)) : Outcome :=
  s.finish t (sourceEvents s.settings (t.source none) mode file)
    (((loadPrompt s.settings t mode file).bind report).mapError (·.message))

/-! ## Looking at a prompt -/

def promptJson (p : Prompt) : Json :=
  .ofMembers [("path", .string p.path), ("title", .string p.title), ("meta", p.metadata.toJson),
    ("placeholders", .array (p.placeholders.map .string)), ("body", .string p.body)]

def view (p : Prompt) (asJson : Bool) : List String :=
  if asJson then [(promptJson p).prettyText] else [p.body]

def summaryJson (s : Template.Summary) : Json :=
  .ofMembers [("count", .integer s.count), ("names", .array (s.names.map .string)),
    ("has_positional", .boolean s.hasPositional), ("has_named", .boolean s.hasNamed),
    ("is_mixed", .boolean s.isMixed)]

/-- A placeholder on its own line; one without a name is shown by its braces. -/
def placeholderLine (name : String) : String :=
  if name = "" then "\x7b\x7d" else name

def listPlaceholders (s : Template.Summary) (asJson : Bool) : List String :=
  if asJson then [(summaryJson s).prettyText]
  else if s.names = [] then ["(no placeholders)"]
  else s.names.map placeholderLine ++ ["-- " ++ Number.numeral s.count ++ " placeholders --"]

/-! ## Filling in a prompt -/

/-- The positional values in their order, and the last value of each name. -/
def FormatRequest.arguments (r : FormatRequest) : Template.Arguments :=
  .ofLists (r.positional.map inferred) (r.named.map fun (name, value) => (name, inferred value))

def FormatRequest.apply (r : FormatRequest) (p : Prompt) : Except PromptError (List String) :=
  match p.format r.arguments r.isPartial with
  | .ok text => .ok [text]
  | .error cause => .error (.format cause)

/-! ## Checking prompts -/

/-- The options of the configuration, as far as the request leaves them. -/
def CheckRequest.options (r : CheckRequest) (c : Config) : LoadOptions where
  recursive := c.loading.recursive || r.recursive
  glob := r.glob.getD c.loading.glob
  mode := r.mode
  maxFiles :=
    match r.maxFiles with
    | some limit => if limit = 0 then none else some limit
    | none => c.maxFiles

structure Verdict where
  path : String
  result : Except PromptError Prompt

namespace Verdict

def passed (v : Verdict) : Bool :=
  v.result.isOk

def lines (v : Verdict) : List String :=
  match v.result with
  | .ok p =>
    ["OK   " ++ v.path ++ " (" ++ Number.numeral p.placeholders.length ++ " placeholders)"]
  | .error e => ["FAIL " ++ v.path, "     [" ++ e.kind ++ "] " ++ e.message]

end Verdict

def verdicts (s : Started) (t : FileTree) (mode : Option Mode) (files : List String) :
    List Verdict :=
  files.map fun file => ⟨file, loadPrompt s.settings t mode file⟩

def failures (report : List Verdict) : Nat :=
  report.countP (!·.passed)

def reportLines (report : List Verdict) : List String :=
  report.flatMap (·.lines) ++
    ["-- " ++ Number.numeral report.length ++ " checked, " ++ Number.numeral (failures report) ++
      " failed --"]

def runCheck (s : Started) (t : FileTree) (r : CheckRequest) : Outcome :=
  let options := r.options s.config
  match collect t options r.paths with
  | .error e => s.finish t [] (.error e.message)
  | .ok [] => s.finish t [] (.ok ["(no prompt files found)"])
  | .ok files =>
    let report := verdicts s t options.mode files
    let events := files.flatMap (sourceEvents s.settings (t.source none) options.mode)
    { tree := t
      status := if failures report = 0 then 0 else 1
      output := reportLines report
      errors := s.log (events ++ [.checkedFiles files.length (failures report)]) }

/-! ## Making a prompt file -/

def defaultBody : String :=
  "Write the prompt here. Use \x7bname\x7d for values filled in at format time."

def NewRequest.metadata (r : NewRequest) (today : Calendar.Date) : Metadata where
  title := r.title
  description := r.description
  version := r.version
  author := r.author
  created := some today

def runNew (s : Started) (t : FileTree) (today : Calendar.Date) (r : NewRequest) : Outcome :=
  if t.exists? r.file && !r.overwrite then
    s.finish t [] (.error (r.file ++ " already exists (use --force to overwrite)"))
  else
    let metadata := r.metadata today
    match save t r.file metadata (r.body.getD defaultBody) with
    | (t, .error e) => s.finish t [] (.error e.message)
    | (t, .ok ()) =>
      let missing := metadata.missingRequired
      let reminder := if missing = [] then []
        else ["fill in before strict loading: " ++ ", ".intercalate missing]
      let report := ["OK   " ++ programName ++ " new", "path: " ++ r.file]
      s.finish t [.savedPrompt r.file] (.ok (report ++ reminder))

/-! ## Showing the configuration -/

def truth (b : Bool) : String :=
  if b then "true" else "false"

def configLines (s : Started) (env : Environment) (path : String) : List String :=
  let c := s.config
  ["OK   " ++ programName ++ " doctor",
    "path: " ++ path,
    "loaded: " ++ truth c.source.isSome,
    "metadata.mode: " ++ s.settings.mode.name,
    "metadata.warn_on_ignored: " ++ truth c.metadata.warnOnIgnored,
    "loading.glob: " ++ c.loading.glob,
    "loading.recursive: " ++ truth c.loading.recursive,
    "loading.max_files: " ++ Number.numeral c.loading.maxFiles,
    "logging.level: " ++ c.logging.level] ++
    c.logging.file.toList.map ("logging.file: " ++ ·) ++
    (env.get? Settings.modeVariable).toList.map ("env " ++ Settings.modeVariable ++ ": " ++ ·)

/-! ## Any command -/

/-- A command that could not start. `doctor` reports on a configuration that is at fault. -/
def Invocation.fail (i : Invocation) (t : FileTree) (env : Environment) : StartError → Outcome
  | .config cause =>
    if i.action = .doctor then
      let place := if i.config.isSome then [] else ["looked for: " ++ Config.defaultPath env]
      let report := ["FAIL " ++ programName ++ " doctor", cause.message]
      { tree := t, status := 1, output := report ++ place }
    else { tree := t, status := 1, errors := (StartError.config cause).lines }
  | e => { tree := t, status := 1, errors := e.lines }

def Invocation.proceed (i : Invocation) (s : Started) (t : FileTree) (env : Environment)
    (today : Calendar.Date) : Outcome :=
  match i.action with
  | .doctor =>
    s.finish t [.resolvedConfig s.config.source]
      (.ok (configLines s env (i.config.getD (Config.defaultPath env))))
  | .view file mode asJson => onPrompt s t file mode fun p => .ok (view p asJson)
  | .placeholders file mode asJson =>
    onPrompt s t file mode fun p => .ok (listPlaceholders p.summary asJson)
  | .format r => onPrompt s t r.file r.mode r.apply
  | .check r => runCheck s t r
  | .create r => runNew s t today r

def Invocation.run (i : Invocation) (t : FileTree) (env : Environment) (today : Calendar.Date) :
    Outcome :=
  match start t env i.config with
  | (t, .error e) => i.fail t env e
  | (t, .ok s) => i.proceed s t env today

def usage : List String :=
  ["Inspect, check, and render prompt files with TOML front matter",
    "",
    "Usage: " ++ programName ++ " [--config FILE] COMMAND",
    "",
    "  doctor                                     validate and print the configuration",
    "  show FILE [--meta MODE] [--json]           print the body or the whole prompt",
    "  placeholders FILE [--meta MODE] [--json]   list the placeholders",
    "  format FILE [--var KEY=VALUE]... [--arg VALUE]... [--partial] [--meta MODE]",
    "                                             fill in values and print the result",
    "  check PATH... [-r] [--glob PATTERN] [--meta MODE] [--max-files N]",
    "                                             parse files and report those that fail",
    "  new FILE [--title T] [--description D] [--version V] [--author A] [--body B] [--force]",
    "                                             create a prompt file"]

def run (t : FileTree) (env : Environment) (today : Calendar.Date) (arguments : List String) :
    Outcome :=
  match Invocation.parse arguments with
  | .ok invocation => invocation.run t env today
  | .error .help => { tree := t, output := usage }
  | .error .version => { tree := t, output := [programName ++ " " ++ version] }
  | .error .misuse => { tree := t, status := 2, errors := usage }

end PromptFiles.Command
