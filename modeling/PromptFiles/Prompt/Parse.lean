import PromptFiles.FrontMatter.Decode
import PromptFiles.FrontMatter.Split
import PromptFiles.FrontMatter.Write
import PromptFiles.Log
import PromptFiles.Prompt.Basic
import PromptFiles.Prompt.Error
import PromptFiles.Title

/-!
# Parsing prompts

The mode decides what becomes of the front matter: strict needs it complete, allow takes
what there is, ignore leaves it in the body. A prompt without a title is called after
its source. The body loses its common margin and then the white space at its ends, and
something has to be left.
-/

namespace PromptFiles

/-- The metadata and the body of a text, before title and margin are seen to. -/
def readParts (mode : Mode) (id text : String) : Except PromptError (Metadata × String) :=
  match mode with
  | .ignore => .ok ({}, text)
  | .strict | .allow =>
    match FrontMatter.split text with
    | .error .missingClosingDelimiter => .error (.malformedHeader id)
    | .ok ⟨none, body⟩ => if mode = .strict then .error (.missingMetadata id) else .ok ({}, body)
    | .ok ⟨some header, body⟩ =>
      match FrontMatter.decode mode header with
      | .ok metadata => .ok (metadata, body)
      | .error cause => .error (.invalidMetadata id cause)

def Metadata.titled (m : Metadata) (id : String) : Metadata :=
  if blankField m.title then { m with title := some (fallbackTitle id) } else m

def normalBody (body : String) : String :=
  Text.trimmed (Text.dedented body)

def Prompt.create (path : String) (metadata : Metadata) (body : String) :
    Except PromptError Prompt :=
  match Prompt.ofParts? path metadata body with
  | some p => .ok p
  | none => .error (.emptyContent path)

def parseContent (mode : Mode) (id text : String) : Except PromptError Prompt :=
  if Text.allBlank text then .error (.emptyContent id)
  else
    match readParts mode id text with
    | .ok (metadata, body) => Prompt.create id (metadata.titled id) (normalBody body)
    | .error e => .error e

def namedSource (id : String) : String :=
  if id = "" then inlineSource else id

def parseText (settings : Settings) (mode : Option Mode) (id text : String) :
    Except PromptError Prompt :=
  parseContent (settings.resolve mode) (namedSource id) text

/-! ## What is logged -/

def FrontMatter.dateEvents (t : Toml.Table) : List Log.Event :=
  let entered := t.takeWhile fun (key, value) => (enter {} key value).isOk
  entered.filterMap fun (key, value) =>
    if key = "created" && (dateOf? value).isNone then some (.unreadableDate value.text) else none

def FrontMatter.decodeEvents (mode : Mode) (header : String) : List Log.Event :=
  match Toml.Reader.table? header with
  | none => []
  | some t =>
    dateEvents t ++
      match decodeTable mode t with
      | .ok m => [.decodedHeader m.title m.extra.length]
      | .error _ => []

def advisory (settings : Settings) (mode : Mode) (id text : String) : List Log.Event :=
  if mode = .ignore && settings.warnOnIgnored && FrontMatter.startsWithDelimiter text then
    [.ignoredHeader id]
  else []

def headerEvents (mode : Mode) (text : String) : List Log.Event :=
  match mode, FrontMatter.split text with
  | .ignore, _ => []
  | _, .ok ⟨some header, _⟩ => FrontMatter.decodeEvents mode header
  | _, _ => []

def parseEvents (settings : Settings) (mode : Mode) (id text : String) : List Log.Event :=
  if Text.allBlank text then []
  else
    advisory settings mode id text ++ headerEvents mode text ++
      match parseContent mode id text with
      | .ok p => [.parsedPrompt id mode p.body.utf8ByteSize]
      | .error _ => []

end PromptFiles
