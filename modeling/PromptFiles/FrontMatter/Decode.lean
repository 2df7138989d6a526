import PromptFiles.Calendar.Reading
import PromptFiles.FrontMatter.Metadata
import PromptFiles.Settings
import PromptFiles.Toml.Reader
import PromptFiles.Toml.Writer

/-!
# Decoding a header

A header is a TOML table. Its standard keys fill the fields of the metadata, a number,
a truth value or a date as its text; a list or a table is no text. A date of creation
that cannot be read is left out. All other keys are kept as they are. In strict mode the
required fields have to be there.
-/

namespace PromptFiles.FrontMatter

inductive DecodeError where
  | invalidToml
  | incomplete (fields : List String)
  | invalidField (field : String)
deriving DecidableEq, Repr

def tomlAccount : String := "TOML parse error"

def DecodeError.message : DecodeError → String
  | invalidToml => "invalid TOML in front matter: " ++ tomlAccount
  | incomplete fields =>
    "missing or empty required metadata fields: " ++ ", ".intercalate fields ++
      "; strict mode requires non-empty 'title', 'description', and 'version'" ++
      " (use the allow mode for less strict validation)"
  | invalidField field => "metadata field '" ++ field ++ "' must be a string"

def stringOf? : Toml.Value → Option String
  | .string s => some s
  | .array _ | .table _ => none
  | v => some v.text

def dateOf? : Toml.Value → Option Calendar.Date
  | .datetime d => d.date?
  | .string s => Calendar.dateOfText? s
  | _ => none

def textField (key : String) (value : Toml.Value) : Except DecodeError String :=
  match stringOf? value with
  | some s => .ok s
  | none => .error (.invalidField key)

def enter (m : Metadata) (key : String) (value : Toml.Value) : Except DecodeError Metadata :=
  match key with
  | "title" => (textField key value).map fun s => { m with title := some s }
  | "version" => (textField key value).map fun s => { m with version := some s }
  | "author" => (textField key value).map fun s => { m with author := some s }
  | "description" => (textField key value).map fun s => { m with description := some s }
  | "created" => .ok { m with created := dateOf? value }
  | _ => .ok { m with extra := m.extra ++ [(key, value)] }

def enterAll (m : Metadata) : Toml.Table → Except DecodeError Metadata
  | [] => .ok m
  | (key, value) :: rest => do enterAll (← enter m key value) rest

def check (mode : Mode) (m : Metadata) : Except DecodeError Metadata :=
  if mode = .strict && !m.missingRequired.isEmpty then .error (.incomplete m.missingRequired)
  else .ok m

def decodeTable (mode : Mode) (t : Toml.Table) : Except DecodeError Metadata := do
  check mode (← enterAll {} t)

def decode (mode : Mode) (header : String) : Except DecodeError Metadata :=
  match Toml.Reader.table? header with
  | some t => decodeTable mode t
  | none => .error .invalidToml

end PromptFiles.FrontMatter
