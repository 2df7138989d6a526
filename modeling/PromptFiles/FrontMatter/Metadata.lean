import PromptFiles.Json
import PromptFiles.Text.Blank
import PromptFiles.Toml.Value

/-!
# Metadata of a prompt

Five standard fields and the other keys of the header, in its order. Title, description
and version are required of a prompt that is complete; a blank one counts as missing.
-/

namespace PromptFiles

structure Metadata where
  title : Option String := none
  version : Option String := none
  author : Option String := none
  created : Option Calendar.Date := none
  description : Option String := none
  extra : Toml.Table := []

namespace Metadata

def standardFields : List String :=
  ["title", "version", "author", "created", "description"]

def blankField (field : Option String) : Bool :=
  field.all Text.allBlank

def isEmpty (m : Metadata) : Bool :=
  blankField m.title && blankField m.version && blankField m.author && blankField m.description &&
    m.created.isNone && m.extra.isEmpty

def required (m : Metadata) : List (String × Option String) :=
  [("description", m.description), ("title", m.title), ("version", m.version)]

/-- The required fields that are absent or blank. -/
def missingRequired (m : Metadata) : List String :=
  (m.required.filter fun (_, value) => blankField value).map Prod.fst

mutual

def valueJson : Toml.Value → Json
  | .string s => .string s
  | .integer i => .integer i.toInt
  | .float x => .float x
  | .boolean b => .boolean b
  | .datetime d => .string d.text
  | .array items => .array (itemsJson items)
  | .table entries => .ofMembers (entriesJson entries)

def itemsJson : List Toml.Value → List Json
  | [] => []
  | v :: rest => valueJson v :: itemsJson rest

def entriesJson : List (String × Toml.Value) → List (String × Json)
  | [] => []
  | (k, v) :: rest => (k, valueJson v) :: entriesJson rest

end

/-- A standard field that is absent is `null`; other keys stand under `extra` if there are
any. -/
def toJson (m : Metadata) : Json :=
  let extra := if m.extra.isEmpty then [] else [("extra", .ofMembers (entriesJson m.extra))]
  .ofMembers ([("title", .ofOption m.title), ("version", .ofOption m.version),
    ("author", .ofOption m.author), ("created", .ofOption (m.created.map (·.text))),
    ("description", .ofOption m.description)] ++ extra)

def same (m m' : Metadata) : Bool :=
  m.title == m'.title && m.version == m'.version && m.author == m'.author &&
    m.created == m'.created && m.description == m'.description && m.extra.same m'.extra

end Metadata

end PromptFiles
