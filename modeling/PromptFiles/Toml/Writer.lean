import PromptFiles.Number.Decimal
import PromptFiles.Toml.Value

/-!
# Writing TOML

The entries of a table come first, in order, and then its tables and arrays of tables,
in order, each under a header of its own with an empty line before it. Below the top of
a document, arrays that hold tables come after other entries and before tables. The
header of a table is left out when nothing but tables would follow it. A text is written
in the first of four kinds of quotes that needs no escapes, else with escapes.
-/

namespace PromptFiles.Toml

namespace Quotes

def isControl (c : Char) : Bool :=
  (c < ' ' && c != '\t' && c != '\n') || c == '\x7f'

def hasTriple (q : Char) : List Char → Bool
  | a :: b :: c :: rest => (a == q && b == q && c == q) || hasTriple q (b :: c :: rest)
  | _ => false

def upperHex (n : Nat) : Char :=
  if n < 10 then Char.ofNat ('0'.toNat + n) else Char.ofNat ('A'.toNat + (n - 10))

def escaped (c : Char) : List Char :=
  match c with
  | '"' => ['\\', '"']
  | '\\' => ['\\', '\\']
  | '\x08' => ['\\', 'b']
  | '\t' => ['\\', 't']
  | '\n' => ['\\', 'n']
  | '\x0c' => ['\\', 'f']
  | '\r' => ['\\', 'r']
  | c =>
    if isControl c then ['\\', 'u', '0', '0', upperHex (c.toNat / 16), upperHex (c.toNat % 16)]
    else [c]

/-- Characters between three double quotes, after `run` quotes in a row: the third quote of a
run is escaped, a line break stands for itself. -/
def escapedLines (run : Nat) : List Char → List Char
  | [] => []
  | '"' :: rest =>
    if run = 2 then '\\' :: '"' :: escapedLines 0 rest else '"' :: escapedLines (run + 1) rest
  | '\n' :: rest => '\n' :: escapedLines 0 rest
  | c :: rest => escaped c ++ escapedLines 0 rest

def writeBasic (cs : List Char) : List Char :=
  '"' :: cs.flatMap escaped ++ ['"']

def writeLiteral (cs : List Char) : List Char :=
  '\'' :: cs ++ ['\'']

/-- A line break that the reader takes away again. -/
def opening (cs : List Char) : List Char :=
  if '\n' ∈ cs then ['\n'] else []

def writeBasicLines (cs : List Char) : List Char :=
  "\"\"\"".toList ++ opening cs ++ escapedLines 0 cs ++ "\"\"\"".toList

def writeLiteralLines (cs : List Char) : List Char :=
  "'''".toList ++ opening cs ++ cs ++ "'''".toList

def write (cs : List Char) : List Char :=
  let control := cs.any isControl
  if !control && !cs.any (fun c => c == '"' || c == '\\' || c == '\n') then writeBasic cs
  else if !control && !cs.any (fun c => c == '\'' || c == '\n') then writeLiteral cs
  else if !control && !cs.contains '\\' && !hasTriple '"' cs then writeBasicLines cs
  else if !control && !hasTriple '\'' cs then writeLiteralLines cs
  else if cs.contains '\n' then writeBasicLines cs
  else writeBasic cs

def isBare (c : Char) : Bool :=
  c.isAlphanum || c == '_' || c == '-'

/-- A part of a key: bare if possible, else on one line. -/
def writeKey (cs : List Char) : List Char :=
  let broken := cs.any fun c => isControl c || c == '\n'
  if cs ≠ [] && cs.all isBare then cs
  else if !broken && !cs.any (fun c => c == '"' || c == '\\') then writeBasic cs
  else if !broken && !cs.contains '\'' then writeLiteral cs
  else writeBasic cs

end Quotes

/-- A whole number keeps a zero after the point, and no sign tells two of those that are no
number apart. -/
def floatText (x : Number.Binary64) : String :=
  match x with
  | .nan => "nan"
  | x => if x.isWhole then x.plain ++ ".0" else x.plain

def commas (texts : List (List Char)) : List Char :=
  [',', ' '].intercalate texts

namespace Value

def isTable : Value → Bool
  | table _ => true
  | _ => false

/-- The place of an entry within a table: arrays that hold tables come after other values, and
tables come last. -/
def group : Value → Nat
  | table _ => 2
  | array items => if items.any isTable then 1 else 0
  | _ => 0

mutual

def inline : Value → List Char
  | string s => Quotes.write s.toList
  | integer i => (Number.numeral i.toInt).toList
  | float x => (floatText x).toList
  | boolean b => if b then "true".toList else "false".toList
  | datetime d => d.chars
  | array items => '[' :: commas (inlineItems items) ++ [']']
  | table [] => ['{', '}']
  | table entries =>
    '{' :: ' ' :: commas (inlineGroup 0 entries ++ inlineGroup 1 entries ++ inlineGroup 2 entries)
      ++ [' ', '}']

def inlineItems : List Value → List (List Char)
  | [] => []
  | v :: rest => inline v :: inlineItems rest

def inlineGroup (g : Nat) : List (String × Value) → List (List Char)
  | [] => []
  | (k, v) :: rest =>
    if v.group = g then
      (Quotes.writeKey k.toList ++ " = ".toList ++ inline v) :: inlineGroup g rest
    else inlineGroup g rest

end

def text (v : Value) : String :=
  String.ofList v.inline

def isTables : Value → Bool
  | array items => !items.isEmpty && items.all isTable
  | _ => false

def hasHeader (v : Value) : Bool :=
  v.isTable || v.isTables

end Value

namespace Writer

def entryLines : Table → List Char
  | [] => []
  | (k, v) :: rest =>
    if v.hasHeader then entryLines rest
    else Quotes.writeKey k.toList ++ " = ".toList ++ v.inline ++ '\n' :: entryLines rest

def innerLines (t : Table) : List Char :=
  entryLines (t.filter (·.2.group = 0)) ++ entryLines (t.filter (·.2.group = 1))

def headerPath (path : List String) : List Char :=
  ['.'].intercalate (path.map fun k => Quotes.writeKey k.toList)

def tableHeader (path : List String) : List Char :=
  '[' :: headerPath path ++ [']', '\n']

def elementHeader (path : List String) : List Char :=
  '[' :: '[' :: headerPath path ++ [']', ']', '\n']

/-- Nothing but tables below: the headers of those imply this one. -/
def isImplied (t : Table) : Bool :=
  !t.isEmpty && t.all fun (_, v) => v.hasHeader

mutual

def valueBlocks (path : List String) : Value → List (List Char)
  | .table entries =>
    (if isImplied entries then [] else [tableHeader path ++ innerLines entries]) ++
      tableBlocks Value.isTables path entries ++ tableBlocks Value.isTable path entries
  | .array items => elementBlocks path items
  | _ => []

def tableBlocks (wanted : Value → Bool) (path : List String) :
    List (String × Value) → List (List Char)
  | [] => []
  | (k, v) :: rest =>
    (if wanted v then valueBlocks (path ++ [k]) v else []) ++ tableBlocks wanted path rest

def elementBlocks (path : List String) : List Value → List (List Char)
  | [] => []
  | .table entries :: rest =>
    ((elementHeader path ++ innerLines entries) ::
      (tableBlocks Value.isTables path entries ++ tableBlocks Value.isTable path entries)) ++
      elementBlocks path rest
  | _ :: rest => elementBlocks path rest

end

/-- Blocks with an empty line between two. -/
def document (t : Table) : List Char :=
  let first := entryLines t
  let blocks := tableBlocks Value.hasHeader [] t
  ['\n'].intercalate (if first = [] then blocks else first :: blocks)

end Writer

def Table.text (t : Table) : String :=
  String.ofList (Writer.document t)

end PromptFiles.Toml
