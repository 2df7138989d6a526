import PromptFiles.Toml.Document
import PromptFiles.Toml.Quotes
import PromptFiles.Toml.Scalar

/-!
# Reading TOML

A reader takes what is left of the text and gives what it read and what is left then.
Line breaks, comments and a comma at the end are allowed inside brackets and braces,
though not within a dotted key. Arrays and tables in braces nest to `depthLimit`, and a
dotted key has at most as many parts. A byte-order mark at the start is skipped.
-/

namespace PromptFiles.Toml.Reader

open Quotes (isPlain isBlank lineBreak?)

def depthLimit : Nat := 80

def skipBlank (cs : List Char) : List Char :=
  cs.dropWhile isBlank

/-- White space, line breaks and comments left out; inside a comment if the flag says so. What
may not stand in a comment ends it, and no reader takes it up. -/
def skipTrivia (inComment : Bool) : List Char → List Char
  | '\n' :: rest => skipTrivia false rest
  | '\r' :: '\n' :: rest => skipTrivia false rest
  | c :: rest =>
    if inComment then if isPlain c then skipTrivia true rest else c :: rest
    else if isBlank c then skipTrivia false rest
    else if c = '#' then skipTrivia true rest
    else c :: rest
  | [] => []

def lineEnd? (cs : List Char) : Option (List Char) :=
  let rest := match skipBlank cs with
    | '#' :: comment => comment.dropWhile isPlain
    | rest => rest
  if rest = [] then some [] else lineBreak? rest

def isKeyChar (c : Char) : Bool :=
  c.isAlphanum || c == '_' || c == '-'

def keyPart? : List Char → Option (String × List Char)
  | '"' :: rest => (Quotes.basic rest).map fun (cs, rest) => (String.ofList cs, rest)
  | '\'' :: rest => (Quotes.literal rest).map fun (cs, rest) => (String.ofList cs, rest)
  | cs =>
    let run := cs.takeWhile isKeyChar
    if run = [] then none else some (String.ofList run, cs.dropWhile isKeyChar)

/-- At most `limit` parts with points between them, and white space around any of them. -/
def key? (limit : Nat) (cs : List Char) : Option (List String × List Char) :=
  match limit with
  | 0 => none
  | limit + 1 => do
    let (part, rest) ← keyPart? (skipBlank cs)
    match skipBlank rest with
    | '.' :: rest =>
      let (parts, rest) ← key? limit rest
      return (part :: parts, rest)
    | rest => return ([part], rest)

def keyNode? (skip : List Char → List Char) (node : List Char → Option (Node × List Char))
    (cs : List Char) : Option ((List String × Node) × List Char) := do
  let (key, rest) ← key? depthLimit cs
  match skip rest with
  | '=' :: rest =>
    let (n, rest) ← node (skip rest)
    return ((key, n), rest)
  | _ => none

/-- Items up to a closing character, with commas between them. -/
def items? (item : List Char → Option (α × List Char)) (close : Char) (cs : List Char) :
    Option (List α × List Char) :=
  match skipTrivia false cs with
  | [] => none
  | c :: rest =>
    if c = close then some ([], rest)
    else
      match item (c :: rest) with
      | none => none
      | some (a, after) =>
        match skipTrivia false after with
        | ',' :: after =>
          if after.length < cs.length then
            (items? item close after).map fun (as, rest) => (a :: as, rest)
          else none
        | d :: after => if d = close then some ([a], after) else none
        | [] => none
termination_by cs.length

/-- A value inside at most `depth` more brackets and braces. -/
def node? (depth : Nat) (cs : List Char) : Option (Node × List Char) :=
  match cs with
  | '[' :: rest =>
    match depth with
    | 0 => none
    | depth + 1 => (items? (node? depth) ']' rest).map fun (ns, rest) => (.array ns, rest)
  | '{' :: rest =>
    match depth with
    | 0 => none
    | depth + 1 => do
      let (entries, rest) ← items? (keyNode? (skipTrivia false) (node? depth)) '}' rest
      let es ← Node.addEntries entries []
      return (.braces es, rest)
  | '"' :: _ | '\'' :: _ => (Quotes.text? cs).map fun (s, rest) => (.string s, rest)
  | _ => Scalar.node? cs

inductive Statement where
  | entry (path : List String) (node : Node)
  | header (isElement : Bool) (path : List String)

def headerKey? (cs : List Char) : Option (List String × List Char) := do
  let (path, rest) ← key? depthLimit cs
  match rest with
  | ']' :: rest => return (path, rest)
  | _ => none

def statement? : List Char → Option (Statement × List Char)
  | '[' :: '[' :: rest => do
    let (path, rest) ← headerKey? rest
    match rest with
    | ']' :: rest => return (.header true path, rest)
    | _ => none
  | '[' :: rest => (headerKey? rest).map fun (path, rest) => (.header false path, rest)
  | cs =>
    (keyNode? skipBlank (node? depthLimit) cs).map fun ((path, n), rest) => (.entry path n, rest)

def statements? (cs : List Char) : Option (List Statement) :=
  if skipBlank cs = [] then some []
  else
    match lineEnd? cs with
    | some rest => if rest.length < cs.length then statements? rest else none
    | none =>
      match statement? (skipBlank cs) with
      | none => none
      | some (s, rest) =>
        match lineEnd? rest with
        | none => none
        | some rest =>
          if rest.length < cs.length then (statements? rest).map (s :: ·) else none
termination_by cs.length

/-- The entries before the first header, and the sections. -/
def Statement.gather : List Statement → List (List String × Node) × List Section
  | [] => ([], [])
  | entry path node :: rest => ((path, node) :: (gather rest).1, (gather rest).2)
  | header isElement path :: rest => ([], ⟨isElement, path, (gather rest).1⟩ :: (gather rest).2)

def skipMark : List Char → List Char
  | '\ufeff' :: rest => rest
  | cs => cs

def entries? (text : String) : Option Node.Entries := do
  let ss ← statements? (skipMark text.toList)
  let (entries, sections) := Statement.gather ss
  Document.toEntries? { entries, sections }

/-- The table that a text denotes, none if the text is not TOML or holds what no value can be. -/
def table? (text : String) : Option Table :=
  (entries? text).bind Node.toTable?

end PromptFiles.Toml.Reader
