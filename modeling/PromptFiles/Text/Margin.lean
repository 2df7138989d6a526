import PromptFiles.Text.Split

/-!
# The common margin

The margin of a text is the longest run of spaces and tabs that starts every line
with content. Removing it leaves line feeds where they are and empties the lines
that hold only spaces, tabs and trailing carriage returns. Other white space, such
as the ideographic space, is content.
-/

namespace PromptFiles.Text

/-- A text between two line feeds. A carriage return belongs to the line it ends. -/
abbrev Line := List Char

def lines (cs : List Char) : List Line :=
  split '\n' cs

def unlines (ls : List Line) : List Char :=
  join '\n' ls

theorem unlines_lines (cs : List Char) : unlines (lines cs) = cs :=
  join_split '\n' cs

def isIndent (c : Char) : Bool :=
  c == ' ' || c == '\t'

def indent (line : Line) : List Char :=
  line.takeWhile isIndent

def isHollow (line : Line) : Bool :=
  (line.dropWhile isIndent).all (· == '\r')

def commonPrefix : List Char → List Char → List Char
  | a :: as, b :: bs => if a = b then a :: commonPrefix as bs else []
  | _, _ => []

def margin (ls : List Line) : List Char :=
  match (ls.filter (!isHollow ·)).map indent with
  | [] => []
  | first :: others => others.foldl commonPrefix first

/-- The line as it reads once `width` characters of margin are gone. -/
def outdent (width : Nat) (line : Line) : Line :=
  if isHollow line then [] else line.drop width

def dedent (cs : List Char) : List Char :=
  let ls := lines cs
  unlines (ls.map (outdent (margin ls).length))

def dedented (s : String) : String :=
  String.ofList (dedent s.toList)

end PromptFiles.Text
