import PromptFiles.Text.Blank
import PromptFiles.Text.Margin

/-!
# Front matter and body

A file has front matter when its first line is the delimiter. The header runs to the
next line that is the delimiter, and the body is what follows that line. A carriage
return at the end of a delimiter line does not count.
-/

namespace PromptFiles.FrontMatter

def delimiter : String := "---"

def isDelimiter (line : Text.Line) : Bool :=
  line == delimiter.toList || line == delimiter.toList ++ ['\r']

def startsWithDelimiter (text : String) : Bool :=
  (Text.lines text.toList).head?.any isDelimiter

/-- A text cut into header and body; no header if there is no front matter. -/
structure Parts where
  header : Option String
  body : String
deriving DecidableEq, Repr

inductive SplitError where
  | missingClosingDelimiter
deriving DecidableEq, Repr

def SplitError.message : SplitError → String
  | missingClosingDelimiter => "missing closing delimiter '---' for front matter"

def split (text : String) : Except SplitError Parts :=
  match Text.lines text.toList with
  | first :: rest =>
    if isDelimiter first then
      match rest.dropWhile (!isDelimiter ·) with
      | [] => .error .missingClosingDelimiter
      | _ :: after =>
        let header := Text.unlines (rest.takeWhile (!isDelimiter ·))
        .ok ⟨some (String.ofList (Text.trim header)), String.ofList (Text.unlines after)⟩
    else .ok ⟨none, text⟩
  | [] => .ok ⟨none, text⟩

end PromptFiles.FrontMatter
