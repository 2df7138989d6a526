import PromptFiles.Template.Token
import PromptFiles.Template.Spec
import PromptFiles.Template.Arguments
import PromptFiles.Text.Quoted

/-!
# Formatting a template

Every field with a bound name is replaced by the text of its value, and a field
without one is copied as it stands. A validated run first checks that every
placeholder is bound; a partial run leaves the rest for a later one. The values are
never scanned again. An unmatched brace stops both.
-/

namespace PromptFiles.Template

inductive FormatError where
  | missingVariables (missing provided : List String)
  | unmatchedBrace (brace : Char) (position : Nat)
deriving DecidableEq, Repr

def FormatError.message : FormatError → String
  | missingVariables missing _ => "missing format variables: " ++ Text.quotedList missing
  | unmatchedBrace brace position =>
    "single '" ++ brace.toString ++ "' encountered at byte " ++ Number.numeral position ++
      " of the format string"

def Token.expand (bound : List (String × Value)) : Token → Except FormatError (List Char)
  | literal text => .ok text.toList
  | escaped brace => .ok [brace]
  | field name format =>
    match NameMap.find? name bound with
    | some value => .ok (value.renderAs format).toList
    | none => .ok (Token.field name format).source
  | unmatched brace position => .error (.unmatchedBrace brace position)

def substitute (bound : List (String × Value)) : List Token → Except FormatError (List Char)
  | [] => .ok []
  | token :: rest => do
    let text ← token.expand bound
    let others ← substitute bound rest
    return text ++ others

/-- Format with a given set of placeholders. A partial run skips the check that all of
them are bound. -/
def formatWith (template : String) (names : List String) (args : Arguments) (isPartial : Bool) :
    Except FormatError String :=
  let bound := args.bindings names
  let missing := names.filter (!NameMap.contains · bound)
  if !isPartial && !missing.isEmpty then
    .error (.missingVariables missing (bound.map Prod.fst))
  else (substitute bound (tokenize template)).map String.ofList

def format (template : String) (args : Arguments) : Except FormatError String :=
  formatWith template (placeholders template) args false

def formatPartial (template : String) (args : Arguments) : Except FormatError String :=
  formatWith template (placeholders template) args true

end PromptFiles.Template
