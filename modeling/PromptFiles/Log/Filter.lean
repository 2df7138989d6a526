import PromptFiles.Log
import PromptFiles.Text.Alphanumeric
import PromptFiles.Text.Split

/-!
# Log filters

A filter is a list of directives with commas between them. A directive is a level, or
the start of the names of the parts of the program it speaks of, or both with an equals
sign between them; without a level it lets everything pass. Brackets before the equals
sign hold the name of a span, which nothing here opens, or a field in braces that an
event has to have. Of the directives that speak of an event the most specific decides,
and of two that speak of the same events the later one. An event that no directive
speaks of does not pass. A directive that cannot be read is reported and left out; if
none is left, a threshold stands in for the filter.
-/

namespace PromptFiles.Log

/-- A threshold by number, from 0 for off to 5 for all, or by name. -/
def Threshold.ofText? (text : String) : Option Threshold :=
  let digits := match text.toList with
    | '+' :: rest => rest
    | cs => cs
  if Number.isNumeral digits then
    match Number.ofDigits digits with
    | 0 => some none
    | 1 => some (some .error)
    | 2 => some (some .warn)
    | 3 => some (some .info)
    | 4 => some (some .debug)
    | 5 => some (some .trace)
    | _ => none
  else ofName? text

structure Directive where
  target : Option String := none
  /-- It speaks only of what happens within a span. -/
  inSpan : Bool := false
  field : Option String := none
  threshold : Threshold := some .trace
deriving DecidableEq, Repr

namespace Directive

inductive Flaw where
  | form
  | level
deriving DecidableEq, Repr

def Flaw.message : Flaw → String
  | form => "invalid filter directive"
  | level =>
    "error parsing level filter: expected one of \"off\", \"error\", \"warn\", \"info\", " ++
      "\"debug\", \"trace\", or a number 0-5"

def withLevel (d : Directive) (text : List Char) : Except Flaw Directive :=
  if text = [] then .ok d
  else
    match Threshold.ofText? (String.ofList text) with
    | some threshold => .ok { d with threshold }
    | none => .error .level

/-- A field, with a value if there is an equals sign. Only spans have values to compare. -/
def withField (d : Directive) (text : List Char) : Directive :=
  let name := String.ofList (text.takeWhile (· != '='))
  if '=' ∈ text then { d with inSpan := true } else { d with field := some name }

/-- Cut a text where its trimmed form has one of the marks. White space at its start is skipped
in the search but not in the cut, which then falls short of the mark. -/
def cutAt (marks : List Char) (start : Nat) (text : List Char) : Nat × Option Char × List Char :=
  let rest := (Text.trim text).drop start
  let n := (rest.takeWhile (!marks.contains ·)).length
  (start + n, rest[n]?, (text.drop start).take n)

def afterSpan (d : Directive) (start : Nat) (text : List Char) : Except Flaw Directive :=
  match (Text.trim text)[start]? with
  | none => .ok d
  | some '=' => d.withLevel (text.drop (start + 1))
  | some _ => .error .form

def span (d : Directive) (start : Nat) (text : List Char) : Except Flaw Directive :=
  match cutAt [']', '{'] start text with
  | (stop, some ']', _) => { d with inSpan := true }.afterSpan (stop + 1) text
  | (stop, some _, name) =>
    match cutAt ['}'] (stop + 1) text with
    | (close, some _, field) =>
      if field ≠ [] && (Text.trim text)[close + 1]? = some ']' then
        ({ d with inSpan := name ≠ [] }.withField field).afterSpan (close + 2) text
      else .error .form
    | _ => .error .form
  | _ => .error .form

def parse (text : List Char) : Except Flaw Directive :=
  match Text.trim text with
  | [] => .error .form
  | '[' :: _ => span {} 1 text
  | c :: _ =>
    if c = '-' || c = ':' || c = '_' || Text.isAlphanumeric c then
      match cutAt ['=', '['] 0 text with
      | (stop, some '=', target) =>
        { target := some (String.ofList target) : Directive }.withLevel (text.drop (stop + 1))
      | (stop, some _, target) => span { target := some (String.ofList target) } (stop + 1) text
      | _ =>
        match Threshold.ofText? (String.ofList text) with
        | some threshold => .ok { threshold }
        | none => .ok { target := some (String.ofList text) }
    else .error .form

def covers (d : Directive) (e : Event) : Bool :=
  !d.inSpan && d.target.all (fun t => t.toList.isPrefixOf e.target.toList) &&
    d.field.all (· ∈ e.fieldNames)

/-- Whether the second of two directives that speak of an event is at least as specific: it has
the longer target, or else asks for a field, or else for one later in the alphabet. -/
def yields (d d' : Directive) : Bool :=
  let size := (d.target.getD "").length
  let size' := (d'.target.getD "").length
  size < size' || (size = size' &&
    match d.field, d'.field with
    | none, _ => true
    | some _, none => false
    | some name, some name' => name ≤ name')

end Directive

structure Filter where
  directives : List Directive
deriving DecidableEq, Repr

namespace Filter

def variableName : String := "RUST_LOG"

def readings (text : String) : List (List Char × Except Directive.Flaw Directive) :=
  ((Text.split ',' text.toList).filter (· ≠ [])).map fun piece => (piece, Directive.parse piece)

/-- The filter of a text, or one of a single threshold if the text has no directive. -/
def ofText (text : String) (otherwise : Threshold) : Filter :=
  match (readings text).filterMap (·.2.toOption) with
  | [] => ⟨[{ threshold := otherwise }]⟩
  | directives => ⟨directives⟩

def complaints (text : String) : List String :=
  (readings text).filterMap fun
    | (piece, .error flaw) =>
      some ("ignoring `" ++ String.ofList piece ++ "`: " ++ flaw.message)
    | _ => none

def deciding? (f : Filter) (e : Event) : Option Directive :=
  (f.directives.filter (·.covers e)).foldl
    (fun best d => if best.all (·.yields d) then some d else best) none

def passes (f : Filter) (e : Event) : Bool :=
  (f.deciding? e).any (·.threshold.admits e.level)

def lines (f : Filter) (events : List Event) : List String :=
  (events.filter f.passes).map (·.line)

end Filter

end PromptFiles.Log
