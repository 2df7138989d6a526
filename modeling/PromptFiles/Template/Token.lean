import PromptFiles.Names
import PromptFiles.Text.Split

/-!
# Tokens of a template

A template is cut from left to right. A doubled brace is an escape for a single one;
it is tried first, so a field never starts with two opening braces. Inside a field
the first closing brace ends it and the first colon divides its name from its
format. A brace that neither escapes nor delimits is unmatched, and its token
carries the number of bytes before it.
-/

namespace PromptFiles.Template

inductive Token where
  | literal (text : String)
  | escaped (brace : Char)
  | field (name : String) (format : Option String)
  | unmatched (brace : Char) (position : Nat)
deriving DecidableEq, Repr

def Token.source : Token → List Char
  | literal text => text.toList
  | escaped brace => [brace, brace]
  | field name none => '{' :: name.toList ++ ['}']
  | field name (some format) => '{' :: name.toList ++ ':' :: format.toList ++ ['}']
  | unmatched brace _ => [brace]

def isBrace (c : Char) : Bool :=
  c == '{' || c == '}'

def byteLength : List Char → Nat
  | [] => 0
  | c :: cs => c.utf8Size + byteLength cs

def fieldToken (inner : List Char) : Token :=
  let name := inner.takeWhile (· != ':')
  match inner.dropWhile (· != ':') with
  | [] => .field (String.ofList name) none
  | _ :: format => .field (String.ofList name) (some (String.ofList format))

def cutField? (cs : List Char) : Option (List Char × List Char) :=
  match cs.dropWhile (· != '}') with
  | [] => none
  | _ :: after => some (cs.takeWhile (· != '}'), after)

theorem cutField?_length {cs inner after : List Char} (h : cutField? cs = some (inner, after)) :
    after.length < cs.length := by
  unfold cutField? at h
  split at h
  · simp at h
  · rename_i c rest hd
    have := Text.length_dropWhile_le (· != '}') cs
    obtain ⟨-, rfl⟩ := Prod.mk.inj (Option.some.inj h)
    rw [hd, List.length_cons] at this
    omega

/-- Cut a text that follows `position` bytes of the template. -/
def cut (position : Nat) : List Char → List Token
  | [] => []
  | c :: rest =>
    if isBrace c then
      if rest.head? = some c then .escaped c :: cut (position + 2) rest.tail
      else if c = '{' then
        match h : cutField? rest with
        | some (inner, after) =>
          have := cutField?_length h
          fieldToken inner :: cut (position + byteLength inner + 2) after
        | none => .unmatched c position :: cut (position + 1) rest
      else .unmatched c position :: cut (position + 1) rest
    else
      let run := c :: rest.takeWhile (!isBrace ·)
      have := Text.length_dropWhile_le (!isBrace ·) rest
      .literal (String.ofList run) ::
        cut (position + byteLength run) (rest.dropWhile (!isBrace ·))
termination_by cs => cs.length
decreasing_by all_goals simp_all; try omega

def tokenize (template : String) : List Token :=
  cut 0 template.toList

def Token.name? : Token → Option String
  | field name _ => some name
  | _ => none

/-- The names that the fields of a template refer to, sorted. A field without a name
contributes the empty one. -/
def placeholders (template : String) : List String :=
  Names.ofList ((tokenize template).filterMap Token.name?)

end PromptFiles.Template
