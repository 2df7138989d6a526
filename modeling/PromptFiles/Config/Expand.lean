import PromptFiles.Names
import PromptFiles.Text.Alphanumeric
import PromptFiles.Text.Split

/-!
# Expanding paths

A dollar sign before a name, bare or in braces, stands for the value of an environment
variable; in braces a default may follow that is taken if the variable is not set. Two
dollar signs stand for one, and any other stays. A tilde alone or before a slash at the
start stands for the home directory, unless a variable has put it there.
-/

namespace PromptFiles

structure Environment where
  entries : List (String × String) := []
deriving DecidableEq, Repr

namespace Environment

def get? (env : Environment) (name : String) : Option String :=
  NameMap.find? name env.entries

def set (env : Environment) (name value : String) : Environment :=
  ⟨NameMap.insert name value env.entries⟩

def unset (env : Environment) (name : String) : Environment :=
  ⟨env.entries.filter (·.1 != name)⟩

/-- The home directory; an empty value names none. -/
def home? (env : Environment) : Option String :=
  (env.get? "HOME").filter (· != "")

end Environment

namespace Expand

def isNameChar (c : Char) : Bool :=
  Text.isAlphanumeric c || c == '_'

/-- A text cut before the first colon that a hyphen follows. -/
def cutDefault (cs : List Char) : List Char × Option (List Char) :=
  match cs with
  | [] => ([], none)
  | ':' :: '-' :: rest => ([], some rest)
  | c :: rest => (c :: (cutDefault rest).1, (cutDefault rest).2)

/-- Name and default between braces. A default needs a name before it. -/
def nameAndDefault (inner : List Char) : List Char × Option (List Char) :=
  match cutDefault inner with
  | ([], _) => (inner, none)
  | r => r

def variables? (env : Environment) (cs : List Char) : Option (List Char) :=
  match cs with
  | [] => some []
  | '$' :: '$' :: rest => (variables? env rest).map ('$' :: ·)
  | '$' :: '{' :: rest =>
    match h : rest.dropWhile (· != '}') with
    | [] => (variables? env rest).map fun r => '$' :: '{' :: r
    | _ :: after =>
      have : after.length < rest.length + 2 := by
        have hle := Text.length_dropWhile_le (· != '}') rest
        rw [h, List.length_cons] at hle
        omega
      let (name, fallback) := nameAndDefault (rest.takeWhile (· != '}'))
      match env.get? (String.ofList name), fallback with
      | some value, _ => (variables? env after).map (value.toList ++ ·)
      | none, some fallback => (variables? env after).map (fallback ++ ·)
      | none, none => none
  | '$' :: rest =>
    have := Text.length_dropWhile_le isNameChar rest
    match rest.takeWhile isNameChar with
    | [] => (variables? env rest).map ('$' :: ·)
    | name =>
      match env.get? (String.ofList name) with
      | some value => (variables? env (rest.dropWhile isNameChar)).map (value.toList ++ ·)
      | none => none
  | c :: rest => (variables? env rest).map (c :: ·)
termination_by cs.length
decreasing_by all_goals simp only [List.length_cons]; omega

def tilde (env : Environment) (cs : List Char) : List Char :=
  match cs with
  | '~' :: rest =>
    if rest = [] || rest.head? = some '/' then
      match env.home? with
      | some home => home.toList ++ rest
      | none => cs
    else cs
  | _ => cs

end Expand

def Environment.expand? (env : Environment) (path : String) : Option String :=
  (Expand.variables? env path.toList).map fun cs =>
    if path.toList.head? = some '~' then String.ofList (Expand.tilde env cs) else String.ofList cs

end PromptFiles
