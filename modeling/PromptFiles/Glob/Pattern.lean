import PromptFiles.Number.Numeral

/-!
# Patterns for file names

A question mark stands for any character and a star for any run of characters, slashes
included. Two stars form a component of their own and stand for any number of
components. Brackets hold a set of characters and ranges, negated by an exclamation
mark; a closing bracket that comes first is in the set. Nothing is escaped.
-/

namespace PromptFiles.Glob

inductive CharSpec where
  | single (c : Char)
  | range (first last : Char)
deriving DecidableEq, Repr

inductive Token where
  | char (c : Char)
  | anyChar
  | anySequence
  | anyComponents
  | anyWithin (specs : List CharSpec)
  | anyExcept (specs : List CharSpec)
deriving DecidableEq, Repr

inductive PatternFault where
  | wildcards
  | recursiveWildcards
  | invalidRange
deriving DecidableEq, Repr

structure PatternError where
  position : Nat
  fault : PatternFault
deriving DecidableEq, Repr

def PatternFault.message : PatternFault → String
  | wildcards => "wildcards are either regular `*` or recursive `**`"
  | recursiveWildcards => "recursive wildcards must form a single path component"
  | invalidRange => "invalid range pattern"

def PatternError.message (e : PatternError) : String :=
  "Pattern syntax error near position " ++ Number.numeral e.position ++ ": " ++ e.fault.message

def charSpecs : List Char → List CharSpec
  | a :: '-' :: b :: rest => .range a b :: charSpecs rest
  | a :: rest => .single a :: charSpecs rest
  | [] => []

/-- The characters of a set whose first one cannot close it, and what follows the set. -/
def cutSet? : List Char → Option (List Char × List Char)
  | [] => none
  | first :: rest =>
    match rest.dropWhile (· != ']') with
    | [] => none
    | _ :: after => some (first :: rest.takeWhile (· != ']'), after)

def set? : List Char → Option (Token × List Char)
  | '!' :: cs => (cutSet? cs).map fun (set, rest) => (.anyExcept (charSpecs set), rest)
  | cs => (cutSet? cs).map fun (set, rest) => (.anyWithin (charSpecs set), rest)

theorem cutSet?_length {cs set after : List Char} (h : cutSet? cs = some (set, after)) :
    after.length < cs.length := by
  unfold cutSet? at h
  split at h
  · simp at h
  · split at h
    · simp at h
    · rename_i first rest _ _ after' hd
      have hl := (List.dropWhile_suffix (l := rest) (· != ']')).length_le
      simp_all
      omega

theorem set?_length {cs after : List Char} {t : Token} (h : set? cs = some (t, after)) :
    after.length < cs.length := by
  unfold set? at h
  split at h
  · obtain ⟨⟨set, rest⟩, hp, he⟩ := Option.map_eq_some_iff.1 h
    have := cutSet?_length hp
    simp_all
    omega
  · obtain ⟨⟨set, rest⟩, hp, he⟩ := Option.map_eq_some_iff.1 h
    have := cutSet?_length hp
    simp_all

/-- Add the token for two stars; behind another one it adds nothing. -/
def pushComponents (reversed : List Token) : List Token :=
  match reversed with
  | .anyComponents :: _ :: _ => reversed
  | _ => .anyComponents :: reversed

/-- Tokens from a position on. The flag says that a component may start here; the tokens before
are in reverse. -/
def tokens (position : Nat) (atStart : Bool) (reversed : List Token) (cs : List Char) :
    Except PatternError (List Token) :=
  match cs with
  | [] => .ok reversed.reverse
  | '?' :: rest => tokens (position + 1) false (.anyChar :: reversed) rest
  | '*' :: '*' :: '*' :: _ => .error ⟨position + 2, .wildcards⟩
  | '*' :: '*' :: rest =>
    if !atStart then .error ⟨position - 1, .recursiveWildcards⟩
    else
      match rest with
      | [] => .ok (pushComponents reversed).reverse
      | '/' :: rest => tokens (position + 3) true (pushComponents reversed) rest
      | _ => .error ⟨position + 2, .recursiveWildcards⟩
  | '*' :: rest => tokens (position + 1) false (.anySequence :: reversed) rest
  | '[' :: rest =>
    match h : set? rest with
    | some (token, after) =>
      have := set?_length h
      tokens (position + (rest.length - after.length) + 1) false (token :: reversed) after
    | none => .error ⟨position, .invalidRange⟩
  | c :: rest => tokens (position + 1) (c == '/') (.char c :: reversed) rest
termination_by cs.length

structure Pattern where
  text : String
  tokens : List Token
deriving DecidableEq, Repr

def Pattern.parse (text : String) : Except PatternError Pattern :=
  (Glob.tokens 0 true [] text.toList).map fun ts => ⟨text, ts⟩

def CharSpec.holds (c : Char) : CharSpec → Bool
  | single d => c == d
  | range first last => first ≤ c && c ≤ last

def Token.accepts (c : Char) : Token → Bool
  | char d => c == d
  | anyChar => true
  | anyWithin specs => specs.any (·.holds c)
  | anyExcept specs => !specs.any (·.holds c)
  | anySequence | anyComponents => false

def anySuffix (test : List Char → Bool) : List Char → Bool
  | [] => test []
  | c :: rest => test (c :: rest) || anySuffix test rest

/-- A suffix after a slash, or the end of the text, that the test accepts. -/
def anyComponentSuffix (test : List Char → Bool) : List Char → Bool
  | [] => test []
  | c :: rest => (c == '/' && test rest) || anyComponentSuffix test rest

def matchTokens : List Token → List Char → Bool
  | [], cs => cs.isEmpty
  | .anySequence :: ts, cs => anySuffix (matchTokens ts) cs
  | .anyComponents :: ts, cs => matchTokens ts cs || anyComponentSuffix (matchTokens ts) cs
  | _ :: _, [] => false
  | token :: ts, c :: cs => token.accepts c && matchTokens ts cs

namespace Pattern

def accepts (p : Pattern) (text : String) : Bool :=
  matchTokens p.tokens text.toList

/-- Matched against the path below the directory rather than against the name of a file. -/
def isRelative (p : Pattern) : Bool :=
  p.text.toList.contains '/'

end Pattern

end PromptFiles.Glob
