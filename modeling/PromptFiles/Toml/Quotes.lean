/-!
# Reading quoted texts

Each reader starts after the opening quotes and ends after the closing ones, and gives
the text between them and what follows. Control characters other than the tab are
refused. In a text over several lines the line break right after the opening quotes is
not part of it, a backslash at the end of a line swallows all white space up to the next
other character, and up to two quotes may stand directly before the closing ones.
-/

namespace PromptFiles.Toml.Quotes

def isPlain (c : Char) : Bool :=
  c == '\t' || (' ' ≤ c && c != '\x7f')

def isBlank (c : Char) : Bool :=
  c == ' ' || c == '\t'

def hexDigit? (c : Char) : Option Nat :=
  if '0' ≤ c && c ≤ '9' then some (c.toNat - '0'.toNat)
  else if 'a' ≤ c && c ≤ 'f' then some (c.toNat - 'a'.toNat + 10)
  else if 'A' ≤ c && c ≤ 'F' then some (c.toNat - 'A'.toNat + 10)
  else none

/-- The character with this number, which must not be a surrogate. -/
def charOf? (n : Nat) : Option Char :=
  if h : n.isValidChar then some (Char.ofNatAux n h) else none

def codePoint? (digits : List Char) : Option Char :=
  (digits.foldlM (fun n c => (hexDigit? c).map (16 * n + ·)) 0).bind charOf?

def shortEscape? : Char → Option Char
  | 'b' => some '\x08'
  | 't' => some '\t'
  | 'n' => some '\n'
  | 'f' => some '\x0c'
  | 'r' => some '\r'
  | 'e' => some '\x1b'
  | '"' => some '"'
  | '\\' => some '\\'
  | _ => none

def escapeDigits? : Char → Option Nat
  | 'x' => some 2
  | 'u' => some 4
  | 'U' => some 8
  | _ => none

def escape? : List Char → Option (Char × List Char)
  | [] => none
  | c :: rest =>
    match shortEscape? c, escapeDigits? c with
    | some e, _ => some (e, rest)
    | none, some n =>
      if n ≤ rest.length then (codePoint? (rest.take n)).map fun e => (e, rest.drop n) else none
    | none, none => none

theorem escape?_length {cs rest : List Char} {c : Char} (h : escape? cs = some (c, rest)) :
    rest.length < cs.length := by
  unfold escape? at h
  split at h
  · simp at h
  · split at h
    · simp_all
    · split at h
      · obtain ⟨e, _, he⟩ := Option.map_eq_some_iff.1 h
        simp_all
        obtain ⟨-, rfl⟩ := he
        simp only [List.length_drop]
        omega
      · simp at h
    · simp at h

private def push (c : Char) (r : List Char × List Char) : List Char × List Char :=
  (c :: r.1, r.2)

def basic (cs : List Char) : Option (List Char × List Char) :=
  match cs with
  | [] => none
  | '"' :: rest => some ([], rest)
  | '\\' :: rest =>
    match h : escape? rest with
    | some (c, rest') =>
      have := escape?_length h
      (basic rest').map (push c)
    | none => none
  | c :: rest => if isPlain c then (basic rest).map (push c) else none
termination_by cs.length

def literal : List Char → Option (List Char × List Char)
  | [] => none
  | '\'' :: rest => some ([], rest)
  | c :: rest => if isPlain c then (literal rest).map (push c) else none

def lineBreak? : List Char → Option (List Char)
  | '\n' :: rest => some rest
  | '\r' :: '\n' :: rest => some rest
  | _ => none

def body (cs : List Char) : List Char :=
  (lineBreak? cs).getD cs

def skipSpace : List Char → List Char
  | '\r' :: '\n' :: rest => skipSpace rest
  | c :: rest => if isBlank c || c == '\n' then skipSpace rest else c :: rest
  | [] => []

theorem skipSpace_length (cs : List Char) : (skipSpace cs).length ≤ cs.length := by
  fun_induction skipSpace cs <;> simp_all <;> omega

/-- The quotes that end the text, those directly before them included in it. -/
def closing? (quote : Char) (cs : List Char) : Option (List Char × List Char) :=
  let run := (cs.take 5).takeWhile (· == quote)
  if 3 ≤ run.length then some (run.drop 3, cs.drop run.length) else none

def basicLines (cs : List Char) : Option (List Char × List Char) :=
  match cs with
  | [] => none
  | '\\' :: rest =>
    match h : escape? rest with
    | some (c, rest') =>
      have := escape?_length h
      (basicLines rest').map (push c)
    | none =>
      match h : lineBreak? (rest.dropWhile isBlank) with
      | some after =>
        have : (skipSpace after).length < rest.length + 1 := by
          have h1 := skipSpace_length after
          have h2 := (List.dropWhile_suffix (l := rest) isBlank).length_le
          have h3 : after.length ≤ (rest.dropWhile isBlank).length := by
            unfold lineBreak? at h
            split at h <;> simp_all <;> omega
          omega
        basicLines (skipSpace after)
      | none => none
  | '\r' :: '\n' :: rest => (basicLines rest).map fun r => push '\r' (push '\n' r)
  | c :: rest =>
    match closing? '"' (c :: rest) with
    | some r => some r
    | none => if isPlain c || c == '\n' then (basicLines rest).map (push c) else none
termination_by cs.length

def literalLines : List Char → Option (List Char × List Char)
  | [] => none
  | '\r' :: '\n' :: rest => (literalLines rest).map fun r => push '\r' (push '\n' r)
  | c :: rest =>
    match closing? '\'' (c :: rest) with
    | some r => some r
    | none => if isPlain c || c == '\n' then (literalLines rest).map (push c) else none

def text? : List Char → Option (String × List Char)
  | '"' :: '"' :: '"' :: rest => finish (basicLines (body rest))
  | '\'' :: '\'' :: '\'' :: rest => finish (literalLines (body rest))
  | '"' :: rest => finish (basic rest)
  | '\'' :: rest => finish (literal rest)
  | _ => none
where
  finish (r : Option (List Char × List Char)) : Option (String × List Char) :=
    r.map fun (cs, rest) => (String.ofList cs, rest)

end PromptFiles.Toml.Quotes
