import PromptFiles.Text.Printable

/-!
# Quoted texts

A name in a message stands between double quotes. Quotes and backslashes take a
backslash, line breaks, tabs and NUL have short escapes, and a character without a
glyph of its own is written as its number in braces. In a path a single quote takes a
backslash too.
-/

namespace PromptFiles.Text

def hexadecimal (n : Nat) : List Char :=
  Nat.toDigits 16 n

def escapeChar (c : Char) : List Char :=
  if c = '"' || c = '\\' then ['\\', c]
  else if c = '\n' then ['\\', 'n']
  else if c = '\r' then ['\\', 'r']
  else if c = '\t' then ['\\', 't']
  else if c = '\x00' then ['\\', '0']
  else if isHidden c then '\\' :: 'u' :: '{' :: hexadecimal c.toNat ++ ['}']
  else [c]

def quoted (s : String) : String :=
  String.ofList ('"' :: s.toList.flatMap escapeChar ++ ['"'])

def quotedPath (path : String) : String :=
  let escape := fun c => if c = '\'' then ['\\', '\''] else escapeChar c
  String.ofList ('"' :: path.toList.flatMap escape ++ ['"'])

def quotedList (ss : List String) : String :=
  "[" ++ ", ".intercalate (ss.map quoted) ++ "]"

end PromptFiles.Text
