/-!
# Blank characters

A character is blank when it has the Unicode property `White_Space`: twenty-five
characters, none of them a zero-width space, a byte-order mark or one of the
information separators. Trimming and the test for empty content use this class.
-/

namespace PromptFiles.Text

def isBlank (c : Char) : Bool :=
  ('\t' ≤ c && c ≤ '\r') || c == ' ' || c == '\u0085' || c == '\u00a0' || c == '\u1680' ||
    ('\u2000' ≤ c && c ≤ '\u200a') || c == '\u2028' || c == '\u2029' || c == '\u202f' ||
    c == '\u205f' || c == '\u3000'

def trimStart (cs : List Char) : List Char :=
  cs.dropWhile isBlank

def trimEnd (cs : List Char) : List Char :=
  (cs.reverse.dropWhile isBlank).reverse

def trim (cs : List Char) : List Char :=
  trimEnd (trimStart cs)

def trimmed (s : String) : String :=
  String.ofList (trim s.toList)

/-- Nothing but blank characters, or nothing at all. -/
def allBlank (s : String) : Bool :=
  s.toList.all isBlank

/-- Letters `A` to `Z` lowered, all else kept. No other character lowers to a letter of the
words this is compared with, so it decides the same as lowering all of Unicode. -/
def lowered (s : String) : String :=
  s.map Char.toLower

end PromptFiles.Text
