import PromptFiles.Template.Token
import PromptFiles.Number.Numeral

/-!
# Summary of the placeholders of a template

A placeholder is positional when its name is a run of digits. The empty name is not.
-/

namespace PromptFiles.Template

structure Summary where
  names : List String
  hasPositional : Bool
  hasNamed : Bool
deriving DecidableEq, Repr

def isPositional (name : String) : Bool :=
  Number.isNumeral name.toList

namespace Summary

def ofNames (names : List String) : Summary where
  names := names
  hasPositional := names.any isPositional
  hasNamed := names.any (!isPositional ·)

def ofTemplate (template : String) : Summary :=
  ofNames (placeholders template)

def count (s : Summary) : Nat :=
  s.names.length

def isMixed (s : Summary) : Bool :=
  s.hasPositional && s.hasNamed

end Summary

end PromptFiles.Template
