import PromptFiles.Number.Decimal

/-!
# Values for the fields of a template
-/

namespace PromptFiles.Template

inductive Value where
  | text (s : String)
  | integer (i : Int64)
  | float (x : Number.Binary64)
  | boolean (b : Bool)
deriving DecidableEq

namespace Value

def isNumeric : Value → Bool
  | integer _ | float _ => true
  | text _ | boolean _ => false

def render : Value → String
  | text s => s
  | integer i => Number.numeral i.toInt
  | float x => x.plain
  | boolean b => if b then "true" else "false"

end Value

end PromptFiles.Template
