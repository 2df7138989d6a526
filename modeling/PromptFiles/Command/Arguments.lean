import PromptFiles.Command.Value
import PromptFiles.Text.Split

/-!
# Reading a command line

An argument with a hyphen and something after it gives options, two hyphens alone end
them, and all other arguments are operands. An option that takes a value has it after an
equals sign or in the next argument, which must not look like an option then. What was
read before an argument is judged before that argument, and nothing is read after a flag
that asks for help or for the version.
-/

namespace PromptFiles.Command

inductive Item where
  | flag (name : String)
  | value (option text : String)
  | operand (text : String)
  | unknown (argument : String)
deriving DecidableEq, Repr

structure ValueOption where
  name : String
  kind : ValueKind
  mayRepeat : Bool := false
deriving DecidableEq, Repr

structure Form where
  flags : List String := []
  letters : List (Char × String) := []
  options : List ValueOption := []
  leastOperands : Nat := 0
  mostOperands : Option Nat := some 0
deriving DecidableEq, Repr

namespace Form

def option? (form : Form) (name : String) : Option ValueOption :=
  form.options.find? (·.name == name)

end Form

def isDashed (argument : String) : Bool :=
  match argument.toList with
  | '-' :: _ :: _ => true
  | _ => false

def letterItems (form : Form) (argument : String) : List Char → List Item
  | [] => []
  | c :: rest =>
    match form.letters.lookup c with
    | some name => .flag name :: letterItems form argument rest
    | none => [.unknown argument]

/-- The name of an option and the value after its equals sign, if there is one. -/
def nameAndValue (cs : List Char) : String × Option String :=
  (String.ofList (cs.takeWhile (· != '=')),
    (cs.dropWhile (· != '=')).tail?.map String.ofList)

/-- The item of an argument that is two hyphens and these characters, and the arguments that
are left after it and its value. -/
def longItem (form : Form) (argument : String) (cs : List Char) (rest : List String) :
    Item × List String :=
  let (name, attached) := nameAndValue cs
  match form.option? name, attached, rest with
  | some _, some value, rest => (.value name value, rest)
  | some _, none, next :: others =>
    if isDashed next then (.unknown argument, rest) else (.value name next, others)
  | none, none, rest => (if form.flags.contains name then .flag name else .unknown argument, rest)
  | _, _, rest => (.unknown argument, rest)

theorem length_longItem_le (form : Form) (argument : String) (cs : List Char)
    (rest : List String) : (longItem form argument cs rest).2.length ≤ rest.length := by
  unfold longItem
  dsimp only
  split
  · simp
  · split <;> simp
  · simp
  · simp

/-- The items of the arguments, and what is left. Where a command has commands of its own,
its first operand is left with all that follows. -/
def items (form : Form) (hasCommands : Bool) (arguments : List String) : List Item × List String :=
  match arguments with
  | [] => ([], [])
  | argument :: rest =>
    match argument.toList with
    | ['-', '-'] => (if hasCommands then [.unknown argument] else rest.map .operand, [])
    | '-' :: '-' :: cs =>
      have := length_longItem_le form argument cs rest
      let others := items form hasCommands (longItem form argument cs rest).2
      ((longItem form argument cs rest).1 :: others.1, others.2)
    | '-' :: c :: cs =>
      let others := items form hasCommands rest
      (letterItems form argument (c :: cs) ++ others.1, others.2)
    | _ =>
      if hasCommands then ([], argument :: rest)
      else
        let others := items form hasCommands rest
        (.operand argument :: others.1, others.2)
termination_by arguments.length

inductive Stop where
  | help
  | version
  | misuse
deriving DecidableEq, Repr

structure Given where
  flags : List String := []
  values : List (String × String) := []
  operands : List String := []
deriving DecidableEq, Repr

namespace Given

def has (g : Given) (flag : String) : Bool :=
  g.flags.contains flag

def value? (g : Given) (option : String) : Option String :=
  g.values.lookup option

def valuesOf (g : Given) (option : String) : List String :=
  (g.values.filter (·.1 == option)).map Prod.snd

def addFlag (g : Given) (name : String) : Except Stop Given :=
  if name = "help" then .error .help
  else if name = "version" then .error .version
  else if g.has name then .error .misuse
  else .ok { g with flags := g.flags ++ [name] }

/-- A value that its option accepts, which must not be there already unless it may repeat. -/
def addValue (form : Form) (g : Given) (name text : String) : Except Stop Given :=
  match form.option? name with
  | some option =>
    if option.kind.accepts text && (option.mayRepeat || (g.value? name).isNone) then
      .ok { g with values := g.values ++ [(name, text)] }
    else .error .misuse
  | none => .error .misuse

def addOperand (form : Form) (g : Given) (text : String) : Except Stop Given :=
  if ValueKind.path.accepts text && form.mostOperands.all (g.operands.length < ·) then
    .ok { g with operands := g.operands ++ [text] }
  else .error .misuse

def add (form : Form) (g : Given) : Item → Except Stop Given
  | .flag name => g.addFlag name
  | .value option text => addValue form g option text
  | .operand text => addOperand form g text
  | .unknown _ => .error .misuse

def ofItems (form : Form) (items : List Item) : Except Stop Given := do
  let given ← items.foldlM (add form) {}
  if given.operands.length < form.leastOperands then .error .misuse else .ok given

end Given

end PromptFiles.Command
