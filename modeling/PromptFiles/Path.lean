import PromptFiles.Text.Split

/-!
# Paths

A path is a text with slashes. Its components leave out empty pieces and the current
directory, which counts only as the first piece. Paths are compared component by
component, so the files of a directory stand together.
-/

namespace PromptFiles.Path

inductive Component where
  | root
  | current
  | parent
  | normal (name : String)
deriving DecidableEq, Repr

def pieces (path : String) : List String :=
  (Text.split '/' path.toList).map String.ofList

/-- The component that a piece after the first stands for. -/
def component? : String → Option Component
  | "" | "." => none
  | ".." => some .parent
  | name => some (.normal name)

/-- The component that the first piece stands for; it is empty in an absolute path. -/
def first? (piece : String) (isLast : Bool) : Option Component :=
  if piece = "" then (if isLast then none else some .root)
  else if piece = "." then some .current
  else component? piece

def components (path : String) : List Component :=
  match pieces path with
  | [] => []
  | piece :: rest => (first? piece rest.isEmpty).toList ++ rest.filterMap component?

def isAbsolute (path : String) : Bool :=
  path.toList.head? = some '/'

/-- The name of the file that a path leads to; a path that ends upwards has none. -/
def fileName? (path : String) : Option String :=
  match (components path).getLast? with
  | some (.normal name) => some name
  | _ => none

/-- The name without its last extension. A dot at the start begins no extension. -/
def stem (name : String) : String :=
  let cs := name.toList
  let before := (cs.reverse.dropWhile (· != '.')).tail.reverse
  if before = [] then name else String.ofList before

/-- A path under a directory. An absolute path stands for itself. -/
def join (directory path : String) : String :=
  if isAbsolute path then path
  else if directory = "" then path
  else if directory.toList.getLast? = some '/' then directory ++ path
  else directory ++ "/" ++ path

def below (root : String) (names : List String) : String :=
  names.foldl join root

/-- Pieces with their components, from the last to the first, without those that name no
component. -/
private def significant (reversed : List String) : List String :=
  match reversed with
  | [] => []
  | [piece] => if (first? piece false).isSome then [piece] else []
  | piece :: rest => if (component? piece).isSome then piece :: rest else significant rest

/-- The path without its last component, none for an empty path and for the root. -/
def parent? (path : String) : Option String :=
  match components path with
  | [] | [.root] => none
  | _ =>
    match significant (pieces path).reverse with
    | [] => none
    | _ :: rest =>
      match significant rest with
      | [""] => some "/"
      | up => some ("/".intercalate up.reverse)

private def climb (steps : Nat) (path : String) : List String :=
  match steps with
  | 0 => [path]
  | steps + 1 =>
    match parent? path with
    | some up => path :: climb steps up
    | none => [path]

/-- The path and all those above it; it has no more of them than pieces. -/
def withAncestors (path : String) : List String :=
  climb (pieces path).length path

theorem component?_eq_none_iff : component? piece = none ↔ piece = "" ∨ piece = "." := by
  unfold component?
  split <;> simp_all

theorem isSome_first? (piece : String) : (first? piece false).isSome = true := by
  unfold first?
  split
  · rfl
  · split
    · rfl
    · rw [Option.isSome_iff_ne_none, Ne, component?_eq_none_iff]
      simp [*]

/-- What is skipped names no component, and neither does the last that is left unless it is the
first piece of all. -/
private theorem significant_spec (reversed : List String) :
    ∃ skipped, reversed = skipped ++ significant reversed ∧
      (∀ piece ∈ skipped, component? piece = none) ∧
      (reversed ≠ [] → significant reversed ≠ []) ∧
      ∀ piece next rest, significant reversed = piece :: next :: rest →
        component? piece ≠ none := by
  fun_induction significant reversed with
  | case1 => exact ⟨[], rfl, by simp, by simp, by simp⟩
  | case2 piece => exact ⟨[], rfl, by simp, by simp, by simp⟩
  | case3 piece h => exact absurd (isSome_first? piece) h
  | case4 piece rest hne h =>
    refine ⟨[], rfl, by simp, by simp, ?_⟩
    intro p next others hp
    cases hp
    exact Option.isSome_iff_ne_none.mp h
  | case5 piece rest hne h ih =>
    obtain ⟨skipped, hskipped, hnone, hsome, hlast⟩ := ih
    refine ⟨piece :: skipped, ?_, ?_, fun _ => hsome ?_, hlast⟩
    · rw [List.cons_append, ← hskipped]
    · rintro p (_ | ⟨_, hp⟩)
      · simpa using h
      · exact hnone p hp
    · rintro rfl
      exact hne rfl

/-- The pieces of a path are those of its parent, then what is skipped, the last component, and
more that is skipped. -/
theorem parent?_spec (h : parent? path = some up) :
    ∃ front skipped name after, pieces path = front ++ (skipped ++ name :: after) ∧
      (∀ piece ∈ skipped ++ after, component? piece = none) ∧
      (front = [] → skipped = []) ∧ (front ≠ [] → component? name ≠ none) ∧
      (∀ last, front.getLast? = some last → front = [last] ∨ component? last ≠ none) ∧
      up = if front = [""] then "/" else "/".intercalate front := by
  unfold parent? at h
  split at h
  · cases h
  · cases h
  · obtain ⟨after, hafter, hnoneAfter, -, hname⟩ := significant_spec (pieces path).reverse
    split at h
    · cases h
    · rename_i name rest hsignificant
      obtain ⟨skipped, hskipped, hnone, hsome, hlast⟩ := significant_spec rest
      rw [hsignificant] at hafter hname
      have hpieces : pieces path =
          (significant rest).reverse ++ (skipped.reverse ++ name :: after.reverse) := by
        have hrest := congrArg List.reverse hskipped
        rw [List.reverse_append] at hrest
        rw [← List.reverse_reverse (pieces path), hafter, List.reverse_append, List.reverse_cons,
          hrest]
        simp
      have hempty : (significant rest).reverse = [] → rest = [] := fun hfront =>
        Decidable.not_not.mp fun hne => hsome hne (by simpa using hfront)
      refine ⟨(significant rest).reverse, skipped.reverse, name, after.reverse, hpieces, ?_, ?_,
        ?_, ?_, ?_⟩
      · intro piece hpiece
        simp only [List.mem_append, List.mem_reverse] at hpiece
        exact hpiece.elim (hnone piece) (hnoneAfter piece)
      · intro hfront
        rw [hempty hfront] at hskipped
        simpa using (List.append_eq_nil_iff.mp hskipped.symm).1
      · intro hfront
        cases hrest : rest with
        | nil => simp [hrest, significant] at hfront
        | cons next others => exact hname name next others (by rw [hrest])
      · intro last hgetLast
        rw [List.getLast?_reverse] at hgetLast
        cases hup : significant rest with
        | nil => simp [hup] at hgetLast
        | cons first others =>
          rw [hup] at hgetLast
          cases hgetLast
          cases others with
          | nil => exact .inl rfl
          | cons next others => exact .inr (hlast _ next others hup)
      · split at h
        · rename_i hup
          cases h
          simp [hup]
        · rename_i hup
          cases h
          rw [if_neg]
          intro hfront
          exact hup (List.reverse_eq_iff.mp hfront)

inductive Ascent : List String → Prop where
  | last : Ascent [path]
  | up : parent? path = some p → Ascent (p :: above) → Ascent (path :: p :: above)

private theorem ascent_climb (steps : Nat) (path : String) :
    (climb steps path).head? = some path ∧ Ascent (climb steps path) := by
  induction steps generalizing path with
  | zero => exact ⟨rfl, .last⟩
  | succ steps ih =>
    unfold climb
    split
    · rename_i p hparent
      obtain ⟨hhead, hascent⟩ := ih p
      refine ⟨rfl, ?_⟩
      cases hclimb : climb steps p with
      | nil => simp [hclimb] at hhead
      | cons first above =>
        rw [hclimb] at hhead hascent
        cases hhead
        exact .up hparent hascent
    · exact ⟨rfl, .last⟩

theorem ascent_withAncestors (path : String) :
    ∃ above, withAncestors path = path :: above ∧ Ascent (path :: above) := by
  obtain ⟨hhead, hascent⟩ := ascent_climb (pieces path).length path
  unfold withAncestors
  cases hclimb : climb (pieces path).length path with
  | nil => simp [hclimb] at hhead
  | cons first above =>
    rw [hclimb] at hhead hascent
    cases hhead
    exact ⟨above, rfl, hascent⟩

def Component.rank : Component → Nat
  | root => 0
  | current => 1
  | parent => 2
  | normal _ => 3

def Component.name : Component → String
  | normal name => name
  | _ => ""

def Component.less (a b : Component) : Bool :=
  a.rank < b.rank || (a.rank == b.rank && a.name < b.name)

def lessComponents : List Component → List Component → Bool
  | [], [] => false
  | [], _ :: _ => true
  | _ :: _, [] => false
  | a :: as, b :: bs => a.less b || (a == b && lessComponents as bs)

/-- Component by component, a path before those below it. -/
def less (a b : String) : Bool :=
  lessComponents (components a) (components b)

end PromptFiles.Path
