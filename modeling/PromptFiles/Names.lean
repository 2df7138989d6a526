/-!
# Sets and maps by name

A set of names is a list in strictly increasing order of code points, a map is a
list of pairs whose keys are in that order. Inserting keeps the order; a key that is
there already takes the new value.
-/

namespace PromptFiles

namespace Names

def insert (name : String) : List String → List String
  | [] => [name]
  | n :: rest =>
    if name = n then n :: rest
    else if name < n then name :: n :: rest
    else n :: insert name rest

/-- The names in order, each once. -/
def ofList (names : List String) : List String :=
  names.foldr insert []

end Names

namespace NameMap

def insert (name : String) (value : α) : List (String × α) → List (String × α)
  | [] => [(name, value)]
  | (n, v) :: rest =>
    if name = n then (n, value) :: rest
    else if name < n then (name, value) :: (n, v) :: rest
    else (n, v) :: insert name value rest

def find? (name : String) : List (String × α) → Option α
  | [] => none
  | (n, v) :: rest => if name = n then some v else find? name rest

def contains (name : String) (map : List (String × α)) : Bool :=
  (find? name map).isSome

@[simp] theorem find?_insert (name other : String) (value : α) (map : List (String × α)) :
    find? other (insert name value map) = if other = name then some value else find? other map := by
  induction map with
  | nil => simp [insert, find?]
  | cons p rest ih =>
    obtain ⟨n, v⟩ := p
    simp only [insert]
    split
    · subst name
      simp only [find?]
      split <;> rfl
    · rename_i hne
      split
      · simp [find?]
      · simp only [find?, ih]
        by_cases h : other = n
        · have hn : n ≠ name := fun e => hne e.symm
          simp [h, hn]
        · simp [h]

end NameMap

end PromptFiles
