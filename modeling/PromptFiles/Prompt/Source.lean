import PromptFiles.FileTree.Access
import PromptFiles.Prompt.Parse

/-!
# Sources of prompts

A source gives texts by their ids. The ids of files are paths, taken below a root
directory if there is one; texts in memory have any ids, and a later text of an id
replaces an earlier one.
-/

namespace PromptFiles

structure Source where
  holds : String → Bool
  read : String → Except FileTree.Fault String

structure Memory where
  texts : List (String × String) := []

namespace Memory

def insert (m : Memory) (id text : String) : Memory :=
  ⟨NameMap.insert id text m.texts⟩

def text? (m : Memory) (id : String) : Option String :=
  NameMap.find? id m.texts

def source (m : Memory) : Source where
  holds id := (m.text? id).isSome
  read id :=
    match m.text? id with
    | some text => .ok text
    | none => .error (.unknownName id)

end Memory

namespace FileTree

def pathOf (root : Option String) (id : String) : String :=
  match root with
  | some root => Path.join root id
  | none => id

def source (t : FileTree) (root : Option String) : Source where
  holds id := t.isFile (pathOf root id)
  read id := t.readText (pathOf root id)

end FileTree

def parseSource (settings : Settings) (source : Source) (mode : Option Mode) (id : String) :
    Except PromptError Prompt :=
  if !source.holds id then .error (.sourceMissing id)
  else
    match source.read id with
    | .error fault => .error (.io id fault)
    | .ok text => parseContent (settings.resolve mode) id text

def sourceEvents (settings : Settings) (source : Source) (mode : Option Mode) (id : String) :
    List Log.Event :=
  if !source.holds id then []
  else
    match source.read id with
    | .error _ => []
    | .ok text => parseEvents settings (settings.resolve mode) id text

def loadPrompt (settings : Settings) (t : FileTree) (mode : Option Mode) (path : String) :
    Except PromptError Prompt :=
  parseSource settings (t.source none) mode path

end PromptFiles
