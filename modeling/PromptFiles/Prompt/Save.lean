import PromptFiles.Prompt.Source

/-!
# Saving prompts

The directories above the file are made if they are not there, and the file is written
over. The error names the directory or the file, whichever could not be had.
-/

namespace PromptFiles

/-- Write a prompt file. The tree is the one left behind, also after an error. A file that can be
opened is assumed to be written whole, so what was in it is lost only if the prompt is there. -/
def writePrompt (t : FileTree) (path : String) (metadata : Metadata) (body : String) :
    FileTree × Except PromptError Unit :=
  match t.makeParents path with
  | (t, .error (parent, fault)) => (t, .error (.io parent fault))
  | (t, .ok ()) =>
    match t.writeText path (FrontMatter.serialize metadata body) with
    | .ok t => (t, .ok ())
    | .error fault => (t, .error (.io path fault))

def savePrompt (t : FileTree) (path : String) (p : Prompt) : FileTree × Except PromptError Unit :=
  writePrompt t path p.metadata p.body

def save (t : FileTree) (path : String) (metadata : Metadata) (body : String) :
    FileTree × Except PromptError Unit :=
  match Prompt.create path metadata body with
  | .ok p => savePrompt t path p
  | .error e => (t, .error e)

def saveText (t : FileTree) (path body : String) : FileTree × Except PromptError Unit :=
  writePrompt t path {} body

end PromptFiles
