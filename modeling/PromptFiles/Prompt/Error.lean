import PromptFiles.FileTree.Fault
import PromptFiles.FrontMatter.Decode
import PromptFiles.Glob.Pattern
import PromptFiles.Template.Format

/-!
# What can go wrong with prompts
-/

namespace PromptFiles

inductive PromptError where
  | sourceMissing (id : String)
  | emptyContent (id : String)
  | malformedHeader (id : String)
  | invalidMetadata (id : String) (cause : FrontMatter.DecodeError)
  | missingMetadata (id : String)
  | format (cause : Template.FormatError)
  | io (path : String) (cause : FileTree.Fault)
  | walk (root path : String) (cause : FileTree.Fault)
  | invalidPattern (pattern : String) (cause : Glob.PatternError)
  | tooManyFiles (limit : Nat)
deriving DecidableEq, Repr

namespace PromptError

def kind : PromptError → String
  | sourceMissing _ => "source-missing"
  | emptyContent _ => "empty-content"
  | malformedHeader _ => "malformed-header"
  | invalidMetadata .. => "invalid-metadata"
  | missingMetadata _ => "missing-metadata"
  | format _ => "format"
  | io .. => "io"
  | walk .. => "walk"
  | invalidPattern .. => "invalid-pattern"
  | tooManyFiles _ => "too-many-files"

def message : PromptError → String
  | sourceMissing id => "file not found: " ++ id
  | emptyContent id => "prompt is empty: " ++ id
  | malformedHeader id =>
    "malformed header in " ++ id ++ ": missing closing delimiter '---' for front matter" ++
      " (use the ignore metadata mode if the file has no metadata and starts with '---')"
  | invalidMetadata id cause => "invalid metadata in " ++ id ++ ": " ++ cause.message
  | missingMetadata id =>
    "no metadata found in " ++ id ++ ": strict mode requires a front matter block with" ++
      " title, description, and version"
  | format cause => cause.message
  | io path cause => "failed to read or write " ++ path ++ ": " ++ cause.message
  | walk root path cause =>
    "failed to walk directory " ++ root ++ ": IO error for operation on " ++ path ++ ": " ++
      cause.message
  | invalidPattern pattern cause =>
    "invalid glob pattern '" ++ pattern ++ "': " ++ cause.message
  | tooManyFiles limit => "exceeded max_files limit of " ++ Number.numeral limit

end PromptError

end PromptFiles
