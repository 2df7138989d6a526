import PromptFiles.Path

/-!
# Fallback titles

A prompt without a title is called after its source: the stem of the file name, or
`inline` where the source is anonymous or its path names no file.
-/

namespace PromptFiles

def inlineSource : String := "<inline>"

def inlineTitle : String := "inline"

def fallbackTitle (id : String) : String :=
  if id = inlineSource then inlineTitle
  else
    match Path.fileName? id with
    | some name => Path.stem name
    | none => inlineTitle

end PromptFiles
