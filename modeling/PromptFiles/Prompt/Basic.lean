import PromptFiles.FrontMatter.Metadata
import PromptFiles.Template.Format
import PromptFiles.Template.Summary

/-!
# Prompts

A prompt is a template with its metadata and the path it came from. Its body is never
blank.
-/

namespace PromptFiles

structure Prompt where
  path : String
  metadata : Metadata
  body : String
  body_notBlank : Text.allBlank body = false

namespace Prompt

def placeholders (p : Prompt) : List String :=
  Template.placeholders p.body

def summary (p : Prompt) : Template.Summary :=
  .ofTemplate p.body

def title (p : Prompt) : String :=
  p.metadata.title.getD ""

def ofParts? (path : String) (metadata : Metadata) (body : String) : Option Prompt :=
  if h : Text.allBlank body = false then some ⟨path, metadata, body, h⟩ else none

def format (p : Prompt) (args : Template.Arguments) (isPartial : Bool) :
    Except Template.FormatError String :=
  Template.formatWith p.body p.placeholders args isPartial

end Prompt

end PromptFiles
