import PromptFiles.Main
import PromptFiles.Workspace.Log
import PromptFiles.Proofs.Command.Checked
import PromptFiles.Proofs.Command.Creation
import PromptFiles.Proofs.Command.Reminder
import PromptFiles.Proofs.Command.Supplied
import PromptFiles.Proofs.FileTree.Written
import PromptFiles.Proofs.FrontMatter.Collision
import PromptFiles.Proofs.Prompt.Kept
import PromptFiles.Proofs.Prompt.Located
import PromptFiles.Proofs.Prompt.Modes
import PromptFiles.Proofs.Prompt.Resave
import PromptFiles.Proofs.Prompt.Saved
import PromptFiles.Proofs.Template.Assigned
import PromptFiles.Proofs.Template.Escaped
import PromptFiles.Proofs.Template.Grammar
import PromptFiles.Proofs.Template.Joined
import PromptFiles.Proofs.Template.SpecGrammar
import PromptFiles.Proofs.Template.Stray
import PromptFiles.Proofs.Template.Validated
import PromptFiles.Proofs.Workspace.Defaults
import PromptFiles.Proofs.Workspace.Reached
import PromptFiles.Proofs.Number.Integer
import PromptFiles.Proofs.Text.Dedented
import PromptFiles.Proofs.Template.Padded
import PromptFiles.Proofs.Number.Fraction
import PromptFiles.Proofs.Number.Rounding
import PromptFiles.Proofs.Number.Whole
import PromptFiles.Proofs.Template.FixedInteger
import PromptFiles.Proofs.Number.Grid
import PromptFiles.Proofs.Number.Shortest
import PromptFiles.Proofs.Number.ReadBack
import PromptFiles.Proofs.Command.Printed
import PromptFiles.Proofs.Text.Endings
import PromptFiles.Proofs.Prompt.Collected
import PromptFiles.Proofs.Toml.Distinct
import PromptFiles.Proofs.FrontMatter.Accounted
import PromptFiles.Proofs.Calendar.Stamp
import PromptFiles.Proofs.Toml.Instant
import PromptFiles.Proofs.Toml.Entry
import PromptFiles.Proofs.FrontMatter.Created
import PromptFiles.Proofs.Prompt.Discovered
