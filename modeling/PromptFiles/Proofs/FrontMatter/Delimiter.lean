import PromptFiles.FrontMatter.Write
import PromptFiles.Proofs.FrontMatter.Framing
import PromptFiles.Proofs.Toml.Layout

/-!
# The delimiters of a written file

A written header is cut off again at the first line that is the delimiter. That is the
closing one unless a text of the header table has the delimiter as a line, because such a
text is written over several lines and nothing in it is escaped. Then the file still has
front matter, but the header ends inside the text.
-/

namespace PromptFiles

open Text (Line Unbroken ended lines unlines)

/-- A text in the table, at any depth, has the delimiter as a line other than its last. -/
def Toml.Table.holdsDelimiter (t : Toml.Table) : Bool :=
  Toml.Value.entriesHoldDelimiter t

namespace FrontMatter

theorem exists_headerLines (t : Toml.Table) :
    ∃ ls, t.text.toList = ended ls ∧ Unbroken ls ∧ ls.any isDelimiter = t.holdsDelimiter := by
  have h := Toml.Writer.block_document t
  rw [Toml.Table.holdsDelimiter, Toml.Table.text, String.toList_ofList]
  generalize Toml.Writer.document t = cs, Toml.Value.entriesHoldDelimiter t = p at h ⊢
  obtain ⟨hls⟩ := h
  exact ⟨_, rfl, hls, rfl⟩

theorem lines_serialize (ht : (headerTable m).text.toList = ended ls) (hls : Unbroken ls)
    (body : String) :
    lines (serialize m body).toList =
      delimiter.toList :: (ls ++ delimiter.toList :: [] :: lines body.toList) := by
  have hd : '\n' ∉ delimiter.toList := by decide
  have htext : (serialize m body).toList = delimiter.toList ++
      '\n' :: (ended ls ++ (delimiter.toList ++ '\n' :: '\n' :: body.toList)) := by
    simp [serialize, ht]
  rw [htext, Text.lines_cons hd, Text.lines_ended_append hls, Text.lines_cons hd]
  exact congrArg (fun rest => _ :: (ls ++ _ :: rest)) (Text.lines_cons (l := []) (by simp) _)

theorem unlines_append_body (ls : List Line) (body : String) :
    unlines (ls ++ [] :: lines body.toList) = ended ls ++ '\n' :: body.toList := by
  have hbody := Text.unlines_append [[]] (Text.split_ne_nil '\n' body.toList)
  rw [← lines, Text.unlines_lines] at hbody
  rw [Text.unlines_append ls (by simp)]
  exact congrArg (ended ls ++ ·) hbody

/-- A header without the delimiter is cut off whole. -/
theorem split_serialize_whole (h : (headerTable m).holdsDelimiter = false) (body : String) :
    split (serialize m body) =
      .ok ⟨some (Text.trimmed (headerTable m).text), "\n" ++ body⟩ := by
  obtain ⟨ls, ht, hls, hany⟩ := exists_headerLines (headerTable m)
  have hnone : ∀ l ∈ ls, (!isDelimiter l) = true := by
    simpa using List.any_eq_false.mp (hany.trans h)
  have hbody : String.ofList (unlines ([] :: lines body.toList)) = "\n" ++ body := by
    rw [← String.toList_inj, String.toList_ofList]
    simpa using unlines_append_body [] body
  rw [split_cut (lines_serialize ht hls body) (by decide) hnone (by decide), hbody,
    Text.trimmed, ht, Text.trim_ended]

/-- A header with the delimiter ends there, and the rest of it is left in the body. -/
theorem split_serialize_early (h : (headerTable m).holdsDelimiter = true) (body : String) :
    ∃ header rest, split (serialize m body) = .ok ⟨some header, rest⟩ ∧ rest ≠ "\n" ++ body := by
  obtain ⟨ls, ht, hls, hany⟩ := exists_headerLines (headerTable m)
  have hsome : (ls.find? isDelimiter).isSome = true :=
    List.find?_isSome.mpr (List.any_eq_true.mp (hany.trans h))
  obtain ⟨d, hfind⟩ := Option.isSome_iff_exists.mp hsome
  obtain ⟨hd, before, after, rfl, hbefore⟩ := List.find?_eq_some_iff_append.mp hfind
  have hlines := lines_serialize ht hls body
  rw [List.append_assoc, List.cons_append] at hlines
  refine ⟨_, _, split_cut hlines (by decide) hbefore hd, fun he => ?_⟩
  have hlength := congrArg (fun s => s.toList.length) he
  have hrest := unlines_append_body (after ++ [delimiter.toList]) body
  rw [List.append_assoc, List.singleton_append] at hrest
  rw [hrest] at hlength
  simp at hlength
  omega

/-- A written file always has a header again. The header and the body are those that were
written unless a text in the header table has the delimiter as a line. -/
theorem split_serialize (m : Metadata) (body : String) :
    (lines (headerTable m).text.toList).any isDelimiter = (headerTable m).holdsDelimiter ∧
    ∃ header rest, split (serialize m body) = .ok ⟨some header, rest⟩ ∧
      ((header = Text.trimmed (headerTable m).text ∧ rest = "\n" ++ body) ↔
        (headerTable m).holdsDelimiter = false) := by
  constructor
  · obtain ⟨ls, ht, hls, hany⟩ := exists_headerLines (headerTable m)
    have hempty : isDelimiter [] = false := by decide
    rw [ht, Text.lines_ended hls, List.any_append, hany]
    simp [hempty]
  · cases h : (headerTable m).holdsDelimiter with
    | false => exact ⟨_, _, split_serialize_whole h body, by simp⟩
    | true =>
      obtain ⟨header, rest, hsplit, hne⟩ := split_serialize_early h body
      exact ⟨header, rest, hsplit, by simp [hne]⟩

theorem split_serialize_description :
    let m : Metadata := { title := some "T", description := some "a\n---\nb", version := some "1" }
    split (serialize m "B") =
        .ok ⟨some "title = \"T\"\ndescription = \"\"\"\na", "b\"\"\"\nversion = \"1\"\n---\n\nB"⟩ ∧
      split (serialize m "B") ≠ .ok ⟨some (Text.trimmed (headerTable m).text), "\n" ++ "B"⟩ := by
  decide +kernel

end FrontMatter

end PromptFiles
