import PromptFiles.FrontMatter.Metadata
import PromptFiles.FrontMatter.Split
import PromptFiles.Toml.Writer

/-!
# Writing a prompt file

Title, description and version are always written, empty where they are absent, so that
they are there to be filled in. Author and date of creation follow if they are known,
then the other keys. After the header stands an empty line and then the body.
-/

namespace PromptFiles.FrontMatter

def headerTable (m : Metadata) : Toml.Table :=
  let text (field : Option String) : Toml.Value := .string (field.getD "")
  let fixed : Toml.Table := [("title", text m.title), ("description", text m.description),
    ("version", text m.version)]
  let author := m.author.toList.map fun s => ("author", Toml.Value.string s)
  let created := m.created.toList.map fun d => ("created", Toml.Value.string d.text)
  let standard := fixed ++ author ++ created
  standard ++ m.extra.filter fun (key, _) => !Toml.Table.contains key standard

def serialize (m : Metadata) (body : String) : String :=
  delimiter ++ "\n" ++ (headerTable m).text ++ delimiter ++ "\n\n" ++ body

end PromptFiles.FrontMatter
