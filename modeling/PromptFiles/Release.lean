/-!
# The program's name and version
-/

namespace PromptFiles

def programName : String := "textprompts"

def version : String := "0.1.0"

end PromptFiles
