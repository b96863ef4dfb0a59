/-!
Names that can be used for files and folders.

Separators, wildcards, quotes, angle brackets, pipes, hash signs and ASCII controls become
underscores, character by character. The name of a picture is also freed of dots, so that it
cannot bring an extension of its own.
-/
namespace DesignLayout.Text

/-- Characters that no file or folder name may hold. -/
def isReserved (c : Char) : Bool :=
  c ∈ ['\\', '/', ':', '*', '?', '"', '<', '>', '|', '#'] || c.toNat < 0x20 || c.toNat == 0x7F

def fileNameChar (replaceDots : Bool) (c : Char) : Char :=
  if isReserved c || (replaceDots && c == '.') then '_' else c

def fileName (replaceDots : Bool) (name : String) : String :=
  String.ofList (name.toList.map (fileNameChar replaceDots))

/-- The name of a folder, or of a layout file before its ending. -/
def folderName (name : String) : String :=
  fileName false name

/-- The name of a picture before its ending. -/
def pictureName (name : String) : String :=
  fileName true name

end DesignLayout.Text
