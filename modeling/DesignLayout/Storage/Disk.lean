import DesignLayout.Delivery

/-!
Disks: what an export to local files needs of a file system, in any monad, and the output folder
and the stand-in for a rasterizer that write to one.

Without a renderer the batch of pictures is written to a file of the output folder, from which a
plug-in of the design tool can make the pictures later; all of them then count as made.
-/
namespace DesignLayout

/-- The operations of a file system on paths; a failure comes with its reason. -/
structure Disk (m : Type → Type) where
  read : String → m (Except String String)
  /-- Makes a folder and all folders above it that are missing. -/
  createFolders : String → m (Except String Unit)
  write : String → String → m (Except String Unit)

namespace Disk

variable {m : Type → Type} [Monad m]

/-- The path of a name in a folder. -/
def join (folder name : String) : String :=
  if folder.toList.getLast? = some '/' then folder ++ name else folder ++ "/" ++ name

def ofFile (path : String) : Except String Unit → Except OutputError Unit
  | .ok _ => .ok ()
  | .error reason => .error (.file path reason)

def outputFolder (d : Disk m) (folder : String) : OutputFolder m where
  ensureFolder name := do
    let path := join folder name
    return ofFile path (← d.createFolders path)
  writeText name text := do
    let path := join folder name
    return ofFile path (← d.write path text)

def manifestFile : String := "renditions.json"

def rasterizer (d : Disk m) (folder : String) : Rasterizer m where
  createRenditions manifest := do
    let path := join folder manifestFile
    match ofFile path (← d.write path manifest.toJson.pretty) with
    | .ok _ => return .ok manifest.size
    | .error e => return .error e

end Disk
end DesignLayout
