import DesignLayout.Storage.Disk

/-!
File trees: folders and files in memory.

A tree is a finite map from places to entries; a place is the list of the names that lead to it from
the root. A path that begins with a separator starts at the root, any other one in the working
folder. Paths are followed name by name: each name but the last must lead to a folder, `.` stays
where it is and `..` goes up. A path is bounded in size as a whole and in each of its names, and
holds no NUL. The failures carry the texts and numbers by which file systems report them.
-/
namespace DesignLayout

inductive FileError
  | notFound
  | alreadyExists
  | notFolder
  | isFolder
  | nameTooLong
  /-- A path with a NUL in it never gets to the file system. -/
  | nulInName
  deriving DecidableEq, Repr

def FileError.message : FileError → String
  | notFound => "No such file or directory (os error 2)"
  | alreadyExists => "File exists (os error 17)"
  | notFolder => "Not a directory (os error 20)"
  | isFolder => "Is a directory (os error 21)"
  | nameTooLong => "File name too long (os error 36)"
  | nulInName => "file name contained an unexpected NUL byte"

/-- The names that lead from the root to a file or folder. -/
abbrev Place := List String

inductive FileEntry
  | folder
  | file (text : String)
  /-- Is always empty and swallows what is written to it. -/
  | sink
  deriving DecidableEq, Repr

structure FileTree where
  entries : List (Place × FileEntry)
  /-- The working folder. -/
  working : Place

namespace FileTree

/-- An empty working folder in a bare system. -/
def empty : FileTree where
  entries := [(["dev"], .folder), (["dev", "null"], .sink), (["tmp"], .folder),
    (["tmp", "work"], .folder)]
  working := ["tmp", "work"]

def entry? (t : FileTree) (p : Place) : Option FileEntry :=
  if p = [] then some .folder else t.entries.lookup p

def put (t : FileTree) (p : Place) (e : FileEntry) : FileTree :=
  { t with entries := t.entries.filter (·.1 != p) ++ [(p, e)] }

/-- The longest name in bytes. -/
def maxNameSize : Nat := 255

/-- The longest path in bytes. -/
def maxPathSize : Nat := 4095

/-- The names in a path. Repeated separators count once. -/
def names (path : String) : List String :=
  ((Text.pieces '/' path.toList).filter (!·.isEmpty)).map String.ofList

/-- Where a path starts. -/
def start (t : FileTree) (path : String) : Except FileError Place :=
  if path.toList.contains '\x00' then .error .nulInName
  else if maxPathSize < path.utf8ByteSize then .error .nameTooLong
  else .ok (if path.toList.head? = some '/' then [] else t.working)

/-- Goes from a folder to what a name in it stands for, whether that exists or not. -/
def step (t : FileTree) (p : Place) (name : String) : Except FileError Place :=
  match t.entry? p with
  | none => .error .notFound
  | some .folder =>
    if name = "." then .ok p
    else if name = ".." then .ok p.dropLast
    else if maxNameSize < name.utf8ByteSize then .error .nameTooLong
    else .ok (p ++ [name])
  | some _ => .error .notFolder

def follow (t : FileTree) (p : Place) (names : List String) : Except FileError Place :=
  names.foldlM t.step p

/-- What a path stands for. -/
def locate (t : FileTree) (path : String) : Except FileError Place := do
  t.follow (← t.start path) (names path)

/-! ### Folders -/

def isFolder (t : FileTree) (p : Place) (names : List String) : Bool :=
  match t.follow p names with
  | .ok p => t.entry? p == some .folder
  | .error _ => false

def createFolder (t : FileTree) (p : Place) (names : List String) :
    Except FileError FileTree := do
  let p ← t.follow p names
  match t.entry? p with
  | some _ => .error .alreadyExists
  | none => .ok (t.put p .folder)

/-- The names that lead to the folder above; `.` is no step on the way. -/
def above (names : List String) : List String :=
  (names.filter (· != ".")).dropLast

/-- Makes the folder that the names lead to, and the missing ones among so many folders above it. -/
def createFoldersWithin (t : FileTree) (p : Place) :
    Nat → List String → FileTree × Except FileError Unit
  | 0, _ => (t, .ok ())
  | levels + 1, names =>
    if names = [] then (t, .ok ())
    else match t.createFolder p names with
      | .ok t => (t, .ok ())
      | .error .notFound =>
        match t.createFoldersWithin p levels (above names) with
        | (t, .error e) => (t, .error e)
        | (t, .ok _) => match t.createFolder p names with
          | .ok t => (t, .ok ())
          | .error e => (t, if t.isFolder p names then .ok () else .error e)
      | .error e => (t, if t.isFolder p names then .ok () else .error e)

def createFolders (t : FileTree) (path : String) : FileTree × Except FileError Unit :=
  match t.start path with
  | .error e => (t, .error e)
  | .ok p =>
    let names := names path
    t.createFoldersWithin p (names.length + 1) names

/-! ### Files -/

/-- Writes a file whose name is the last one in the path. -/
def write (t : FileTree) (path text : String) : Except FileError FileTree := do
  let p ← t.locate path
  match t.entry? p with
  | some .folder => .error .isFolder
  | some .sink => .ok t
  | some (.file _) | none => .ok (t.put p (.file text))

/-- Reads a file; a path that ends in a separator can only name a folder. -/
def read (t : FileTree) (path : String) : Except FileError String := do
  let p ← t.locate path
  let content (text : String) : Except FileError String :=
    if path.toList.getLast? = some '/' then .error .notFolder else .ok text
  match t.entry? p with
  | none => .error .notFound
  | some .folder => .error .isFolder
  | some .sink => content ""
  | some (.file text) => content text

/-- Everything below a folder, with paths relative to it. -/
def below (t : FileTree) (p : Place) : List (String × FileEntry) :=
  t.entries.filterMap fun (q, e) =>
    if p.isPrefixOf q && p.length < q.length then
      some (String.intercalate "/" (q.drop p.length), e)
    else none

/-- A disk whose files are in memory. -/
def disk : Disk (StateM FileTree) where
  read path := do
    return ((← get).read path).mapError FileError.message
  createFolders path := do
    let (t, result) := (← get).createFolders path
    set t
    return result.mapError FileError.message
  write path text := do
    match (← get).write path text with
    | .ok t =>
      set t
      return .ok ()
    | .error e => return .error e.message

end FileTree
end DesignLayout
