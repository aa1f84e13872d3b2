/-
  `FileSystem` — files by path, as seen from a working directory.

  A path is normalised before it is shown or looked up: empty parts and `.` are
  dropped, `..` is kept, since what it leads to depends on the directories that
  exist. Looking up a path walks it part by part, from the root or from the working
  directory, and the first part that cannot be entered decides which fault is found.
  Above the root is the root.
-/
import PeerTrust.Failure
import PeerTrust.Text.Charset

namespace PeerTrust

/-! ### Paths -/

/-- A normalised path: the slashes it starts with, and its parts. -/
structure Path where
  root : String
  parts : List String
deriving DecidableEq, Repr

namespace Path

/-- **Normalises a path.** Exactly two slashes at the start are kept as such. -/
def ofText (s : String) : Path :=
  let cs := s.toList
  let root :=
    match cs with
    | '/' :: '/' :: '/' :: _ => "/"
    | '/' :: '/' :: _ => "//"
    | '/' :: _ => "/"
    | _ => ""
  let parts := (Text.splitOn '/' cs).filter fun part => part ≠ [] ∧ part ≠ ['.']
  ⟨root, parts.map String.ofList⟩

/-- The text of a path; the working directory itself is a point. -/
def text (p : Path) : String :=
  if p.root.isEmpty && p.parts.isEmpty then "." else p.root ++ "/".intercalate p.parts

/-- The text names no file of any system, since it holds a null character. -/
def isImpossible (s : String) : Bool := (Text.codePoints s).contains (.character '\x00')

/-- The text can be encoded as a path. The second half of a surrogate pair may stand for
an octet, and no other half can be encoded. -/
def isEncodable (s : String) : Bool :=
  (Text.codePoints s).all fun p => !p.isHalf || (0xDC80 ≤ p.code && p.code < 0xDD00)

/-- How many octets a text takes in a path. A half stands for one. -/
def size (s : String) : Nat :=
  (Text.codePoints s).foldl (fun n p => n + if p.isHalf then 1 else p.utf8.length) 0

end Path

/-! ### Files -/

/-- What stands at a path. -/
inductive FileEntry
  | file (content : Content)
  | directory
deriving DecidableEq

/-- Files and directories by the parts of their absolute path, and the working directory. -/
structure FileSystem where
  workingDirectory : List String
  entries : List (List String × FileEntry)

namespace FileSystem

/-- The longest name of a part, in octets. -/
def maxName : Nat := 255

/-- The longest path, in octets. -/
def maxPath : Nat := 4095

/-- What stands at the parts of an absolute path. The working directory and those above it exist. -/
def entryAt? (fs : FileSystem) (parts : List String) : Option FileEntry :=
  if parts.isPrefixOf fs.workingDirectory then some .directory else fs.entries.lookup parts

/-- The directory that a path starts from, by the parts of its own. -/
def origin (fs : FileSystem) (p : Path) : List String :=
  if p.root.isEmpty then fs.workingDirectory else []

/-- Walks parts of a path from a directory, given by its own parts. -/
def walk (fs : FileSystem) (here : List String) : List String → Except SystemFault FileEntry
  | [] => .ok .directory
  | part :: rest =>
    if maxName < Path.size part then .error .nameTooLong
    else if part = ".." then walk fs here.dropLast rest
    else
      let there := here ++ [part]
      match fs.entryAt? there with
      | none => .error .notFound
      | some .directory => walk fs there rest
      | some (.file content) => if rest.isEmpty then .ok (.file content) else .error .notDirectory

/-- **What stands at a path.** -/
def find (fs : FileSystem) (p : Path) : Except SystemFault FileEntry :=
  if maxPath < Path.size p.text then .error .nameTooLong else fs.walk (fs.origin p) p.parts

/-- **The content of the file at a path.** -/
def read (fs : FileSystem) (p : Path) : Except SystemFault Content :=
  match fs.find p with
  | .ok (.file content) => .ok content
  | .ok .directory => .error .isDirectory
  | .error fault => .error fault

/-- Makes a directory unless something stands there already. -/
def makeDirectory (fs : FileSystem) (parts : List String) : FileSystem :=
  match fs.entryAt? parts with
  | some _ => fs
  | none => { fs with entries := (parts, .directory) :: fs.entries }

/-- Where a walk along parts of a path ends, if nothing stops it. -/
def destination (here : List String) (parts : List String) : List String :=
  parts.foldl (fun here part => if part = ".." then here.dropLast else here ++ [part]) here

/-- Removes what stands at the parts of an absolute path. -/
def clear (fs : FileSystem) (parts : List String) : FileSystem :=
  { fs with entries := fs.entries.filter fun e => e.1 ≠ parts }

/-- **Puts an entry at a path,** in the place of what was there, and makes the
directories above it. -/
def write (fs : FileSystem) (p : Path) (entry : FileEntry) : FileSystem :=
  let start := fs.origin p
  let fs := (List.range p.parts.length).foldl
    (fun fs n => fs.makeDirectory (destination start (p.parts.take n))) fs
  let there := destination start p.parts
  let fs := fs.clear there
  { fs with entries := (there, entry) :: fs.entries }

/-- Removes the file at a path. -/
def delete (fs : FileSystem) (p : Path) : Except SystemFault FileSystem :=
  match fs.read p with
  | .ok _ => .ok (fs.clear (destination (fs.origin p) p.parts))
  | .error fault => .error fault

end FileSystem

/-! ### Environments -/

/-- What an operation may look at beside its arguments. -/
structure Environment where
  now : Instant
  files : FileSystem
  defaultBundle : String
  userDirectory : String

end PeerTrust
