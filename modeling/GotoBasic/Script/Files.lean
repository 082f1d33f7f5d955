/-
  Files and directories as a script runner sees them.

  * `Files`: the entries of a file system, by the names on the way from the
    root directory; `Files.fresh` holds the standard places and an empty
    working directory;
  * `Files.walk`: follows the names of a path one by one; every name but the
    last needs a directory in front of it;
  * `Files.put`: creates an entry at a path;
  * `Files.read`: the bytes of the file at a path, or why it cannot be read.
-/
import GotoBasic.Path

namespace GotoBasic

/-- What a name in a directory stands for. -/
inductive Entry where
  | file (bytes : List UInt8)
  | directory
  /-- the directory with the given reversed names -/
  | link (way : List String)

/-- Why a file cannot be read. -/
inductive FileFault where
  | missing
  | notDirectory
  | isDirectory
  | nameTooLong
  deriving DecidableEq

/-- The number of a fault. -/
def FileFault.number : FileFault → Nat
  | missing => 2
  | notDirectory => 20
  | isDirectory => 21
  | nameTooLong => 36

/-- The fault with the given number. -/
def FileFault.ofNumber? (n : Nat) : Option FileFault :=
  [missing, notDirectory, isDirectory, nameTooLong].find? (·.number == n)

/-- The wording of a fault. -/
def FileFault.wording : FileFault → String
  | missing => "No such file or directory"
  | notDirectory => "Not a directory"
  | isDirectory => "Is a directory"
  | nameTooLong => "File name too long"

/-- The entries of a file system, by the names on the way from the root
    directory. -/
abbrev Files := List (List String × Entry)

/-- A place that a path leads to: the reversed names on the way from the root
    directory, and what is there. -/
structure Spot where
  way : List String
  entry : Entry

/-- The place with the given reversed names, which is a directory. -/
def Spot.directory (way : List String) : Spot := ⟨way, .directory⟩

namespace Files

/-- The number of bytes that a name may have. -/
def nameLimit : Nat := 255

/-- The number of bytes that a path must stay below. -/
def pathLimit : Nat := 4096

/-- The reversed names of the working directory.  It lies below the directory
    for temporary files, under a name that no path can spell. -/
def workingWay : List String := ["", "tmp"]

/-- The reversed names of the directory where a path starts. -/
def startWay (path : String) : List String := if Path.isAbsolute path then [] else workingWay

/-- The directories that every system has. -/
def standardDirectories : List (List String) :=
  [["bin"], ["boot"], ["dev", "shm"], ["etc"], ["home"], ["lib"], ["media"], ["mnt"], ["opt"],
   ["proc"], ["root"], ["run"], ["sbin"], ["srv"], ["sys"], ["tmp"], ["usr", "bin"],
   ["usr", "lib"], ["usr", "local"], ["usr", "sbin"], ["usr", "share"], ["var", "lib"],
   ["var", "log"], ["var", "tmp"]]

/-- The file system with an empty working directory.  The null device is an
    empty file to its readers. -/
def fresh : Files :=
  [(workingWay.reverse, .directory), (["dev", "null"], .file []),
   (["proc", "self", "cwd"], .link workingWay), (["proc", "self", "root"], .link [])] ++
    standardDirectories.map fun names => (names, .directory)

/-- The entry at the given names; a directory is there if anything is below
    it, as it is at the root. -/
def entry? (fs : Files) (names : List String) : Option Entry :=
  match fs.lookup names with
  | some entry => some entry
  | none =>
    if names.isEmpty || fs.any (fun (other, _) => names.isPrefixOf other) then some .directory
    else none

/-- The place that a name leads to from a place.  The root directory is above
    itself. -/
def enter (fs : Files) (name : String) (spot : Spot) : Except FileFault Spot :=
  match spot.entry with
  | .file _ => .error .notDirectory
  | _ =>
    if name = "." then .ok spot
    else if name = ".." then .ok (.directory spot.way.tail)
    else if nameLimit < name.utf8ByteSize then .error .nameTooLong
    else match fs.entry? (name :: spot.way).reverse with
      | some (.link way) => .ok (.directory way)
      | some entry => .ok ⟨name :: spot.way, entry⟩
      | none => .error .missing

/-- Follows names from a place. -/
def walk (fs : Files) (spot : Spot) : List String → Except FileFault Spot
  | [] => .ok spot
  | name :: names =>
    match fs.enter name spot with
    | .ok spot => fs.walk spot names
    | .error fault => .error fault

/-- Puts an entry where some names lead to, after the reversed names `way`.
    What `..` leaves is a directory. -/
def putFrom (fs : Files) (way : List String) (entry : Entry) : List String → Files
  | [] => (way.reverse, entry) :: fs
  | name :: names =>
    if name = "." then fs.putFrom way entry names
    else if name = ".." then putFrom ((way.reverse, .directory) :: fs) way.tail entry names
    else fs.putFrom (name :: way) entry names

/-- Puts an entry at a path, in place of any earlier one. -/
def put (fs : Files) (path : String) (entry : Entry) : Files :=
  fs.putFrom (startWay path) entry (Path.names path)

/-- The bytes of the file at a path. -/
def read (fs : Files) (path : String) : Except FileFault (List UInt8) :=
  if path.isEmpty then .error .missing
  else if pathLimit ≤ path.utf8ByteSize then .error .nameTooLong
  else
    match fs.walk (.directory (startWay path)) (Path.names path) with
    | .error fault => .error fault
    | .ok spot =>
      match spot.entry with
      | .file bytes => .ok bytes
      | _ => .error .isDirectory

end Files

end GotoBasic
