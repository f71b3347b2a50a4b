import Rech.Text.Quoted
import Rech.Text.Utf8

/-!
# Files of a folder

Where a command line finds its source files: a folder in which paths are
resolved part by part. Of what is outside the folder only the directories at
the root and the empty device are known. `FileError` says why a path gives no
text.
-/

namespace Rech

inductive FileError where
  | missing (path : String)
  | directory (path : String)
  | notDirectory (path : String)
  | nameTooLong (path : String)
  | nullByte
  | malformed (sequence : Utf8.Malformed)
  | unavailable (reason : String)
deriving DecidableEq, Repr

def FileError.message : FileError → String
  | .missing path => s!"[Errno 2] No such file or directory: {Text.quoted path}"
  | .directory path => s!"[Errno 21] Is a directory: {Text.quoted path}"
  | .notDirectory path => s!"[Errno 20] Not a directory: {Text.quoted path}"
  | .nameTooLong path => s!"[Errno 36] File name too long: {Text.quoted path}"
  | .nullByte => "embedded null byte"
  | .malformed sequence => sequence.message
  | .unavailable reason => reason

/-- The files of a folder and of the folders in it, each with the parts of its
path. -/
structure Folder where
  files : List (List String × List UInt8)

namespace Folder

inductive Spot where
  | root
  | devices
  | outside
  | folder (parts : List String)
  | file (bytes : List UInt8)

/-- The directories that every root has, apart from the devices. -/
def rootDirectories : List String :=
  ["bin", "boot", "etc", "home", "lib", "media", "mnt", "opt", "proc", "root", "run", "sbin",
    "srv", "sys", "tmp", "usr", "var"]

def spot? (folder : Folder) (parts : List String) : Option Spot :=
  match folder.files.find? fun file => file.1 = parts with
  | some file => some (.file file.2)
  | none =>
    if folder.files.any fun file => parts.isPrefixOf file.1 then some (.folder parts) else none

def above : Spot → Spot
  | .root | .devices => .root
  | .folder (first :: others) => .folder (first :: others).dropLast
  | _ => .outside

def entry? (folder : Folder) (name : String) : Spot → Option Spot
  | .root =>
    if name = "dev" then some .devices
    else if rootDirectories.contains name then some .outside
    else none
  | .devices => if name = "null" then some (.file []) else none
  | .folder parts => folder.spot? (parts ++ [name])
  | _ => none

def longestName : Nat := 255

def longestPath : Nat := 4095

def follow (folder : Folder) (path : String) (spot : Spot) (part : String) :
    Except FileError Spot :=
  match spot with
  | .file _ => .error (.notDirectory path)
  | directory =>
    if part = "" || part = "." then .ok directory
    else if part = ".." then .ok (above directory)
    else if longestName < part.utf8ByteSize then .error (.nameTooLong path)
    else
      match folder.entry? part directory with
      | some found => .ok found
      | none => .error (.missing path)

def splitPath (path : String) : List String :=
  path.toList.splitOn '/' |>.map String.ofList

/-- A folder with the files that were written to it. Of two files of one path
the later one stays. -/
def ofFiles (files : List (String × List UInt8)) : Folder :=
  let written := files.map fun file =>
    ((splitPath file.1).filter fun part => part != "" && part != ".", file.2)
  ⟨written.reverse⟩

def read (folder : Folder) (path : String) : Except FileError (List UInt8) := do
  if path.isEmpty then throw (.missing path)
  if longestPath < path.utf8ByteSize then throw (.nameTooLong path)
  let origin := if path.toList.head? = some '/' then Spot.root else .folder []
  match ← (splitPath path).foldlM (folder.follow path) origin with
  | .file bytes => return bytes
  | _ => throw (.directory path)

end Folder

end Rech
