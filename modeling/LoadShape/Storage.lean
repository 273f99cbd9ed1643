/-!
# Stored files

A tree of folders and files, in which paths lead from the root or from the folder
of the program, and why a file cannot be read.
-/

namespace LoadShape

/-- Why a file cannot be read. -/
inductive ReadFault where
  | notFound
  | isFolder
  | notFolder
  | nameTooLong
  /-- The path holds a character that ends paths. -/
  | endInPath
  /-- The bytes of the file are no UTF-8 text. -/
  | notText
  deriving DecidableEq, Repr

/-- The system's wording of a fault. -/
def ReadFault.text : ReadFault → String
  | .notFound => "No such file or directory (os error 2)"
  | .isFolder => "Is a directory (os error 21)"
  | .notFolder => "Not a directory (os error 20)"
  | .nameTooLong => "File name too long (os error 36)"
  | .endInPath => "file name contained an unexpected NUL byte"
  | .notText => "stream did not contain valid UTF-8"

/-- What is stored under a name. -/
inductive StoredItem where
  | file (bytes : ByteArray)
  | folder (items : List (String × StoredItem))

/-- Stored files: the root folder, and the names that lead from it to the folder of
the program. -/
structure Storage where
  root : List (String × StoredItem)
  place : List String

namespace Storage

/-- The longest name of a file, in bytes. -/
def longestName : Nat := 255

/-- The shortest path that is too long, in bytes. -/
def pathLimit : Nat := 4096

/-- What a walk along the given names finds from `here` on.  The trail holds the
folders above, the nearest one first; nothing is above the root. -/
def walk (root : List (String × StoredItem)) :
    (names : List String) → (trail : List (List (String × StoredItem))) →
      (here : StoredItem) → Except ReadFault StoredItem
  | [], _, here => .ok here
  | name :: names, trail, here =>
    match here with
    | .file _ => .error .notFolder
    | .folder items =>
      if name = "" ∨ name = "." then walk root names trail here
      else if name = ".." then
        match trail with
        | [] => walk root names [] (.folder root)
        | parent :: trail => walk root names trail (.folder parent)
      else if longestName < name.utf8ByteSize then .error .nameTooLong
      else
        match items.lookup name with
        | none => .error .notFound
        | some item => walk root names (items :: trail) item

/-- The contents of the file at a path. -/
def read (s : Storage) (path : String) : Except ReadFault ByteArray :=
  if path.toList.contains '\x00' then .error .endInPath
  else if path = "" then .error .notFound
  else if pathLimit ≤ path.utf8ByteSize then .error .nameTooLong
  else
    let names := path.splitOn "/"
    let names := if path.startsWith "/" then names else s.place ++ names
    match walk s.root names [] (.folder s.root) with
    | .error fault => .error fault
    | .ok (.folder _) => .error .isFolder
    | .ok (.file bytes) => .ok bytes

end Storage

end LoadShape
