/-
  ListingMetadata.Folder
  ──────────────────────
  **WHAT IS FOUND UNDER THE NAME OF A FILE.**

  A name leads from the working directory, or from the root of all directories,
  to a file, a directory or nothing.  Between slashes it says where to go: to
  what has this name, to the directory above, or nowhere at all.  Only from a
  directory there is a way on.
-/
import ListingMetadata.Text.Bytes

namespace ListingMetadata

open Text

/-! ## §1. Causes -/

/-- Why a file cannot be read. -/
inductive Unreadable where
  /-- There is nothing of this name. -/
  | missing
  /-- The name leads to a directory. -/
  | directory
  /-- The name leads on from a file. -/
  | notDirectory
  /-- No name can have so many bytes. -/
  | nameTooLong
deriving DecidableEq, Repr

/-- What is said of a file that cannot be read. -/
def Unreadable.message : Unreadable → String
  | .missing => "No such file or directory (os error 2)"
  | .notDirectory => "Not a directory (os error 20)"
  | .directory => "Is a directory (os error 21)"
  | .nameTooLong => "File name too long (os error 36)"

/-! ## §2. Steps of a name -/

/-- The parts of a name between its slashes. -/
def nameParts (name : String) : List String :=
  (name.toList.splitOn '/').map String.ofList

/-- A part that stays where it is. -/
def staysHere (part : String) : Bool :=
  part = "" || part = "."

/-- The greatest number of bytes between two slashes. -/
def partLimit : Nat := 255

/-- The greatest number of bytes of a name. -/
def nameLimit : Nat := 4095

/-! ## §3. Folders -/

/-- Files with their texts, by the directories that lead to them and their own
name; the directories are there because of the files. -/
structure Folder where
  files : List (List String × String)
deriving DecidableEq, Repr

namespace Folder

/-- What a name has led to so far. -/
inductive Reached where
  /-- The working directory, or one below it. -/
  | inside (path : List String)
  /-- A directory of which nothing else is known. -/
  | outside
  | file (text : String)
deriving DecidableEq, Repr

/-- Files by name. -/
def ofFiles (files : List (String × String)) : Folder :=
  ⟨files.map fun (name, text) => ((nameParts name).filter fun p => !staysHere p, text)⟩

/-- What is found at a path below the working directory. -/
def entry (f : Folder) (path : List String) : Except Unreadable Reached :=
  match f.files.lookup path with
  | some text => .ok (.file text)
  | none =>
    if f.files.any fun (full, _) => path.isPrefixOf full then .ok (.inside path)
    else .error .missing

/-- One step of a name. -/
def step (f : Folder) (part : String) : Reached → Except Unreadable Reached
  | .file _ => .error .notDirectory
  | .outside =>
    if staysHere part || part = ".." then .ok .outside
    else if partLimit < byteLength part.toList then .error .nameTooLong
    else .error .missing
  | .inside path =>
    if staysHere part then .ok (.inside path)
    else if part = ".." then .ok (if path = [] then .outside else .inside path.dropLast)
    else if partLimit < byteLength part.toList then .error .nameTooLong
    else f.entry (path ++ [part])

/-- All steps of a name. -/
def walk (f : Folder) : List String → Reached → Except Unreadable Reached
  | [], here => .ok here
  | part :: parts, here => do
    let there ← f.step part here
    f.walk parts there

/-- Where a name starts. -/
def start (name : String) : Reached :=
  if name.toList.head? = some '/' then .outside else .inside []

/-- The text of the file of a name. -/
def read (f : Folder) (name : String) : Except Unreadable String :=
  if name = "" then .error .missing
  else if nameLimit < byteLength name.toList then .error .nameTooLong
  else
    match f.walk (nameParts name) (start name) with
    | .error cause => .error cause
    | .ok (.file text) => .ok text
    | .ok _ => .error .directory

end Folder

/-! ## §4. Samples -/

example : (Folder.ofFiles [("a", "x")]).read "./a" = .ok "x" := by rfl
example : (Folder.ofFiles [("a", "x")]).read "a/" = .error .notDirectory := by rfl
example : (Folder.ofFiles [("a", "x")]).read "." = .error .directory := by rfl
example : (Folder.ofFiles [("a", "x")]).read "b/../a" = .error .missing := by rfl

end ListingMetadata
