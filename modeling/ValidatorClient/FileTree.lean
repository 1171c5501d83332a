import ValidatorClient.Change
import ValidatorClient.FileTree.Path

namespace ValidatorClient

/-- A file, or a directory of named files and directories. Who may do what with a file is a number
of nine bits. -/
inductive FileTree.Entry where
  | file (content : Bytes) (mode : Nat)
  | directory (entries : List (String × Entry))

/-- All that there is from the root down, and the directory from which relative paths lead. -/
structure FileTree where
  root : FileTree.Entry
  current : List String

namespace FileTree

namespace Entry

def entries : Entry → List (String × Entry)
  | file _ _ => []
  | directory entries => entries

def at? : List String → Entry → Option Entry
  | [], t => some t
  | name :: names, t => (t.entries.lookup name).bind (at? names)

def put (entry : Entry) : List String → Entry → Entry
  | [], _ => entry
  | name :: names, t =>
    directory ((name, put entry names ((t.entries.lookup name).getD (directory []))) ::
      t.entries.filter (·.1 ≠ name))

@[simp] theorem at?_put (entry : Entry) (names : List String) (t : Entry) :
    (put entry names t).at? names = some entry := by
  induction names generalizing t with
  | nil => rfl
  | cons name names ih => simp [put, at?, entries, ih]

end Entry

open Entry

/-- The names on the way from the root. -/
abbrev Place := List String

def start (t : FileTree) (p : Path) : Place := if p.isAbsolute then [] else t.current

def find? (t : FileTree) (place : Place) : Option Entry := t.root.at? place

def putAt (t : FileTree) (entry : Entry) (place : Place) : FileTree :=
  { t with root := put entry place t.root }

/-- The place to which a name leads from a directory. Above the root there is only the root. -/
def step (t : FileTree) (place : Place) (name : String) : Except Fault Place :=
  match t.find? place with
  | none => .error .notFound
  | some (file _ _) => .error .notDirectory
  | some (directory _) =>
    if name = "." then .ok place
    else if name = ".." then .ok place.dropLast
    else if maxName < (Text.Utf8.encode name).length then .error .nameTooLong
    else .ok (place ++ [name])

/-- All names but the last have to lead to directories. -/
def walk (t : FileTree) (place : Place) (names : List String) : Except Fault Place :=
  names.foldlM t.step place

def read (t : FileTree) (path : String) : Except Fault Bytes := do
  let p ← Path.ofText path
  match t.find? (← t.walk (t.start p) p.names) with
  | some (file content _) => if p.endsInSlash then throw .notDirectory else return content
  | some (directory _) => throw .isDirectory
  | none => throw .notFound

def readText (t : FileTree) (path : String) : Except Fault String := do
  match Text.Utf8.decode (← t.read path) with
  | .ok s => return s
  | .error _ => throw .notUtf8

/-- The place of a file to write. A slash at the end says that it is a directory, whatever is
there. -/
def target (t : FileTree) (path : String) : Except Fault Place := do
  let p ← Path.ofText path
  t.walk (t.start p) (if p.endsInSlash then p.names.dropLast ++ ["."] else p.names)

def defaultMode : Nat := 0o644

def write (path : String) (content : Bytes) : Change FileTree Fault Unit := do
  let t ← get
  let place ← liftExcept (t.target path)
  match t.find? place with
  | some (directory _) => throw .isDirectory
  | some (file _ mode) => set (t.putAt (file content mode) place)
  | none => set (t.putAt (file content defaultMode) place)

def mode? (t : FileTree) (path : String) : Option Nat :=
  match (t.target path).toOption.bind t.find? with
  | some (file _ mode) => some mode
  | _ => none

def setMode (path : String) (mode : Nat) : Change FileTree Fault Unit := do
  let t ← get
  let place ← liftExcept (t.target path)
  match t.find? place with
  | some (file content _) => set (t.putAt (file content mode) place)
  | some (directory _) => return
  | none => throw .notFound

/-- Makes the directories that are missing on the way. Before one has been made a file on the way to
the last name is no directory, and after that it is in the way. -/
def makeMissing (place : Place) (hasMade : Bool) : List String → Change FileTree Fault Unit
  | [] => return
  | name :: names => do
    let t ← get
    let next ← liftExcept (t.step place name)
    match t.find? next with
    | some (directory _) => makeMissing next hasMade names
    | some (file _ _) => throw (if hasMade ∨ names = [] then .exists else .notDirectory)
    | none =>
      set (t.putAt (directory []) next)
      makeMissing next true names

/-- Makes a directory and those above it. The empty path names one that is there. -/
def makeDirectories (path : String) : Change FileTree Fault Unit := do
  if path = "" then return
  let p ← liftExcept (Path.ofText path)
  makeMissing ((← get).start p) false p.names

inductive SaveFault where
  | directory (path : String) (fault : Fault)
  | content (path : String) (fault : Fault)
  deriving DecidableEq, Repr

def SaveFault.message : SaveFault → String
  | .directory path fault => "create " ++ path ++ ": " ++ fault.message
  | .content path fault => "write " ++ path ++ ": " ++ fault.message

/-- Writes a file after making the directories above it, which stay if it cannot be written. -/
def save (path : String) (content : Bytes) : Change FileTree SaveFault Unit := do
  if let some parent := Path.parent? path then
    ExceptT.adapt (SaveFault.directory parent) (makeDirectories parent)
  ExceptT.adapt (SaveFault.content path) (write path content)

end FileTree

end ValidatorClient
