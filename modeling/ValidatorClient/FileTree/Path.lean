import ValidatorClient.Text.Utf8

namespace ValidatorClient.FileTree

inductive Fault where
  | notFound
  | denied
  | exists
  | notDirectory
  | isDirectory
  | nameTooLong
  | zeroByte
  | notUtf8
  deriving DecidableEq, Repr

def Fault.message : Fault → String
  | .notFound => "No such file or directory (os error 2)"
  | .denied => "Permission denied (os error 13)"
  | .exists => "File exists (os error 17)"
  | .notDirectory => "Not a directory (os error 20)"
  | .isDirectory => "Is a directory (os error 21)"
  | .nameTooLong => "File name too long (os error 36)"
  | .zeroByte => "file name contained an unexpected NUL byte"
  | .notUtf8 => "stream did not contain valid UTF-8"

def maxName : Nat := 255

def maxPath : Nat := 4095

/-- The names of a path in order, those of dots among them. An absolute one starts at the root. -/
structure Path where
  isAbsolute : Bool
  names : List String
  endsInSlash : Bool

namespace Path

/-- Splits at slashes; the last part is there also if it is empty. -/
def splitSlashes : List Char → List (List Char)
  | [] => [[]]
  | '/' :: cs => [] :: splitSlashes cs
  | c :: cs =>
    match splitSlashes cs with
    | part :: parts => (c :: part) :: parts
    | [] => [[c]]

def parts (s : String) : List String := (splitSlashes s.toList).map String.ofList

def ofText (s : String) : Except Fault Path :=
  if s.toList.contains '\x00' then .error .zeroByte
  else if maxPath < (Text.Utf8.encode s).length then .error .nameTooLong
  else if s = "" then .error .notFound
  else .ok {
    isAbsolute := s.startsWith "/"
    names := (parts s).filter (· ≠ "")
    endsInSlash := s.endsWith "/" }

/-- Drops the parts that lead nowhere from the end of a path, whose last part comes first here. A
dot counts as a name only where it begins the path. -/
def dropIdle : List String → List String
  | [] => []
  | part :: parts =>
    if part = "" ∨ part = "." ∧ parts ≠ [] then dropIdle parts else part :: parts

/-- The text of a path up to the directory above its last name; none for a path without names. -/
def parent? (s : String) : Option String :=
  match dropIdle (parts s).reverse with
  | [] => none
  | _ :: above =>
    match dropIdle above with
    | [] => some (if s.startsWith "/" then "/" else "")
    | above => some ("/".intercalate above.reverse)

/-- The path of a name in a directory. A slash that ends the one is not doubled, and an absolute
name is a path by itself. -/
def push (s name : String) : String :=
  if name.startsWith "/" then name
  else if s = "" ∨ s.endsWith "/" then s ++ name
  else s ++ "/" ++ name

end Path

end ValidatorClient.FileTree
