import ValidatorClient.Error

namespace ValidatorClient

/-- Texts under keys, in a state. An unset key has the empty text. -/
structure Store (σ : Type) where
  get : σ → String → String
  set : String → String → Change σ ClientError Unit

namespace Store

variable {σ τ : Type}

def onLeft (store : Store σ) : Store (σ × τ) where
  get s := store.get s.1
  set key value := (store.set key value).onLeft

def onRight (store : Store τ) : Store (σ × τ) where
  get s := store.get s.2
  set key value := (store.set key value).onRight

abbrev Entries := List (String × String)

def Entries.insert (key value : String) : Entries → Entries
  | [] => [(key, value)]
  | (k, v) :: entries =>
    if key = k then (key, value) :: entries
    else if key < k then (key, value) :: (k, v) :: entries
    else (k, v) :: Entries.insert key value entries

def Entries.get (entries : Entries) (key : String) : String :=
  ((entries.find? (·.1 = key)).map (·.2)).getD ""

/-- Of entries with one key the last counts. -/
def Entries.ofList (entries : List (String × String)) : Entries :=
  entries.foldl (fun es (key, value) ↦ Entries.insert key value es) []

def memory : Store Entries where
  get := Entries.get
  set key value := modify (Entries.insert key value)

/-- The entries of a file. One that cannot be read or holds something else counts as empty. -/
def entriesOf (files : FileTree) (path : String) : Entries :=
  match files.readText path with
  | .error _ => []
  | .ok text =>
    match (Json.Value.parse? text).bind Json.Value.texts? with
    | some entries => Entries.ofList entries
    | none => []

/-- The file is read again each time. -/
def jsonFile (path : String) : Store FileTree where
  get files key := (entriesOf files path).get key
  set key value := do
    let entries := (entriesOf (← getThe FileTree) path).insert key value
    ExceptT.adapt (fun fault ↦ .config (.save fault))
      (FileTree.save path (Text.Utf8.encode (Json.textsText entries)))

end Store

end ValidatorClient
