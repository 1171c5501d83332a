import ValidatorClient.Settings.Cluster
import ValidatorClient.Settings.Store

namespace ValidatorClient.Settings

open Ledger

def programKey : String := "program_id"

def networkKey : String := "network"

def keyPairPathKey : String := "keypair_path"

def defaultProgram : Address :=
  .ofNat 0xf0d6b971b8a87dadc248a6a57440329625d5f794bee7543f627ff710d58d7213

def clientFile (home name : String) : String :=
  [".config", "solana", "ingl", name].foldl FileTree.Path.push home

def defaultStorePath? (home : Option String) : Option String :=
  home.map (clientFile · "config.json")

/-- Empty where there is no home directory. -/
def defaultKeyPairPath (home : Option String) : String :=
  (home.map (clientFile · "id.json")).getD ""

def openDefault (home : Option String) : Except ClientError (Store FileTree) :=
  match defaultStorePath? home with
  | some path => .ok (.jsonFile path)
  | none => .error (.config .noHome)

variable {σ : Type} (store : Store σ)

/-- A text that is no address counts as unset. -/
def program (s : σ) : Address :=
  let text := store.get s programKey
  if text.isEmpty then defaultProgram
  else
    match Address.parse text with
    | .ok a => a
    | .error _ => defaultProgram

def setProgram (a : Address) : Change σ ClientError Unit := store.set programKey a.toString

def network (s : σ) : String :=
  let text := store.get s networkKey
  if text.isEmpty then Cluster.devnet.url else text

/-- The name of a cluster is kept as its address, all else as it is. -/
def setNetwork (text : String) : Change σ ClientError Unit :=
  match Cluster.parse text with
  | .ok cluster => store.set networkKey cluster.url
  | .error _ => store.set networkKey text

def cluster (s : σ) : Option Cluster := Cluster.ofUrl? (network store s)

def keyPairPath (home : Option String) (s : σ) : String :=
  let text := store.get s keyPairPathKey
  if text.isEmpty then defaultKeyPairPath home else text

def setKeyPairPath (path : String) : Change σ ClientError Unit := store.set keyPairPathKey path

end ValidatorClient.Settings
