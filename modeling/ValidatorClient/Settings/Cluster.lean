import ValidatorClient.Error

namespace ValidatorClient

inductive Cluster where
  | devnet
  | testnet
  | mainnet
  deriving DecidableEq, Repr

namespace Cluster

def name : Cluster → String
  | devnet => "devnet"
  | testnet => "testnet"
  | mainnet => "mainnet"

def url : Cluster → String
  | devnet => "https://api.devnet.solana.com"
  | testnet => "https://api.testnet.solana.com"
  | mainnet => "https://api.mainnet-beta.solana.com"

def explorerQuery : Cluster → String
  | devnet => "?cluster=devnet"
  | testnet => "?cluster=testnet"
  | mainnet => ""

/-- Slashes at the end make no difference. -/
def ofUrl? (text : String) : Option Cluster :=
  let trimmed := String.ofList (text.toList.reverse.dropWhile (· = '/')).reverse
  [devnet, testnet, mainnet].find? (·.url = trimmed)

/-- ASCII letters may be written in either case. -/
def parse (text : String) : Except ClientError Cluster :=
  let lower := String.ofList (text.toList.map Char.toLower)
  if lower = "devnet" then .ok devnet
  else if lower = "testnet" then .ok testnet
  else if lower = "mainnet" ∨ lower = "mainnet-beta" then .ok mainnet
  else .error (.config (.unknownCluster lower))

end Cluster

end ValidatorClient
