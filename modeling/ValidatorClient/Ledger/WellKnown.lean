import ValidatorClient.Ledger.Address

namespace ValidatorClient.Ledger.WellKnown

def system : Address := .ofNat 0

def token : Address :=
  .ofNat 0x06ddf6e1d765a193d9cbe146ceeb79ac1cb485ed5f5b37913a8cf5857eff00a9

def associatedToken : Address :=
  .ofNat 0x8c97258f4e2489f1bb3d1029148e0d830b5a1399daff1084048e7bd8dbe9f859

def tokenMetadata : Address :=
  .ofNat 0x0b7065b1e3d17c45389d527f6b04c3cd58b86c731aa0fdb549b6d1bc03f82946

def vote : Address :=
  .ofNat 0x0761481d357474bb7c4d7624ebd3bdb3d8355e73d11043fc0da3538000000000

def stake : Address :=
  .ofNat 0x06a1d8179137542a983437bdfe2a7ab2557f535c8a78722b68a49dc000000000

def stakeConfig : Address :=
  .ofNat 0x06a1d817a502050b680791e6ce6db88e1e5b7150f61fc6790a4eb4d100000000

def upgradeableLoader : Address :=
  .ofNat 0x02a8f6914e88a1b0e210153ef763ae2b00c2b93d16c124d2c0537a1004800000

def computeBudget : Address :=
  .ofNat 0x0306466fe5211732ffecadba72c39be7bc8ce5bbc5f7126b2c439b3a40000000

def rent : Address :=
  .ofNat 0x06a7d517192c5c51218cc94c3d4af17f58daee089ba1fd44e3dbd98a00000000

def clock : Address :=
  .ofNat 0x06a7d51718c774c928566398691d5eb68b5eb8a39b4b6d5c73555b2100000000

def stakeHistory : Address :=
  .ofNat 0x06a7d517193584d0feed9bb3431d13206be544281b57b8566cc5375ff4000000

end ValidatorClient.Ledger.WellKnown
