import ValidatorClient.Program.Location
import ValidatorClient.Proofs.Codec.Reading
import ValidatorClient.Proofs.Ledger.DerivedAddress

namespace ValidatorClient

open Ledger

theorem Bytes.ofLittleEndian_reverse_bigEndian {k n : Nat} (h : n < 256 ^ k) :
    ofLittleEndian (bigEndian k n).reverse = n := by
  rw [bigEndian, List.reverse_reverse, ofLittleEndian_littleEndian h]

def Sha2.Collision (x y : Bytes) : Prop := x ≠ y ∧ sha256 x = sha256 y

namespace Program

namespace SingleAccount

def all : List SingleAccount :=
  [config, uris, general, collectionMint, mintAuthority, collectionHolder,
    authorizedWithdrawer, stake, pool,
    temporaryStake, temporaryWithdraw, programAuthority]

def ofSeed? (seed : Bytes) : Option SingleAccount := all.find? (·.seed = seed)

theorem ofSeed?_seed (account : SingleAccount) : ofSeed? account.seed = some account := by
  cases account <;> decide +kernel

theorem ofSeed?_eq_none {seed : Bytes} (h : ∀ account ∈ all, account.seed ≠ seed) :
    ofSeed? seed = none := by
  rw [ofSeed?, List.find?_eq_none]
  intro account haccount
  rw [decide_eq_true_iff]
  exact h account haccount

theorem ofSeed?_of_length {seed : Bytes} (h : seed.length ∉ all.map (·.seed.length)) :
    ofSeed? seed = none := by
  refine ofSeed?_eq_none fun account haccount hseed ↦ h ?_
  rw [← hseed]
  exact List.mem_map_of_mem haccount

end SingleAccount

def addressAt? (bytes : Bytes) (offset : Nat) : Option Address :=
  (FixedBytes.ofList? 32 ((bytes.drop offset).take 32)).map .mk

theorem addressAt?_append {front : Bytes} {offset : Nat} (h : front.length = offset) (a : Address)
    (rest : Bytes) : addressAt? (front ++ (a.toList ++ rest)) offset = some a := by
  rw [addressAt?, List.drop_left' h, List.take_left' a.length_toList]
  exact congrArg (Option.map Address.mk) (FixedBytes.ofList?_toList a.bytes)

def numberAt (bytes : Bytes) (offset : Nat) : UInt32 :=
  UInt32.ofNat (Bytes.ofLittleEndian ((bytes.drop offset).take 4).reverse)

theorem numberAt_append {front : Bytes} {offset : Nat} (h : front.length = offset) (n : UInt32)
    (rest : Bytes) : numberAt (front ++ (Bytes.bigEndian 4 n.toNat ++ rest)) offset = n := by
  rw [numberAt, List.drop_left' h, List.take_left' (Bytes.length_bigEndian 4 n.toNat),
    Bytes.ofLittleEndian_reverse_bigEndian n.toNat_lt, UInt32.ofNat_toNat]

namespace Location

/-- The location whose joined seeds are `seeds`, of length `n`, and not the name of a single
account: every other purpose has a length of its own. -/
def ofLength? (owner : Address) (seeds : Bytes) : Nat → Option Location
  | 16 => some (voteAccount owner (numberAt seeds 12))
  | 17 => some (proposal owner (numberAt seeds 13))
  | 32 => programData <$> addressAt? seeds 0
  | 41 => some (bufferAuthority owner)
  | 43 => gem owner <$> addressAt? seeds 11
  | 54 => some (upgradeAuthority owner)
  | 72 => metadata <$> addressAt? seeds 40
  | 79 => edition <$> addressAt? seeds 40
  | 96 => associatedToken <$> addressAt? seeds 0 <*> addressAt? seeds 64
  | _ => none

def ofSeeds? (owner : Address) (seeds : Bytes) : Option Location :=
  single owner <$> SingleAccount.ofSeed? seeds <|> ofLength? owner seeds seeds.length

theorem ofSeeds?_seed (owner : Address) (account : SingleAccount) :
    ofSeeds? owner account.seed = some (single owner account) := by
  rw [ofSeeds?, SingleAccount.ofSeed?_seed]
  rfl

theorem ofSeeds?_of_ofLength? {owner : Address} {seeds : Bytes} {l : Location}
    (hsingle : SingleAccount.ofSeed? seeds = none) {n : Nat} (hn : seeds.length = n)
    (h : ofLength? owner seeds n = some l) : ofSeeds? owner seeds = some l := by
  rw [ofSeeds?, hsingle, hn, h]
  rfl

theorem ofSeeds?_of_length {owner : Address} {seeds : Bytes} {l : Location} {n : Nat}
    (hn : seeds.length = n) (hsingle : n ∉ SingleAccount.all.map (·.seed.length))
    (h : ofLength? owner seeds n = some l) :
    ofSeeds? owner seeds = some l :=
  ofSeeds?_of_ofLength? (SingleAccount.ofSeed?_of_length (hn ▸ hsingle)) hn h

/-- The name of the collection holder is as long as the seeds of a proposal, but does not begin like
them. -/
theorem ofSeed?_proposal (n : Bytes) :
    SingleAccount.ofSeed? (ascii "ingl_proposal" ++ n) = none := by
  refine SingleAccount.ofSeed?_eq_none fun account _ hseed ↦ ?_
  have htake : account.seed.take 13 = ascii "ingl_proposal" := by
    rw [hseed, List.take_left' (by decide)]
  revert htake
  cases account <;> decide +kernel

/-- The seeds and the owner of a location determine it, though nothing marks where a seed ends. -/
theorem ofSeeds?_seeds (l : Location) : ofSeeds? l.owner l.seeds.flatten = some l := by
  have haddress (a : Address) := a.length_toList
  have hnumber (n : UInt32) := Bytes.length_bigEndian 4 n.toNat
  have hmetadata : (ascii "metadata").length = 8 := rfl
  have hfront : (ascii "metadata" ++ WellKnown.tokenMetadata.toList).length = 40 := by
    rw [List.length_append, hmetadata, haddress]
  cases l with
  | single program account =>
    have hseeds : (single program account).seeds.flatten = account.seed := List.append_nil _
    rw [hseeds]
    exact ofSeeds?_seed program account
  | gem program mint =>
    have hname : (ascii "gem_account").length = 11 := rfl
    have hn : (gem program mint).seeds.flatten.length = 43 := by
      simp [seeds, hname, haddress]
    exact ofSeeds?_of_length hn (by decide)
      (congrArg (gem program <$> ·) (addressAt?_append hname mint []))
  | voteAccount program n =>
    have hname : (ascii "vote_account").length = 12 := rfl
    have hn : (voteAccount program n).seeds.flatten.length = 16 := by
      simp [seeds, hname, hnumber]
    exact ofSeeds?_of_length hn (by decide)
      (congrArg (some <| voteAccount program ·) (numberAt_append hname n []))
  | proposal program n =>
    have hname : (ascii "ingl_proposal").length = 13 := rfl
    have hn : (proposal program n).seeds.flatten.length = 17 := by
      simp [seeds, hname, hnumber]
    exact ofSeeds?_of_ofLength? (ofSeed?_proposal _) hn
      (congrArg (some <| proposal program ·) (numberAt_append hname n []))
  | bufferAuthority program =>
    have hname : (ascii "authority").length = 9 := rfl
    have hn : (bufferAuthority program).seeds.flatten.length = 41 := by
      simp [seeds, hname, haddress]
    exact ofSeeds?_of_length hn (by decide) rfl
  | upgradeAuthority program =>
    have hname : (ascii "ingl_program_authority").length = 22 := rfl
    have hn : (upgradeAuthority program).seeds.flatten.length = 54 := by
      simp [seeds, hname, haddress]
    exact ofSeeds?_of_length hn (by decide) rfl
  | programData program =>
    have hn : (programData program).seeds.flatten.length = 32 := by
      simp [seeds, haddress]
    exact ofSeeds?_of_length hn (by decide)
      (congrArg (programData <$> ·) (@addressAt?_append [] 0 rfl program []))
  | metadata mint =>
    have hseeds : (metadata mint).seeds.flatten =
        ascii "metadata" ++ WellKnown.tokenMetadata.toList ++ (mint.toList ++ []) := by
      simp [seeds]
    have hn : (metadata mint).seeds.flatten.length = 72 := by
      simp [seeds, hmetadata, haddress]
    rw [hseeds] at hn ⊢
    exact ofSeeds?_of_length hn (by decide)
      (congrArg (metadata <$> ·) (addressAt?_append hfront mint []))
  | edition mint =>
    have hname : (ascii "edition").length = 7 := rfl
    have hseeds : (edition mint).seeds.flatten =
        ascii "metadata" ++ WellKnown.tokenMetadata.toList ++ (mint.toList ++ ascii "edition") := by
      simp [seeds]
    have hn : (edition mint).seeds.flatten.length = 79 := by
      simp [seeds, hmetadata, hname, haddress]
    rw [hseeds] at hn ⊢
    exact ofSeeds?_of_length hn (by decide)
      (congrArg (edition <$> ·) (addressAt?_append hfront mint _))
  | associatedToken wallet mint =>
    have hfront : (wallet.toList ++ WellKnown.token.toList).length = 64 := by
      rw [List.length_append, haddress, haddress]
    have hseeds : (associatedToken wallet mint).seeds.flatten =
        wallet.toList ++ WellKnown.token.toList ++ (mint.toList ++ []) := by
      simp [seeds]
    have hn : (associatedToken wallet mint).seeds.flatten.length = 96 := by
      simp [seeds, haddress]
    have hwallet :=
      @addressAt?_append [] 0 rfl wallet (WellKnown.token.toList ++ (mint.toList ++ []))
    have hmint := addressAt?_append hfront mint []
    rw [List.nil_append, ← List.append_assoc] at hwallet
    rw [hseeds] at hn ⊢
    refine ofSeeds?_of_length hn (by decide) ?_
    rw [ofLength?, hwallet, hmint]
    rfl

def preimage (l : Location) (bump : UInt8) : Bytes :=
  DerivedAddress.preimage (l.seeds ++ [[bump]]) l.owner

theorem preimage_inj {l l' : Location} {bump bump' : UInt8} :
    l.preimage bump = l'.preimage bump' ↔ l = l' ∧ bump = bump' := by
  constructor
  · intro h
    obtain ⟨hseeds, howner⟩ := DerivedAddress.preimage_inj.1 h
    rw [List.flatten_concat, List.flatten_concat] at hseeds
    obtain ⟨hseeds, hbump⟩ := List.append_inj' hseeds rfl
    have hl := ofSeeds?_seeds l
    rw [hseeds, howner, ofSeeds?_seeds l'] at hl
    exact ⟨(Option.some.inj hl).symm, List.singleton_inj.1 hbump⟩
  · intro h
    rw [h.1, h.2]

theorem exists_of_address {l : Location} {a : Address} (h : l.address = .ok a) :
    ∃ bump, DerivedAddress.offCurve? (l.seeds ++ [[bump]]) l.owner = some a := by
  obtain ⟨⟨found, bump⟩, hfind, hfound⟩ := Except.map_eq_ok_iff.1 h
  cases hfound
  exact ⟨bump, DerivedAddress.offCurve?_of_find hfind⟩

/-- Only one derivation hashes given bytes: these tell what the account is for, with its arguments
and its owner, and the bump. So two accounts share an address only if what is hashed for them is a
collision. -/
theorem separated (l l' : Location) :
    (∀ bump bump', l.preimage bump = l'.preimage bump' ↔ l = l' ∧ bump = bump') ∧
    ∀ a a', l.address = .ok a → l'.address = .ok a' → ∃ bump bump',
      a.bytes = Sha2.sha256 (l.preimage bump) ∧ a'.bytes = Sha2.sha256 (l'.preimage bump') ∧
      (a = a' → l ≠ l' → Sha2.Collision (l.preimage bump) (l'.preimage bump')) := by
  refine ⟨fun _ _ ↦ preimage_inj, fun a a' h h' ↦ ?_⟩
  obtain ⟨bump, hfound⟩ := exists_of_address h
  obtain ⟨bump', hfound'⟩ := exists_of_address h'
  have hhash : a.bytes = Sha2.sha256 (l.preimage bump) :=
    (DerivedAddress.offCurve?_eq_some_iff.1 hfound).1
  have hhash' : a'.bytes = Sha2.sha256 (l'.preimage bump') :=
    (DerivedAddress.offCurve?_eq_some_iff.1 hfound').1
  refine ⟨bump, bump', hhash, hhash', fun ha hl ↦ ⟨fun heq ↦ hl (preimage_inj.1 heq).1, ?_⟩⟩
  rw [← hhash, ha, hhash']

theorem separated_collectionHolder :
    let program : Address := ⟨.replicate 32 7⟩
    let holder : Location := single program .collectionHolder
    let first : Location := proposal program 1
    let a : Address := .ofNat 0xdd5091b8b9d0ac3ac48b9fb3bc6cbbc714d24e76c97724d925c9a06566452743
    let a' : Address := .ofNat 0x7e23d922349b221f30146020bc4e224ea55470a0959172e41f2574e66e2233bf
    (holder.preimage 254).length = (first.preimage 254).length ∧
      holder.preimage 254 ≠ first.preimage 254 ∧
    holder.address = .ok a ∧ first.address = .ok a' ∧ ∃ bump bump',
      a.bytes = Sha2.sha256 (holder.preimage bump) ∧
          a'.bytes = Sha2.sha256 (first.preimage bump') := by
  intro program holder first a a'
  have h : holder.address = .ok a := by decide +kernel
  have h' : first.address = .ok a' := by decide +kernel
  obtain ⟨hpreimage, haddress⟩ := separated holder first
  have hne : holder ≠ first := Location.noConfusion
  obtain ⟨bump, bump', hhash, hhash', -⟩ := haddress a a' h h'
  exact ⟨by decide +kernel, fun heq ↦ hne ((hpreimage 254 254).1 heq).1, h, h', bump, bump',
    hhash, hhash'⟩

end Location

end Program

end ValidatorClient
