import ValidatorClient.Process

namespace ValidatorClient

structure CachedReference where
  reference : BlockReference
  fetchedAt : Nat
  deriving DecidableEq

/-- At most one block reference, which counts for `ttl` milliseconds from when it came. -/
structure BlockhashCache where
  ttl : Nat
  slot : Option CachedReference
  deriving DecidableEq

namespace BlockhashCache

def defaultTtl : Nat := 60000

def empty (ttl : Nat) : BlockhashCache := ⟨ttl, none⟩

def peek (c : BlockhashCache) : Option BlockReference := c.slot.map (·.reference)

def live? (c : BlockhashCache) (now : Nat) : Option BlockReference :=
  match c.slot with
  | some cached => if now - cached.fetchedAt < c.ttl then some cached.reference else none
  | none => none

def invalidate (c : BlockhashCache) : BlockhashCache := { c with slot := none }

/-- Drops the reference once no block at that height may hold it. -/
def observe (c : BlockhashCache) (height : UInt64) : BlockhashCache :=
  match c.slot with
  | some cached => if cached.reference.lastValidHeight < height then c.invalidate else c
  | none => c

/-- The reference that counts, or a new one. While the node is asked the cache is empty, and it
stays empty unless the node gives one. -/
def fetch : Attempt BlockhashCache BlockReference := do
  let cache ← get
  match cache.live? (← Attempt.now) with
  | some reference => return reference
  | none =>
    set cache.invalidate
    match ← Attempt.ask .blockReference with
    | .error e => throw (.rpc e)
    | .ok reference =>
      set { cache with slot := some ⟨reference, ← Attempt.now⟩ }
      return reference

end BlockhashCache

end ValidatorClient
