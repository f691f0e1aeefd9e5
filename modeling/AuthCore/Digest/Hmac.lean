import AuthCore.Digest.Sha2

/-!
# Keyed digests

HMAC over the digests of SHA-2: a short proof that the holder of a key has seen a message.
-/

namespace AuthCore.Digest

/-- A digest, and the size of the blocks it works on. -/
structure Hash where
  /-- The digest of a message. -/
  digest : List UInt8 → List UInt8
  /-- The number of bytes in a block. -/
  block : Nat

namespace Hash

/-- SHA-256. -/
def sha256 : Hash := ⟨Sha2.digest Sha2.sha256, 64⟩

/-- SHA-384. -/
def sha384 : Hash := ⟨Sha2.digest Sha2.sha384, 128⟩

/-- SHA-512. -/
def sha512 : Hash := ⟨Sha2.digest Sha2.sha512, 128⟩

/-- A key of the length of a block: a longer one is digested, a shorter one filled with zeros. -/
def blockKey (h : Hash) (key : List UInt8) : List UInt8 :=
  let key := if key.length > h.block then h.digest key else key
  key ++ List.replicate (h.block - key.length) 0

/-- The keyed digest of a message. -/
def hmac (h : Hash) (key message : List UInt8) : List UInt8 :=
  let key := h.blockKey key
  let inner := h.digest (key.map (· ^^^ 0x36) ++ message)
  h.digest (key.map (· ^^^ 0x5c) ++ inner)

end Hash

end AuthCore.Digest
