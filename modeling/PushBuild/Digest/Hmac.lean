import PushBuild.Digest.Sha256

/-!
Message authentication codes from SHA-256 and a secret key.

A key longer than a block is hashed first; zeros fill it up to the length of a block.
-/

namespace PushBuild.Hmac

/-- The length of a block. -/
def blockLength : Nat := 64

/-- The key as one block. -/
def blockOfKey (key : Bytes) : Bytes :=
  let key := if blockLength < key.length then Sha256.hash key else key
  key ++ List.replicate (blockLength - key.length) 0

/-- The code of a message under a key. -/
def code (key message : Bytes) : Bytes :=
  let key := blockOfKey key
  let inner := Sha256.hash (key.map (· ^^^ 0x36) ++ message)
  Sha256.hash (key.map (· ^^^ 0x5c) ++ inner)

/-- A code is 32 bytes long. -/
theorem length_code (key message : Bytes) : (code key message).length = 32 :=
  Sha256.length_hash _

end PushBuild.Hmac
