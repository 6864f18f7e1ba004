import OnrampLedger.Crypto.Sha256
/-!
# HMAC-SHA256

The keyed digest of RFC 2104 over SHA-256: a key longer than a block (64 bytes) is
first hashed, then padded with zeros to a block; the digest is
`H((K ⊕ opad) ‖ H((K ⊕ ipad) ‖ m))`.
-/

namespace OnrampLedger

namespace Hmac

/-- The key as one block. -/
def keyBlock (key : List UInt8) : List UInt8 :=
  let k := if key.length > 64 then Sha256.digest key else key
  k ++ List.replicate (64 - k.length) 0

/-- HMAC-SHA256 of `msg` under `key`. -/
def sha256 (key msg : List UInt8) : List UInt8 :=
  let k := keyBlock key
  let inner := Sha256.digest (k.map (· ^^^ 0x36) ++ msg)
  Sha256.digest (k.map (· ^^^ 0x5c) ++ inner)

end Hmac

end OnrampLedger
