import SsvNode.Registry.Types

/-!
# A reference implementation of what the registry calls

Hashes that are the hashed bytes themselves, and keys and signatures that are their encodings:
enough to run the handlers and the stores on concrete events.
-/

namespace Ssv.Registry.Reference

instance : RegistrySpec where
  keccak256 := id
  sha256 := id
  addressString address := toString address.toNat
  Sign := Bytes
  PublicKey := Bytes
  ID := OperatorID
  deserializeSign := .ok
  deserializePublicKey := .ok
  serialize := id
  verifyByte _ _ _ := true
  setDecString := .ok
  recover keys _ := .ok (keys.headD [])
  isEqual a b := a == b
  serialize_of_deserialize _ h := (Except.ok.inj h).symm

end Ssv.Registry.Reference
