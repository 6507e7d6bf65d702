import Registrar.Digest.Sha512
import Registrar.Text.Utf8

/-!
# Password hashes

A password is kept as its hash. A `Hasher` is a hash function on texts with the name under which
the directory knows it.
-/

set_option autoImplicit false

namespace Registrar

/-- **A hash function for passwords.** -/
structure Hasher where
  name : String
  hash : String → String

/-- The hash function SHA-512 on the bytes of a text, in hexadecimal. -/
def Hasher.sha512 : Hasher := ⟨"SHA-512", fun s => Digest.Sha512.digest (Text.encode s)⟩

end Registrar
