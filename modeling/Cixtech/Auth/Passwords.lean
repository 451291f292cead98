import Mathlib.Data.List.Basic

/-! Stored passwords. A stored password names the function and the parameters it was derived
with, next to its salt and its key.
-/

namespace Cixtech.Auth

/-- What the module has from the runtime to derive keys with. -/
structure Hashing where
  /-- `text.normalize("NFKC")`. -/
  normalize : String → String
  /-- `Buffer.from(text, "base64url")`. -/
  base64url : String → List UInt8
  /-- `Number(text)`, none where it is not a number. -/
  number : String → Option Int
  /-- `scrypt(password, salt, keylen, { N, r, p })`, none where it rejects. -/
  scrypt
    : (password : String) → (salt : List UInt8) → (keylen : Nat) → (N r p : Option Int)
      → Option (List UInt8)

/-- `stored.split("$")`. -/
def splitStored (stored : String) : List String :=
  (stored.toList.splitOn '$').map String.ofList

def verifyPassword (hashing : Hashing) (password stored : String) : Bool :=
  match splitStored stored with
  | ["scrypt", n, r, p, saltB64, hashB64] =>
      let salt := hashing.base64url saltB64
      let expected := hashing.base64url hashB64
      let number := hashing.number
      match hashing.scrypt (hashing.normalize password) salt expected.length (number n) (number r)
        (number p) with
      | some actual => actual = expected
      | none => false
  | _ => false

/-- Whether a number read from a stored password is below a bound, which no missing one is. -/
def below (hashing : Hashing) (text : Option String) (bound : Int) : Bool :=
  (text.bind hashing.number).any (· < bound)

/-- Whether a password was stored with weaker parameters than the present ones. -/
def needsRehash (hashing : Hashing) (stored : String) : Bool :=
  let parts := splitStored stored
  parts[0]? ≠ some "scrypt" || below hashing parts[1]? 65536 || below hashing parts[2]? 8
    || below hashing parts[3]? 1

end Cixtech.Auth
