import Mathlib.Data.List.Prime
import Mathlib.NumberTheory.LucasPrimality

/-! Primality by Lucas: a number is prime where some power residue has the order of its
predecessor. The powers are computed by squaring.
-/

namespace Cixtech.Foundation.LucasPrimes

/-- A power modulo a number, for an exponent of so many binary digits. -/
def powMod (modulus : Nat) : Nat → Nat → Nat → Nat
  | 0, _, _ => 1 % modulus
  | digits + 1, base, exponent =>
      let rest := powMod modulus digits (base * base % modulus) (exponent / 2)
      if exponent % 2 = 0 then rest else base * rest % modulus

/-- The computed residue is that of the power, by induction on the digits. -/
theorem powMod_eq (modulus : Nat) {digits : Nat} (base : Nat) {exponent : Nat}
    (fits : exponent < 2 ^ digits)
    : (powMod modulus digits base exponent : ZMod modulus) = (base : ZMod modulus) ^ exponent := by
  induction digits generalizing base exponent with
  | zero =>
      have zero : exponent = 0 := by simpa using fits
      simp [powMod, zero]
  | succ digits ih =>
      have half : exponent / 2 < 2 ^ digits := by
        rw [pow_succ] at fits
        omega
      have squared : (powMod modulus digits (base * base % modulus) (exponent / 2) : ZMod modulus)
          = (base : ZMod modulus) ^ (2 * (exponent / 2)) := by
        rw [ih _ half, ZMod.natCast_mod, Nat.cast_mul, ← pow_two, ← pow_mul]
      unfold powMod
      dsimp only
      split
      case isTrue even =>
        rw [squared]
        congr 1
        omega
      case isFalse odd =>
        rw [ZMod.natCast_mod, Nat.cast_mul, squared, ← pow_succ']
        congr 1
        omega

theorem powMod_lt {modulus : Nat} (positive : 0 < modulus) (digits base exponent : Nat)
    : powMod modulus digits base exponent < modulus := by
  induction digits generalizing base exponent with
  | zero => exact Nat.mod_lt _ positive
  | succ digits ih =>
      unfold powMod
      dsimp only
      split
      · exact ih _ _
      · exact Nat.mod_lt _ positive

/-- A power residue is one where it is computed so. -/
theorem pow_eq_one_iff {modulus digits base exponent : Nat} (large : 1 < modulus)
    (fits : exponent < 2 ^ digits)
    : (base : ZMod modulus) ^ exponent = 1 ↔ powMod modulus digits base exponent = 1 := by
  have small := powMod_lt (Nat.zero_lt_of_lt large) digits base exponent
  rw [← powMod_eq modulus base fits, ← Nat.cast_one, ZMod.natCast_eq_natCast_iff',
    Nat.mod_eq_of_lt small, Nat.mod_eq_of_lt large]

/-- What is computed of a residue, with the factors of the modulus's predecessor. -/
structure Certificate where
  modulus : Nat
  /-- The binary digits of the exponents. -/
  digits : Nat
  base : Nat
  factors : List Nat

def Certificate.Checks (certificate : Certificate) : Prop :=
  let { modulus, digits, base, factors } := certificate
  1 < modulus
    ∧ modulus ≤ 2 ^ digits
    ∧ factors.prod = modulus - 1
    ∧ powMod modulus digits base (modulus - 1) = 1
    ∧ ∀ q ∈ factors, powMod modulus digits base ((modulus - 1) / q) ≠ 1

instance (certificate : Certificate) : Decidable certificate.Checks :=
  inferInstanceAs
    (Decidable
      (1 < certificate.modulus
        ∧ certificate.modulus ≤ 2 ^ certificate.digits
        ∧ certificate.factors.prod = certificate.modulus - 1
        ∧ powMod certificate.modulus certificate.digits certificate.base (certificate.modulus - 1)
          = 1
        ∧ ∀ q ∈ certificate.factors,
          powMod certificate.modulus certificate.digits certificate.base
            ((certificate.modulus - 1) / q) ≠ 1))

/-- A number is prime where a residue has its predecessor for an order, the prime factors of
which are given.
-/
theorem prime_of_factors {certificate : Certificate} (checked : certificate.Checks)
    (primes : ∀ q ∈ certificate.factors, q.Prime)
    : certificate.modulus.Prime := by
  obtain ⟨modulus, digits, base, factors⟩ := certificate
  obtain ⟨large, fits, product, whole, parts⟩ := checked
  refine lucas_primality modulus base ((pow_eq_one_iff large (by omega)).mpr whole) ?_
  intro q prime divides
  rw [← product] at divides
  obtain ⟨factor, member, dividesFactor⟩ := (Prime.dvd_prod_iff prime.prime).mp divides
  obtain rfl := (Nat.prime_dvd_prime_iff_eq prime (primes factor member)).mp dividesFactor
  have part : (modulus - 1) / q ≤ modulus - 1 := Nat.div_le_self _ _
  exact fun one => parts q member ((pow_eq_one_iff large (by omega)).mp one)

end Cixtech.Foundation.LucasPrimes
