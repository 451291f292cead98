import Cixtech.Mpc.Shamir
import Mathlib.Data.Int.ModEq
import Mathlib.Data.Nat.Size

/-! The loop of the modular inverse, round by round. For every number and modulus it ends within
two rounds for each bit of the modulus. A number that has no inverse is refused, and the
denominators of shares with distinct numbers never are.
-/

namespace Cixtech.Mpc

open Cixtech.Common

/-- The variables of the loop in `invMod`. -/
structure InverseVars where
  oldR : Int
  r : Int
  oldS : Int
  s : Int
  deriving DecidableEq, Repr

/-- What `invMod` throws where there is no inverse. -/
def notInvertible : AppError := .plain "value is not invertible mod n"

namespace InverseVars

def start (a n : Int) : InverseVars := { oldR := mod a n, r := n, oldS := 1, s := 0 }

/-- The body of the loop. -/
def round (vars : InverseVars) : InverseVars :=
  let q := vars.oldR.tdiv vars.r
  { oldR := vars.r, r := vars.oldR - q * vars.r, oldS := vars.s, s := vars.oldS - q * vars.s }

/-- The loop is left behind that many rounds: `r` is zero there, and nowhere before. -/
structure EndsAfter (vars : InverseVars) (rounds : Nat) : Prop where
  zero : (round^[rounds] vars).r = 0
  busy : ∀ earlier < rounds, (round^[earlier] vars).r ≠ 0

theorem endsAfter_zero {vars : InverseVars} (zero : vars.r = 0) : vars.EndsAfter 0 where
  zero := zero
  busy _ before := absurd before (Nat.not_lt_zero _)

theorem EndsAfter.succ {vars : InverseVars} {rounds : Nat} (nonzero : vars.r ≠ 0)
    (ends : vars.round.EndsAfter rounds)
    : vars.EndsAfter (rounds + 1) where
  zero := ends.zero
  busy earlier before := by
    cases earlier with
    | zero => exact nonzero
    | succ earlier => exact ends.busy earlier (Nat.lt_of_succ_lt_succ before)

theorem round_r {vars : InverseVars} (sign : 0 ≤ vars.oldR)
    : vars.round.r = vars.oldR % vars.r := by
  rw [← Int.tmod_eq_emod_of_nonneg sign, Int.tmod_def, Int.mul_comm]
  rfl

/-- Two rounds halve `r`, so that there are at most two of them for each of its bits, by
induction on its size.
-/
theorem exists_endsAfter (vars : InverseVars) (oldSign : 0 ≤ vars.oldR) (sign : 0 ≤ vars.r)
    : ∃ rounds ≤ 2 * vars.r.natAbs.size, vars.EndsAfter rounds := by
  induction size : vars.r.natAbs using Nat.strongRecOn generalizing vars with
  | ind bits ih =>
      by_cases zero : vars.r = 0
      · exact ⟨0, Nat.zero_le _, endsAfter_zero zero⟩
      · have first := round_r oldSign
        have firstSign : 0 ≤ vars.round.r := first ▸ Int.emod_nonneg _ zero
        have firstSmall : vars.round.r < vars.r := first ▸ Int.emod_lt_of_pos _ (by omega)
        have some_ : 0 < bits.size := Nat.size_pos.mpr (by omega)
        by_cases divides : vars.round.r = 0
        · exact ⟨1, by omega, (endsAfter_zero divides).succ zero⟩
        · have second : vars.round.round.r = vars.r % vars.round.r := round_r sign
          have secondSign : 0 ≤ vars.round.round.r := second ▸ Int.emod_nonneg _ divides
          have secondSmall : vars.round.round.r < vars.round.r :=
            second ▸ Int.emod_lt_of_pos _ (by omega)
          -- The divisor of the second round fits into `r` beside its remainder.
          have halved : 2 * vars.round.round.r < vars.r := by
            have quotient : 1 ≤ vars.r / vars.round.r :=
              Int.le_ediv_of_mul_le (by omega) (by omega)
            have whole := Int.mul_ediv_add_emod vars.r vars.round.r
            have fits : vars.round.r * 1 ≤ vars.round.r * (vars.r / vars.round.r) :=
              mul_le_mul_of_nonneg_left quotient firstSign
            omega
          have shorter : vars.round.round.r.natAbs.size ≤ bits.size - 1 := by
            have power : 2 ^ bits.size = 2 * 2 ^ (bits.size - 1) := by
              rw [← Nat.pow_succ', Nat.succ_eq_add_one, Nat.sub_add_cancel some_]
            have below := Nat.lt_size_self bits
            exact Nat.size_le.mpr (by omega)
          obtain ⟨rounds, few, ends⟩ :=
            ih _ (by omega) vars.round.round firstSign secondSign rfl
          exact ⟨rounds + 2, by omega, (ends.succ divides).succ zero⟩

/-- What the loop returns is read off where it is left, by induction on the rounds. -/
theorem EndsAfter.invModLoop_eq {vars : InverseVars} {rounds : Nat}
    (ends : vars.EndsAfter rounds)
    : invModLoop vars.oldR vars.r vars.oldS vars.s
      = ((round^[rounds] vars).oldR, (round^[rounds] vars).oldS) := by
  induction rounds generalizing vars with
  | zero =>
      have zero : vars.r = 0 := ends.zero
      rw [invModLoop, if_pos zero]
      rfl
  | succ rounds ih =>
      have nonzero : vars.r ≠ 0 := ends.busy 0 (Nat.succ_pos _)
      have rest : vars.round.EndsAfter rounds :=
        { zero := ends.zero
          busy := fun earlier before => ends.busy (earlier + 1) (Nat.succ_lt_succ before) }
      rw [invModLoop, if_neg nonzero]
      exact ih rest

end InverseVars

theorem invMod_eq (a n : Int) {rounds : Nat}
    (ends : (InverseVars.start a n).EndsAfter rounds)
    : invMod a n
      = let last := InverseVars.round^[rounds] (InverseVars.start a n)
        if last.oldR ≠ 1 then .error notInvertible else .ok (mod last.oldS n) := by
  have loop := ends.invModLoop_eq
  simp only [InverseVars.start] at loop
  rw [invMod, loop]
  rfl

/-- A number that shares a divisor with the modulus is refused. -/
theorem invMod_of_not_coprime {a n : Int} (positive : 0 < n) (shared : Int.gcd a n ≠ 1)
    : invMod a n = .error notInvertible := by
  have divisor := (invModLoop_start a positive).1
  have refused : (invModLoop (mod a n) n 1 0).1 ≠ 1 := by
    rw [divisor]
    exact_mod_cast shared
  exact if_pos refused

-----------------------------------------------------------------------------
-- The denominators of shares

/-- A denominator is inverted where the numbers of the shares are in range. -/
theorem exists_inverse_of_denominator {shares : List Share}
    (range : ∀ share ∈ shares, 0 ≤ share.x ∧ share.x < ORDER) {share : Share}
    (member : share ∈ shares)
    : ∃ inverse, invMod (lagrangeFraction shares share.x).2 = .ok inverse
      ∧ 0 ≤ inverse
      ∧ inverse < ORDER
      ∧ (lagrangeFraction shares share.x).2 * inverse ≡ 1 [ZMOD ORDER] := by
  obtain ⟨sign, small⟩ := range share member
  have nonzero := lagrangeFraction_ne_zero range sign small
  obtain ⟨inverse, found, inverseSign, inverseSmall, divides⟩ :=
    invMod_of_coprime order_pos (coprime_of_ne_zero nonzero)
  refine ⟨inverse, found, inverseSign, inverseSmall, ?_⟩
  rw [mul_comm]
  exact (Int.modEq_iff_dvd.mpr divides).symm

/-- The inverse is settled for every modulus and number, in at most two rounds for each bit of
the modulus, and shares with distinct numbers never meet the refusal.
-/
theorem invMod_settled
    : (∀ n a : Int,
        1 < n
        → (∃ rounds ≤ 2 * n.natAbs.size,
            (InverseVars.start a n).EndsAfter rounds
            ∧ invMod a n
              = let last := InverseVars.round^[rounds] (InverseVars.start a n)
                if last.oldR ≠ 1 then .error notInvertible else .ok (mod last.oldS n))
          ∧ (Int.gcd a n = 1
            → ∃ b, invMod a n = .ok b ∧ 0 ≤ b ∧ b < n ∧ a * b ≡ 1 [ZMOD n])
          ∧ (Int.gcd a n ≠ 1 → invMod a n = .error notInvertible))
      ∧ ∀ shares : List Share,
          (shares.map Share.x).Nodup
          → (∀ share ∈ shares, 1 ≤ share.x ∧ share.x < ORDER)
          → (∀ share ∈ shares,
              ∃ b, invMod (lagrangeFraction shares share.x).2 = .ok b
                ∧ 0 ≤ b
                ∧ b < ORDER
                ∧ (lagrangeFraction shares share.x).2 * b ≡ 1 [ZMOD ORDER])
            ∧ ∃ secret, combine shares = .ok secret := by
  refine ⟨fun n a large => ⟨?_, fun coprime => ?_, ?_⟩, fun shares _ inRange => ?_⟩
  · have positive : 0 < n := by omega
    obtain ⟨rounds, few, ends⟩ :=
      (InverseVars.start a n).exists_endsAfter (mod_nonneg a positive) positive.le
    exact ⟨rounds, few, ends, invMod_eq a n ends⟩
  · obtain ⟨b, found, sign, small, divides⟩ := invMod_of_coprime (by omega) coprime
    refine ⟨b, found, sign, small, ?_⟩
    rw [mul_comm]
    exact (Int.modEq_iff_dvd.mpr divides).symm
  · exact invMod_of_not_coprime (by omega)
  · have range : ∀ share ∈ shares, 0 ≤ share.x ∧ share.x < ORDER := by
      intro share member
      obtain ⟨sign, small⟩ := inRange share member
      exact ⟨by omega, small⟩
    obtain ⟨secret, combined, -⟩ := combine_eq range
    exact ⟨fun share member => exists_inverse_of_denominator range member, secret, combined⟩

/-- The number 3 has an inverse modulo 7, but none modulo 9. -/
theorem invMod_settled_sample
    : (∃ b, invMod 3 7 = .ok b ∧ 0 ≤ b ∧ b < 7 ∧ 3 * b ≡ 1 [ZMOD 7])
      ∧ invMod 3 9 = .error notInvertible
      ∧ ∃ secret, combine [{ x := 1, y := 5 }, { x := 2, y := 7 }] = .ok secret := by
  refine ⟨(invMod_settled.1 7 3 (by decide)).2.1 rfl,
    (invMod_settled.1 9 3 (by decide)).2.2 (by decide),
    (invMod_settled.2 [{ x := 1, y := 5 }, { x := 2, y := 7 }] (by decide) ?_).2⟩
  unfold ORDER
  simp

end Cixtech.Mpc
