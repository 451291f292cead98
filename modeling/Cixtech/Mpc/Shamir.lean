import Cixtech.Common.AppError
import Cixtech.Foundation.Interpolation
import Cixtech.Foundation.LucasPrimes
import Mathlib.Tactic.NormNum.Prime

/-! Shamir's secret sharing over the scalars of secp256k1, with the reduction and the inverses
that are written out by hand.
-/

namespace Cixtech.Mpc

open Cixtech.Common Cixtech.Foundation

/-- `secp256k1.CURVE.n`, the order of the curve's group. -/
@[irreducible]
def ORDER : Nat := 0xfffffffffffffffffffffffffffffffebaaedce6af48a03bbfd25e8cd0364141

/-- The remainder of the language has the sign of the dividend. -/
def mod (a : Int) (n : Int := ORDER) : Int :=
  let r := a.tmod n
  if 0 ≤ r then r else r + n

/-- The loop of the extended Euclidean algorithm. -/
def invModLoop (oldR r oldS s : Int) : Int × Int :=
  if r = 0 then (oldR, oldS)
  else
    let q := oldR.tdiv r
    invModLoop r (oldR - q * r) s (oldS - q * s)
termination_by r.natAbs
decreasing_by
  have remainder : oldR - oldR.tdiv r * r = oldR.tmod r := by
    rw [Int.tmod_def, Int.mul_comm]
  rw [remainder, Int.natAbs_tmod]
  exact Nat.mod_lt _ (by omega)

def invMod (a : Int) (n : Int := ORDER) : Except AppError Int :=
  let (oldR, oldS) := invModLoop (mod a n) n 1 0
  if oldR ≠ 1 then .error (.plain "value is not invertible mod n") else .ok (mod oldS n)

def evalPoly (coeffs : List Int) (x : Int) : Int :=
  coeffs.foldr (fun c acc => mod (acc * x + c)) 0

structure Share where
  x : Int
  y : Int
  deriving DecidableEq, Repr

/-- Coefficients drawn one by one behind the first. -/
def drawnCoeffs (constant : Int) (randomScalar : Nat → Int) (t : Nat) : List Int :=
  constant :: (List.range (t - 1)).map randomScalar

/-- What the language throws for an array that is too long. -/
def invalidLength : AppError := .plain "Invalid array length"

def split (randomScalar : Nat → Int) (secret : Int) (t n : Nat) : Except AppError (List Share) :=
  if t < 1 ∨ t > n then .error (.plain s!"invalid threshold {t} of {n}")
  else if 2 ^ 32 ≤ n then .error invalidLength
  else
    let coeffs := drawnCoeffs (mod secret) randomScalar t
    .ok
      ((List.range n).map fun (i : Nat) =>
        let x : Int := i + 1
        { x, y := evalPoly coeffs x })

/-- The inner loop of `combine`, over the shares at another `x`. -/
def lagrangeFraction (shares : List Share) (xi : Int) : Int × Int :=
  shares.foldl
    (fun (num, den) share =>
      if share.x = xi then (num, den)
      else (mod (num * mod (-share.x)), mod (den * mod (xi - share.x))))
    (1, 1)

/-- The outer loop of `combine`, with a share of those that are combined. -/
def combineStep (shares : List Share) (secret : Int) (share : Share) : Except AppError Int := do
  let (num, den) := lagrangeFraction shares share.x
  let lagrange := mod (num * (← invMod den))
  return mod (secret + mod (share.y * lagrange))

def combine (shares : List Share) : Except AppError Int := shares.foldlM (combineStep shares) 0

def refresh (randomScalar : Nat → Int) (shares : List Share) (t : Nat) : List Share :=
  let zeroPoly := drawnCoeffs 0 randomScalar t
  shares.map fun share => { share with y := mod (share.y + evalPoly zeroPoly share.x) }

-----------------------------------------------------------------------------
-- The order is prime

/-- The order, behind the large primes that the factors of their predecessors lead to. -/
private def certificates : List LucasPrimes.Certificate :=
  [ ⟨107361793816595537, 64, 3, [2, 2, 2, 2, 16699, 85831, 4681609]⟩,
    ⟨174723607534414371449, 70, 3, [2, 2, 2, 17, 59, 4051, 120233, 44706919]⟩,
    ⟨545358713, 30, 5, [2, 2, 2, 41, 59, 28181]⟩,
    ⟨297159362677, 40, 2, [2, 2, 3, 3, 11, 461, 1627771]⟩,
    ⟨29047611873442575647497758179, 100, 2, [2, 293, 305873, 545358713, 297159362677]⟩,
    ⟨341948486974166000522343609283189, 110, 2,
      [2, 2, 3, 3, 3, 109, 29047611873442575647497758179]⟩,
    ⟨ORDER, 256, 7,
      [ 2, 2, 2, 2, 2, 2, 3, 149, 631, 107361793816595537, 174723607534414371449,
        341948486974166000522343609283189 ]⟩ ]

private theorem certificates_check : ∀ certificate ∈ certificates, certificate.Checks := by
  decide +kernel

private theorem prime_of_listed {certificate : LucasPrimes.Certificate} (place : Nat)
    (listed : certificates[place]? = some certificate)
    (primes : ∀ q ∈ certificate.factors, q.Prime)
    : certificate.modulus.Prime :=
  LucasPrimes.prime_of_factors (certificates_check _ (List.mem_of_getElem? listed)) primes

private theorem prime_107361793816595537 : Nat.Prime 107361793816595537 := by
  refine prime_of_listed 0 rfl ?_
  simp only [List.forall_mem_cons]
  norm_num

private theorem prime_174723607534414371449 : Nat.Prime 174723607534414371449 := by
  refine prime_of_listed 1 rfl ?_
  simp only [List.forall_mem_cons]
  norm_num

private theorem prime_545358713 : Nat.Prime 545358713 := by
  refine prime_of_listed 2 rfl ?_
  simp only [List.forall_mem_cons]
  norm_num

private theorem prime_297159362677 : Nat.Prime 297159362677 := by
  refine prime_of_listed 3 rfl ?_
  simp only [List.forall_mem_cons]
  norm_num

private theorem prime_29047611873442575647497758179
    : Nat.Prime 29047611873442575647497758179 := by
  refine prime_of_listed 4 rfl ?_
  simp only [List.forall_mem_cons]
  exact ⟨Nat.prime_two, by norm_num, by norm_num, prime_545358713, prime_297159362677, nofun⟩

private theorem prime_341948486974166000522343609283189
    : Nat.Prime 341948486974166000522343609283189 := by
  refine prime_of_listed 5 rfl ?_
  have three : Nat.Prime 3 := by norm_num
  simp only [List.forall_mem_cons]
  exact ⟨Nat.prime_two, Nat.prime_two, three, three, three, by norm_num,
    prime_29047611873442575647497758179, nofun⟩

theorem prime_order : Nat.Prime ORDER := by
  refine prime_of_listed 6 rfl ?_
  have two := Nat.prime_two
  simp only [List.forall_mem_cons]
  exact ⟨two, two, two, two, two, two, by norm_num, by norm_num, by norm_num,
    prime_107361793816595537, prime_174723607534414371449,
    prime_341948486974166000522343609283189, nofun⟩

instance : Fact (Nat.Prime ORDER) := ⟨prime_order⟩

-----------------------------------------------------------------------------
-- Reduction and inverses

theorem order_pos : (0 : Int) < ORDER := by exact_mod_cast prime_order.pos

theorem mod_eq_emod (a : Int) {n : Int} (positive : 0 < n) : mod a n = a % n := by
  unfold mod
  dsimp only
  rw [Int.tmod_eq_emod]
  have small := Int.emod_lt_of_pos a positive
  have sign := Int.emod_nonneg a positive.ne'
  split <;> split <;> omega

theorem mod_nonneg (a : Int) {n : Int} (positive : 0 < n) : 0 ≤ mod a n := by
  rw [mod_eq_emod a positive]
  exact Int.emod_nonneg a positive.ne'

theorem mod_lt (a : Int) {n : Int} (positive : 0 < n) : mod a n < n := by
  rw [mod_eq_emod a positive]
  exact Int.emod_lt_of_pos a positive

/-- The loop ends in the greatest common divisor, and in a factor that makes it of `a` modulo
`n`, by induction on its rounds.
-/
theorem invModLoop_spec (a n : Int) {oldR r oldS s : Int} (oldSign : 0 ≤ oldR) (sign : 0 ≤ r)
    (old : n ∣ oldS * a - oldR) (new : n ∣ s * a - r)
    : (invModLoop oldR r oldS s).1 = Int.gcd oldR r
      ∧ n ∣ (invModLoop oldR r oldS s).2 * a - (invModLoop oldR r oldS s).1 := by
  induction oldR, r, oldS, s using invModLoop.induct with
  | case1 oldR oldS s =>
      rw [invModLoop, if_pos rfl, Int.gcd_zero_right]
      exact ⟨(Int.natAbs_of_nonneg oldSign).symm, old⟩
  | case2 oldR r oldS s nonzero q ih =>
      have remainder : oldR - q * r = oldR % r := by
        rw [← Int.tmod_eq_emod_of_nonneg oldSign, Int.tmod_def, Int.mul_comm]
      have combined : n ∣ (oldS - q * s) * a - (oldR - q * r) := by
        have difference : (oldS - q * s) * a - (oldR - q * r)
            = (oldS * a - oldR) - q * (s * a - r) := by ring
        rw [difference]
        exact dvd_sub old (new.mul_left q)
      have nonneg : 0 ≤ oldR - q * r := by
        rw [remainder]
        exact Int.emod_nonneg oldR nonzero
      obtain ⟨divisor, factor⟩ := ih sign nonneg new combined
      rw [invModLoop, if_neg nonzero]
      refine ⟨?_, factor⟩
      rw [divisor, Int.gcd_sub_mul_right_right, Int.gcd_comm]

/-- From its start the loop reaches the greatest common divisor with the modulus. -/
theorem invModLoop_start (a : Int) {n : Int} (positive : 0 < n)
    : (invModLoop (mod a n) n 1 0).1 = Int.gcd a n
      ∧ n ∣ (invModLoop (mod a n) n 1 0).2 * a - (invModLoop (mod a n) n 1 0).1 := by
  have reduced : n ∣ 1 * a - mod a n := by
    rw [mod_eq_emod a positive, one_mul]
    exact Int.dvd_self_sub_emod
  obtain ⟨divisor, factor⟩ := invModLoop_spec a n (mod_nonneg a positive) positive.le reduced
    (by simp : n ∣ 0 * a - n)
  refine ⟨?_, factor⟩
  rw [divisor, mod_eq_emod a positive, Int.emod_def, Int.gcd_sub_mul_left_left]

/-- A number without a common divisor with the modulus has an inverse, and that is found. -/
theorem invMod_of_coprime {a n : Int} (positive : 0 < n) (coprime : Int.gcd a n = 1)
    : ∃ inverse, invMod a n = .ok inverse ∧ 0 ≤ inverse ∧ inverse < n
      ∧ n ∣ inverse * a - 1 := by
  obtain ⟨divisor, factor⟩ := invModLoop_start a positive
  have one : (invModLoop (mod a n) n 1 0).1 = 1 := by
    rw [divisor, coprime]
    rfl
  refine ⟨mod (invModLoop (mod a n) n 1 0).2 n, ?_, mod_nonneg _ positive, mod_lt _ positive, ?_⟩
  · simp [invMod, one]
  · rw [one] at factor
    rw [mod_eq_emod _ positive]
    have difference : (invModLoop (mod a n) n 1 0).2 % n * a - 1
        = ((invModLoop (mod a n) n 1 0).2 * a - 1)
          - ((invModLoop (mod a n) n 1 0).2 - (invModLoop (mod a n) n 1 0).2 % n) * a := by ring
    rw [difference]
    exact dvd_sub factor (Int.dvd_self_sub_emod.mul_right a)

-----------------------------------------------------------------------------
-- In the field of scalars

@[simp]
theorem cast_mod (a : Int) : (mod a : ZMod ORDER) = a := by
  rw [mod_eq_emod a order_pos, ZMod.intCast_mod]

/-- Numbers in range are equal where they are in the field. -/
theorem cast_inj {a b : Int} (sign : 0 ≤ a) (small : a < ORDER) (signB : 0 ≤ b)
    (smallB : b < ORDER)
    : (a : ZMod ORDER) = b ↔ a = b := by
  rw [ZMod.intCast_eq_intCast_iff', Int.emod_eq_of_lt sign small, Int.emod_eq_of_lt signB smallB]

theorem eq_mod_of_cast {a b : Int} (sign : 0 ≤ a) (small : a < ORDER)
    (same : (a : ZMod ORDER) = b)
    : a = mod b := by
  rw [← cast_inj sign small (mod_nonneg b order_pos) (mod_lt b order_pos), cast_mod, same]

/-- What is not zero in the field has no divisor in common with the order. -/
theorem coprime_of_ne_zero {a : Int} (nonzero : (a : ZMod ORDER) ≠ 0) : Int.gcd a ORDER = 1 := by
  rw [Int.gcd_comm, Int.gcd_eq_natAbs, Int.natAbs_natCast]
  refine (Nat.Prime.coprime_iff_not_dvd prime_order).mpr fun divides => nonzero ?_
  rw [ZMod.intCast_zmod_eq_zero_iff_dvd]
  exact Int.natCast_dvd.mpr divides

/-- What is not zero in the field is inverted. -/
theorem invMod_of_ne_zero {a : Int} (nonzero : (a : ZMod ORDER) ≠ 0)
    : ∃ inverse, invMod a = .ok inverse ∧ (inverse : ZMod ORDER) = (a : ZMod ORDER)⁻¹ := by
  obtain ⟨inverse, found, -, -, divides⟩ :=
    invMod_of_coprime order_pos (coprime_of_ne_zero nonzero)
  refine ⟨inverse, found, ?_⟩
  rw [← ZMod.intCast_zmod_eq_zero_iff_dvd, Int.cast_sub, Int.cast_mul, Int.cast_one] at divides
  exact eq_inv_of_mul_eq_one_left (sub_eq_zero.mp divides)

section Polynomials

open Polynomial

/-- The polynomial of a list of coefficients, the constant one first. -/
noncomputable def polynomial (coeffs : List Int) : (ZMod ORDER)[X] :=
  coeffs.foldr (fun (c : Int) f => f * X + C (c : ZMod ORDER)) 0

theorem polynomial_cons (c : Int) (coeffs : List Int)
    : polynomial (c :: coeffs) = polynomial coeffs * X + C (c : ZMod ORDER) := rfl

theorem cast_evalPoly (coeffs : List Int) (x : Int)
    : (evalPoly coeffs x : ZMod ORDER) = (polynomial coeffs).eval (x : ZMod ORDER) := by
  induction coeffs with
  | nil => simp [evalPoly, polynomial]
  | cons c coeffs ih =>
      unfold evalPoly at ih ⊢
      rw [List.foldr_cons, cast_mod, Int.cast_add, Int.cast_mul, ih, polynomial_cons]
      simp

theorem degree_polynomial (coeffs : List Int) : (polynomial coeffs).degree < coeffs.length := by
  induction coeffs with
  | nil => simp [polynomial]
  | cons c coeffs ih =>
      rw [degree_lt_iff_coeff_zero] at ih ⊢
      intro m large
      rw [List.length_cons] at large
      obtain ⟨m, rfl⟩ := Nat.exists_eq_succ_of_ne_zero (by omega : m ≠ 0)
      rw [polynomial_cons, coeff_add, coeff_mul_X, ih m (by omega), coeff_C_succ, add_zero]

theorem eval_zero_polynomial (c : Int) (coeffs : List Int)
    : (polynomial (c :: coeffs)).eval 0 = (c : ZMod ORDER) := by
  simp [polynomial_cons]

/-- The shares are the values of a polynomial of a degree below the threshold, which has the
secret at zero.
-/
def Sharing (t : Nat) (secret : ZMod ORDER) (shares : List Share) : Prop :=
  ∃ f : (ZMod ORDER)[X],
    f.degree < t
    ∧ f.eval 0 = secret
    ∧ ∀ share ∈ shares,
      0 ≤ share.x ∧ share.x < ORDER ∧ (share.y : ZMod ORDER) = f.eval (share.x : ZMod ORDER)

end Polynomials

-----------------------------------------------------------------------------
-- Combining

/-- The fraction of a share is made of the differences to the points of the others, by induction
on the shares that the loop still has before it.
-/
theorem cast_lagrangeFraction {shares : List Share}
    (range : ∀ share ∈ shares, 0 ≤ share.x ∧ share.x < ORDER) {xi : Int} (sign : 0 ≤ xi)
    (small : xi < ORDER)
    : let points := (shares.map fun share => (share.x : ZMod ORDER)).filter (· ≠ (xi : ZMod ORDER))
      ((lagrangeFraction shares xi).1 : ZMod ORDER) = (points.map fun y => -y).prod
      ∧ ((lagrangeFraction shares xi).2 : ZMod ORDER)
        = (points.map fun y => (xi : ZMod ORDER) - y).prod := by
  dsimp only
  unfold lagrangeFraction
  have onwards : ∀ num den : Int,
      let fraction := shares.foldl
        (fun ((num, den) : Int × Int) share =>
          if share.x = xi then (num, den)
          else (mod (num * mod (-share.x)), mod (den * mod (xi - share.x))))
        (num, den)
      let points :=
        (shares.map fun share => (share.x : ZMod ORDER)).filter (· ≠ (xi : ZMod ORDER))
      (fraction.1 : ZMod ORDER) = num * (points.map fun y => -y).prod
      ∧ (fraction.2 : ZMod ORDER) = den * (points.map fun y => (xi : ZMod ORDER) - y).prod := by
    induction shares with
    | nil => simp
    | cons share shares ih =>
        intro num den
        obtain ⟨shareSign, shareSmall⟩ := range share (by simp)
        have others := ih fun other member => range other (by simp [member])
        have same : (share.x : ZMod ORDER) = xi ↔ share.x = xi :=
          cast_inj shareSign shareSmall sign small
        simp only [List.foldl_cons, List.map_cons]
        by_cases itself : share.x = xi
        · rw [if_pos itself, List.filter_cons_of_neg (by simp [same.mpr itself])]
          exact others num den
        · have kept : (share.x : ZMod ORDER) ≠ xi := fun equal => itself (same.mp equal)
          rw [if_neg itself, List.filter_cons_of_pos (by simpa using kept)]
          obtain ⟨numerator, denominator⟩ :=
            others (mod (num * mod (-share.x))) (mod (den * mod (xi - share.x)))
          refine ⟨?_, ?_⟩
          · rw [numerator]
            simp [mul_assoc]
          · rw [denominator]
            simp [mul_assoc]
  simpa using onwards 1 1

/-- The weight of a share among those that are combined. -/
def shareWeight (shares : List Share) (share : Share) : ZMod ORDER :=
  Interpolation.weight (shares.map fun other => (other.x : ZMod ORDER)) share.x

theorem lagrangeFraction_ne_zero {shares : List Share}
    (range : ∀ share ∈ shares, 0 ≤ share.x ∧ share.x < ORDER) {xi : Int} (sign : 0 ≤ xi)
    (small : xi < ORDER)
    : ((lagrangeFraction shares xi).2 : ZMod ORDER) ≠ 0 := by
  rw [(cast_lagrangeFraction range sign small).2]
  exact Interpolation.denominator_ne_zero _ _

theorem combineStep_eq {shares : List Share}
    (range : ∀ share ∈ shares, 0 ≤ share.x ∧ share.x < ORDER) {share : Share}
    (member : share ∈ shares) (secret : Int)
    : ∃ next, combineStep shares secret share = .ok next
      ∧ 0 ≤ next
      ∧ next < ORDER
      ∧ (next : ZMod ORDER) = secret + share.y * shareWeight shares share := by
  obtain ⟨sign, small⟩ := range share member
  obtain ⟨numerator, denominator⟩ := cast_lagrangeFraction range sign small
  obtain ⟨inverse, found, cast⟩ :=
    invMod_of_ne_zero (lagrangeFraction_ne_zero range sign small)
  refine ⟨mod (secret + mod (share.y * mod ((lagrangeFraction shares share.x).1 * inverse))), ?_,
    mod_nonneg _ order_pos, mod_lt _ order_pos, ?_⟩
  · simp only [combineStep, found, bind, Except.bind, pure, Except.pure]
  · simp only [cast_mod, Int.cast_add, Int.cast_mul, cast, numerator, denominator, shareWeight,
      Interpolation.weight]

/-- Shares combine to the sum of their weighted values, by induction on those that are left. -/
theorem combine_eq {shares : List Share}
    (range : ∀ share ∈ shares, 0 ≤ share.x ∧ share.x < ORDER)
    : ∃ secret, combine shares = .ok secret
      ∧ 0 ≤ secret
      ∧ secret < ORDER
      ∧ (secret : ZMod ORDER)
        = (shares.map fun share => (share.y : ZMod ORDER) * shareWeight shares share).sum := by
  have onwards : ∀ (rest : List Share) (start : Int),
      (∀ share ∈ rest, share ∈ shares)
      → 0 ≤ start
      → start < ORDER
      → ∃ secret, rest.foldlM (combineStep shares) start = .ok secret
        ∧ 0 ≤ secret
        ∧ secret < ORDER
        ∧ (secret : ZMod ORDER)
          = start
            + (rest.map fun share => (share.y : ZMod ORDER) * shareWeight shares share).sum := by
    intro rest
    induction rest with
    | nil =>
        intro start _ sign small
        exact ⟨start, rfl, sign, small, by simp⟩
    | cons share rest ih =>
        intro start among sign small
        obtain ⟨next, stepped, nextSign, nextSmall, value⟩ :=
          combineStep_eq range (among share (by simp)) start
        obtain ⟨secret, found, secretSign, secretSmall, sum⟩ :=
          ih next (fun other member => among other (by simp [member])) nextSign nextSmall
        refine ⟨secret, ?_, secretSign, secretSmall, ?_⟩
        · rw [List.foldlM_cons, stepped]
          exact found
        · rw [sum, value, List.map_cons, List.sum_cons, add_assoc]
  simpa [combine] using onwards shares 0 (fun _ => id) le_rfl order_pos

/-- Points of different numbers in range are different. -/
theorem nodup_points {shares : List Share}
    (range : ∀ share ∈ shares, 0 ≤ share.x ∧ share.x < ORDER)
    (distinct : (shares.map Share.x).Nodup)
    : (shares.map fun share => (share.x : ZMod ORDER)).Nodup := by
  have points : ((shares.map Share.x).map fun x : Int => (x : ZMod ORDER)).Nodup := by
    refine distinct.map_on fun x member y other same => ?_
    obtain ⟨share, shareMember, rfl⟩ := List.mem_map.mp member
    obtain ⟨second, secondMember, rfl⟩ := List.mem_map.mp other
    obtain ⟨sign, small⟩ := range share shareMember
    obtain ⟨secondSign, secondSmall⟩ := range second secondMember
    exact (cast_inj sign small secondSign secondSmall).mp same
  rwa [List.map_map] at points

/-- A quorum of the shares combines to the secret. -/
theorem combine_of_sharing {t : Nat} {secret : Int} {shares quorum : List Share}
    (sharing : Sharing t secret shares) (among : ∀ share ∈ quorum, share ∈ shares)
    (distinct : (quorum.map Share.x).Nodup) (enough : t ≤ quorum.length)
    : combine quorum = .ok (mod secret) := by
  obtain ⟨f, degree, constant, values⟩ := sharing
  have range : ∀ share ∈ quorum, 0 ≤ share.x ∧ share.x < ORDER := by
    intro share member
    obtain ⟨sign, small, -⟩ := values share (among share member)
    exact ⟨sign, small⟩
  have points := nodup_points range distinct
  have below : f.degree < (quorum.map fun share => (share.x : ZMod ORDER)).length := by
    rw [List.length_map]
    exact lt_of_lt_of_le degree (by exact_mod_cast enough)
  obtain ⟨combined, found, sign, small, sum⟩ := combine_eq range
  have interpolated := Interpolation.sum_weight points below
  rw [constant, List.map_map] at interpolated
  have same : (combined : ZMod ORDER) = secret := by
    rw [sum, ← interpolated]
    refine congrArg List.sum (List.map_congr_left fun share member => ?_)
    obtain ⟨-, -, value⟩ := values share (among share member)
    rw [value, shareWeight]
    rfl
  rw [found, eq_mod_of_cast sign small same]

-----------------------------------------------------------------------------
-- Splitting and refreshing

theorem length_drawnCoeffs (constant : Int) (randomScalar : Nat → Int) {t : Nat} (some_ : 1 ≤ t)
    : (drawnCoeffs constant randomScalar t).length = t := by
  simp [drawnCoeffs]
  omega

/-- The first shares of a polynomial are a sharing of its constant. -/
theorem sharing_of_polynomial {f : Polynomial (ZMod ORDER)} {t n : Nat} {secret : ZMod ORDER}
    (degree : f.degree < t) (constant : f.eval 0 = secret) (small : n < ORDER) {y : Nat → Int}
    (values : ∀ i < n, (y i : ZMod ORDER) = f.eval ((i : ZMod ORDER) + 1))
    : Sharing t secret ((List.range n).map fun (i : Nat) => { x := i + 1, y := y i }) := by
  refine ⟨f, degree, constant, fun share member => ?_⟩
  obtain ⟨i, inRange, rfl⟩ := List.mem_map.mp member
  have below := List.mem_range.mp inRange
  refine ⟨by dsimp only; omega, by dsimp only; omega, ?_⟩
  rw [values i below]
  simp

theorem lt_order {n : Nat} (short : n < 2 ^ 32) : n < ORDER := by
  unfold ORDER
  omega

theorem split_ok_iff (randomScalar : Nat → Int) (secret : Int) (t n : Nat) (shares : List Share)
    : split randomScalar secret t n = .ok shares
      ↔ 1 ≤ t
        ∧ t ≤ n
        ∧ n < 2 ^ 32
        ∧ shares
          = (List.range n).map fun (i : Nat) =>
              { x := i + 1
                y := evalPoly (drawnCoeffs (mod secret) randomScalar t) ((i : Int) + 1) } := by
  unfold split
  split
  case isTrue invalid => simp only [reduceCtorEq, false_iff]; omega
  case isFalse valid =>
    split
    case isTrue long => simp only [reduceCtorEq, false_iff]; omega
    case isFalse short =>
      rw [Except.ok.injEq, eq_comm]
      exact ⟨fun same => ⟨by omega, by omega, by omega, same⟩, fun found => found.2.2.2⟩

theorem split_sharing {randomScalar : Nat → Int} {secret : Int} {t n : Nat} {shares : List Share}
    (dealt : split randomScalar secret t n = .ok shares)
    : 1 ≤ t ∧ Sharing t secret shares := by
  obtain ⟨some_, -, short, rfl⟩ := (split_ok_iff randomScalar secret t n shares).mp dealt
  have small := lt_order short
  refine ⟨some_, ?_⟩
  have degree := degree_polynomial (drawnCoeffs (mod secret) randomScalar t)
  rw [length_drawnCoeffs _ _ some_] at degree
  refine sharing_of_polynomial degree ?_ small fun i _ => ?_
  · rw [drawnCoeffs, eval_zero_polynomial, cast_mod]
  · rw [cast_evalPoly]
    simp

/-- A refresh adds a polynomial without a constant to the one that the shares lie on. -/
theorem refresh_sharing (randomScalar : Nat → Int) {t drawn : Nat} {secret : ZMod ORDER}
    {shares : List Share} (sharing : Sharing t secret shares) (some_ : 1 ≤ t) (most : drawn ≤ t)
    : Sharing t secret (refresh randomScalar shares drawn) := by
  obtain ⟨f, degree, constant, values⟩ := sharing
  have short : (drawnCoeffs 0 randomScalar drawn).length ≤ t := by
    simp only [drawnCoeffs, List.length_cons, List.length_map, List.length_range]
    omega
  have added : (polynomial (drawnCoeffs 0 randomScalar drawn)).degree < t :=
    lt_of_lt_of_le (degree_polynomial _) (by exact_mod_cast short)
  refine ⟨f + polynomial (drawnCoeffs 0 randomScalar drawn), ?_, ?_, ?_⟩
  · exact lt_of_le_of_lt (Polynomial.degree_add_le _ _) (max_lt degree added)
  · rw [Polynomial.eval_add, constant, drawnCoeffs, eval_zero_polynomial]
    simp
  · intro share member
    obtain ⟨old, oldMember, rfl⟩ := List.mem_map.mp member
    obtain ⟨sign, small, value⟩ := values old oldMember
    refine ⟨sign, small, ?_⟩
    rw [cast_mod, Int.cast_add, value, cast_evalPoly, Polynomial.eval_add]

end Cixtech.Mpc
