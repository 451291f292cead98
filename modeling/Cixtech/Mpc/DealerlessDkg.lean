import Cixtech.Foundation.BigEndian
import Cixtech.Foundation.Protobuf
import Cixtech.Mpc.Shamir
import Mathlib.Tactic.IntervalCases

/-! Key generation without a dealer: every participant deals a polynomial of its own and
publishes the images of its coefficients, and the shares are checked against their sums.
-/

namespace Cixtech.Mpc

open Cixtech.Common Cixtech.Foundation Cixtech.Foundation.Protobuf

structure KeyShare where
  nodeId : Nat
  share : Share
  publicKey : Bytes
  threshold : Nat
  epoch : Nat
  deriving DecidableEq, Repr

structure DealerlessResult where
  shares : List KeyShare
  publicKey : Bytes
  commitments : List Bytes
  deriving DecidableEq, Repr

/-- The group of the curve, with a base point of prime order and the encoding of its points. The
point at infinity need not have an encoding.
-/
structure Curve (G : Type) [AddCommGroup G] where
  base : G
  smul_base_eq_zero : ∀ k : Int, k • base = 0 ↔ (ORDER : Int) ∣ k
  toBytes : G → Except AppError Bytes
  fromBytes : Bytes → Except AppError G
  fromBytes_of_toBytes : ∀ point b, toBytes point = .ok b → fromBytes b = .ok point

structure Participant (G : Type) where
  coeffs : List Int
  commitments : List G

variable {G : Type} [AddCommGroup G]

def participants (curve : Curve G) (randomScalar : Nat → Nat → Int) (threshold n : Nat)
    : List (Participant G) :=
  (List.range n).map fun (i : Nat) =>
    let coeffs := drawnCoeffs (randomScalar i 0) (fun k => randomScalar i (k + 1)) threshold
    { coeffs, commitments := coeffs.map fun (c : Int) => c • curve.base }

/-- The sum of the participants' commitments to a coefficient. -/
def aggregate (dealers : List (Participant G)) (k : Nat) : G :=
  dealers.foldl (fun acc p => acc + p.commitments.getD k 0) 0

/-- The sum of the participants' polynomials at a node. -/
def dealtShare (dealers : List (Participant G)) (j : Int) : Int :=
  dealers.foldl (fun y p => mod (y + evalPoly p.coeffs j)) 0

/-- The key share of a node. -/
def keyShareOf (dealers : List (Participant G)) (publicKey : Bytes) (threshold i : Nat)
    : KeyShare :=
  let j : Int := i + 1
  { nodeId := i + 1, share := { x := j, y := dealtShare dealers j }, publicKey, threshold
    epoch := 0 }

def dealerlessDkg (curve : Curve G) (randomScalar : Nat → Nat → Int) (threshold n : Nat)
    : Except AppError DealerlessResult := do
  if threshold < 1 ∨ threshold > n then throw (.plain s!"invalid threshold {threshold} of {n}")
  if 2 ^ 32 ≤ n then throw invalidLength
  let dealers := participants curve randomScalar threshold n
  let agg := (List.range threshold).map (aggregate dealers)
  let publicKey ← curve.toBytes (agg.getD 0 0)
  let commitments ← agg.mapM curve.toBytes
  let shares := (List.range n).map (keyShareOf dealers publicKey threshold)
  return { shares, publicKey, commitments }

/-- The loop over the commitments, with the sum and the power so far. -/
def commitmentStep (curve : Curve G) (x : Int) (acc : G × Int) (cBytes : Bytes)
    : Except AppError (G × Int) := do
  let (rhs, xk) := acc
  return (rhs + xk • (← curve.fromBytes cBytes), mod (xk * x))

def verifyShare [DecidableEq G] (curve : Curve G) (x y : Int) (commitments : List Bytes)
    : Except AppError Bool := do
  let (rhs, _) ← commitments.foldlM (commitmentStep curve x) (0, 1)
  let lhs := mod y • curve.base
  return lhs = rhs

-----------------------------------------------------------------------------
-- Images of scalars

namespace Curve

variable (curve : Curve G)

/-- Scalars have one image exactly where they are equal in the field. -/
theorem smul_base_inj (k other : Int)
    : k • curve.base = other • curve.base ↔ (k : ZMod ORDER) = other := by
  rw [← sub_eq_zero, ← sub_smul, curve.smul_base_eq_zero, ← ZMod.intCast_zmod_eq_zero_iff_dvd,
    Int.cast_sub, sub_eq_zero]

end Curve

/-- The coefficients of the sum of the participants' polynomials. -/
def sumCoeff (dealers : List (Participant G)) (k : Nat) : Int :=
  (dealers.map fun p => p.coeffs.getD k 0).sum

/-- Participants of so many coefficients, with the commitments to them. -/
def Committed (curve : Curve G) (threshold : Nat) (dealers : List (Participant G)) : Prop :=
  ∀ p ∈ dealers,
    p.coeffs.length = threshold ∧ p.commitments = p.coeffs.map fun (c : Int) => c • curve.base

theorem committed_participants (curve : Curve G) (randomScalar : Nat → Nat → Int)
    {threshold : Nat} (some_ : 1 ≤ threshold) (n : Nat)
    : Committed curve threshold (participants curve randomScalar threshold n) := by
  intro p member
  obtain ⟨i, -, rfl⟩ := List.mem_map.mp member
  exact ⟨length_drawnCoeffs _ _ some_, rfl⟩

/-- A sum of commitments is the image of the sum of the coefficients. -/
theorem aggregate_eq {curve : Curve G} {threshold : Nat} {dealers : List (Participant G)}
    (committed : Committed curve threshold dealers) (k : Nat)
    : aggregate dealers k = sumCoeff dealers k • curve.base := by
  have onwards : ∀ acc : G,
      dealers.foldl (fun acc p => acc + p.commitments.getD k 0) acc
        = acc + sumCoeff dealers k • curve.base := by
    unfold sumCoeff
    induction dealers with
    | nil => simp
    | cons p dealers ih =>
        intro acc
        obtain ⟨-, commitments⟩ := committed p (by simp)
        have image : p.commitments.getD k 0 = p.coeffs.getD k 0 • curve.base := by
          rw [commitments]
          simp only [List.getD_eq_getElem?_getD, List.getElem?_map]
          cases p.coeffs[k]? <;> simp
        rw [List.foldl_cons, ih (fun other member => committed other (by simp [member])), image,
          List.map_cons, List.sum_cons, add_smul, add_assoc]
  exact (onwards 0).trans (zero_add _)

-----------------------------------------------------------------------------
-- The sum of the polynomials

section Sums

open Polynomial

theorem coeff_polynomial (coeffs : List Int) (k : Nat)
    : (polynomial coeffs).coeff k = ((coeffs.getD k 0 : Int) : ZMod ORDER) := by
  induction coeffs generalizing k with
  | nil => simp [polynomial]
  | cons c coeffs ih =>
      cases k with
      | zero => simp [polynomial_cons]
      | succ k =>
          rw [polynomial_cons, coeff_add, coeff_mul_X, ih, coeff_C_succ, add_zero]
          simp

noncomputable def sumPolynomial (dealers : List (Participant G)) : (ZMod ORDER)[X] :=
  (dealers.map fun p => polynomial p.coeffs).sum

omit [AddCommGroup G] in
theorem eval_sumPolynomial (dealers : List (Participant G)) (x : Int)
    : (sumPolynomial dealers).eval (x : ZMod ORDER)
      = (((dealers.map fun p => evalPoly p.coeffs x).sum : Int) : ZMod ORDER) := by
  unfold sumPolynomial
  induction dealers with
  | nil => simp
  | cons p dealers ih =>
      simp only [List.map_cons, List.sum_cons, eval_add, ih, Int.cast_add, cast_evalPoly]

omit [AddCommGroup G] in
theorem coeff_sumPolynomial (dealers : List (Participant G)) (k : Nat)
    : (sumPolynomial dealers).coeff k = (sumCoeff dealers k : ZMod ORDER) := by
  unfold sumPolynomial sumCoeff
  induction dealers with
  | nil => simp
  | cons p dealers ih =>
      simp only [List.map_cons, List.sum_cons, coeff_add, ih, Int.cast_add, coeff_polynomial]

/-- Beyond the threshold the sum has no coefficients. -/
theorem sumCoeff_of_large {curve : Curve G} {threshold : Nat} {dealers : List (Participant G)}
    (committed : Committed curve threshold dealers) {k : Nat} (large : threshold ≤ k)
    : sumCoeff dealers k = 0 := by
  unfold sumCoeff
  refine List.sum_eq_zero fun c member => ?_
  obtain ⟨p, dealer, rfl⟩ := List.mem_map.mp member
  have long : p.coeffs.length ≤ k := by
    rw [(committed p dealer).1]
    exact large
  simp [List.getD_eq_getElem?_getD, List.getElem?_eq_none long]

theorem degree_sumPolynomial {curve : Curve G} {threshold : Nat}
    {dealers : List (Participant G)} (committed : Committed curve threshold dealers)
    : (sumPolynomial dealers).degree < threshold := by
  rw [degree_lt_iff_coeff_zero]
  intro k large
  rw [coeff_sumPolynomial, sumCoeff_of_large committed large, Int.cast_zero]

/-- The polynomial of the summed coefficients is the sum of the polynomials. -/
theorem polynomial_sumCoeff {curve : Curve G} {threshold : Nat} {dealers : List (Participant G)}
    (committed : Committed curve threshold dealers)
    : polynomial ((List.range threshold).map (sumCoeff dealers)) = sumPolynomial dealers := by
  ext k
  rw [coeff_polynomial, coeff_sumPolynomial, List.getD_eq_getElem?_getD, List.getElem?_map]
  by_cases small : k < threshold
  · simp [List.getElem?_range small]
  · rw [sumCoeff_of_large committed (Nat.not_lt.mp small)]
    simp [small]

end Sums

omit [AddCommGroup G] in
/-- A dealt share is the value of the sum. -/
theorem cast_dealtShare (dealers : List (Participant G)) (j : Int)
    : (dealtShare dealers j : ZMod ORDER)
      = (((dealers.map fun p => evalPoly p.coeffs j).sum : Int) : ZMod ORDER) := by
  have onwards : ∀ y : Int,
      ((dealers.foldl (fun y p => mod (y + evalPoly p.coeffs j)) y : Int) : ZMod ORDER)
        = y + (((dealers.map fun p => evalPoly p.coeffs j).sum : Int) : ZMod ORDER) := by
    induction dealers with
    | nil => simp
    | cons p dealers ih =>
        intro y
        rw [List.foldl_cons, ih, cast_mod, List.map_cons, List.sum_cons, Int.cast_add,
          Int.cast_add, add_assoc]
  refine (onwards 0).trans ?_
  rw [Int.cast_zero, zero_add]

-----------------------------------------------------------------------------
-- The check of a share

theorem mapM_fromBytes {curve : Curve G} {points : List G} {encoded : List Bytes}
    (written : points.mapM curve.toBytes = .ok encoded)
    : encoded.mapM curve.fromBytes = .ok points := by
  induction points generalizing encoded with
  | nil =>
      obtain rfl := Except.ok.inj written
      rfl
  | cons point points ih =>
      rw [List.mapM_cons] at written
      cases first : curve.toBytes point with
      | error err =>
          rw [first] at written
          cases written
      | ok b =>
          cases others : points.mapM curve.toBytes with
          | error err =>
              rw [first, others] at written
              cases written
          | ok rest =>
              rw [first, others] at written
              obtain rfl := Except.ok.inj written
              rw [List.mapM_cons, curve.fromBytes_of_toBytes point b first, ih others]
              rfl

/-- The loop over commitments to coefficients sums to the image of their polynomial's value, by
induction on the coefficients.
-/
theorem foldlM_commitmentStep {curve : Curve G} (x : Int) {coeffs : List Int}
    {commitments : List Bytes}
    (decoded
      : commitments.mapM curve.fromBytes = .ok (coeffs.map fun (c : Int) => c • curve.base))
    (rhs : G) (xk : Int)
    : ∃ (value power : Int),
      commitments.foldlM (commitmentStep curve x) (rhs, xk)
        = .ok (rhs + value • curve.base, power)
      ∧ (value : ZMod ORDER) = xk * (polynomial coeffs).eval (x : ZMod ORDER) := by
  induction commitments generalizing coeffs rhs xk with
  | nil =>
      have none : coeffs = [] := by
        have empty := Except.ok.inj decoded
        simpa using empty.symm
      exact ⟨0, xk, by simp; rfl, by simp [none, polynomial]⟩
  | cons cBytes commitments ih =>
      rw [List.mapM_cons] at decoded
      cases first : curve.fromBytes cBytes with
      | error err =>
          rw [first] at decoded
          cases decoded
      | ok point =>
          cases others : commitments.mapM curve.fromBytes with
          | error err =>
              rw [first, others] at decoded
              cases decoded
          | ok points =>
              rw [first, others] at decoded
              have whole := Except.ok.inj decoded
              cases coeffs with
              | nil => cases whole
              | cons c coeffs =>
                  obtain ⟨rfl, rfl⟩ := List.cons.inj whole
                  obtain ⟨value, power, folded, cast⟩ :=
                    ih others (rhs + xk • c • curve.base) (mod (xk * x))
                  refine ⟨xk * c + value, power, ?_, ?_⟩
                  · rw [List.foldlM_cons, commitmentStep, first]
                    simp only [bind, Except.bind, pure, Except.pure]
                    rw [folded, add_smul, mul_smul, add_assoc]
                  · rw [Int.cast_add, cast, cast_mod, polynomial_cons]
                    simp
                    ring

/-- A share is accepted exactly where it is the value of the committed polynomial. -/
theorem verifyShare_eq [DecidableEq G] {curve : Curve G} {coeffs : List Int}
    {commitments : List Bytes}
    (decoded
      : commitments.mapM curve.fromBytes = .ok (coeffs.map fun (c : Int) => c • curve.base))
    (x y : Int)
    : verifyShare curve x y commitments
      = .ok (decide ((y : ZMod ORDER) = (polynomial coeffs).eval (x : ZMod ORDER))) := by
  obtain ⟨value, power, folded, cast⟩ := foldlM_commitmentStep x decoded 0 1
  have accepted : mod y • curve.base = 0 + value • curve.base
      ↔ (y : ZMod ORDER) = (polynomial coeffs).eval (x : ZMod ORDER) := by
    rw [zero_add, curve.smul_base_inj, cast_mod, cast, Int.cast_one, one_mul]
  simp only [verifyShare, folded, bind, Except.bind, pure, Except.pure, accepted]

-----------------------------------------------------------------------------
-- What is dealt

theorem images_eq {curve : Curve G} {threshold : Nat} {dealers : List (Participant G)}
    (committed : Committed curve threshold dealers)
    : (List.range threshold).map (aggregate dealers)
      = ((List.range threshold).map (sumCoeff dealers)).map fun (c : Int) => c • curve.base := by
  rw [List.map_map]
  exact List.map_congr_left fun k _ => aggregate_eq committed k

/-- What a generation that returns has dealt. -/
theorem dealerlessDkg_ok {curve : Curve G} {randomScalar : Nat → Nat → Int} {threshold n : Nat}
    {result : DealerlessResult}
    (dealt : dealerlessDkg curve randomScalar threshold n = .ok result)
    : 1 ≤ threshold
      ∧ n < 2 ^ 32
      ∧ let dealers := participants curve randomScalar threshold n
        curve.toBytes (sumCoeff dealers 0 • curve.base) = .ok result.publicKey
        ∧ result.commitments.mapM curve.fromBytes
          = .ok
              (((List.range threshold).map (sumCoeff dealers)).map
                fun (c : Int) => c • curve.base)
        ∧ result.shares = (List.range n).map (keyShareOf dealers result.publicKey threshold) := by
  unfold dealerlessDkg at dealt
  simp only [bind, Except.bind, pure, Except.pure, throw, throwThe, MonadExceptOf.throw] at dealt
  split at dealt
  case isTrue => cases dealt
  case isFalse valid =>
    split at dealt
    case isTrue => cases dealt
    case isFalse short =>
      have some_ : 1 ≤ threshold := by omega
      have committed := committed_participants curve randomScalar some_ n
      rw [images_eq committed] at dealt
      cases key : curve.toBytes
          ((((List.range threshold).map
              (sumCoeff (participants curve randomScalar threshold n))).map
            fun (c : Int) => c • curve.base).getD 0 0) with
      | error err =>
          rw [key] at dealt
          cases dealt
      | ok publicKey =>
          cases written : ((((List.range threshold).map
              (sumCoeff (participants curve randomScalar threshold n))).map
            fun (c : Int) => c • curve.base).mapM curve.toBytes) with
          | error err =>
              rw [key, written] at dealt
              cases dealt
          | ok commitments =>
              rw [key, written] at dealt
              obtain rfl := Except.ok.inj dealt
              refine ⟨some_, by omega, ?_, mapM_fromBytes written, rfl⟩
              rw [← key]
              congr 1
              simp [List.getD_eq_getElem?_getD, List.getElem?_range some_]

theorem mapM_toBytes {curve : Curve G} {points : List G}
    (encoded : ∀ point ∈ points, ∃ b, curve.toBytes point = .ok b)
    : ∃ written, points.mapM curve.toBytes = .ok written := by
  induction points with
  | nil => exact ⟨[], rfl⟩
  | cons point points ih =>
      obtain ⟨b, first⟩ := encoded point (by simp)
      obtain ⟨rest, others⟩ := ih fun other member => encoded other (by simp [member])
      exact ⟨b :: rest, by rw [List.mapM_cons, first, others]; rfl⟩

/-- The generation returns where every sum of commitments can be encoded. -/
theorem dealerlessDkg_returns {curve : Curve G} {randomScalar : Nat → Nat → Int}
    {threshold n : Nat} (some_ : 1 ≤ threshold) (most : threshold ≤ n) (short : n < 2 ^ 32)
    (encoded
      : ∀ k < threshold, ∃ b,
        curve.toBytes (sumCoeff (participants curve randomScalar threshold n) k • curve.base)
          = .ok b)
    : ∃ result, dealerlessDkg curve randomScalar threshold n = .ok result := by
  have committed := committed_participants curve randomScalar some_ n
  have images : ∀ k < threshold, ∃ b,
      curve.toBytes (aggregate (participants curve randomScalar threshold n) k) = .ok b := by
    intro k small
    rw [aggregate_eq committed]
    exact encoded k small
  obtain ⟨publicKey, key⟩ := images 0 some_
  have sums : ∀ point ∈ (List.range threshold).map
      (aggregate (participants curve randomScalar threshold n)),
        ∃ b, curve.toBytes point = .ok b := by simpa using images
  obtain ⟨commitments, written⟩ := mapM_toBytes sums
  have first : ((List.range threshold).map
      (aggregate (participants curve randomScalar threshold n))).getD 0 0
        = aggregate (participants curve randomScalar threshold n) 0 := by
    simp [List.getD_eq_getElem?_getD, List.getElem?_range some_]
  have valid : ¬ (threshold < 1 ∨ threshold > n) := by omega
  have fits : ¬ 2 ^ 32 ≤ n := by omega
  simp only [dealerlessDkg, valid, fits, if_false, first, key, written, bind, Except.bind, pure,
    Except.pure]
  exact ⟨_, rfl⟩

/-- The shares of a generation are a sharing of the sum of the constant terms. -/
theorem dealerlessDkg_sharing {curve : Curve G} {randomScalar : Nat → Nat → Int}
    {threshold n : Nat} {result : DealerlessResult}
    (dealt : dealerlessDkg curve randomScalar threshold n = .ok result)
    : Sharing threshold (sumCoeff (participants curve randomScalar threshold n) 0 : ZMod ORDER)
        (result.shares.map KeyShare.share) := by
  obtain ⟨some_, short, -, -, shares⟩ := dealerlessDkg_ok dealt
  have committed := committed_participants curve randomScalar some_ n
  have small := lt_order short
  rw [shares, List.map_map]
  refine sharing_of_polynomial (degree_sumPolynomial committed) ?_ small fun i _ => ?_
  · rw [← Polynomial.coeff_zero_eq_eval_zero, coeff_sumPolynomial]
  · rw [cast_dealtShare, ← eval_sumPolynomial]
    simp

/-- A generation deals shares that pass their check, which takes at any point the sum of the
participants' polynomials and nothing else, and the public key is the image of the secret that a
quorum of the shares combines to.
-/
theorem dealerlessDkg_verifiable [DecidableEq G] (curve : Curve G)
    (randomScalar : Nat → Nat → Int) (threshold n : Nat)
    : let dealers := participants curve randomScalar threshold n
      (1 ≤ threshold
        → threshold ≤ n
        → n < 2 ^ 32
        → (∀ k < threshold, ∃ b, curve.toBytes (sumCoeff dealers k • curve.base) = .ok b)
        → ∃ result, dealerlessDkg curve randomScalar threshold n = .ok result)
      ∧ ∀ result, dealerlessDkg curve randomScalar threshold n = .ok result
        → (∀ keyShare ∈ result.shares,
            verifyShare curve keyShare.share.x keyShare.share.y result.commitments = .ok true)
          ∧ (∀ x y : Int,
            verifyShare curve x y result.commitments
              = .ok
                  (decide (y ≡ (dealers.map fun p => evalPoly p.coeffs x).sum [ZMOD ORDER])))
          ∧ (∀ keyShare ∈ result.shares, ∀ y : Int,
            ¬ y ≡ keyShare.share.y [ZMOD ORDER]
            → verifyShare curve keyShare.share.x y result.commitments = .ok false)
          ∧ ∀ quorum : List Share,
            (∀ share ∈ quorum, share ∈ result.shares.map KeyShare.share)
            → (quorum.map Share.x).Nodup
            → threshold ≤ quorum.length
            → ∃ secret, combine quorum = .ok secret
              ∧ curve.toBytes (secret • curve.base) = .ok result.publicKey := by
  intro dealers
  refine ⟨fun some_ most short => dealerlessDkg_returns some_ most short, fun result dealt => ?_⟩
  obtain ⟨some_, short, key, decoded, shares⟩ := dealerlessDkg_ok dealt
  have committed := committed_participants curve randomScalar some_ n
  have sum : ∀ x y : Int, verifyShare curve x y result.commitments
      = .ok (decide (y ≡ (dealers.map fun p => evalPoly p.coeffs x).sum [ZMOD ORDER])) := by
    intro x y
    rw [verifyShare_eq decoded, polynomial_sumCoeff committed, eval_sumPolynomial]
    simp only [ZMod.intCast_eq_intCast_iff]
    rfl
  have value : ∀ keyShare ∈ result.shares,
      keyShare.share.y
        ≡ (dealers.map fun p => evalPoly p.coeffs keyShare.share.x).sum [ZMOD ORDER] := by
    intro keyShare member
    rw [shares] at member
    obtain ⟨i, -, rfl⟩ := List.mem_map.mp member
    rw [← ZMod.intCast_eq_intCast_iff]
    exact cast_dealtShare dealers _
  refine ⟨?_, sum, ?_, ?_⟩
  · intro keyShare member
    rw [sum, decide_eq_true (value keyShare member)]
  · intro keyShare member y altered
    rw [sum, decide_eq_false fun same => altered (same.trans (value keyShare member).symm)]
  · intro quorum among distinct enough
    refine ⟨_, combine_of_sharing (dealerlessDkg_sharing dealt) among distinct enough, ?_⟩
    rw [← key]
    congr 1
    rw [curve.smul_base_inj, cast_mod]

-----------------------------------------------------------------------------
-- A group of the order

/-- The group as the scalars themselves, each point by its discrete logarithm. -/
def sampleCurve : Curve (ZMod ORDER) where
  base := 1
  smul_base_eq_zero k := by rw [zsmul_one, ZMod.intCast_zmod_eq_zero_iff_dvd]
  toBytes point :=
    if point = 0 then .error (.plain "bad point: ZERO")
    else .ok (2 :: BigEndian.fixed 32 point.val)
  fromBytes b := .ok (BigEndian.value (b.drop 1) : Nat)
  fromBytes_of_toBytes point b written := by
    split at written
    case isTrue => cases written
    case isFalse =>
      obtain rfl := Except.ok.inj written
      have small : point.val < 256 ^ 32 := (ZMod.val_lt point).trans (by unfold ORDER; decide)
      rw [List.drop_succ_cons, List.drop_zero, BigEndian.value_fixed small, ZMod.natCast_zmod_val]

theorem sampleCurve_encodes {k : Int} (positive : 0 < k) (small : k < ORDER)
    : ∃ b, sampleCurve.toBytes (k • sampleCurve.base) = .ok b := by
  have nonzero : k • sampleCurve.base ≠ 0 := by
    rw [ne_eq, sampleCurve.smul_base_eq_zero]
    exact fun divides => absurd (Int.le_of_dvd positive divides) (not_le.mpr small)
  exact ⟨_, if_neg nonzero⟩

/-- Three participants and a quorum of two, with small coefficients. -/
def sampleScalar (i k : Nat) : Int := i + k + 1

theorem sampleScalar_encodes
    : ∀ k < 2, ∃ b,
      sampleCurve.toBytes
          (sumCoeff (participants sampleCurve sampleScalar 2 3) k • sampleCurve.base)
        = .ok b := by
  have large : (9 : Int) < ORDER := by
    unfold ORDER
    decide
  intro k small
  interval_cases k
  · exact sampleCurve_encodes (k := 6) (by decide) (by omega)
  · exact sampleCurve_encodes (k := 9) (by decide) large

/-- Each share of the sample passes its check. -/
theorem dealerlessDkg_verifiable_sample
    : ∃ result, dealerlessDkg sampleCurve sampleScalar 2 3 = .ok result
      ∧ ∀ keyShare ∈ result.shares,
        verifyShare sampleCurve keyShare.share.x keyShare.share.y result.commitments
          = .ok true := by
  obtain ⟨returns, dealt⟩ := dealerlessDkg_verifiable sampleCurve sampleScalar 2 3
  obtain ⟨result, found⟩ :=
    returns (by decide) (by decide) (by decide) sampleScalar_encodes
  exact ⟨result, found, (dealt result found).1⟩

end Cixtech.Mpc
