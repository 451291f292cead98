import Cixtech.Mpc.ThresholdSigner

/-! Shares over any number of refreshes. Every epoch shares the same secret, and the commitments
of the generation are those of its first epoch only.
-/

namespace Cixtech.Mpc

open Cixtech.Common Cixtech.Foundation Cixtech.Foundation.Protobuf

/-- Refreshes one after another, each with the count and the coefficients that it draws. -/
def refreshedShares (rounds : List (Nat × (Nat → Int))) (shares : List Share) : List Share :=
  rounds.foldl (fun shares round => refresh round.2 shares round.1) shares

/-- Epochs one after another, each with the coefficients that its refresh draws. -/
def epochs (refreshes : List (Nat → Int)) (keyShares : List KeyShare) : List KeyShare :=
  refreshes.foldl (fun keyShares randomScalar => refreshKeyShares randomScalar keyShares) keyShares

theorem refreshedShares_sharing {t : Nat} {secret : ZMod ORDER} (some_ : 1 ≤ t)
    {rounds : List (Nat × (Nat → Int))} (most : ∀ round ∈ rounds, round.1 ≤ t)
    {shares : List Share} (sharing : Sharing t secret shares)
    : Sharing t secret (refreshedShares rounds shares) := by
  unfold refreshedShares
  induction rounds generalizing shares with
  | nil => exact sharing
  | cons round rounds ih =>
      exact ih (fun other member => most other (by simp [member]))
        (refresh_sharing round.2 sharing some_ (most round (by simp)))

-----------------------------------------------------------------------------
-- Key shares of an epoch

section Epochs

open Polynomial

/-- The key shares of an epoch are the values of a polynomial at different nodes. -/
structure OnPolynomial (f : (ZMod ORDER)[X]) (t k : Nat) (ks : KeyShare) : Prop where
  threshold : ks.threshold = t
  epoch : ks.epoch = k
  sign : 0 ≤ ks.share.x
  small : ks.share.x < ORDER
  value : (ks.share.y : ZMod ORDER) = f.eval (ks.share.x : ZMod ORDER)

/-- A key share after a refresh. -/
def refreshedKeyShare (randomScalar : Nat → Int) (t : Nat) (ks : KeyShare) : KeyShare :=
  { ks with
    share :=
      { ks.share with
        y := mod (ks.share.y + evalPoly (drawnCoeffs 0 randomScalar t) ks.share.x) }
    epoch := ks.epoch + 1 }

theorem refreshKeyShares_eq (randomScalar : Nat → Int) {t : Nat} {keyShares : List KeyShare}
    (alike : ∀ ks ∈ keyShares, ks.threshold = t)
    : refreshKeyShares randomScalar keyShares
      = keyShares.map (refreshedKeyShare randomScalar t) := by
  unfold refreshKeyShares
  cases keyShares with
  | nil => rfl
  | cons first keyShares =>
      have threshold : (((first :: keyShares).head?.map KeyShare.threshold).getD
          (first :: keyShares).length) = t := alike first (by simp)
      dsimp only
      rw [threshold, refresh, List.map_map, List.zipWith_map_right, List.zipWith_self]
      rfl

/-- A refresh adds its polynomial to that of the epoch. -/
theorem OnPolynomial.refreshed {f : (ZMod ORDER)[X]} {t k : Nat} {ks : KeyShare}
    (held : OnPolynomial f t k ks) (randomScalar : Nat → Int)
    : OnPolynomial (f + polynomial (drawnCoeffs 0 randomScalar t)) t (k + 1)
        (refreshedKeyShare randomScalar t ks) where
  threshold := held.threshold
  epoch := congrArg (· + 1) held.epoch
  sign := held.sign
  small := held.small
  value := by
    rw [refreshedKeyShare, cast_mod, Int.cast_add, held.value, cast_evalPoly, eval_add]

/-- The sum of the polynomials of refreshes. -/
noncomputable def refreshSum (t : Nat) (refreshes : List (Nat → Int)) : (ZMod ORDER)[X] :=
  (refreshes.map fun randomScalar => polynomial (drawnCoeffs 0 randomScalar t)).sum

/-- Epoch by epoch the shares lie on the sum, by induction on the refreshes. -/
theorem epochs_onPolynomial {f : (ZMod ORDER)[X]} {t k : Nat} {keyShares : List KeyShare}
    (held : ∀ ks ∈ keyShares, OnPolynomial f t k ks) (refreshes : List (Nat → Int))
    : ∀ ks ∈ epochs refreshes keyShares,
      OnPolynomial (f + refreshSum t refreshes) t (k + refreshes.length) ks := by
  unfold epochs refreshSum
  induction refreshes generalizing f k keyShares with
  | nil => simpa using held
  | cons randomScalar refreshes ih =>
      have next : ∀ ks ∈ refreshKeyShares randomScalar keyShares,
          OnPolynomial (f + polynomial (drawnCoeffs 0 randomScalar t)) t (k + 1) ks := by
        rw [refreshKeyShares_eq randomScalar fun ks member => (held ks member).threshold]
        intro ks member
        obtain ⟨old, oldMember, rfl⟩ := List.mem_map.mp member
        exact (held old oldMember).refreshed randomScalar
      intro ks member
      have later := ih next ks member
      rw [List.map_cons, List.sum_cons, List.length_cons, ← add_assoc, Nat.add_comm _ 1,
        ← Nat.add_assoc]
      exact later

/-- The sum of the refreshes has no constant, and for its coefficients those that are drawn. -/
theorem coeff_refreshSum (t : Nat) (refreshes : List (Nat → Int)) (k : Nat)
    : (refreshSum t refreshes).coeff k
      = if 0 < k ∧ k < t then
          (((refreshes.map fun randomScalar => randomScalar (k - 1)).sum : Int) : ZMod ORDER)
        else 0 := by
  unfold refreshSum
  induction refreshes with
  | nil => simp
  | cons randomScalar refreshes ih =>
      have drawn : (drawnCoeffs 0 randomScalar t).getD k 0
          = if 0 < k ∧ k < t then randomScalar (k - 1) else 0 := by
        cases k with
        | zero => simp [drawnCoeffs]
        | succ k =>
            by_cases small : k < t - 1
            · simp [drawnCoeffs, List.getD_eq_getElem?_getD, List.getElem?_range small,
                show k + 1 < t by omega]
            · simp [drawnCoeffs, List.getD_eq_getElem?_getD, small,
                show ¬ k + 1 < t by omega]
      rw [List.map_cons, List.sum_cons, coeff_add, ih, coeff_polynomial, drawn, List.map_cons,
        List.sum_cons]
      split <;> simp

theorem refreshSum_eq_zero_iff (t : Nat) (refreshes : List (Nat → Int))
    : refreshSum t refreshes = 0
      ↔ ∀ k < t - 1,
        (ORDER : Int) ∣ (refreshes.map fun randomScalar => randomScalar k).sum := by
  simp only [← ZMod.intCast_zmod_eq_zero_iff_dvd]
  constructor
  · intro zero k small
    have coefficient := coeff_refreshSum t refreshes (k + 1)
    rw [zero, coeff_zero, if_pos ⟨by omega, by omega⟩, Nat.add_sub_cancel] at coefficient
    exact coefficient.symm
  · intro vanish
    ext k
    rw [coeff_refreshSum, coeff_zero]
    split
    case isTrue inside => exact vanish (k - 1) (by omega)
    case isFalse => rfl

theorem degree_refreshSum (t : Nat) (refreshes : List (Nat → Int))
    : (refreshSum t refreshes).degree < t := by
  rw [degree_lt_iff_coeff_zero]
  intro k large
  rw [coeff_refreshSum, if_neg (by omega)]

end Epochs

-----------------------------------------------------------------------------
-- Combining the shares of an epoch

variable {G : Type} [AddCommGroup G]

/-- What is dealt lies on the sum of the participants' polynomials. -/
theorem dealt_onPolynomial {curve : Curve G} {randomScalar : Nat → Nat → Int} {threshold n : Nat}
    {result : DealerlessResult}
    (dealt : dealerlessDkg curve randomScalar threshold n = .ok result)
    : ∀ ks ∈ result.shares,
      OnPolynomial (sumPolynomial (participants curve randomScalar threshold n)) threshold 0 ks := by
  obtain ⟨-, short, -, -, shares⟩ := dealerlessDkg_ok dealt
  have small := lt_order short
  intro ks member
  rw [shares] at member
  obtain ⟨i, inRange, rfl⟩ := List.mem_map.mp member
  have below := List.mem_range.mp inRange
  exact
    { threshold := rfl, epoch := rfl
      sign := by dsimp only [keyShareOf]; omega
      small := by dsimp only [keyShareOf]; omega
      value := by rw [eval_sumPolynomial]; exact cast_dealtShare _ _ }

/-- Every epoch of a generation shares the sum of the constant terms. -/
theorem epochs_sharing {curve : Curve G} {randomScalar : Nat → Nat → Int} {threshold n : Nat}
    {result : DealerlessResult}
    (dealt : dealerlessDkg curve randomScalar threshold n = .ok result)
    (refreshes : List (Nat → Int))
    : Sharing threshold (sumCoeff (participants curve randomScalar threshold n) 0 : ZMod ORDER)
        ((epochs refreshes result.shares).map KeyShare.share) := by
  obtain ⟨some_, -, -, -, -⟩ := dealerlessDkg_ok dealt
  have committed := committed_participants curve randomScalar some_ n
  have held := epochs_onPolynomial (dealt_onPolynomial dealt) refreshes
  refine ⟨_, lt_of_le_of_lt (Polynomial.degree_add_le _ _)
    (max_lt (degree_sumPolynomial committed) (degree_refreshSum threshold refreshes)), ?_, ?_⟩
  · rw [Polynomial.eval_add, ← Polynomial.coeff_zero_eq_eval_zero,
      ← Polynomial.coeff_zero_eq_eval_zero, coeff_sumPolynomial, coeff_refreshSum,
      if_neg (by omega), add_zero]
  · intro share member
    obtain ⟨ks, ksMember, rfl⟩ := List.mem_map.mp member
    have on := held ks ksMember
    exact ⟨on.sign, on.small, on.value⟩

/-- The constant terms of the participants. -/
theorem sumCoeff_zero (curve : Curve G) (randomScalar : Nat → Nat → Int) (threshold n : Nat)
    : sumCoeff (participants curve randomScalar threshold n) 0
      = ((List.range n).map fun (i : Nat) => randomScalar i 0).sum := by
  simp [sumCoeff, participants, drawnCoeffs, Function.comp_def]

/-- Every quorum of the shares of one epoch combines to the secret: of shares that were split,
over any refreshes of at most as many coefficients, and of shares dealt without a dealer, where
the secret is the sum of the participants' constant terms.
-/
theorem quorum_combines (curve : Curve G)
    : (∀ (randomScalar : Nat → Int) (secret : Int) (t n : Nat),
        (1 ≤ t → t ≤ n → n < 2 ^ 32 → ∃ shares, split randomScalar secret t n = .ok shares)
        ∧ ∀ (shares : List Share) (rounds : List (Nat × (Nat → Int))) (quorum : List Share),
          split randomScalar secret t n = .ok shares
          → (∀ round ∈ rounds, round.1 ≤ t)
          → (∀ share ∈ quorum, share ∈ refreshedShares rounds shares)
          → (quorum.map Share.x).Nodup
          → t ≤ quorum.length
          → combine quorum = .ok (mod secret))
      ∧ ∀ (randomScalar : Nat → Nat → Int) (threshold n : Nat) (result : DealerlessResult)
          (refreshes : List (Nat → Int)) (quorum : List Share),
          dealerlessDkg curve randomScalar threshold n = .ok result
          → (∀ share ∈ quorum, share ∈ (epochs refreshes result.shares).map KeyShare.share)
          → (quorum.map Share.x).Nodup
          → threshold ≤ quorum.length
          → combine quorum
            = .ok (mod ((List.range n).map fun (i : Nat) => randomScalar i 0).sum) := by
  refine ⟨fun randomScalar secret t n => ⟨fun some_ most short => ?_, ?_⟩, ?_⟩
  · exact ⟨_, (split_ok_iff randomScalar secret t n _).mpr ⟨some_, most, short, rfl⟩⟩
  · intro shares rounds quorum dealt most among distinct enough
    obtain ⟨some_, sharing⟩ := split_sharing dealt
    exact combine_of_sharing (refreshedShares_sharing some_ most sharing) among distinct enough
  · intro randomScalar threshold n result refreshes quorum dealt among distinct enough
    rw [← sumCoeff_zero curve]
    exact combine_of_sharing (epochs_sharing dealt refreshes) among distinct enough

/-- Two of three shares of the sample secret, after a refresh. -/
theorem quorum_combines_sample
    : ∃ shares, split (fun _ => 3) 5 2 3 = .ok shares
      ∧ combine ((refreshedShares [(2, fun _ => 7)] shares).drop 1) = .ok (mod 5) := by
  obtain ⟨returns, combines⟩ := (quorum_combines sampleCurve).1 (fun _ => 3) 5 2 3
  obtain ⟨shares, dealt⟩ := returns (by decide) (by decide) (by decide)
  have known := ((split_ok_iff (fun _ => 3) 5 2 3 shares).mp dealt).2.2.2
  refine ⟨shares, dealt, combines shares [(2, fun _ => 7)] _ dealt (by simp)
    (fun share member => List.mem_of_mem_drop member) ?_ ?_⟩
  · rw [known]
    decide
  · rw [known]
    decide

-----------------------------------------------------------------------------
-- Signing with the shares of an epoch

/-- The refreshes leave every share as it was: what they draw for each coefficient sums to zero. -/
def Cancel (t : Nat) (refreshes : List (Nat → Int)) : Prop :=
  ∀ k < t - 1, (ORDER : Int) ∣ (refreshes.map fun randomScalar => randomScalar k).sum

instance (t : Nat) (refreshes : List (Nat → Int)) : Decidable (Cancel t refreshes) :=
  inferInstanceAs (Decidable (∀ k < t - 1, _))

/-- Different nodes of a quorum are different among the first of it. -/
theorem nodup_take {quorum : List KeyShare} (threshold : Nat)
    (distinct : (quorum.map fun ks => ks.share.x).Nodup)
    : (((quorum.take threshold).map KeyShare.share).map Share.x).Nodup := by
  rw [List.map_map]
  exact ((List.take_sublist threshold quorum).map _).nodup distinct

/-- A polynomial that vanishes at the points of a quorum is zero. -/
theorem eq_zero_of_quorum {f : Polynomial (ZMod ORDER)} {t : Nat} (degree : f.degree < t)
    {shares : List Share} (range : ∀ share ∈ shares, 0 ≤ share.x ∧ share.x < ORDER)
    (distinct : (shares.map Share.x).Nodup) (enough : t ≤ shares.length)
    (vanishes : ∀ share ∈ shares, f.eval (share.x : ZMod ORDER) = 0)
    : f = 0 := by
  have points := nodup_points range distinct
  have count := List.toFinset_card_of_nodup points
  rw [List.length_map] at count
  refine Polynomial.eq_zero_of_degree_lt_of_eval_finset_eq_zero
    (shares.map fun share => (share.x : ZMod ORDER)).toFinset ?_ fun x member => ?_
  · rw [count]
    exact lt_of_lt_of_le degree (by exact_mod_cast enough)
  · obtain ⟨share, shareMember, rfl⟩ := List.mem_map.mp (List.mem_toFinset.mp member)
    exact vanishes share shareMember

section Signing

variable [DecidableEq G] (secp256k1 : Secp256k1 G)

/-- A signer of the shares of a quorum, as it is made without verifiers of its own. -/
def quorumSigner (quorum : List KeyShare) (threshold : Nat) (publicKey : Bytes)
    (encodeAddress : Bytes → String) (commitments : Option (List Bytes))
    : ThresholdSigner :=
  { nodes := quorum.map fun ks => { keyShare := ks, verify := fun _ => true }, threshold, publicKey
    encodeAddress, commitments }

omit [AddCommGroup G] [DecidableEq G] in
theorem contributions_quorumSigner (quorum : List KeyShare) (threshold : Nat) (publicKey : Bytes)
    (encodeAddress : Bytes → String) (commitments : Option (List Bytes))
    : (quorumSigner quorum threshold publicKey encodeAddress commitments).contributions
      = (quorum.take threshold).map KeyShare.share := by
  simp [quorumSigner, ThresholdSigner.contributions, ← List.map_take, Function.comp_def]

variable {randomScalar : Nat → Nat → Int} {threshold n : Nat} {result : DealerlessResult}
  {refreshes : List (Nat → Int)} {quorum : List KeyShare}

omit [DecidableEq G] in
/-- A quorum of an epoch makes a signer. -/
theorem signer_of_quorum
    (dealt : dealerlessDkg secp256k1.toCurve randomScalar threshold n = .ok result)
    (among : ∀ ks ∈ quorum, ks ∈ epochs refreshes result.shares)
    (enough : threshold ≤ quorum.length) (encodeAddress : Bytes → String)
    (commitments : Option (List Bytes))
    : thresholdSignerFromShares quorum result.publicKey encodeAddress (plainOptions commitments)
      = .ok (quorumSigner quorum threshold result.publicKey encodeAddress commitments) := by
  obtain ⟨some_, -, -, -, -⟩ := dealerlessDkg_ok dealt
  have held := epochs_onPolynomial (dealt_onPolynomial dealt) refreshes
  exact thresholdSignerFromShares_ok some_
    (fun ks member => ⟨(held ks (among ks member)).threshold, (held ks (among ks member)).epoch⟩)
    enough result.publicKey encodeAddress commitments

/-- The quorum signs where its contributions are not refused. -/
theorem signs_of_quorum
    (dealt : dealerlessDkg secp256k1.toCurve randomScalar threshold n = .ok result)
    (among : ∀ ks ∈ quorum, ks ∈ epochs refreshes result.shares)
    (distinct : (quorum.map fun ks => ks.share.x).Nodup) (enough : threshold ≤ quorum.length)
    {encodeAddress : Bytes → String} {commitments : Option (List Bytes)}
    (good
      : (quorumSigner quorum threshold result.publicKey encodeAddress commitments).checked secp256k1
        = .ok ())
    (index : Int) {hash : Bytes} (sized : hash.length = 32)
    : (quorumSigner quorum threshold result.publicKey encodeAddress commitments).Signs secp256k1
        index hash := by
  obtain ⟨-, -, key, -, -⟩ := dealerlessDkg_ok dealt
  have willing : ∀ node ∈
      (quorumSigner quorum threshold result.publicKey encodeAddress commitments).nodes,
      ∀ ctx, node.verify ctx = true := by
    intro node member ctx
    obtain ⟨ks, -, rfl⟩ := List.mem_map.mp member
    rfl
  have contributed : ∀ share ∈ (quorum.take threshold).map KeyShare.share,
      share ∈ (epochs refreshes result.shares).map KeyShare.share := by
    intro share member
    obtain ⟨ks, taken, rfl⟩ := List.mem_map.mp member
    exact List.mem_map_of_mem (among ks (List.mem_of_mem_take taken))
  have count : threshold ≤ ((quorum.take threshold).map KeyShare.share).length := by
    simp [enough]
  have combined := combine_of_sharing (epochs_sharing dealt refreshes) contributed
    (nodup_take threshold distinct) count
  rw [← contributions_quorumSigner quorum threshold result.publicKey encodeAddress commitments]
    at combined
  refine ThresholdSigner.signs_of_good secp256k1 willing sized good combined (key ▸ ?_)
  congr 1
  rw [secp256k1.smul_base_inj, cast_mod]

/-- The commitments of the generation pass the shares of an epoch exactly where the refreshes
before it cancel.
-/
theorem checked_quorum
    (dealt : dealerlessDkg secp256k1.toCurve randomScalar threshold n = .ok result)
    (among : ∀ ks ∈ quorum, ks ∈ epochs refreshes result.shares)
    (distinct : (quorum.map fun ks => ks.share.x).Nodup) (enough : threshold ≤ quorum.length)
    (encodeAddress : Bytes → String)
    : let signer :=
        quorumSigner quorum threshold result.publicKey encodeAddress (some result.commitments)
      (Cancel threshold refreshes ∧ signer.checked secp256k1 = .ok ())
      ∨ (¬ Cancel threshold refreshes
        ∧ ∃ err, signer.checked secp256k1 = .error err ∧ err.code = .mpcBadContribution) := by
  intro signer
  obtain ⟨some_, -, -, decoded, -⟩ := dealerlessDkg_ok dealt
  have committed := committed_participants secp256k1.toCurve randomScalar some_ n
  have held := epochs_onPolynomial (dealt_onPolynomial dealt) refreshes
  have contributions : signer.contributions = (quorum.take threshold).map KeyShare.share :=
    contributions_quorumSigner _ _ _ _ _
  have on : ∀ share ∈ signer.contributions,
      0 ≤ share.x ∧ share.x < ORDER
      ∧ (share.y : ZMod ORDER)
        = (sumPolynomial (participants secp256k1.toCurve randomScalar threshold n)).eval
            (share.x : ZMod ORDER)
          + (refreshSum threshold refreshes).eval (share.x : ZMod ORDER) := by
    intro share member
    rw [contributions] at member
    obtain ⟨ks, taken, rfl⟩ := List.mem_map.mp member
    have lies := held ks (among ks (List.mem_of_mem_take taken))
    exact ⟨lies.sign, lies.small, by rw [lies.value, Polynomial.eval_add]⟩
  have verdict := checkContributions_eq secp256k1 decoded signer.contributions
  rw [polynomial_sumCoeff committed] at verdict
  have checked : signer.checked secp256k1
      = ThresholdSigner.checkContributions secp256k1 result.commitments signer.contributions :=
    rfl
  rw [checked, Cancel, ← refreshSum_eq_zero_iff]
  rcases verdict with ⟨passed, values⟩ | ⟨refused, share, member, value⟩
  · refine .inl ⟨?_, passed⟩
    have range : ∀ share ∈ signer.contributions, 0 ≤ share.x ∧ share.x < ORDER :=
      fun share member => ⟨(on share member).1, (on share member).2.1⟩
    have apart : (signer.contributions.map Share.x).Nodup := by
      rw [contributions]
      exact nodup_take threshold distinct
    have count : threshold ≤ signer.contributions.length := by
      rw [contributions]
      simp [enough]
    refine eq_zero_of_quorum (degree_refreshSum threshold refreshes) range apart count ?_
    intro share member
    have sum := (on share member).2.2
    rw [values share member] at sum
    exact left_eq_add.mp sum
  · refine .inr ⟨fun zero => value ?_, refused⟩
    have sum := (on share member).2.2
    rwa [zero, Polynomial.eval_zero, add_zero] at sum

end Signing

-----------------------------------------------------------------------------
-- A refresh of the sample

/-- The sample group with signatures that are the key and the hash, for they need not be secret. -/
def sampleSecp256k1 : Secp256k1 (ZMod ORDER) where
  toCurve := sampleCurve
  toBytes_zero b := by simp [sampleCurve]
  getPublicKey key :=
    if key.length = 32 ∧ 0 < BigEndian.value key ∧ BigEndian.value key < ORDER then
      sampleCurve.toBytes (BigEndian.value key • sampleCurve.base)
    else .error (.plain "invalid private key")
  getPublicKey_of_scalar key long positive small := if_pos ⟨long, positive, small⟩
  sign hash key := .ok (key ++ hash, 0)
  verify signature hash publicKey :=
    signature.drop 32 = hash
      ∧ sampleCurve.toBytes (BigEndian.value (signature.take 32) • sampleCurve.base)
        = .ok publicKey
  sign_verifies hash key publicKey sized known := by
    split at known
    case isFalse => cases known
    case isTrue valid =>
      refine ⟨key ++ hash, 0, rfl, by simp [valid.1, sized], ?_⟩
      rw [List.drop_left' valid.1, List.take_left' valid.1, known]
      simp

/-- The refresh of the sample, which changes every share. -/
def sampleRefresh (_ : Nat) : Int := 1

theorem sample_dealt
    : ∃ result, dealerlessDkg sampleSecp256k1.toCurve sampleScalar 2 3 = .ok result
      ∧ ((epochs [sampleRefresh] result.shares).map fun ks => ks.share.x).Nodup
      ∧ 2 ≤ (epochs [sampleRefresh] result.shares).length := by
  obtain ⟨result, dealt⟩ :=
    dealerlessDkg_returns (by decide) (by decide) (by decide) sampleScalar_encodes
  have held := dealt_onPolynomial dealt
  obtain ⟨-, -, -, -, shares⟩ := dealerlessDkg_ok dealt
  have refreshed : epochs [sampleRefresh] result.shares
      = result.shares.map (refreshedKeyShare sampleRefresh 2) :=
    refreshKeyShares_eq sampleRefresh fun ks member => (held ks member).threshold
  have nodes : ((epochs [sampleRefresh] result.shares).map fun ks => ks.share.x) = [1, 2, 3] := by
    rw [refreshed, shares]
    rfl
  have count := congrArg List.length nodes
  rw [List.length_map] at count
  refine ⟨result, dealt, ?_, ?_⟩
  · rw [nodes]
    decide
  · rw [count]
    decide

end Cixtech.Mpc
