import Cixtech.Evm.Rlp
import Cixtech.Mpc.DealerlessDkg

/-! The interim threshold signer: a quorum contributes its shares, which are checked, combined to
the key for the one signature, and the signature is checked before it is given out.
-/

namespace Cixtech.Mpc

open Cixtech.Common Cixtech.Foundation Cixtech.Foundation.Protobuf
open Cixtech.Tron.TxVerify (fromHex)

/-- A scalar in 32 bytes. -/
def scalarToBytes (x : Int) : Bytes :=
  fromHex ((Nat.toDigits 16 (mod x).toNat).leftpad 64 '0')

/-- New shares of the same key, of the next epoch. -/
def refreshKeyShares (randomScalar : Nat → Int) (keyShares : List KeyShare) : List KeyShare :=
  let threshold := (keyShares.head?.map KeyShare.threshold).getD keyShares.length
  let refreshed := refresh randomScalar (keyShares.map KeyShare.share) threshold
  keyShares.zipWith (fun k share => { k with share, epoch := k.epoch + 1 }) refreshed

structure SigningContext where
  index : Int
  hash : Bytes
  deriving DecidableEq, Repr

structure SignerNode where
  keyShare : KeyShare
  verify : SigningContext → Bool

namespace SignerNode

def id (node : SignerNode) : Nat := node.keyShare.nodeId

def epoch (node : SignerNode) : Nat := node.keyShare.epoch

def contribute (node : SignerNode) (ctx : SigningContext) : Except AppError Share :=
  if !node.verify ctx then
    .error
      { code := .mpcNodeRejected
        message := s!"Node {node.keyShare.nodeId} rejected the signing request"
        context := [("nodeId", .number node.keyShare.nodeId)] }
  else .ok node.keyShare.share

end SignerNode

def badContribution (message : String) (context : List (String × ContextValue)) : AppError :=
  { code := .mpcBadContribution, message, context }

def interimForbidden (message : String) : AppError :=
  { code := .mpcInterimForbidden, message, context := [] }

structure ThresholdSignerOptions where
  commitments : Option (List Bytes)
  acknowledgeInterim : Option Bool
  production : Option Bool

structure ThresholdSigner where
  nodes : List SignerNode
  threshold : Nat
  publicKey : Bytes
  encodeAddress : Bytes → String
  commitments : Option (List Bytes)

/-- What of the curve's library is used. The key of a scalar is the image of the scalar, which
the library gives for no other bytes, and a signature verifies under the key of its signer.
-/
structure Secp256k1 (G : Type) [AddCommGroup G] extends Curve G where
  toBytes_zero : ∀ b, toBytes 0 ≠ .ok b
  getPublicKey : Bytes → Except AppError Bytes
  getPublicKey_of_scalar
    : ∀ key : Bytes,
      key.length = 32
      → 0 < BigEndian.value key
      → BigEndian.value key < ORDER
      → getPublicKey key = toBytes (BigEndian.value key • base)
  sign : Bytes → Bytes → Except AppError (Bytes × UInt8)
  verify : Bytes → Bytes → Bytes → Bool
  sign_verifies
    : ∀ hash key publicKey : Bytes,
      hash.length = 32
      → getPublicKey key = .ok publicKey
      → ∃ compact recovery, sign hash key = .ok (compact, recovery)
        ∧ compact.length = 64
        ∧ verify compact hash publicKey = true

namespace ThresholdSigner

/-- `new ThresholdSigner(...)`. -/
def create (nodes : List SignerNode) (threshold : Nat) (publicKey : Bytes)
    (encodeAddress : Bytes → String) (options : ThresholdSignerOptions)
    : Except AppError ThresholdSigner := do
  if nodes.length < threshold then
    throw
      { code := .mpcThresholdNotMet, message := s!"need {threshold} nodes, have {nodes.length}"
        context := [("threshold", .number threshold), ("nodes", .number nodes.length)] }
  if options.production = some true then
    throw
      (interimForbidden
        "Interim reconstruct-to-sign is forbidden in production; wire an audited threshold-ECDSA protocol first")
  if options.acknowledgeInterim ≠ some true then
    throw
      (interimForbidden
        "ThresholdSigner uses interim key reconstruction; pass acknowledgeInterim to opt in")
  let epochs := (nodes.map SignerNode.epoch).eraseDups
  if epochs.length > 1 then
    throw
      (badContribution "nodes span multiple refresh epochs"
        [("epochs", .text (",".intercalate (epochs.map toString)))])
  return { nodes, threshold, publicKey, encodeAddress, commitments := options.commitments }

def deriveAddress (signer : ThresholdSigner) (_index : Int) : String :=
  signer.encodeAddress signer.publicKey

section Signing

variable {G : Type} [AddCommGroup G] [DecidableEq G] (secp256k1 : Secp256k1 G)

/-- The loop over the contributions, of which the first bad one is reported. -/
def checkContributions (commitments : List Bytes) : List Share → Except AppError Unit
  | [] => .ok ()
  | share :: contributions => do
      if !(← verifyShare secp256k1.toCurve share.x share.y commitments) then
        throw
          (badContribution "a contributed share failed its Feldman check"
            [("x", .text (toString share.x))])
      checkContributions commitments contributions

def signHash (signer : ThresholdSigner) (index : Int) (hash : Bytes) : Except AppError Bytes := do
  if hash.length ≠ 32 then throw (.plain "hash must be 32 bytes")
  let quorum := signer.nodes.take signer.threshold
  let contributions ← quorum.mapM fun node => node.contribute { index, hash }
  match signer.commitments with
  | some commitments => checkContributions secp256k1 commitments contributions
  | none => pure ()
  let d ← combine contributions
  let recoveredPub ← secp256k1.getPublicKey (scalarToBytes d)
  if recoveredPub ≠ signer.publicKey then
    throw (badContribution "reconstructed key does not match the group public key" [])
  let (compact, recovery) ← secp256k1.sign hash (scalarToBytes d)
  let out := compact ++ [recovery]
  if !secp256k1.verify (out.take 64) hash signer.publicKey then
    throw (badContribution "produced signature does not verify under the group key" [])
  return out

end Signing

end ThresholdSigner

/-- The options of `thresholdSignerFromShares`, of which any may be absent. -/
structure SharesSignerOptions where
  verifiers : List (SigningContext → Bool)
  commitments : Option (List Bytes)
  acknowledgeInterim : Option Bool
  production : Option Bool

def thresholdSignerFromShares (shares : List KeyShare) (publicKey : Bytes)
    (encodeAddress : Bytes → String) (options : SharesSignerOptions)
    : Except AppError ThresholdSigner :=
  let threshold := (shares.head?.map KeyShare.threshold).getD shares.length
  let nodes := shares.mapIdx fun i ks =>
    { keyShare := ks, verify := options.verifiers.getD i fun _ => true }
  ThresholdSigner.create nodes threshold publicKey encodeAddress
    { commitments := options.commitments
      acknowledgeInterim := some (options.acknowledgeInterim.getD true)
      production := options.production }

-----------------------------------------------------------------------------
-- Keys of scalars

theorem order_lt : ORDER < 256 ^ 32 := by
  unfold ORDER
  decide

theorem scalarToBytes_eq {x : Int} (positive : 0 < mod x)
    : scalarToBytes x = BigEndian.fixed 32 (mod x).toNat := by
  have small := mod_lt x order_pos
  have most := order_lt
  rw [scalarToBytes, Cixtech.Evm.leftpad_digits (by omega) (by omega),
    Cixtech.Tron.TxVerify.fromHex_hex]

theorem value_scalarToBytes {x : Int} (positive : 0 < mod x)
    : BigEndian.value (scalarToBytes x) = (mod x).toNat := by
  have small := mod_lt x order_pos
  have most := order_lt
  rw [scalarToBytes_eq positive, BigEndian.value_fixed (by omega)]

section Keys

variable {G : Type} [AddCommGroup G] (secp256k1 : Secp256k1 G)

/-- A scalar whose image can be encoded is not zero. -/
theorem mod_pos_of_image {secret : Int} {publicKey : Bytes}
    (image : secp256k1.toBytes (secret • secp256k1.base) = .ok publicKey)
    : 0 < mod secret := by
  refine lt_of_le_of_ne (mod_nonneg secret order_pos) fun zero => ?_
  have divides : (ORDER : Int) ∣ secret := by
    rw [← ZMod.intCast_zmod_eq_zero_iff_dvd, ← cast_mod, ← zero, Int.cast_zero]
  rw [(secp256k1.smul_base_eq_zero secret).mpr divides] at image
  exact secp256k1.toBytes_zero publicKey image

/-- The public key of a scalar whose image can be encoded is that encoding. -/
theorem getPublicKey_scalarToBytes {secret : Int} {publicKey : Bytes}
    (image : secp256k1.toBytes (secret • secp256k1.base) = .ok publicKey)
    : secp256k1.getPublicKey (scalarToBytes secret) = .ok publicKey := by
  have positive := mod_pos_of_image secp256k1 image
  have small := mod_lt secret order_pos
  have value := value_scalarToBytes positive
  have length : (scalarToBytes secret).length = 32 := by
    rw [scalarToBytes_eq positive, BigEndian.length_fixed]
  have least : 0 < BigEndian.value (scalarToBytes secret) := by omega
  have most : BigEndian.value (scalarToBytes secret) < ORDER := by omega
  have same : BigEndian.value (scalarToBytes secret) • secp256k1.base
      = secret • secp256k1.base := by
    rw [value, ← natCast_zsmul, secp256k1.smul_base_inj,
      Int.toNat_of_nonneg (mod_nonneg secret order_pos), cast_mod]
  rw [secp256k1.getPublicKey_of_scalar _ length least most, same, image]

end Keys

-----------------------------------------------------------------------------
-- A quorum that contributes

theorem mapM_contribute {nodes : List SignerNode} {ctx : SigningContext}
    (willing : ∀ node ∈ nodes, node.verify ctx = true)
    : nodes.mapM (fun node => node.contribute ctx)
      = .ok (nodes.map fun node => node.keyShare.share) := by
  induction nodes with
  | nil => rfl
  | cons node nodes ih =>
      have first : node.contribute ctx = .ok node.keyShare.share := by
        simp [SignerNode.contribute, willing node (by simp)]
      rw [List.mapM_cons, first, ih fun other member => willing other (by simp [member])]
      rfl

section Signing

variable {G : Type} [AddCommGroup G] [DecidableEq G] (secp256k1 : Secp256k1 G)

namespace ThresholdSigner

/-- The shares that a signer combines. -/
def contributions (signer : ThresholdSigner) : List Share :=
  (signer.nodes.take signer.threshold).map fun node => node.keyShare.share

/-- A signature of the group, under its public key. -/
def Signs (signer : ThresholdSigner) (index : Int) (hash : Bytes) : Prop :=
  ∃ signature, signer.signHash secp256k1 index hash = .ok signature
    ∧ signature.length = 65
    ∧ secp256k1.verify (signature.take 64) hash signer.publicKey = true

/-- What the check of the contributions throws, if there are commitments to check them against. -/
def checked (signer : ThresholdSigner) : Except AppError Unit :=
  match signer.commitments with
  | some commitments => checkContributions secp256k1 commitments signer.contributions
  | none => .ok ()

variable {signer : ThresholdSigner} {index : Int} {hash : Bytes}

omit [AddCommGroup G] [DecidableEq G] in
theorem quorum_contributes
    (willing : ∀ node ∈ signer.nodes, ∀ ctx, node.verify ctx = true) (ctx : SigningContext)
    : (signer.nodes.take signer.threshold).mapM (fun node => node.contribute ctx)
      = .ok signer.contributions :=
  mapM_contribute fun node member => willing node (List.mem_of_mem_take member) ctx

/-- A bad contribution stops the signature. -/
theorem signHash_of_bad {err : AppError}
    (willing : ∀ node ∈ signer.nodes, ∀ ctx, node.verify ctx = true) (sized : hash.length = 32)
    (bad : signer.checked secp256k1 = .error err)
    : signer.signHash secp256k1 index hash = .error err := by
  have contributed := quorum_contributes willing { index, hash }
  unfold checked at bad
  unfold signHash
  simp only [sized, ne_eq, not_true_eq_false, if_false, bind, Except.bind, contributed]
  cases published : signer.commitments with
  | none =>
      rw [published] at bad
      cases bad
  | some commitments =>
      rw [published] at bad
      dsimp only at bad ⊢
      rw [bad]

/-- Good contributions to the key of the group sign. -/
theorem signs_of_good {secret : Int}
    (willing : ∀ node ∈ signer.nodes, ∀ ctx, node.verify ctx = true) (sized : hash.length = 32)
    (good : signer.checked secp256k1 = .ok ())
    (combined : combine signer.contributions = .ok secret)
    (image : secp256k1.toBytes (secret • secp256k1.base) = .ok signer.publicKey)
    : signer.Signs secp256k1 index hash := by
  have contributed := quorum_contributes willing { index, hash }
  have key := getPublicKey_scalarToBytes secp256k1 image
  obtain ⟨compact, recovery, signed, long, verified⟩ :=
    secp256k1.sign_verifies hash (scalarToBytes secret) signer.publicKey sized key
  have front : (compact ++ [recovery]).take 64 = compact := by
    rw [← long, List.take_left]
  refine ⟨compact ++ [recovery], ?_, by simp [long], by rw [front, verified]⟩
  unfold checked at good
  unfold signHash
  simp only [sized, ne_eq, not_true_eq_false, if_false, bind, Except.bind, contributed]
  cases published : signer.commitments with
  | none =>
      simp [combined, key, signed, front, verified, pure, Except.pure]
  | some commitments =>
      rw [published] at good
      dsimp only at good ⊢
      rw [good]
      simp [combined, key, signed, front, verified, pure, Except.pure]

end ThresholdSigner

/-- Contributions pass where all are values of the committed polynomial, and are refused for the
first that is not, by induction on them.
-/
theorem checkContributions_eq {coeffs : List Int} {commitments : List Bytes}
    (decoded
      : commitments.mapM secp256k1.fromBytes
        = .ok (coeffs.map fun (c : Int) => c • secp256k1.base))
    (contributions : List Share)
    : (ThresholdSigner.checkContributions secp256k1 commitments contributions = .ok ()
        ∧ ∀ share ∈ contributions,
          (share.y : ZMod ORDER) = (polynomial coeffs).eval (share.x : ZMod ORDER))
      ∨ ((∃ err, ThresholdSigner.checkContributions secp256k1 commitments contributions = .error err
            ∧ err.code = .mpcBadContribution)
        ∧ ∃ share ∈ contributions,
          (share.y : ZMod ORDER) ≠ (polynomial coeffs).eval (share.x : ZMod ORDER)) := by
  induction contributions with
  | nil => exact .inl ⟨rfl, nofun⟩
  | cons share contributions ih =>
      have verdict := verifyShare_eq decoded share.x share.y
      rw [ThresholdSigner.checkContributions]
      by_cases value : (share.y : ZMod ORDER) = (polynomial coeffs).eval (share.x : ZMod ORDER)
      · rw [decide_eq_true value] at verdict
        simp only [verdict, bind, Except.bind, Bool.not_true, Bool.false_eq_true, if_false,
          List.forall_mem_cons, List.exists_mem_cons_iff]
        rcases ih with ⟨passed, values⟩ | ⟨refused, bad⟩
        · exact .inl ⟨passed, value, values⟩
        · exact .inr ⟨refused, .inr bad⟩
      · rw [decide_eq_false value] at verdict
        refine .inr ⟨⟨_, by simp only [verdict, bind, Except.bind]; rfl, rfl⟩, share, by simp, value⟩

end Signing

-----------------------------------------------------------------------------
-- A signer of shares

/-- Options that leave everything but the commitments out. -/
def plainOptions (commitments : Option (List Bytes)) : SharesSignerOptions :=
  { verifiers := [], commitments, acknowledgeInterim := none, production := none }

theorem eraseDups_of_equal {l : List Nat} {k : Nat} (equal : ∀ epoch ∈ l, epoch = k)
    : l.eraseDups.length ≤ 1 := by
  cases l with
  | nil => simp
  | cons epoch rest =>
      have others : rest.filter (fun other => !other == epoch) = [] := by
        rw [List.filter_eq_nil_iff]
        intro other member
        simp [equal other (by simp [member]), equal epoch (by simp)]
      rw [List.eraseDups_cons, others]
      simp

/-- Shares of one threshold and one epoch make a signer where there are enough of them. -/
theorem thresholdSignerFromShares_ok {shares : List KeyShare} {t k : Nat} (some_ : 1 ≤ t)
    (alike : ∀ ks ∈ shares, ks.threshold = t ∧ ks.epoch = k) (enough : t ≤ shares.length)
    (publicKey : Bytes) (encodeAddress : Bytes → String) (commitments : Option (List Bytes))
    : thresholdSignerFromShares shares publicKey encodeAddress (plainOptions commitments)
      = .ok
          { nodes := shares.map fun ks => { keyShare := ks, verify := fun _ => true }
            threshold := t, publicKey, encodeAddress, commitments } := by
  have nodes : (shares.mapIdx fun i ks =>
      ({ keyShare := ks, verify := ([] : List (SigningContext → Bool)).getD i fun _ => true }
        : SignerNode))
      = shares.map fun ks => { keyShare := ks, verify := fun _ => true } := by
    simp [List.mapIdx_eq_iff]
  have threshold : (shares.head?.map KeyShare.threshold).getD shares.length = t := by
    cases shares with
    | nil =>
        simp at enough
        omega
    | cons ks shares => exact (alike ks (by simp)).1
  have epochs := eraseDups_of_equal (l := (shares.map fun ks =>
      ({ keyShare := ks, verify := fun _ => true } : SignerNode)).map SignerNode.epoch) (k := k)
    (by simpa [SignerNode.epoch] using fun ks member => (alike ks member).2)
  unfold thresholdSignerFromShares plainOptions
  dsimp only
  rw [nodes, threshold]
  unfold ThresholdSigner.create
  simp only [List.length_map, Nat.not_lt.mpr enough, if_false, bind, Except.bind, reduceCtorEq,
    Option.getD_none, ne_eq, not_true_eq_false, Nat.not_lt.mpr epochs, pure, Except.pure]

end Cixtech.Mpc
