import Cixtech.Mpc.ShareEpochs

/-! What fewer shares than the threshold tell of the secret, over a split and the refreshes that
follow it, where an observer may see other shares in every epoch.
-/

namespace Cixtech.Mpc

open Cixtech.Common Cixtech.Foundation Cixtech.Foundation.Interpolation Polynomial

/-- What `randomScalar` returns: a scalar that is not zero. -/
def Drawn (t : Nat) (randomScalar : Nat → Int) : Prop :=
  ∀ k < t - 1, 1 ≤ randomScalar k ∧ randomScalar k < ORDER

/-- The shares at the places that are seen. -/
def seenShares (shares : List Share) (seen : List Nat) : List (Option Share) :=
  seen.map (shares[·]?)

/-- What is seen epoch by epoch, each with the coefficients that its refresh draws. -/
def views (t : Nat) (shares : List Share)
    : List ((Nat → Int) × List Nat) → List (List (Option Share))
  | [] => []
  | (randomScalar, seen) :: epochs =>
      let refreshed := refresh randomScalar shares t
      seenShares refreshed seen :: views t refreshed epochs

-----------------------------------------------------------------------------
-- Coefficients that are shifted

theorem coeff_drawn (constant : Int) (randomScalar : Nat → Int) {t : Nat} (some_ : 1 ≤ t) (k : Nat)
    : (polynomial (drawnCoeffs constant randomScalar t)).coeff k
      = if k = 0 then (constant : ZMod ORDER)
        else if k < t then (randomScalar (k - 1) : ZMod ORDER)
        else 0 := by
  rw [coeff_polynomial]
  cases k with
  | zero => simp [drawnCoeffs]
  | succ k =>
      by_cases small : k + 1 < t
      · simp [drawnCoeffs, List.getD_eq_getElem?_getD, List.getElem?_range (by omega : k < t - 1),
          small]
      · simp [drawnCoeffs, List.getD_eq_getElem?_getD, small, show ¬ k < t - 1 by omega]

/-- The scalar of an element of the field. -/
def scalar (a : ZMod ORDER) : Int := ((a.cast : Int))

theorem cast_scalar (a : ZMod ORDER) : (scalar a : ZMod ORDER) = a := by
  simp [scalar]

theorem scalar_range (a : ZMod ORDER) : 0 ≤ scalar a ∧ scalar a < ORDER := by
  rw [scalar, ← ZMod.natCast_val]
  exact ⟨Int.natCast_nonneg _, by exact_mod_cast ZMod.val_lt a⟩

/-- What is drawn, shifted along a polynomial. -/
def shifted (randomScalar : Nat → Int) (delta : ZMod ORDER) (along : (ZMod ORDER)[X]) (k : Nat)
    : Int :=
  scalar (randomScalar k + delta * along.coeff (k + 1))

theorem polynomial_shifted {constant shiftedConstant : Int} {delta : ZMod ORDER}
    {along : (ZMod ORDER)[X]} {t : Nat} (some_ : 1 ≤ t) (degree : along.degree < t)
    (constants
      : (shiftedConstant : ZMod ORDER) = constant + delta * along.coeff 0)
    (randomScalar : Nat → Int)
    : polynomial (drawnCoeffs shiftedConstant (shifted randomScalar delta along) t)
      = polynomial (drawnCoeffs constant randomScalar t) + C delta * along := by
  ext k
  rw [coeff_add, coeff_C_mul, coeff_drawn _ _ some_, coeff_drawn _ _ some_]
  cases k with
  | zero => simpa using constants
  | succ k =>
      by_cases small : k + 1 < t
      · simp [small, shifted, cast_scalar]
      · have none : along.coeff (k + 1) = 0 :=
          coeff_eq_zero_of_degree_lt (degree.trans_le (by exact_mod_cast Nat.not_lt.mp small))
        simp [small, none]

/-- The shifts by which some coefficient would vanish. -/
noncomputable def vanishing (t : Nat) (randomScalar : Nat → Int) (along : (ZMod ORDER)[X])
    : List (ZMod ORDER) :=
  (List.range (t - 1)).map fun k => -(randomScalar k : ZMod ORDER) / along.coeff (k + 1)

/-- Any other shift leaves coefficients that may be drawn. -/
theorem Drawn.shifted {t : Nat} {randomScalar : Nat → Int} (drawn : Drawn t randomScalar)
    {delta : ZMod ORDER} {along : (ZMod ORDER)[X]} (apart : delta ∉ vanishing t randomScalar along)
    : Drawn t (shifted randomScalar delta along) := by
  intro k small
  obtain ⟨positive, below⟩ := drawn k small
  obtain ⟨sign, range⟩ :=
    scalar_range (randomScalar k + delta * along.coeff (k + 1) : ZMod ORDER)
  refine ⟨lt_of_le_of_ne sign fun zero => ?_, range⟩
  have vanished : (randomScalar k : ZMod ORDER) + delta * along.coeff (k + 1) = 0 := by
    rw [← cast_scalar (_ + _), ← zero, Int.cast_zero]
  by_cases flat : along.coeff (k + 1) = 0
  · rw [flat, mul_zero, add_zero] at vanished
    have same : randomScalar k = 0 :=
      (cast_inj (by omega) below (Int.le_refl 0) (by exact_mod_cast order_pos)).mp
        (by simpa using vanished)
    omega
  · refine apart (List.mem_map.mpr ⟨k, List.mem_range.mpr small, ?_⟩)
    rw [div_eq_iff flat]
    exact neg_eq_of_add_eq_zero_right vanished

-----------------------------------------------------------------------------
-- Shares at their places

/-- The shares are the values of a polynomial at one, two and so on. -/
def OnPlaces (f : (ZMod ORDER)[X]) (n : Nat) (shares : List Share) : Prop :=
  shares.length = n
  ∧ ∀ i < n, ∃ y, shares[i]? = some { x := (i : Int) + 1, y } ∧ 0 ≤ y ∧ y < ORDER
    ∧ (y : ZMod ORDER) = f.eval ((i : ZMod ORDER) + 1)

theorem onPlaces_split {randomScalar : Nat → Int} {secret : Int} {t n : Nat}
    {shares : List Share} (dealt : split randomScalar secret t n = .ok shares)
    : OnPlaces (polynomial (drawnCoeffs (mod secret) randomScalar t)) n shares := by
  obtain ⟨-, -, -, rfl⟩ := (split_ok_iff randomScalar secret t n shares).mp dealt
  refine ⟨by simp, fun i small =>
    ⟨evalPoly (drawnCoeffs (mod secret) randomScalar t) ((i : Int) + 1),
      by simp [List.getElem?_range small], ?_⟩⟩
  refine ⟨mod_nonneg _ order_pos, mod_lt _ order_pos, ?_⟩
  rw [cast_evalPoly]
  simp

theorem OnPlaces.refresh {f : (ZMod ORDER)[X]} {n : Nat} {shares : List Share}
    (places : OnPlaces f n shares) (randomScalar : Nat → Int) (t : Nat)
    : OnPlaces (f + polynomial (drawnCoeffs 0 randomScalar t)) n
        (refresh randomScalar shares t) := by
  obtain ⟨length, values⟩ := places
  refine ⟨by simpa [Mpc.refresh] using length, fun i small => ?_⟩
  obtain ⟨y, found, -, -, value⟩ := values i small
  refine ⟨mod (y + evalPoly (drawnCoeffs 0 randomScalar t) ((i : Int) + 1)),
    by simp [Mpc.refresh, found], mod_nonneg _ order_pos, mod_lt _ order_pos, ?_⟩
  rw [cast_mod, Int.cast_add, value, cast_evalPoly, eval_add]
  simp

/-- The points of the places that are seen. -/
def nodes (seen : List Nat) : List (ZMod ORDER) := seen.map fun (i : Nat) => (i : ZMod ORDER) + 1

theorem node_ne_zero {i n : Nat} (small : i < n) (short : n < 2 ^ 32)
    : (i : ZMod ORDER) + 1 ≠ 0 := by
  intro zero
  have below : ((i + 1 : Nat) : Int) < ORDER := by
    have := lt_order short
    omega
  have same : ((i + 1 : Nat) : Int) = 0 :=
    (cast_inj (Int.natCast_nonneg _) below (Int.le_refl 0) (by exact_mod_cast order_pos)).mp
      (by simpa using zero)
  omega

/-- What is seen does not tell a polynomial from one that is shifted along the places' mask. -/
theorem seen_eq {f : (ZMod ORDER)[X]} {delta : ZMod ORDER} {n : Nat} {shares others : List Share}
    {seen : List Nat} (short : n < 2 ^ 32) (places : OnPlaces f n shares)
    (shifted : OnPlaces (f + C delta * mask (nodes seen)) n others)
    : seenShares others seen = seenShares shares seen := by
  refine List.map_congr_left fun i member => ?_
  by_cases small : i < n
  · obtain ⟨y, found, sign, below, value⟩ := places.2 i small
    obtain ⟨z, foundToo, signToo, belowToo, valueToo⟩ := shifted.2 i small
    have vanishes : (mask (nodes seen)).eval ((i : ZMod ORDER) + 1) = 0 :=
      eval_mask (List.mem_map_of_mem member) (node_ne_zero small short)
    rw [eval_add, eval_mul, vanishes, mul_zero, add_zero, ← value] at valueToo
    rw [found, foundToo, (cast_inj signToo belowToo sign below).mp valueToo]
  · have beyond := Nat.not_lt.mp small
    rw [List.getElem?_eq_none (shifted.1.trans_le beyond),
      List.getElem?_eq_none (places.1.trans_le beyond)]

-----------------------------------------------------------------------------
-- Epoch by epoch

/-- The shifts that are excluded in the epochs behind one of which other places were seen. -/
noncomputable def epochVanishing (t : Nat)
    : List Nat → List ((Nat → Int) × List Nat) → List (ZMod ORDER)
  | _, [] => []
  | before, (randomScalar, seen) :: epochs =>
      vanishing t randomScalar (mask (nodes seen) - mask (nodes before))
        ++ epochVanishing t seen epochs

theorem length_epochVanishing (t : Nat) (before : List Nat)
    (epochs : List ((Nat → Int) × List Nat))
    : (epochVanishing t before epochs).length = (t - 1) * epochs.length := by
  induction epochs generalizing before with
  | nil => rfl
  | cons epoch epochs ih =>
      rw [epochVanishing, List.length_append, ih, vanishing, List.length_map, List.length_range,
        List.length_cons, Nat.mul_succ, Nat.add_comm]

theorem degree_mask_nodes {t : Nat} {seen : List Nat} (few : seen.length < t)
    : (mask (nodes seen)).degree < t := by
  refine (degree_mask (nodes seen)).trans_lt ?_
  rw [nodes, List.length_map]
  exact_mod_cast few

theorem coeff_zero_mask (seen : List Nat) : (mask (nodes seen)).coeff 0 = 1 := by
  rw [coeff_zero_eq_eval_zero, eval_zero_mask]

/-- Shares that are shifted along the mask of what was seen last are refreshed, by other draws, to
shares along the mask of what is seen next. By induction on the epochs.
-/
theorem views_eq {t n : Nat} (some_ : 1 ≤ t) (short : n < 2 ^ 32) {before : List Nat}
    (fewBefore : before.length < t) {epochs : List ((Nat → Int) × List Nat)}
    (drawn : ∀ epoch ∈ epochs, Drawn t epoch.1) (few : ∀ epoch ∈ epochs, epoch.2.length < t)
    {delta : ZMod ORDER} (apart : delta ∉ epochVanishing t before epochs)
    {f : (ZMod ORDER)[X]} {shares others : List Share} (places : OnPlaces f n shares)
    (shifts : OnPlaces (f + C delta * mask (nodes before)) n others)
    : ∃ rounds : List (Nat → Int), rounds.length = epochs.length
      ∧ (∀ round ∈ rounds, Drawn t round)
      ∧ views t others (rounds.zip (epochs.map Prod.snd)) = views t shares epochs := by
  induction epochs generalizing before f shares others with
  | nil => exact ⟨[], rfl, fun round member => absurd member List.not_mem_nil, rfl⟩
  | cons epoch epochs ih =>
      obtain ⟨randomScalar, seen⟩ := epoch
      have fewNow : seen.length < t := few _ List.mem_cons_self
      rw [epochVanishing, List.mem_append, not_or] at apart
      have degree : (mask (nodes seen) - mask (nodes before)).degree < t :=
        (degree_sub_le _ _).trans_lt
          (max_lt (degree_mask_nodes fewNow) (degree_mask_nodes fewBefore))
      have constants
          : ((0 : Int) : ZMod ORDER)
            = (0 : Int) + delta * (mask (nodes seen) - mask (nodes before)).coeff 0 := by
        rw [coeff_sub, coeff_zero_mask, coeff_zero_mask]
        simp
      have added := polynomial_shifted some_ degree constants randomScalar
      have next := places.refresh randomScalar t
      have nextToo :=
        shifts.refresh (shifted randomScalar delta (mask (nodes seen) - mask (nodes before))) t
      have sum
          : f + C delta * mask (nodes before)
              + polynomial
                (drawnCoeffs 0
                  (shifted randomScalar delta (mask (nodes seen) - mask (nodes before))) t)
            = f + polynomial (drawnCoeffs 0 randomScalar t) + C delta * mask (nodes seen) := by
        rw [added]
        ring
      rw [sum] at nextToo
      obtain ⟨rounds, length, rangesLater, same⟩ :=
        ih fewNow (fun other member => drawn other (List.mem_cons_of_mem _ member))
          (fun other member => few other (List.mem_cons_of_mem _ member)) apart.2 next nextToo
      refine
        ⟨shifted randomScalar delta (mask (nodes seen) - mask (nodes before)) :: rounds,
          congrArg Nat.succ length, ?_, ?_⟩
      · intro round member
        rcases List.mem_cons.mp member with rfl | later
        · exact (drawn _ List.mem_cons_self).shifted apart.1
        · exact rangesLater round later
      · simp only [List.map_cons, List.zip_cons_cons, views, seen_eq short next nextToo, same]

/-- Fewer shares than the threshold, in each of any number of epochs and other ones in each, tell
next to nothing of the secret: whatever was drawn, there are at most as many secrets as coefficients
were drawn in all that could not have led to the same shares. For any other secret below the order,
other draws lead to it. The exceptions come from a scalar of zero never being drawn. By induction on
the epochs: the polynomials differ along the mask of what is seen.
-/
theorem shares_hide_secret (randomScalar : Nat → Int) (secret : Int) (t n : Nat)
    (shares : List Share) (seen : List Nat) (epochs : List ((Nat → Int) × List Nat))
    (dealt : split randomScalar secret t n = .ok shares) (drawn : Drawn t randomScalar)
    (few : seen.length < t) (drawnLater : ∀ epoch ∈ epochs, Drawn t epoch.1)
    (fewLater : ∀ epoch ∈ epochs, epoch.2.length < t)
    : ∃ excluded : List Int, excluded.length ≤ (t - 1) * (epochs.length + 1)
      ∧ ∀ other : Int, 0 ≤ other → other < ORDER → other ∉ excluded
        → ∃ (otherScalar : Nat → Int) (otherShares : List Share) (rounds : List (Nat → Int)),
          Drawn t otherScalar
          ∧ split otherScalar other t n = .ok otherShares
          ∧ seenShares otherShares seen = seenShares shares seen
          ∧ rounds.length = epochs.length ∧ (∀ round ∈ rounds, Drawn t round)
          ∧ views t otherShares (rounds.zip (epochs.map Prod.snd)) = views t shares epochs := by
  obtain ⟨some_, most, short, -⟩ := (split_ok_iff randomScalar secret t n shares).mp dealt
  let deltas := vanishing t randomScalar (mask (nodes seen)) ++ epochVanishing t seen epochs
  refine ⟨deltas.map fun delta => scalar (secret + delta), ?_, fun other sign below apart => ?_⟩
  · rw [List.length_map, List.length_append, length_epochVanishing, vanishing, List.length_map,
      List.length_range, Nat.mul_succ, Nat.add_comm]
  · have unshifted : (other - secret : ZMod ORDER) ∉ deltas := by
      intro member
      refine apart (List.mem_map.mpr ⟨_, member, ?_⟩)
      obtain ⟨signToo, belowToo⟩ := scalar_range ((secret : ZMod ORDER) + (other - secret))
      refine (cast_inj signToo belowToo sign below).mp ?_
      rw [cast_scalar]
      ring
    rw [List.mem_append, not_or] at unshifted
    have constants
        : ((mod other : Int) : ZMod ORDER)
          = (mod secret : Int)
            + (other - secret : ZMod ORDER) * (mask (nodes seen)).coeff 0 := by
      rw [cast_mod, cast_mod, coeff_zero_mask]
      ring
    have added := polynomial_shifted some_ (degree_mask_nodes few) constants randomScalar
    have dealtToo :=
      (split_ok_iff (shifted randomScalar (other - secret : ZMod ORDER) (mask (nodes seen))) other
        t n _).mpr ⟨some_, most, short, rfl⟩
    have places := onPlaces_split dealt
    have placesToo := onPlaces_split dealtToo
    rw [added] at placesToo
    obtain ⟨rounds, length, ranges, same⟩ :=
      views_eq some_ short few drawnLater fewLater unshifted.2 places placesToo
    exact
      ⟨_, _, rounds, drawn.shifted unshifted.1, dealtToo, seen_eq short places placesToo, length,
        ranges, same⟩

/-- One share of three is seen before a refresh and another one after it, where two are needed. -/
theorem shares_hide_secret_two_epochs
    : ∃ shares : List Share, split (fun _ => 3) 5 2 3 = .ok shares
      ∧ ∃ excluded : List Int, excluded.length ≤ 2
        ∧ ∀ other : Int, 0 ≤ other → other < ORDER → other ∉ excluded
          → ∃ (otherScalar : Nat → Int) (otherShares : List Share) (rounds : List (Nat → Int)),
            Drawn 2 otherScalar
            ∧ split otherScalar other 2 3 = .ok otherShares
            ∧ seenShares otherShares [0] = seenShares shares [0]
            ∧ rounds.length = 1 ∧ (∀ round ∈ rounds, Drawn 2 round)
            ∧ views 2 otherShares (rounds.zip [[1]]) = views 2 shares [((fun _ => 7), [1])] := by
  have dealt :=
    (split_ok_iff (fun _ => 3) 5 2 3 _).mpr ⟨by decide, by decide, by decide, rfl⟩
  refine ⟨_, dealt, ?_⟩
  have large : (8 : Int) < ORDER := by exact_mod_cast @lt_order 8 (by decide)
  have drawn (c : Int) (positive : 1 ≤ c) (small : c < 8) : Drawn 2 (fun _ => c) :=
    fun _ _ => ⟨positive, small.trans large⟩
  exact shares_hide_secret (fun _ => 3) 5 2 3 _ [0] [((fun _ => 7), [1])] dealt
    (drawn 3 (by decide) (by decide)) (by decide)
    (by simpa using drawn 7 (by decide) (by decide)) (by simp)

end Cixtech.Mpc
