import HouseStyle.Proofs.Number.Packing

/-!
# How binary numbers are rounded

A result with more bits than a mantissa has is shifted to the exponent that it should have; of the
bits that are cut off two are kept, which decide whether the mantissa is rounded up.  The mantissa
and these two bits are one number (`weight`), and both the shift and the decision are monotone in
it.  What comes out (`roundWithAccuracy_eq`) is a mantissa of at most 53 bits, or the next power of
two, which `settle` writes with its exponent.
-/

namespace HouseStyle.Binary64

open Float.Model Float.Model.UnpackedFloat

/-! ### Cutting bits off -/

/-- A mantissa with the two bits that stand for what has been cut off, as one number. -/
def weight (x : ExtendedMantissa) : ℕ :=
  4 * x.mantissa + 2 * x.roundBit.toNat + x.stickyBit.toNat

lemma weight_shiftRightOne (x : ExtendedMantissa) :
    weight x.shiftRightOne = 2 * x.mantissa + (x.roundBit || x.stickyBit).toNat := by
  have hbit : (x.mantissa % 2 != 0).toNat = x.mantissa % 2 := by
    rcases Nat.mod_two_eq_zero_or_one x.mantissa with h | h <;> rw [h] <;> rfl
  simp only [weight, ExtendedMantissa.shiftRightOne, hbit]
  omega

lemma weight_shiftRightOne_mono {x y : ExtendedMantissa} (h : weight x ≤ weight y) :
    weight x.shiftRightOne ≤ weight y.shiftRightOne := by
  rw [weight_shiftRightOne, weight_shiftRightOne]
  obtain ⟨m, r, s⟩ := x
  obtain ⟨n, t, u⟩ := y
  simp only [weight] at h
  cases r <;> cases s <;> cases t <;> cases u <;>
    simp only [Bool.toNat_true, Bool.toNat_false, Bool.or_true, Bool.or_false] at h ⊢ <;> omega

lemma shiftRight_succ (x : ExtendedMantissa) (k : ℕ) : x >>> (k + 1) = (x >>> k).shiftRightOne :=
  rfl

/-- Shifting keeps the order. -/
lemma weight_shiftRight_mono {x y : ExtendedMantissa} (h : weight x ≤ weight y) (k : ℕ) :
    weight (x >>> k) ≤ weight (y >>> k) := by
  induction k with
  | zero => exact h
  | succ k ih => exact weight_shiftRightOne_mono ih

/-- Rounding keeps the order. -/
lemma roundedMantissa_mono {x y : ExtendedMantissa} (h : weight x ≤ weight y) :
    x.roundedMantissa ≤ y.roundedMantissa := by
  obtain ⟨m, r, s⟩ := x
  obtain ⟨n, t, u⟩ := y
  simp only [weight] at h
  cases r <;> cases s <;> cases t <;> cases u <;>
    simp only [ExtendedMantissa.roundedMantissa, ExtendedMantissa.accuracy,
      Accuracy.roundToNearestEven, Bool.toNat_true, Bool.toNat_false] at h ⊢ <;> omega

/-- Rounding goes up by at most 1. -/
lemma roundedMantissa_bounds (x : ExtendedMantissa) :
    x.mantissa ≤ x.roundedMantissa ∧ x.roundedMantissa ≤ x.mantissa + 1 := by
  obtain ⟨m, r, s⟩ := x
  cases r <;> cases s <;>
    simp only [ExtendedMantissa.roundedMantissa, ExtendedMantissa.accuracy,
      Accuracy.roundToNearestEven] <;> omega

lemma mantissa_shiftRight (x : ExtendedMantissa) (k : ℕ) :
    (x >>> k).mantissa = x.mantissa / 2 ^ k := by
  induction k with
  | zero => exact (Nat.div_one _).symm
  | succ k ih =>
    rw [shiftRight_succ, ExtendedMantissa.shiftRightOne, ih, Nat.div_div_eq_div_mul, Nat.pow_succ]

lemma mantissa_ofMantissaAndAccuracy (m : ℕ) (a : Accuracy) :
    (ExtendedMantissa.ofMantissaAndAccuracy m a).mantissa = m := by
  rcases a with _ | _ | _ | _ <;> rfl

/-- Zeros are shifted out without a trace. -/
lemma shiftRight_exact (m k : ℕ) :
    ExtendedMantissa.ofMantissaAndAccuracy (m * 2 ^ k) .exact >>> k
      = ExtendedMantissa.ofMantissaAndAccuracy m .exact := by
  induction k generalizing m with
  | zero => rw [Nat.pow_zero, Nat.mul_one]; rfl
  | succ k ih =>
    rw [shiftRight_succ, Nat.pow_succ, Nat.mul_comm (2 ^ k), ← Nat.mul_assoc, ih]
    simp only [ExtendedMantissa.ofMantissaAndAccuracy, ExtendedMantissa.shiftRightOne,
      ExtendedMantissa.mk.injEq]
    exact ⟨by omega, by rw [Nat.mul_mod_left]; rfl, rfl⟩

lemma log2_shiftLeft {m : ℕ} (hm : 0 < m) (k : ℕ) : (m <<< k).log2 = m.log2 + k := by
  induction k with
  | zero => rfl
  | succ k ih =>
    have hne : m <<< k ≠ 0 := (Nat.shiftLeft_pos_iff.2 hm).ne'
    rw [Nat.shiftLeft_succ, Nat.log2_two_mul hne, ih, Nat.add_assoc]

/-! ### What a number is rounded to -/

/-- The exponent to which a number is rounded. -/
def target (m : ℕ) (e : ℤ) : ℤ := max (m.log2 + e - 52) (-1074)

lemma targetExponent_eq (m : ℕ) (e : ℤ) :
    Format.binary64.targetExponent (totalExponent m e) = target m e := by
  change max ((m.log2 : ℤ) + 1 + e - 53) (-1074) = _
  rw [target]
  omega

lemma target_shiftLeft {m : ℕ} {e : ℤ} (hm : 0 < m) (k : ℕ) :
    target (m <<< k) (e - k) = target m e := by
  rw [target, log2_shiftLeft hm, target]
  omega

/-- The mantissa that a number has when it is rounded to an exponent. -/
def mantissaAt (m : ℕ) (e : ℤ) (a : Accuracy) (f : ℤ) : ℕ :=
  (ExtendedMantissa.ofMantissaAndAccuracy m a >>> (f - e).toNat).roundedMantissa

lemma mantissaAt_mul_two_pow (m k : ℕ) (e : ℤ) : mantissaAt (m * 2 ^ k) (e - k) .exact e = m := by
  have hk : (e - (e - k)).toNat = k := by omega
  rw [mantissaAt, hk, shiftRight_exact]
  rfl

/-- A rounded mantissa and its exponent; a mantissa of one bit too many is halved. -/
def settle (sign : Sign) (r : ℕ) (f : ℤ) : UnpackedFloat :=
  if h : r = 0 then .zero sign
  else if r < 2 ^ 53 then .finite sign r f (Nat.pos_of_ne_zero h)
  else .finite sign (2 ^ 52) (f + 1) (by decide)

lemma settle_of_lt {sign : Sign} {r : ℕ} {f : ℤ} (hr : 0 < r) (h : r < 2 ^ 53) :
    settle sign r f = .finite sign r f hr := by
  rw [settle, dif_neg hr.ne', if_pos h]

/-- A rounded mantissa has at most one bit too many. -/
lemma mantissaAt_le {m : ℕ} {e : ℤ} {a : Accuracy} (he : e ≤ target m e) :
    mantissaAt m e a (target m e) ≤ 2 ^ 53 := by
  have hlog : m < 2 ^ (m.log2 + 1) := Nat.lt_log2_self
  have hpow : 2 ^ (m.log2 + 1) ≤ 2 ^ 53 * 2 ^ (target m e - e).toNat := by
    rw [← Nat.pow_add]
    refine Nat.pow_le_pow_right (by decide) ?_
    rw [target] at he ⊢
    omega
  have hdiv : m / 2 ^ (target m e - e).toNat < 2 ^ 53 :=
    (Nat.div_lt_iff_lt_mul (Nat.two_pow_pos _)).2 (by omega)
  have hround := (roundedMantissa_bounds
    (ExtendedMantissa.ofMantissaAndAccuracy m a >>> (target m e - e).toNat)).2
  rw [mantissa_shiftRight, mantissa_ofMantissaAndAccuracy] at hround
  rw [mantissaAt]
  omega

/-- A rounded mantissa is full, except at the least exponent. -/
lemma le_mantissaAt {m : ℕ} {e : ℤ} {a : Accuracy} (hm : 0 < m) (he : e ≤ target m e) :
    2 ^ 52 ≤ mantissaAt m e a (target m e) ∨ target m e = -1074 := by
  rw [or_iff_not_imp_right]
  intro hleast
  have hlog : 2 ^ m.log2 ≤ m := Nat.log2_self_le hm.ne'
  have hpow : 2 ^ 52 * 2 ^ (target m e - e).toNat = 2 ^ m.log2 := by
    rw [← Nat.pow_add]
    congr 1
    rw [target] at he hleast ⊢
    omega
  have hdiv : 2 ^ 52 ≤ m / 2 ^ (target m e - e).toNat :=
    (Nat.le_div_iff_mul_le (Nat.two_pow_pos _)).2 (by omega)
  have hround := (roundedMantissa_bounds
    (ExtendedMantissa.ofMantissaAndAccuracy m a >>> (target m e - e).toNat)).1
  rw [mantissa_shiftRight, mantissa_ofMantissaAndAccuracy] at hround
  exact hdiv.trans hround

lemma shiftToTargetExponent_eq {m : ℕ} {e : ℤ} {a : Accuracy} (he : e ≤ target m e) :
    shiftToTargetExponent Format.binary64 m e a
      = (ExtendedMantissa.ofMantissaAndAccuracy m a >>> (target m e - e).toNat, target m e) := by
  rw [shiftToTargetExponent, targetExponent_eq, shiftToExponent]
  simp only [Prod.mk.injEq, true_and]
  omega

/-- A rounded mantissa is shifted once more where it has one bit too many. -/
lemma settle_eq (sign : Sign) {r : ℕ} {f : ℤ} (hr : r ≤ 2 ^ 53) (hf : -1074 ≤ f) :
    (if h : (shiftToTargetExponent Format.binary64 r f .exact).1.mantissa = 0 then .zero sign
      else .finite sign (shiftToTargetExponent Format.binary64 r f .exact).1.mantissa
        (shiftToTargetExponent Format.binary64 r f .exact).2 (Nat.pos_of_ne_zero h))
      = settle sign r f := by
  by_cases hlt : r < 2 ^ 53
  · have hlog : r.log2 ≤ 52 := by
      rcases Nat.eq_zero_or_pos r with rfl | hpos
      · decide
      · exact Nat.lt_succ_iff.1 ((Nat.log2_lt hpos.ne').2 hlt)
    have hnone : (target r f - f).toNat = 0 := by
      rw [target]
      omega
    have hshift : shiftToTargetExponent Format.binary64 r f .exact = (⟨r, false, false⟩, f) := by
      rw [shiftToTargetExponent, targetExponent_eq, shiftToExponent, hnone, Int.natCast_zero,
        Int.add_zero]
      rfl
    simp only [hshift, settle, if_pos hlt]
  · obtain rfl : r = 2 ^ 53 := by omega
    have hone : (target (2 ^ 53) f - f).toNat = 1 := by
      rw [target, Nat.log2_two_pow]
      omega
    have hshift : shiftToTargetExponent Format.binary64 (2 ^ 53) f .exact
        = (⟨2 ^ 52, false, false⟩, f + 1) := by
      rw [shiftToTargetExponent, targetExponent_eq, shiftToExponent, hone]
      rfl
    simp only [hshift]
    rfl

/-- Where the mantissa has bits enough, a number is rounded to the exponent that it should have. -/
lemma roundWithAccuracy_eq {sign : Sign} {m : ℕ} {e : ℤ} {a : Accuracy} (he : e ≤ target m e) :
    roundWithAccuracy Format.binary64 sign m e a
      = settle sign (mantissaAt m e a (target m e)) (target m e) := by
  rw [roundWithAccuracy, shiftToTargetExponent_eq he]
  exact settle_eq sign (mantissaAt_le he) (le_max_right _ _)

/-- A number with too great an exponent first gets the zeros that its mantissa lacks. -/
lemma exists_round_eq (sign : Sign) (m : ℕ) (e : ℤ) : ∃ k : ℕ,
    e - k ≤ target m e ∧ (target m e ≤ e → e - k = target m e) ∧
      UnpackedFloat.round Format.binary64 sign m e
        = roundWithAccuracy Format.binary64 sign (m <<< k) (e - k) .exact := by
  refine ⟨(e - target m e).toNat, by omega, by omega, ?_⟩
  rw [UnpackedFloat.round, targetExponent_eq, decreaseExponent]

/-! ### The order of what is rounded -/

lemma rank_finite_le_iff {m n : ℕ} {e f : ℤ} (hm : 0 < m) (hn : 0 < n) :
    rank (.finite .positive m e hm) ≤ rank (.finite .positive n f hn)
      ↔ e < f ∨ e = f ∧ m ≤ n := by
  simp only [rank, Prod.Lex.toLex_le_toLex, Int.lt_irrefl, false_or, true_and, Int.ofNat_le]

/-- A full mantissa at a greater exponent stands above any at a smaller one. -/
lemma rank_settle_le {r s : ℕ} {e f : ℤ}
    (h : (e < f ∧ r ≤ 2 ^ 53 ∧ 2 ^ 52 ≤ s) ∨ (e = f ∧ r ≤ s)) :
    rank (settle .positive r e) ≤ rank (settle .positive s f) := by
  rw [settle, settle]
  split_ifs
  all_goals
    first
    | exact le_refl _
    | exact rank_zero_le _
    | (rw [rank_finite_le_iff]; omega)
    | omega

/-- What is rounded is packed without loss if its exponent is not too great. -/
lemma unpack_pack_settle (sign : Sign) {r : ℕ} {f : ℤ} (hfull : 2 ^ 52 ≤ r ∨ f = -1074)
    (hleast : -1074 ≤ f) (hgreatest : f ≤ 970) :
    (Float.Model.pack (settle sign r f)).unpack = settle sign r f := by
  rw [settle]
  split_ifs with hnone hlt
  · cases sign <;> rfl
  · exact unpack_pack sign ⟨Nat.pos_of_ne_zero hnone, hlt, hleast, by omega, hfull⟩
  · exact unpack_pack sign ⟨by decide, by decide, by omega, by omega, Or.inl (le_refl _)⟩

/-- The number 1. -/
def one : UnpackedFloat := .finite .positive (2 ^ 52) (-52) (by decide)

/-- A number below 1 is rounded to one that is at most 1. -/
lemma rank_roundWithAccuracy_le {m : ℕ} {e : ℤ} {a : Accuracy} (hm : 0 < m) (he : e ≤ target m e)
    (h : m.log2 + e < 0) :
    rank (Float.Model.pack (roundWithAccuracy Format.binary64 .positive m e a)).unpack
      ≤ rank one := by
  have hleast : -1074 ≤ target m e := le_max_right _ _
  have hless : target m e < -52 := by
    rw [target]
    omega
  rw [roundWithAccuracy_eq he, unpack_pack_settle _ (le_mantissaAt hm he) hleast (by omega)]
  exact rank_settle_le (Or.inl ⟨hless, mantissaAt_le he, le_refl _⟩)

lemma rank_round_le {m : ℕ} {e : ℤ} (hm : 0 < m) (h : m.log2 + e < 0) :
    rank (Float.Model.pack (UnpackedFloat.round Format.binary64 .positive m e)).unpack
      ≤ rank one := by
  obtain ⟨k, hle, -, hround⟩ := exists_round_eq .positive m e
  rw [hround]
  refine rank_roundWithAccuracy_le (Nat.shiftLeft_pos_iff.2 hm) ?_ ?_
  · rwa [target_shiftLeft hm]
  · rw [log2_shiftLeft hm]
    omega

/-! ### Signs -/

lemma signed_roundWithAccuracy (sign : Sign) (m : ℕ) (e : ℤ) (a : Accuracy) :
    Signed sign (roundWithAccuracy Format.binary64 sign m e a) := by
  rw [roundWithAccuracy]
  dsimp only
  split_ifs <;> rfl

/-- A difference is rounded with its sign. -/
lemma normalize_cases (n : ℤ) (e : ℤ) :
    Signed .negative (UnpackedFloat.normalize Format.binary64 n e .positive) ∨
      UnpackedFloat.normalize Format.binary64 n e .positive = .zero .positive ∨
      0 < n.toNat ∧ UnpackedFloat.normalize Format.binary64 n e .positive
        = UnpackedFloat.round Format.binary64 .positive n.toNat e := by
  rw [UnpackedFloat.normalize]
  rcases lt_trichotomy n 0 with h | rfl | h
  · rw [compare_lt_iff_lt.2 h]
    exact Or.inl (signed_roundWithAccuracy _ _ _ _)
  · exact Or.inr (Or.inl rfl)
  · rw [compare_gt_iff_gt.2 h]
    exact Or.inr (Or.inr ⟨Int.pos_iff_toNat_pos.1 h, rfl⟩)

lemma exists_signed_normalize (n e : ℤ) :
    ∃ sign, Signed sign (UnpackedFloat.normalize Format.binary64 n e .positive) := by
  rcases normalize_cases n e with h | h | ⟨-, h⟩
  · exact ⟨_, h⟩
  · exact ⟨.positive, by rw [h]; rfl⟩
  · exact ⟨.positive, by rw [h]; exact signed_roundWithAccuracy _ _ _ _⟩

end HouseStyle.Binary64
