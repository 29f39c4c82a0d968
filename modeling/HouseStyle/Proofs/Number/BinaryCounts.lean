import HouseStyle.Number.Scalar
import HouseStyle.Proofs.Number.Rounding

/-!
# Counts as binary numbers

A count of at most 53 bits is a binary number itself; a greater one is rounded.  Both come about in
different ways, but as if the count were rounded once (`unpack_ofCount`).  So counts are ordered as
numbers as they are (`rank_count_mono`), a positive one has a full mantissa, and the quotient of two
full mantissas is finite, and at most 1 if the first is not greater (`rank_div_le`).
-/

namespace HouseStyle.Binary64

open Float.Model Float.Model.UnpackedFloat

/-- The mantissa of a count. -/
def countMantissa (n : ℕ) : ℕ := mantissaAt (n <<< 53) (-53) .exact (n.log2 - 52)

lemma target_count {n : ℕ} (hn : 0 < n) : target (n <<< 53) (-53) = n.log2 - 52 := by
  rw [target, log2_shiftLeft hn]
  omega

lemma countMantissa_bounds {n : ℕ} (hn : 0 < n) :
    2 ^ 52 ≤ countMantissa n ∧ countMantissa n ≤ 2 ^ 53 := by
  have htarget := target_count hn
  have hle := mantissaAt_le (m := n <<< 53) (e := -53) (a := .exact) (by omega)
  have hfull := le_mantissaAt (m := n <<< 53) (e := -53) (a := .exact)
    (Nat.shiftLeft_pos_iff.2 hn) (by omega)
  rw [htarget] at hle hfull
  exact ⟨hfull.resolve_right (by omega), hle⟩

/-- A count of at most 53 bits has its own digits for a mantissa. -/
lemma countMantissa_of_log2_le {n : ℕ} (hn : n.log2 ≤ 52) :
    countMantissa n = n <<< (52 - n.log2) := by
  have hmul : n <<< 53 = n <<< (52 - n.log2) * 2 ^ (n.log2 + 1) := by
    rw [Nat.shiftLeft_eq, Nat.shiftLeft_eq, Nat.mul_assoc, ← Nat.pow_add]
    congr 2
    omega
  have hexponent : (-53 : ℤ) = (n.log2 - 52 : ℤ) - (n.log2 + 1 : ℕ) := by omega
  rw [countMantissa, hmul, hexponent, mantissaAt_mul_two_pow]

lemma countMantissa_mono {m n : ℕ} (h : m ≤ n) (hlog : m.log2 = n.log2) :
    countMantissa m ≤ countMantissa n := by
  rw [countMantissa, countMantissa, hlog]
  refine roundedMantissa_mono (weight_shiftRight_mono ?_ _)
  have hshift : m <<< 53 ≤ n <<< 53 := by
    rw [Nat.shiftLeft_eq, Nat.shiftLeft_eq]
    omega
  change 4 * (m <<< 53) + 0 + 0 ≤ 4 * (n <<< 53) + 0 + 0
  omega

/-- Counts are ordered as numbers as they are. -/
lemma rank_count_mono {m n : ℕ} (hm : 0 < m) (h : m ≤ n) :
    rank (settle .positive (countMantissa m) (m.log2 - 52))
      ≤ rank (settle .positive (countMantissa n) (n.log2 - 52)) := by
  have hn : 0 < n := by omega
  have hlog : m.log2 ≤ n.log2 := (Nat.le_log2 hn.ne').2 ((Nat.log2_self_le hm.ne').trans h)
  rcases hlog.lt_or_eq with hlt | heq
  · exact rank_settle_le (Or.inl ⟨by omega, (countMantissa_bounds hm).2,
      (countMantissa_bounds hn).1⟩)
  · exact rank_settle_le (Or.inr ⟨by rw [heq], countMantissa_mono h heq⟩)

/-! ### Where counts come from -/

section OfCount

variable {n : ℕ}

lemma unpack_pack_count (hpos : 0 < n) (hn : n.log2 ≤ 1000) :
    (Float.Model.pack (settle .positive (countMantissa n) (n.log2 - 52))).unpack
      = settle .positive (countMantissa n) (n.log2 - 52) :=
  unpack_pack_settle _ (Or.inl (countMantissa_bounds hpos).1) (by omega) (by omega)

/-- A count of at most 53 bits is first taken as it is. -/
lemma unpack_toFloat (hpos : 0 < n) (hn : n < 2 ^ 53) :
    n.toUInt64.toFloat.toModel.unpack = settle .positive (countMantissa n) (n.log2 - 52) := by
  have hlog : n.log2 < 53 := (Nat.log2_lt hpos.ne').2 hn
  have htarget : target n 0 = n.log2 - 52 := by
    rw [target]
    omega
  have hround : UnpackedFloat.round Format.binary64 .positive n 0
      = settle .positive (countMantissa n) (n.log2 - 52) := by
    obtain ⟨k, -, heq, h⟩ := exists_round_eq .positive n 0
    have hk : k = 52 - n.log2 := by omega
    have htarget' := target_shiftLeft (e := 0) hpos k
    have hexponent : (0 : ℤ) - k = (n.log2 - 52 : ℤ) - (0 : ℕ) := by omega
    have hself := mantissaAt_mul_two_pow (n <<< k) 0 (n.log2 - 52)
    rw [Nat.pow_zero, Nat.mul_one] at hself
    rw [h, roundWithAccuracy_eq (by omega), htarget', htarget, hexponent, hself,
      countMantissa_of_log2_le (by omega), hk]
  have hnat : n.toUInt64.toNat = n := Nat.mod_eq_of_lt (by omega)
  have hnormalize : UnpackedFloat.normalize Format.binary64 n 0 .positive
      = UnpackedFloat.round Format.binary64 .positive n 0 := by
    have hgreater : compare (n : ℤ) 0 = .gt := compare_gt_iff_gt.2 (by omega)
    rw [UnpackedFloat.normalize, hgreater]
    rfl
  change (Float.Model.pack
    (UnpackedFloat.normalize Format.binary64 n.toUInt64.toNat 0 .positive)).unpack = _
  rw [hnat, hnormalize, hround, unpack_pack_count hpos (by omega)]

/-- Multiplying it by 1 changes nothing. -/
lemma mul_one_count (hpos : 0 < n) (hn : n < 2 ^ 53) :
    UnpackedFloat.mul Format.binary64 (settle .positive (countMantissa n) (n.log2 - 52)) one
      = settle .positive (countMantissa n) (n.log2 - 52) := by
  have hlog : n.log2 < 53 := (Nat.log2_lt hpos.ne').2 hn
  obtain ⟨hfull, -⟩ := countMantissa_bounds hpos
  have hmantissa : (countMantissa n).log2 = 52 := by
    rw [countMantissa_of_log2_le (by omega), log2_shiftLeft hpos]
    omega
  have hlt : countMantissa n < 2 ^ 53 := (Nat.log2_lt (by omega)).1 (by omega)
  have htarget : target (countMantissa n * 2 ^ 52) ((n.log2 - 52 : ℤ) - (52 : ℕ))
      = n.log2 - 52 := by
    rw [target, ← Nat.shiftLeft_eq, log2_shiftLeft (by omega), hmantissa]
    omega
  rw [settle_of_lt (by omega) hlt]
  change roundWithAccuracy Format.binary64 .positive (countMantissa n * 2 ^ 52)
    ((n.log2 - 52 : ℤ) - (52 : ℕ)) .exact = _
  rw [roundWithAccuracy_eq (by omega), htarget, mantissaAt_mul_two_pow,
    settle_of_lt (by omega) hlt]

/-- A greater count is rounded. -/
lemma ofScientific_eq (hpos : 0 < n) : UnpackedFloat.ofScientific Format.binary64 n 0
    = roundWithAccuracy Format.binary64 .positive (n <<< 53) (-53) .exact := by
  have hgreat : ¬(0 : ℤ) > 2 ^ Format.binary64.exponentBits := by decide
  have hsmall : ¬(0 : ℤ) < -((2 ^ Format.binary64.exponentBits : ℤ) + n.log2) := by
    change ¬(0 : ℤ) < -(2048 + n.log2)
    omega
  -- rewriting with its equation would evaluate the great powers in these tests
  unfold UnpackedFloat.ofScientific
  simp only [dif_neg hpos.ne', if_neg hgreat, if_neg hsmall, if_pos (Int.le_refl 0)]
  change roundWithAccuracy Format.binary64 .positive (n <<< 53 * 1) (-53) .exact = _
  rw [Nat.mul_one]

/-- A count becomes a number as if it were rounded once. -/
lemma unpack_ofCount (hpos : 0 < n) (hn : n < 2 ^ 64) :
    (Scalar.ofCount n : Float).toModel.unpack
      = settle .positive (countMantissa n) (n.log2 - 52) := by
  have hlog : n.log2 < 64 := (Nat.log2_lt hpos.ne').2 hn
  change (Float.ofScientific n false 0).toModel.unpack = _
  by_cases hsmall : n < 2 ^ 53
  · have heq : Float.ofScientific n false 0
        = n.toUInt64.toFloat * Float.ofBits 0x3FF0000000000000 := by
      rw [Float.ofScientific, dif_pos ⟨hsmall, by decide⟩]
      rfl
    have hmul : (n.toUInt64.toFloat * Float.ofBits 0x3FF0000000000000).toModel.unpack
        = (Float.Model.pack (UnpackedFloat.mul Format.binary64
          n.toUInt64.toFloat.toModel.unpack one)).unpack := rfl
    rw [heq, hmul, unpack_toFloat hpos hsmall, mul_one_count hpos hsmall,
      unpack_pack_count hpos (by omega)]
  · have heq : (Float.ofScientific n false 0).toModel
        = Float.Model.pack (UnpackedFloat.ofScientific Format.binary64 n 0) := by
      rw [Float.ofScientific, dif_neg fun h => hsmall h.1]
      rfl
    have htarget := target_count hpos
    rw [heq, ofScientific_eq hpos, roundWithAccuracy_eq (by omega), htarget]
    exact unpack_pack_count hpos (by omega)

end OfCount

/-! ### Quotients -/

/-- A mantissa with all its bits. -/
structure Full (m : ℕ) : Prop where
  le : 2 ^ 52 ≤ m
  lt : m < 2 ^ 53

namespace Full

variable {m n : ℕ} {e f : ℤ}

lemma pos (h : Full m) : 0 < m := Nat.lt_of_lt_of_le (by decide) h.le

lemma log2_eq (h : Full m) : m.log2 = 52 := (Nat.log2_eq_iff h.pos.ne').2 ⟨h.le, h.lt⟩

/-- The quotient of two full mantissas has as many bits as a mantissa, or one more. -/
lemma log2_quotient (hm : Full m) (hn : Full n) :
    0 < (m <<< 53) / n ∧ 52 ≤ ((m <<< 53) / n).log2 ∧ ((m <<< 53) / n).log2 < 54 := by
  have hle := hm.le
  have hlt := hm.lt
  have hle' := hn.le
  have hlt' := hn.lt
  have hlow : 2 ^ 52 ≤ (m <<< 53) / n := by
    rw [Nat.shiftLeft_eq]
    exact (Nat.le_div_iff_mul_le hn.pos).2 (by omega)
  have hhigh : (m <<< 53) / n < 2 ^ 54 := by
    rw [Nat.shiftLeft_eq]
    exact (Nat.div_lt_iff_lt_mul hn.pos).2 (by omega)
  exact ⟨by omega, (Nat.le_log2 (by omega)).2 hlow, (Nat.log2_lt (by omega)).2 hhigh⟩

lemma div_eq (hm : Full m) (hn : Full n) (h : -1000 ≤ e - f) :
    UnpackedFloat.div Format.binary64 (.finite .positive m e hm.pos)
        (.finite .positive n f hn.pos)
      = roundWithAccuracy Format.binary64 .positive ((m <<< 53) / n) (e - f - 53)
        (accuracyOfFraction ((m <<< 53) % n) n) := by
  have htarget : Format.binary64.targetExponent (totalExponent m e - totalExponent n f)
      = e - f - 53 := by
    rw [totalExponent, totalExponent, hm.log2_eq, hn.log2_eq]
    change max (((52 : ℕ) : ℤ) + 1 + e - (((52 : ℕ) : ℤ) + 1 + f) - 53) (-1074) = _
    omega
  have hshift : (e - f - (e - f - 53)).toNat = 53 := by omega
  have hcore : divCore Format.binary64 m e n f
      = ((m <<< 53) / n, e - f - 53, accuracyOfFraction ((m <<< 53) % n) n) := by
    rw [divCore, htarget, min_eq_right (by omega), hshift]
  rw [UnpackedFloat.div, hcore]
  rfl

/-- The quotient of a number and one that is not less is at most 1. -/
lemma rank_div_le (hm : Full m) (hn : Full n) (h : -1000 ≤ e - f)
    (hle : rank (.finite .positive m e hm.pos) ≤ rank (.finite .positive n f hn.pos)) :
    rank (Float.Model.pack (UnpackedFloat.div Format.binary64 (.finite .positive m e hm.pos)
      (.finite .positive n f hn.pos))).unpack ≤ rank one := by
  obtain ⟨hpos, hlow, hhigh⟩ := log2_quotient hm hn
  rw [rank_finite_le_iff] at hle
  rw [div_eq hm hn h]
  by_cases hsame : e = f ∧ m = n
  · obtain ⟨rfl, rfl⟩ := hsame
    have hquotient : (m <<< 53) / m = 2 ^ 53 := by
      rw [Nat.shiftLeft_eq, Nat.mul_comm, Nat.mul_div_cancel _ hm.pos]
    have hexact : (m <<< 53) % m = 0 := by
      rw [Nat.shiftLeft_eq, Nat.mul_mod_right]
    have hexponent : e - e - 53 = -53 := by omega
    have haccuracy : accuracyOfFraction 0 m = .exact := rfl
    rw [hquotient, hexact, hexponent, haccuracy]
    decide +kernel
  · have htarget : (e - f - 53 : ℤ) ≤ target ((m <<< 53) / n) (e - f - 53) := by
      rw [target]
      omega
    refine rank_roundWithAccuracy_le hpos htarget ?_
    rcases hle with hlt | ⟨rfl, hle⟩
    · omega
    · have hless : (m <<< 53) / n < 2 ^ 53 := by
        rw [Nat.div_lt_iff_lt_mul hn.pos, Nat.shiftLeft_eq, Nat.mul_comm]
        exact Nat.mul_lt_mul_of_pos_left (by omega) (by decide)
      have hlog := (Nat.log2_lt hpos.ne').2 hless
      omega

/-- The quotient of numbers that are not too far apart is finite. -/
lemma isFinite_div (hm : Full m) (hn : Full n) (h : -1000 ≤ e - f) (h' : e - f ≤ 900) :
    (Float.Model.pack (UnpackedFloat.div Format.binary64 (.finite .positive m e hm.pos)
      (.finite .positive n f hn.pos))).unpack.isFinite = true := by
  obtain ⟨hpos, hlow, hhigh⟩ := log2_quotient hm hn
  have htarget : (e - f - 53 : ℤ) ≤ target ((m <<< 53) / n) (e - f - 53) := by
    rw [target]
    omega
  have hgreatest : target ((m <<< 53) / n) (e - f - 53) ≤ 970 := by
    rw [target]
    omega
  rw [div_eq hm hn h, roundWithAccuracy_eq htarget,
    unpack_pack_settle _ (le_mantissaAt hpos htarget) (le_max_right _ _) hgreatest, settle]
  split_ifs <;> rfl

end Full

/-- A positive count has a full mantissa. -/
lemma exists_full_ofCount {n : ℕ} (hpos : 0 < n) (hn : n < 2 ^ 64) :
    ∃ m e, ∃ hm : Full m,
      (Scalar.ofCount n : Float).toModel.unpack = .finite .positive m e hm.pos ∧
        -52 ≤ e ∧ e ≤ 12 := by
  have hlog : n.log2 < 64 := (Nat.log2_lt hpos.ne').2 hn
  obtain ⟨hfull, hle⟩ := countMantissa_bounds hpos
  rw [unpack_ofCount hpos hn]
  rcases hle.lt_or_eq with hlt | heq
  · exact ⟨_, _, ⟨hfull, hlt⟩, settle_of_lt (by omega) hlt, by omega, by omega⟩
  · rw [heq]
    exact ⟨2 ^ 52, n.log2 - 52 + 1, ⟨le_refl _, by decide⟩, rfl, by omega, by omega⟩

end HouseStyle.Binary64
