import HouseStyle.Proofs.Number.Order
import Mathlib

/-!
# How binary numbers are packed

Every operation on binary numbers unpacks them into a sign, a mantissa and an exponent, computes
with these, and packs the result.  What a binary number can have (`Canonical`) is packed without
loss (`unpack_pack`), and what is unpacked is of that form (`canonical_of_unpack`).  Whatever else
is packed keeps its sign and does not lose its value (`Signed.pack`): at most it becomes infinite.
-/

namespace HouseStyle.Binary64

open Float.Model Float.Model.UnpackedFloat

/-- A mantissa and an exponent that a binary number can have. -/
structure Canonical (m : ℕ) (e : ℤ) : Prop where
  pos : 0 < m
  lt : m < 2 ^ 53
  least : -1074 ≤ e
  greatest : e ≤ 971
  /-- Only at the least exponent the first bit of the mantissa may be missing. -/
  full : 2 ^ 52 ≤ m ∨ e = -1074

/-- The first bit, which is not packed, in front of the packed ones. -/
lemma toNat_append (m : BitVec 52) : (1#1 ++ m).toNat = 2 ^ 52 + m.toNat := by
  rw [BitVec.toNat_append, ← Nat.shiftLeft_add_eq_or_of_lt (BitVec.isLt _)]
  rfl

/-! ### Packing without loss -/

/-- A number with a full mantissa is packed without loss. -/
lemma unpack_pack_of_full {m : ℕ} {e : ℤ} (sign : Sign) (h : Canonical m e) (hfull : 2 ^ 52 ≤ m) :
    (Float.Model.pack (.finite sign m e h.pos)).unpack = .finite sign m e h.pos := by
  have hlt := h.lt
  have hleast := h.least
  have hgreatest := h.greatest
  have hlog : m.log2 = 52 := (Nat.log2_eq_iff h.pos.ne').2 ⟨hfull, hlt⟩
  have hmantissa : (1#1 ++ BitVec.ofNat 52 m).toNat = m := by
    rw [toNat_append, BitVec.toNat_ofNat]
    omega
  have hbiased : (BitVec.ofNat 11 (e + 1023 + 52).toNat).toNat = (e + 1075).toNat := by
    rw [BitVec.toNat_ofNat]
    omega
  have hall : ¬BitVec.ofNat 11 (e + 1023 + 52).toNat = -1#11 := by
    rw [← BitVec.toNat_inj, hbiased]
    change ¬(e + 1075).toNat = 2047
    omega
  have hnone : ¬BitVec.ofNat 11 (e + 1023 + 52).toNat = 0#11 := by
    rw [← BitVec.toNat_inj, hbiased]
    change ¬(e + 1075).toNat = 0
    omega
  have hpack : UnpackedFloat.pack Format.binary64 (.finite sign m e h.pos)
      = packComponents Format.binary64 sign (BitVec.ofNat 11 (e + 1023 + 52).toNat)
        (BitVec.ofNat 52 m) := by
    rw [UnpackedFloat.pack]
    change (if 2048 ≤ (e + 1023 + 52).toNat + 1 then _ else if m.log2 + 1 = 53 then _ else _) = _
    rw [if_neg (by omega), if_pos (by omega)]
    rfl
  rw [Float.Model.unpack, Float.Model.pack, UInt64.toBitVec_ofBitVec, hpack, UnpackedFloat.unpack]
  simp only [unpackMantissa_packComponents, unpackExponent_packComponents,
    unpackSign_packComponents, Sign.ofBitVec_toBitVec, hmantissa]
  rw [if_neg hall, if_neg hnone, hbiased]
  congr 1
  change ((e + 1075).toNat : ℤ) - 1075 = e
  omega

/-- A number without the first bit of its mantissa is packed without loss. -/
lemma unpack_pack_of_small {m : ℕ} (sign : Sign) (hm : 0 < m) (hlt : m < 2 ^ 52) :
    (Float.Model.pack (.finite sign m (-1074) hm)).unpack = .finite sign m (-1074) hm := by
  have hlog : m.log2 < 52 := (Nat.log2_lt hm.ne').2 hlt
  have hmantissa : (BitVec.ofNat 52 m).toNat = m := by
    rw [BitVec.toNat_ofNat]
    omega
  have hnone : ¬BitVec.ofNat 52 m = 0#52 := by
    rw [← BitVec.toNat_inj, hmantissa]
    exact hm.ne'
  have hpack : UnpackedFloat.pack Format.binary64 (.finite sign m (-1074) hm)
      = packComponents Format.binary64 sign 0#11 (BitVec.ofNat 52 m) := by
    have hsmall : ¬m.log2 + 1 = Format.binary64.mantissaBits := by
      change ¬m.log2 + 1 = 53
      omega
    rw [UnpackedFloat.pack]
    simp only [if_neg hsmall]
    exact if_neg (by decide)
  have hall : ¬0#11 = -1#11 := by decide
  rw [Float.Model.unpack, Float.Model.pack, UInt64.toBitVec_ofBitVec, hpack, UnpackedFloat.unpack]
  simp only [unpackMantissa_packComponents, unpackExponent_packComponents,
    unpackSign_packComponents, Sign.ofBitVec_toBitVec, if_neg hall, if_true, dif_neg hnone,
      hmantissa]
  rfl

/-- What a binary number can have is packed without loss. -/
lemma unpack_pack {m : ℕ} {e : ℤ} (sign : Sign) (h : Canonical m e) :
    (Float.Model.pack (.finite sign m e h.pos)).unpack = .finite sign m e h.pos := by
  by_cases hfull : 2 ^ 52 ≤ m
  · exact unpack_pack_of_full sign h hfull
  · obtain rfl := h.full.resolve_left hfull
    exact unpack_pack_of_small sign h.pos (by omega)

/-- An unpacked number is one that a binary number can have. -/
lemma canonical_of_unpack {x : Float.Model} {sign : Sign} {m : ℕ} {e : ℤ} {hm : 0 < m}
    (h : x.unpack = .finite sign m e hm) : Canonical m e := by
  have hmantissa := (@unpackMantissa Format.binary64 x.toBits.toBitVec).isLt
  have hexponent := (@unpackExponent Format.binary64 x.toBits.toBitVec).isLt
  rw [Float.Model.unpack, UnpackedFloat.unpack] at h
  dsimp only at h
  split_ifs at h with hall hinf hnone hzero
  · cases h
    refine ⟨hm, hmantissa.trans (by decide), ?_, ?_, Or.inr ?_⟩
    all_goals
      rw [hnone]
      decide
  · rw [← BitVec.toNat_inj] at hall hnone
    change ¬_ = 2047 at hall
    change ¬_ = 0 at hnone
    injection h with _ hfull he
    rw [toNat_append] at hfull
    change _ - ((1023 : ℤ) + 52) = e at he
    change _ < 2 ^ 52 at hmantissa
    change _ < 2 ^ 11 at hexponent
    exact ⟨hm, by omega, by omega, by omega, Or.inl (by omega)⟩

/-! ### Signs -/

/-- Whether a number has a value, and this sign. -/
def Signed (sign : Sign) : UnpackedFloat → Prop
  | .notANumber => False
  | .infinity s | .zero s | .finite s _ _ _ => s = sign

lemma exists_signed {x : UnpackedFloat} (h : x ≠ .notANumber) : ∃ sign, Signed sign x := by
  cases x with
  | notANumber => exact absurd rfl h
  | infinity sign | zero sign | finite sign => exact ⟨sign, rfl⟩

lemma Signed.ne {sign : Sign} {x : UnpackedFloat} (h : Signed sign x) : x ≠ .notANumber := by
  rintro rfl
  exact h

lemma signed_packComponents {sign : Sign} {e : BitVec 11} {m : BitVec 52}
    (h : e = -1#11 → m = 0#52) :
    Signed sign (UnpackedFloat.unpack Format.binary64
      (packComponents Format.binary64 sign e m)) := by
  rw [UnpackedFloat.unpack]
  simp only [unpackMantissa_packComponents, unpackExponent_packComponents,
    unpackSign_packComponents, Sign.ofBitVec_toBitVec]
  split_ifs with hall hm
  · rfl
  · exact absurd (h hall) hm
  all_goals rfl

/-- A number with a value keeps it and its sign when it is packed. -/
lemma Signed.pack {sign : Sign} {x : UnpackedFloat} (h : Signed sign x) :
    Signed sign (Float.Model.pack x).unpack := by
  rw [Float.Model.unpack, Float.Model.pack, UInt64.toBitVec_ofBitVec]
  cases x with
  | notANumber => exact h.elim
  | infinity s | zero s => exact h ▸ signed_packComponents fun _ => rfl
  | finite s m e hm =>
    obtain rfl : s = sign := h
    rw [UnpackedFloat.pack]
    dsimp only
    split_ifs with hinf hfull
    · exact signed_packComponents fun _ => rfl
    · refine signed_packComponents fun hall => ?_
      have hall' : (e + 1023 + 52).toNat % 2048 = 2047 := congrArg BitVec.toNat hall
      change ¬2048 ≤ (e + 1023 + 52).toNat + 1 at hinf
      omega
    · exact signed_packComponents fun hall => absurd hall (by decide)

lemma rank_zero_le {m : ℕ} {e : ℤ} (hm : 0 < m) :
    rank (.zero .positive) ≤ rank (.finite .positive m e hm) :=
  Prod.Lex.toLex_le_toLex.2 (Or.inl Int.one_pos)

/-- What has the sign of a negative number is at most 0. -/
lemma Signed.rank_le {x : UnpackedFloat} (h : Signed .negative x) :
    rank x ≤ rank (.zero .positive) := by
  cases x with
  | notANumber => exact h.elim
  | zero => exact le_refl _
  | infinity | finite =>
    obtain rfl := h
    exact Prod.Lex.toLex_le_toLex.2 (Or.inl (Int.neg_neg_of_pos (by decide)))

end HouseStyle.Binary64
