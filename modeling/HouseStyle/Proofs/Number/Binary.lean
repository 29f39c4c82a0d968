import HouseStyle.Proofs.Number.BinaryCounts
import HouseStyle.Proofs.Number.Laws

/-!
# The laws of binary numbers

The binary numbers of 64 bits, in which the formulas are computed, obey the laws that the formulas
need.  Most of them speak of signs and of numbers without a value, and hold however a result is
rounded; only one less a number, and the quotient of two counts, are at most 1 because rounding
keeps to powers of two.
-/

namespace HouseStyle

namespace Binary64

open Float.Model Float.Model.UnpackedFloat

lemma unpack_sub (x y : Float) : (x - y).toModel.unpack = (Float.Model.pack
    (UnpackedFloat.sub Format.binary64 x.toModel.unpack y.toModel.unpack)).unpack :=
  rfl

lemma unpack_div (x y : Float) : (x / y).toModel.unpack = (Float.Model.pack
    (UnpackedFloat.div Format.binary64 x.toModel.unpack y.toModel.unpack)).unpack :=
  rfl

lemma unpack_sqrt (x : Float) : (Scalar.sqrt x).toModel.unpack
    = (Float.Model.pack (UnpackedFloat.sqrt Format.binary64 x.toModel.unpack)).unpack :=
  rfl

lemma unpack_abs (x : Float) : (Scalar.abs x).toModel.unpack
    = (Float.Model.pack x.toModel.unpack.abs).unpack :=
  rfl

lemma unpack_one : (1.0 : Float).toModel.unpack = one := rfl

lemma isFinite_eq (x : Float) : Scalar.isFinite x = x.toModel.unpack.isFinite := rfl

lemma unpack_pack_notANumber : (Float.Model.pack .notANumber).unpack = .notANumber := rfl

/-- The rank of a number whose sign does not matter. -/
lemma rank_zero (sign : Sign) : rank (.zero sign) = rank (0.0 : Float).toModel.unpack := rfl

lemma isNaN_zero : Scalar.isNaN (0.0 : Float) = false := rfl

/-! ### Finite numbers -/

/-- Finite numbers stand between the infinite ones. -/
lemma finite_bounds {x : UnpackedFloat} (h : x.isFinite = true) :
    rank (.infinity .negative) < rank x ∧ rank x < rank (.infinity .positive) := by
  rcases x with _ | _ | _ | ⟨_ | _, m, e, _⟩
  · exact absurd h Bool.false_ne_true
  · exact absurd h Bool.false_ne_true
  all_goals
    simp only [rank, Prod.Lex.toLex_lt_toLex]
    omega

lemma isFinite_of_rank {x y z : UnpackedFloat} (hx : x.isFinite = true) (hz : z.isFinite = true)
    (hy : y ≠ .notANumber) (h : rank x ≤ rank y) (h' : rank y ≤ rank z) : y.isFinite = true := by
  cases y with
  | notANumber => exact absurd rfl hy
  | zero | finite => rfl
  | infinity sign =>
    cases sign with
    | negative => exact absurd h (not_le.2 (finite_bounds hx).1)
    | positive => exact absurd h' (not_le.2 (finite_bounds hz).2)

/-! ### Numbers that are not negative -/

/-- Whether a number is 0, or has the sign of a positive one. -/
def Nonnegative : UnpackedFloat → Prop
  | .notANumber => False
  | .zero _ => True
  | .infinity sign | .finite sign _ _ _ => sign = .positive

lemma Signed.nonnegative {x : UnpackedFloat} (h : Signed .positive x) : Nonnegative x := by
  cases x with
  | notANumber | infinity | finite => exact h
  | zero => trivial

lemma Nonnegative.signed {x : UnpackedFloat} (h : Nonnegative x) (hne : ∀ sign, x ≠ .zero sign) :
    Signed .positive x := by
  cases x with
  | notANumber | infinity | finite => exact h
  | zero sign => exact absurd rfl (hne sign)

lemma Nonnegative.pack {x : UnpackedFloat} (h : Nonnegative x) :
    Nonnegative (Float.Model.pack x).unpack := by
  cases x with
  | notANumber => exact h.elim
  | zero sign => cases sign <;> trivial
  | infinity sign =>
    obtain rfl : sign = .positive := h
    trivial
  | finite sign m e hm => exact (Signed.pack (x := .finite sign m e hm) h).nonnegative

lemma le_zero_iff {x : Float} : Scalar.le 0.0 x = true ↔ Nonnegative x.toModel.unpack := by
  have hzero : (0.0 : Float).toModel.unpack ≠ .notANumber := isNaN_eq_false_iff.1 rfl
  rw [scalar_le_iff, isNaN_eq_false_iff, isNaN_eq_false_iff, ← rank_zero .positive]
  rcases x.toModel.unpack with (_ | _) | _ | _ | ⟨_ | _, m, e, hm⟩
  · exact iff_of_false (fun h => absurd h.2 (by decide)) (by simp [Nonnegative])
  · exact iff_of_true ⟨⟨hzero, by simp⟩, by decide⟩ rfl
  · exact iff_of_false (fun h => h.1.2 rfl) id
  · exact iff_of_true ⟨⟨hzero, by simp⟩, le_refl _⟩ trivial
  · refine iff_of_false (fun h => ?_) (by simp [Nonnegative])
    rw [rank, rank, Prod.Lex.toLex_le_toLex] at h
    omega
  · exact iff_of_true ⟨⟨hzero, by simp⟩, rank_zero_le hm⟩ rfl

/-- A number above 0 has the sign of a positive one, and is not 0. -/
lemma signed_of_lt_zero {x : Float} (h : Scalar.lt 0.0 x = true) :
    Signed .positive x.toModel.unpack ∧ ∀ sign, x.toModel.unpack ≠ .zero sign := by
  obtain ⟨hnan, hlt⟩ := scalar_lt_iff.1 h
  have hne (sign : Sign) : x.toModel.unpack ≠ .zero sign := by
    intro hzero
    rw [hzero, rank_zero] at hlt
    exact lt_irrefl _ hlt
  exact ⟨(le_zero_iff.1 (scalar_le_iff.2 ⟨hnan, hlt.le⟩)).signed hne, hne⟩

lemma nonnegative_sqrt {x : UnpackedFloat}
    (h : UnpackedFloat.sqrt Format.binary64 x ≠ .notANumber) :
    Nonnegative (UnpackedFloat.sqrt Format.binary64 x) := by
  rcases x with (_ | _) | _ | _ | ⟨_ | _, m, e, hm⟩
  · exact absurd rfl h
  · rfl
  · exact absurd rfl h
  · trivial
  · exact absurd rfl h
  · exact (signed_roundWithAccuracy _ _ _ _).nonnegative

/-- The absolute value of a number other than 0 is above 0. -/
lemma rank_abs {x : Float.Model} (hnan : x.unpack ≠ .notANumber)
    (hne : ∀ sign, x.unpack ≠ .zero sign) :
    rank (.zero .positive) < rank (Float.Model.pack x.unpack.abs).unpack := by
  cases hu : x.unpack with
  | notANumber => exact absurd hu hnan
  | zero sign => exact absurd hu (hne sign)
  | infinity =>
    rw [UnpackedFloat.abs]
    decide
  | finite sign m e hm =>
    rw [UnpackedFloat.abs, unpack_pack .positive (canonical_of_unpack hu), rank, rank,
      Prod.Lex.toLex_lt_toLex]
    omega

/-! ### Differences -/

lemma sub_notANumber (x : UnpackedFloat) :
    UnpackedFloat.sub Format.binary64 x .notANumber = .notANumber := by
  cases x <;> rfl

lemma exists_signed_sub {x y : UnpackedFloat} (hx : x.isFinite = true) (hy : y ≠ .notANumber) :
    ∃ sign, Signed sign (UnpackedFloat.sub Format.binary64 x y) := by
  cases x with
  | notANumber | infinity => exact absurd hx Bool.false_ne_true
  | zero s =>
    cases y with
    | notANumber => exact absurd rfl hy
    | infinity t | finite t => exact ⟨-t, rfl⟩
    | zero t =>
      rw [UnpackedFloat.sub]
      split_ifs
      · exact ⟨s, rfl⟩
      · exact ⟨.positive, rfl⟩
  | finite s =>
    cases y with
    | notANumber => exact absurd rfl hy
    | infinity t => exact ⟨-t, rfl⟩
    | zero => exact ⟨s, rfl⟩
    | finite => exact exists_signed_normalize _ _

/-- One less a positive finite number is at most 1. -/
lemma rank_one_sub_finite_le {m : ℕ} {e : ℤ} (hm : 0 < m) :
    rank (Float.Model.pack
      (UnpackedFloat.sub Format.binary64 one (.finite .positive m e hm))).unpack ≤ rank one := by
  have hone : rank (.zero .positive) ≤ rank one := rank_zero_le _
  -- both numbers are brought to the smaller exponent, where 1 is a power of two
  have hsub : UnpackedFloat.sub Format.binary64 one (.finite .positive m e hm)
      = UnpackedFloat.normalize Format.binary64 (((2 ^ 52) <<< (-52 - min (-52) e).toNat : ℕ)
        - (m <<< (e - min (-52) e).toNat : ℕ)) (min (-52) e) .positive := rfl
  rw [hsub]
  rcases normalize_cases (((2 ^ 52) <<< (-52 - min (-52) e).toNat : ℕ)
      - (m <<< (e - min (-52) e).toNat : ℕ)) (min (-52) e) with h | h | ⟨hpos, h⟩
  · exact h.pack.rank_le.trans hone
  · rw [h]
    exact hone
  · have hm' : 0 < m <<< (e - min (-52) e).toNat := Nat.shiftLeft_pos_iff.2 hm
    rw [h]
    refine rank_round_le hpos ?_
    rw [Nat.shiftLeft_eq, ← Nat.pow_add] at hpos ⊢
    have hlog := (Nat.log2_lt hpos.ne').2
      (by omega : _ < 2 ^ (52 + (-52 - min (-52) e).toNat))
    omega

/-- One less a number that is not negative is at most 1. -/
lemma rank_one_sub_le {x : UnpackedFloat} (h : Nonnegative x) :
    rank (Float.Model.pack (UnpackedFloat.sub Format.binary64 one x)).unpack ≤ rank one := by
  cases x with
  | notANumber => exact h.elim
  | zero sign =>
    have hsub : UnpackedFloat.sub Format.binary64 one (.zero sign) = one := rfl
    rw [hsub]
    decide +kernel
  | infinity sign =>
    obtain rfl : sign = .positive := h
    decide
  | finite sign m e hm =>
    obtain rfl : sign = .positive := h
    exact rank_one_sub_finite_le hm

/-! ### Quotients -/

lemma div_notANumber (x : UnpackedFloat) :
    UnpackedFloat.div Format.binary64 x .notANumber = .notANumber := by
  cases x <;> rfl

lemma notANumber_div (x : UnpackedFloat) :
    UnpackedFloat.div Format.binary64 .notANumber x = .notANumber :=
  rfl

/-- A quotient with a positive finite number has the sign of what is divided. -/
lemma signed_div {sign : Sign} {x : UnpackedFloat} {m : ℕ} {e : ℤ} (hx : Signed sign x)
    (hm : 0 < m) :
    Signed sign (UnpackedFloat.div Format.binary64 x (.finite .positive m e hm)) := by
  cases x with
  | notANumber => exact hx.elim
  | infinity s | zero s | finite s =>
    obtain rfl : s = sign := hx
    cases s <;> first | rfl | exact signed_roundWithAccuracy _ _ _ _

lemma nonnegative_div {x y : UnpackedFloat} (hx : Nonnegative x) (hy : Signed .positive y)
    (hne : ∀ sign, y ≠ .zero sign) (h : UnpackedFloat.div Format.binary64 x y ≠ .notANumber) :
    Nonnegative (UnpackedFloat.div Format.binary64 x y) := by
  cases y with
  | notANumber => exact hy.elim
  | zero sign => exact absurd rfl (hne sign)
  | infinity sign =>
    cases x with
    | notANumber => exact hx.elim
    | infinity => exact absurd rfl h
    | zero | finite => trivial
  | finite sign m e hm =>
    obtain rfl : sign = .positive := hy
    cases x with
    | notANumber => exact hx.elim
    | zero => trivial
    | infinity | finite => exact (signed_div (hx.signed (by simp)) hm).nonnegative

/-- Counts of at most 64 bits are divided as they should be. -/
lemma div_ofCount {m n : ℕ} (hm : m < 2 ^ 64) (hpos : 0 < n) (hn : n < 2 ^ 64) :
    Scalar.isFinite (Scalar.ofCount m / Scalar.ofCount n : Float) = true ∧
      Scalar.le (0.0 : Float) (Scalar.ofCount m / Scalar.ofCount n) = true ∧
      (m ≤ n → Scalar.le (Scalar.ofCount m / Scalar.ofCount n) (1.0 : Float) = true) := by
  obtain ⟨l, f, hl, hy, hleast', hgreatest'⟩ := exists_full_ofCount hpos hn
  rw [isFinite_eq, le_zero_iff, scalar_le_iff, isNaN_eq_false_iff, unpack_div, hy, unpack_one]
  rcases Nat.eq_zero_or_pos m with rfl | hpos'
  · have hx : (Scalar.ofCount 0 : Float).toModel.unpack = .zero .positive := rfl
    have hdiv : UnpackedFloat.div Format.binary64 (.zero .positive) (.finite .positive l f hl.pos)
        = .zero .positive := rfl
    have hpack : (Float.Model.pack (.zero .positive)).unpack = .zero .positive := rfl
    rw [hx, hdiv, hpack]
    exact ⟨rfl, trivial, fun _ => ⟨⟨by simp, rfl⟩, rank_zero_le (by decide)⟩⟩
  · obtain ⟨k, e, hk, hx, hleast, hgreatest⟩ := exists_full_ofCount hpos' hm
    have hsigned := (signed_div (x := .finite .positive k e hk.pos) (e := f) rfl hl.pos).pack
    rw [hx]
    refine ⟨hk.isFinite_div hl (by omega) (by omega), hsigned.nonnegative,
      fun hmn => ⟨⟨hsigned.ne, rfl⟩, hk.rank_div_le hl (by omega) ?_⟩⟩
    rw [← hx, ← hy, unpack_ofCount hpos' hm, unpack_ofCount hpos hn]
    exact rank_count_mono hpos' hmn

end Binary64

open Binary64

instance : LawfulScalar Float where
  le_of_not_lt := OrderedScalar.le_of_not_lt
  lt_of_not_le hx hy h := by
    rw [← Bool.not_eq_true, scalar_le_iff] at h
    exact scalar_lt_iff.2 ⟨⟨hy, hx⟩, not_le.1 fun hle => h ⟨⟨hx, hy⟩, hle⟩⟩
  isNaN_of_isFinite := by
    intro x h
    rw [isNaN_eq_false_iff]
    intro hnone
    rw [isFinite_eq, hnone] at h
    exact Bool.false_ne_true h
  isFinite_of_le_of_le hx hz h h' := by
    obtain ⟨⟨-, hy⟩, hle⟩ := scalar_le_iff.1 h
    exact isFinite_of_rank hx hz (isNaN_eq_false_iff.1 hy) hle (scalar_le_iff.1 h').2
  isFinite_tenths := by
    have hall : ∀ n < 101, Scalar.isFinite (OfScientific.ofScientific n true 1 : Float) = true := by
      decide +kernel
    intro n hn
    exact hall n (by omega)
  le_tenths := by
    have hall : ∀ n < 21, ∀ m < n + 1, Scalar.le (OfScientific.ofScientific m true 1 : Float)
        (OfScientific.ofScientific n true 1) = true := by decide +kernel
    intro m n h hn
    exact hall n (by omega) m (by omega)
  countsTo := by
    intro limit hlimit
    change limit < 2 ^ 64 at hlimit
    exact ⟨fun hm hn hn' => (div_ofCount (by omega) hn (by omega)).1,
      fun hm hn hn' => (div_ofCount (by omega) hn (by omega)).2.1,
      fun hm hn hn' => (div_ofCount (by omega) hn (by omega)).2.2 hm⟩
  isNaN_sub hx hy := by
    obtain ⟨sign, h⟩ := exists_signed_sub hx (isNaN_eq_false_iff.1 hy)
    exact isNaN_eq_false_iff.2 h.pack.ne
  isNaN_div := by
    intro x y hx hy hpos
    obtain ⟨hsigned, hne⟩ := signed_of_lt_zero hpos
    obtain ⟨sign, hx⟩ := exists_signed (isNaN_eq_false_iff.1 hx)
    rw [isFinite_eq] at hy
    rw [isNaN_eq_false_iff, unpack_div]
    cases hu : y.toModel.unpack with
    | notANumber | infinity =>
      rw [hu] at hy
      exact absurd hy Bool.false_ne_true
    | zero s => exact absurd hu (hne s)
    | finite s m e hm =>
      obtain rfl : s = .positive := by rwa [hu] at hsigned
      exact (signed_div hx hm).pack.ne
  isNaN_of_sub := by
    intro x y h
    rw [isNaN_eq_false_iff] at h ⊢
    intro hnone
    rw [unpack_sub, hnone, sub_notANumber, unpack_pack_notANumber] at h
    exact h rfl
  isNaN_of_div := by
    intro x y h
    simp only [isNaN_eq_false_iff, unpack_div] at h ⊢
    refine ⟨fun hnone => ?_, fun hnone => ?_⟩
    · rw [hnone, notANumber_div, unpack_pack_notANumber] at h
      exact h rfl
    · rw [hnone, div_notANumber, unpack_pack_notANumber] at h
      exact h rfl
  sqrt_nonneg := by
    intro x h
    rw [isNaN_eq_false_iff, unpack_sqrt] at h
    rw [le_zero_iff, unpack_sqrt]
    refine (nonnegative_sqrt fun hnone => h ?_).pack
    rw [hnone, unpack_pack_notANumber]
  abs_pos := by
    intro x h hne
    have hnan : x.toModel.unpack ≠ .notANumber := by
      intro hnone
      rw [isNaN_eq_false_iff, unpack_abs, hnone] at h
      exact h rfl
    have hzero (sign : Float.Model.UnpackedFloat.Sign) : x.toModel.unpack ≠ .zero sign := by
      intro hzero
      have hsame : Scalar.same x 0.0 = x.toModel.unpack.beq (.zero .positive) := rfl
      rw [hsame, hzero] at hne
      exact Bool.noConfusion hne
    exact scalar_lt_iff.2 ⟨⟨isNaN_zero, h⟩, rank_abs hnan hzero⟩
  div_nonneg := by
    intro x y h hx hy
    obtain ⟨hsigned, hne⟩ := signed_of_lt_zero hy
    rw [isNaN_eq_false_iff, unpack_div] at h
    rw [le_zero_iff, unpack_div]
    refine (nonnegative_div (le_zero_iff.1 hx) hsigned hne fun hnone => h ?_).pack
    rw [hnone, unpack_pack_notANumber]
  one_sub_le := by
    intro x h
    obtain ⟨⟨-, hx⟩, -⟩ := scalar_le_iff.1 h
    obtain ⟨sign, hsigned⟩ := exists_signed_sub (x := one) rfl (isNaN_eq_false_iff.1 hx)
    have hvalue : Scalar.isNaN (1.0 - x) = false := isNaN_eq_false_iff.2 hsigned.pack.ne
    exact scalar_le_iff.2 ⟨⟨hvalue, rfl⟩, rank_one_sub_le (le_zero_iff.1 h)⟩
  wholePart_lt x := UInt64.toNat_lt _
  nearest_lt x := UInt64.toNat_lt _

instance : FiniteReading Float where
  reads := by
    intro n hn
    change n < 2 ^ 64 at hn
    rcases Nat.eq_zero_or_pos n with rfl | hpos
    · exact ⟨0.0, rfl, rfl⟩
    · obtain ⟨m, e, hm, hu, -⟩ := exists_full_ofCount hpos hn
      have hfinite : (Float.ofScientific n false 0).isFinite = true := by
        change (Scalar.ofCount n : Float).toModel.unpack.isFinite = true
        rw [hu]
        rfl
      have hlength : (Nat.toDigits 10 n).length ≤ 20 :=
        (Nat.length_toDigits_le_iff (by decide) (by decide)).2 (by omega)
      refine ⟨Scalar.ofCount n, ?_, hfinite⟩
      change Decimal.nearestFloat? n 0 = _
      rw [Decimal.nearestFloat?, if_neg hpos.ne']
      dsimp only
      rw [if_neg (by omega), if_neg (by omega)]
      exact if_pos hfinite

end HouseStyle
