import HouseStyle.Proofs.Number.Laws
import HouseStyle.Proofs.Number.Order
import Mathlib.Algebra.Order.BigOperators.Group.List
import Mathlib.Analysis.Real.Sqrt
import Mathlib.Algebra.Order.Floor.Semiring
import Mathlib.Algebra.Order.Round

/-!
# Exact numbers

Read over the real numbers the formulas of the library say what is computed up to rounding.  A
result is a real number or has no value: there is none where is divided by 0 and no root of a
negative number.  The exponential function is left open.  All laws hold here, whatever it is.
-/

namespace HouseStyle

/-- A real number, or no value, with a function in the part of the exponential one. -/
structure ExactNumber (exp : ℝ → ℝ) where
  /-- The real number, if there is a value. -/
  value? : Option ℝ

namespace ExactNumber

variable {exp : ℝ → ℝ}

/-- What a relation says about two numbers; nothing holds without a value. -/
noncomputable def holds (r : ℝ → ℝ → Prop) (x y : ExactNumber exp) : Bool :=
  open Classical in
  match x.value?, y.value? with
  | some a, some b => decide (r a b)
  | _, _ => false

/-- The result of an operation on the values of two numbers. -/
def lift₂ (f : ℝ → ℝ → Option ℝ) (x y : ExactNumber exp) : ExactNumber exp :=
  ⟨x.value?.bind fun a => y.value?.bind (f a)⟩

open Classical in
noncomputable instance : Scalar (ExactNumber exp) where
  add := lift₂ fun a b => some (a + b)
  sub := lift₂ fun a b => some (a - b)
  mul := lift₂ fun a b => some (a * b)
  div := lift₂ fun a b => if b = 0 then none else some (a / b)
  neg x := ⟨x.value?.map (- ·)⟩
  ofScientific m negative k := ⟨some (if negative then m / 10 ^ k else m * 10 ^ k)⟩
  ofCount n := ⟨some n⟩
  le := holds (· ≤ ·)
  lt := holds (· < ·)
  same := holds (· = ·)
  exp x := ⟨x.value?.map exp⟩
  sqrt x := ⟨x.value?.bind fun a => if a < 0 then none else some a.sqrt⟩
  abs x := ⟨x.value?.map (|·|)⟩
  isNaN x := x.value?.isNone
  isFinite x := x.value?.isSome
  wholePart x := min (x.value?.elim 0 (⌊·⌋₊)) (Count.wordSize 64 - 1)
  nearest x := min (x.value?.elim 0 fun a => (round a).toNat) (Count.wordSize 64 - 1)

variable {x y z : ExactNumber exp} {a b : ℝ}

lemma exists_of_isFinite (h : Scalar.isFinite x = true) : ∃ a, x = ⟨some a⟩ := by
  obtain ⟨a, ha⟩ := Option.isSome_iff_exists.1 h
  exact ⟨a, by rw [← ha]⟩

lemma exists_of_isNaN (h : Scalar.isNaN x = false) : ∃ a, x = ⟨some a⟩ := by
  obtain ⟨_ | a⟩ := x
  · cases h
  · exact ⟨a, rfl⟩

open Classical in
lemma exists_of_holds {r : ℝ → ℝ → Prop} (h : holds r x y = true) :
    ∃ a b, x = ⟨some a⟩ ∧ y = ⟨some b⟩ ∧ r a b := by
  obtain ⟨_ | a⟩ := x
  · cases h
  · obtain ⟨_ | b⟩ := y
    · cases h
    · exact ⟨a, b, rfl, rfl, of_decide_eq_true h⟩

open Classical in
@[simp] lemma holds_some {r : ℝ → ℝ → Prop} :
    holds r (⟨some a⟩ : ExactNumber exp) ⟨some b⟩ = true ↔ r a b :=
  decide_eq_true_iff

@[simp] lemma le_some : Scalar.le (⟨some a⟩ : ExactNumber exp) ⟨some b⟩ = true ↔ a ≤ b := holds_some

@[simp] lemma lt_some : Scalar.lt (⟨some a⟩ : ExactNumber exp) ⟨some b⟩ = true ↔ a < b := holds_some

@[simp] lemma same_some : Scalar.same (⟨some a⟩ : ExactNumber exp) ⟨some b⟩ = true ↔ a = b :=
  holds_some

lemma decimal (n k : Nat) :
    (OfScientific.ofScientific n true k : ExactNumber exp) = ⟨some (n / 10 ^ k)⟩ := rfl

lemma tenths (n : Nat) :
    (OfScientific.ofScientific n true 1 : ExactNumber exp) = ⟨some (n / 10)⟩ := by
  rw [decimal, pow_one]

lemma zero_eq : (0.0 : ExactNumber exp) = ⟨some 0⟩ := by
  rw [tenths]
  simp

lemma one_eq : (1.0 : ExactNumber exp) = ⟨some 1⟩ := by
  rw [tenths]
  norm_num

lemma half_eq : (0.5 : ExactNumber exp) = ⟨some (1 / 2)⟩ := by
  rw [tenths]
  norm_num

lemma div_some (hb : b ≠ 0) :
    (⟨some a⟩ / ⟨some b⟩ : ExactNumber exp) = ⟨some (a / b)⟩ := by
  change lift₂ _ _ _ = _
  simp [lift₂, hb]

lemma add_some : (⟨some a⟩ + ⟨some b⟩ : ExactNumber exp) = ⟨some (a + b)⟩ := rfl

lemma sub_some : (⟨some a⟩ - ⟨some b⟩ : ExactNumber exp) = ⟨some (a - b)⟩ := rfl

lemma mul_some : (⟨some a⟩ * ⟨some b⟩ : ExactNumber exp) = ⟨some (a * b)⟩ := rfl

lemma abs_some : Scalar.abs (⟨some a⟩ : ExactNumber exp) = ⟨some |a|⟩ := rfl

lemma sqrt_some (h : 0 ≤ a) : Scalar.sqrt (⟨some a⟩ : ExactNumber exp) = ⟨some √a⟩ := by
  change (⟨if a < 0 then none else some √a⟩ : ExactNumber exp) = _
  rw [if_neg h.not_gt]

lemma larger_some : Scalar.larger (⟨some a⟩ : ExactNumber exp) ⟨some b⟩ = ⟨some (max a b)⟩ := by
  change (if Scalar.lt (⟨some a⟩ : ExactNumber exp) ⟨some b⟩ = true
    then (⟨some b⟩ : ExactNumber exp) else ⟨some a⟩) = _
  split_ifs with h
  · rw [max_eq_right (lt_some.1 h).le]
  · rw [max_eq_left (not_lt.1 (mt lt_some.2 h))]

lemma smaller_some :
    Scalar.smaller (⟨some a⟩ : ExactNumber exp) ⟨some b⟩ = ⟨some (min a b)⟩ := by
  change (if Scalar.lt (⟨some b⟩ : ExactNumber exp) ⟨some a⟩ = true
    then (⟨some b⟩ : ExactNumber exp) else ⟨some a⟩) = _
  split_ifs with h
  · rw [min_eq_right (lt_some.1 h).le]
  · rw [min_eq_left (not_lt.1 (mt lt_some.2 h))]

lemma clamp_some {low high : ℝ} (h : low ≤ high) :
    Scalar.clamp ⟨some low⟩ ⟨some high⟩ (⟨some a⟩ : ExactNumber exp)
      = ⟨some (max low (min a high))⟩ := by
  simp only [Scalar.clamp, lt_some]
  split_ifs with hlow hhigh
  · rw [max_eq_left ((min_le_left _ _).trans hlow.le)]
  · rw [min_eq_right hhigh.le, max_eq_right h]
  · rw [min_eq_left (not_lt.1 hhigh), max_eq_right (not_lt.1 hlow)]

/-- The mean of some numbers is the quotient of their sum and their number. -/
lemma mean_some {xs : List ℝ} (h : xs ≠ []) :
    Scalar.mean (xs.map fun x => (⟨some x⟩ : ExactNumber exp)) = ⟨some (xs.sum / xs.length)⟩ := by
  have hsum (s : ℝ) : (xs.map fun x => (⟨some x⟩ : ExactNumber exp)).foldl (· + ·) ⟨some s⟩
      = ⟨some (s + xs.sum)⟩ := by
    clear h
    induction xs generalizing s with
    | nil => simp
    | cons x xs ih => rw [List.map_cons, List.foldl_cons, add_some, ih, List.sum_cons, add_assoc]
  have hzero : (-(0.0 : ExactNumber exp)) = ⟨some 0⟩ := by
    rw [zero_eq]
    exact congrArg (fun x => (⟨some x⟩ : ExactNumber exp)) neg_zero
  have hlength : (xs.length : ℝ) ≠ 0 := Nat.cast_ne_zero.2 (mt List.length_eq_zero_iff.1 h)
  rw [Scalar.mean, Scalar.sum, hzero, hsum, zero_add, List.length_map]
  exact div_some hlength

/-- Numbers of which each has a value form a list of real numbers. -/
lemma exists_reals {P : ℝ → Prop} {xs : List (ExactNumber exp)}
    (h : ∀ x ∈ xs, ∃ r, x = ⟨some r⟩ ∧ P r) :
    ∃ rs : List ℝ, rs.map (fun r => ⟨some r⟩) = xs ∧ ∀ r ∈ rs, P r := by
  induction xs with
  | nil => exact ⟨[], rfl, List.forall_mem_nil _⟩
  | cons x xs ih =>
    obtain ⟨⟨r, rfl, hr⟩, hrest⟩ := List.forall_mem_cons.1 h
    obtain ⟨rs, rfl, hrs⟩ := ih hrest
    exact ⟨r :: rs, rfl, List.forall_mem_cons.2 ⟨hr, hrs⟩⟩

lemma exists_reals_of_isNaN {xs : List (ExactNumber exp)} (h : ∀ x ∈ xs, Scalar.isNaN x = false) :
    ∃ rs : List ℝ, rs.map (fun r => ⟨some r⟩) = xs := by
  obtain ⟨rs, hrs, -⟩ := exists_reals (P := fun _ => True) fun x hx =>
    (exists_of_isNaN (h x hx)).imp fun _ hr => ⟨hr, trivial⟩
  exact ⟨rs, hrs⟩

/-- Numbers that are compared one by one are real numbers. -/
lemma exists_forall₂ {r : ℝ → ℝ → Prop} {xs ys : List (ExactNumber exp)}
    (h : List.Forall₂ (fun x y => holds r x y = true) xs ys) :
    ∃ as bs : List ℝ, as.map (fun a => ⟨some a⟩) = xs ∧ bs.map (fun b => ⟨some b⟩) = ys ∧
      List.Forall₂ r as bs := by
  induction h with
  | nil => exact ⟨[], [], rfl, rfl, .nil⟩
  | cons hxy _ ih =>
    obtain ⟨as, bs, rfl, rfl, hab⟩ := ih
    obtain ⟨a, b, rfl, rfl, hr⟩ := exists_of_holds hxy
    exact ⟨a :: as, b :: bs, rfl, rfl, .cons hr hab⟩

/-- If none of some numbers falls, their mean does not fall. -/
lemma mean_mono {xs ys : List (ExactNumber exp)} (hne : xs ≠ [])
    (h : List.Forall₂ (fun x y => Scalar.le x y = true) xs ys) :
    Scalar.le (Scalar.mean xs) (Scalar.mean ys) = true := by
  obtain ⟨as, bs, rfl, rfl, hab⟩ := exists_forall₂ h
  have hlength := hab.length_eq
  have hpos : as ≠ [] := by simpa using hne
  have hpos' : bs ≠ [] := fun hnil => hpos (List.length_eq_zero_iff.1 (by rw [hlength, hnil]; rfl))
  rw [mean_some hpos, mean_some hpos', le_some, hlength]
  exact div_le_div_of_nonneg_right hab.sum_le_sum (Nat.cast_nonneg _)

lemma div_count (m : Nat) {n : Nat} (hn : 0 < n) :
    (Scalar.ofCount m / Scalar.ofCount n : ExactNumber exp) = ⟨some (m / n)⟩ :=
  div_some (Nat.cast_ne_zero.2 (by omega))

/-- Texts of exact numbers are about their whole part; there is none in a document, where a number
has to be spelled in full. -/
noncomputable instance : NumberText (ExactNumber exp) where
  message x := Nat.repr (Scalar.wholePart x)
  document _ := none
  configuration x := Nat.repr (Scalar.wholePart x)
  fixed _ x := Nat.repr (Scalar.wholePart x)
  ofDecimal? m k := some ⟨some (m * 10 ^ k)⟩

instance : ExactCounts (ExactNumber exp) where
  countsTo limit := {
    isFinite_div := fun _ hn _ => by
      rw [div_count _ hn]
      rfl
    div_nonneg := fun _ hn _ => by
      rw [div_count _ hn, zero_eq, le_some]
      positivity
    div_le_one := fun h hn _ => by
      rw [div_count _ hn, one_eq, le_some]
      exact div_le_one_of_le₀ (Nat.cast_le.2 h) (Nat.cast_nonneg _) }
  reads _ := ⟨_, rfl, rfl⟩

instance : LawfulScalar (ExactNumber exp) where
  le_of_not_lt hx hy h := by
    obtain ⟨a, rfl⟩ := exists_of_isNaN hx
    obtain ⟨b, rfl⟩ := exists_of_isNaN hy
    rw [← Bool.not_eq_true, lt_some, not_lt] at h
    exact le_some.2 h
  lt_of_not_le hx hy h := by
    obtain ⟨a, rfl⟩ := exists_of_isNaN hx
    obtain ⟨b, rfl⟩ := exists_of_isNaN hy
    rw [← Bool.not_eq_true, le_some, not_le] at h
    exact lt_some.2 h
  isNaN_of_isFinite h := by
    obtain ⟨a, rfl⟩ := exists_of_isFinite h
    rfl
  isFinite_of_le_of_le _ _ h _ := by
    obtain ⟨a, b, rfl, rfl, -⟩ := exists_of_holds h
    rfl
  isFinite_tenths _ := rfl
  le_tenths h _ := by
    rw [tenths, tenths, le_some]
    gcongr
  countsTo _ := ExactCounts.countsTo _
  isNaN_sub hx hy := by
    obtain ⟨a, rfl⟩ := exists_of_isFinite hx
    obtain ⟨b, rfl⟩ := exists_of_isNaN hy
    rfl
  isNaN_div hx hy h := by
    obtain ⟨a, rfl⟩ := exists_of_isNaN hx
    obtain ⟨b, rfl⟩ := exists_of_isFinite hy
    rw [zero_eq, lt_some] at h
    rw [div_some h.ne']
    rfl
  isNaN_of_sub {x y} h := by
    obtain ⟨_ | a⟩ := x
    · cases h
    · obtain ⟨_ | b⟩ := y
      · cases h
      · rfl
  isNaN_of_div {x y} h := by
    obtain ⟨_ | a⟩ := x
    · cases h
    · obtain ⟨_ | b⟩ := y
      · cases h
      · exact ⟨rfl, rfl⟩
  sqrt_nonneg {x} h := by
    obtain ⟨b, hb⟩ := exists_of_isNaN h
    obtain ⟨a, -, ha⟩ := Option.bind_eq_some_iff.1 (congrArg value? hb)
    split at ha
    · cases ha
    · obtain rfl := Option.some.inj ha
      rw [hb, zero_eq, le_some]
      exact Real.sqrt_nonneg a
  abs_pos {x} h hne := by
    obtain ⟨_ | a⟩ := x
    · cases h
    · rw [zero_eq, ← Bool.not_eq_true, same_some] at hne
      rw [zero_eq]
      exact lt_some.2 (abs_pos.2 hne)
  div_nonneg _ hx hy := by
    rw [zero_eq] at hx hy ⊢
    obtain ⟨_, a, h, rfl, ha⟩ := exists_of_holds hx
    obtain ⟨_, b, h', rfl, hb⟩ := exists_of_holds hy
    cases h
    cases h'
    rw [div_some hb.ne', le_some]
    exact div_nonneg ha hb.le
  one_sub_le hx := by
    rw [zero_eq] at hx
    obtain ⟨_, a, h, rfl, ha⟩ := exists_of_holds hx
    cases h
    rw [one_eq, sub_some, le_some]
    exact sub_le_self 1 ha
  wholePart_lt x := (min_le_right _ _).trans_lt (by decide)
  nearest_lt x := (min_le_right _ _).trans_lt (by decide)

instance : OrderedScalar (ExactNumber exp) where
  isNaN_of_le h := by
    obtain ⟨a, b, rfl, rfl, -⟩ := exists_of_holds h
    exact ⟨rfl, rfl⟩
  le_of_not_lt hx hy h := LawfulScalar.le_of_not_lt hx hy h
  not_lt_of_le h := by
    obtain ⟨a, b, rfl, rfl, hab⟩ := exists_of_holds h
    rw [← Bool.not_eq_true, lt_some]
    exact not_lt.2 hab
  le_trans h h' := by
    obtain ⟨a, b, rfl, rfl, hab⟩ := exists_of_holds h
    obtain ⟨_, c, heq, rfl, hbc⟩ := exists_of_holds h'
    cases heq
    exact le_some.2 (hab.trans hbc)
  lt_of_lt_of_le h h' := by
    obtain ⟨a, b, rfl, rfl, hab⟩ := exists_of_holds h
    obtain ⟨_, c, heq, rfl, hbc⟩ := exists_of_holds h'
    cases heq
    exact lt_some.2 (hab.trans_le hbc)
  lt_of_le_of_lt h h' := by
    obtain ⟨a, b, rfl, rfl, hab⟩ := exists_of_holds h
    obtain ⟨_, c, heq, rfl, hbc⟩ := exists_of_holds h'
    cases heq
    exact lt_some.2 (hab.trans_lt hbc)
  le_tenths h hn := LawfulScalar.le_tenths h (by omega)
  not_lt_zero_div y := by
    rw [← Bool.not_eq_true, zero_eq]
    intro h
    obtain ⟨_, b, heq, hquotient, hpos⟩ := exists_of_holds h
    cases heq
    obtain ⟨_ | c⟩ := y
    · cases hquotient
    · rcases eq_or_ne c 0 with rfl | hc
      · change lift₂ _ _ _ = _ at hquotient
        simp [lift₂] at hquotient
      · change (⟨some ((0 : ℕ) : ℝ)⟩ / ⟨some c⟩ : ExactNumber exp) = _ at hquotient
        rw [div_some hc, Nat.cast_zero, zero_div] at hquotient
        cases hquotient
        exact lt_irrefl _ hpos

end ExactNumber

end HouseStyle
