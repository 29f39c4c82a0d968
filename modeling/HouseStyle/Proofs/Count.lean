import HouseStyle.Count
import Mathlib.Algebra.BigOperators.Ring.List
import Mathlib.Algebra.Order.BigOperators.Group.List
import Mathlib.Algebra.Order.Ring.Nat
import Mathlib.Data.List.Forall2

/-!
# Sums of counts

The sums of the library are those of lists of natural numbers (`Count.sum_eq_sum`).
-/

namespace HouseStyle.Count

lemma sum_eq_sum (ns : List Nat) : sum ns = ns.sum := by
  induction ns with
  | nil => rfl
  | cons n ns ih => rw [sum_cons, ih, List.sum_cons]

lemma sum_congr {ns ns' : List Nat} (h : ns.Perm ns') : sum ns = sum ns' := by
  rw [sum_eq_sum, sum_eq_sum, h.sum_eq]

lemma sum_le_of_sublist {ns ns' : List Nat} (h : ns.Sublist ns') : sum ns ≤ sum ns' := by
  rw [sum_eq_sum, sum_eq_sum]
  exact h.sum_le_sum fun n _ => Nat.zero_le n

lemma sum_pos_iff {ns : List Nat} : 0 < sum ns ↔ ∃ n ∈ ns, 0 < n := by
  rw [sum_eq_sum]
  exact List.sum_pos_iff_exists_pos_nat

lemma le_sum_of_mem {ns : List Nat} {n : Nat} (h : n ∈ ns) : n ≤ sum ns := by
  rw [sum_eq_sum]
  exact List.le_sum_of_mem h

lemma sum_le_length_mul {ns : List Nat} {n : Nat} (h : ∀ m ∈ ns, m ≤ n) :
    sum ns ≤ ns.length * n := by
  rw [sum_eq_sum]
  exact List.sum_le_card_nsmul ns n h

lemma length_mul_le_sum {ns : List Nat} {n : Nat} (h : ∀ m ∈ ns, n ≤ m) :
    ns.length * n ≤ sum ns := by
  rw [sum_eq_sum]
  exact List.card_nsmul_le_sum ns n h

variable {β : Type} {l : List β} {f g : β → Nat}

/-- Where each step adds to a count, a fold adds the sum of the parts. -/
lemma foldl_eq_add {σ : Type} {step : σ → β → σ} (count : σ → Nat)
    (h : ∀ s b, count (step s b) = count s + f b) (l : List β) (s : σ) :
    count (l.foldl step s) = count s + sum (l.map f) := by
  induction l generalizing s with
  | nil => rfl
  | cons b l ih => rw [List.foldl_cons, ih, h, List.map_cons, sum_cons, Nat.add_assoc]

lemma sum_map_le_sum_map (h : ∀ b ∈ l, f b ≤ g b) : sum (l.map f) ≤ sum (l.map g) := by
  rw [sum_eq_sum, sum_eq_sum]
  exact List.sum_le_sum h

lemma sum_map_mul_left (k : Nat) (f : β → Nat) (l : List β) :
    sum (l.map fun b => k * f b) = k * sum (l.map f) := by
  rw [sum_eq_sum, sum_eq_sum, List.sum_map_mul_left]

/-- Where no count is greater than another, their sums agree only if all of them do. -/
lemma sum_map_eq_sum_map_iff (h : ∀ b ∈ l, f b ≤ g b) :
    sum (l.map f) = sum (l.map g) ↔ ∀ b ∈ l, f b = g b := by
  constructor
  · intro hsum b hb
    by_contra hne
    rw [sum_eq_sum, sum_eq_sum] at hsum
    exact (List.sum_lt_sum f g h ⟨b, hb, Nat.lt_of_le_of_ne (h b hb) hne⟩).ne hsum
  · intro heq
    rw [List.map_congr_left heq]

/-! ### Lists that are related one by one -/

section Forall₂

variable {γ : Type} {m : List γ}

lemma sum_map_le_of_forall₂ {f : β → Nat} {g : γ → Nat}
    (h : List.Forall₂ (fun b c => f b ≤ g c) l m) :
    sum (l.map f) ≤ sum (m.map g) := by
  rw [sum_eq_sum, sum_eq_sum]
  refine List.Forall₂.sum_le_sum ?_
  rwa [List.forall₂_map_left_iff, List.forall₂_map_right_iff]

lemma countP_le_of_forall₂ {p : β → Bool} {q : γ → Bool}
    (h : List.Forall₂ (fun b c => p b = true → q c = true) l m) : l.countP p ≤ m.countP q := by
  induction h with
  | nil => exact Nat.le_refl _
  | @cons b c l m hbc _ ih =>
    rw [List.countP_cons, List.countP_cons]
    refine Nat.add_le_add ih ?_
    split_ifs with hb hc
    · exact Nat.le_refl _
    · exact absurd (hbc hb) hc
    · exact Nat.zero_le _
    · exact Nat.le_refl _

end Forall₂

end HouseStyle.Count
