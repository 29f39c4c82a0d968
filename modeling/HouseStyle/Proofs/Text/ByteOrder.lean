import HouseStyle.Proofs.Text.Utf8

/-!
# The order of bytes

Texts are ordered by their characters, and the bytes in which they are written are ordered in the
same way (`Text.encode_lt_iff`): the first byte of a character tells how many there are, more of
them for greater characters, and of characters with equally many the bytes are the digits.
-/

namespace HouseStyle.Text

/-- Numbers compare like their digits. -/
lemma div_lt_or_mod_lt {v w : Nat} (k : Nat) (h : v < w) :
    v / k < w / k ∨ v / k = w / k ∧ v % k < w % k := by
  rcases Nat.lt_or_eq_of_le (Nat.div_le_div_right (c := k) (Nat.le_of_lt h)) with hlt | heq
  · exact Or.inl hlt
  · refine Or.inr ⟨heq, ?_⟩
    have hv := Nat.div_add_mod v k
    have hw := Nat.div_add_mod w k
    rw [heq] at hv
    omega

/-- The bytes of a greater character are greater, whatever follows. -/
lemma utf8EncodeChar_append_lt {c d : Char} (h : c < d) (bs bs' : List UInt8) :
    String.utf8EncodeChar c ++ bs < String.utf8EncodeChar d ++ bs' := by
  have hlt : c.val.toNat < d.val.toNat := h
  have hd : d.val.toNat < 1114112 := by
    rcases d.valid with hd | ⟨-, hd⟩
    · exact Nat.lt_trans hd (by decide)
    · exact hd
  have hdigits (n : Nat) : n / 4096 = n / 64 / 64 ∧ n / 262144 = n / 64 / 64 / 64 := by omega
  simp only [String.utf8EncodeChar]
  generalize c.val.toNat = v at *
  generalize d.val.toNat = w at *
  split_ifs <;>
  simp only [List.cons_append, List.nil_append, List.cons_lt_cons_iff, UInt8.lt_iff_toNat_lt,
    ← UInt8.toNat_inj, UInt8.toNat_ofNat', (hdigits _).1, (hdigits _).2]
  case neg =>
    -- both have four bytes
    rcases div_lt_or_mod_lt 64 hlt with hlt | ⟨heq, hlt⟩
    · rcases div_lt_or_mod_lt 64 hlt with hlt | ⟨heq, hlt⟩
      · rcases div_lt_or_mod_lt 64 hlt with hlt | ⟨heq, hlt⟩ <;> omega
      · omega
    · omega
  all_goals omega

/-- The bytes of a lesser text are lesser. -/
lemma flatMap_utf8EncodeChar_lt {cs ds : List Char} (h : cs < ds) :
    cs.flatMap String.utf8EncodeChar < ds.flatMap String.utf8EncodeChar := by
  induction cs generalizing ds with
  | nil =>
    cases ds with
    | nil => exact absurd h (List.not_lt_nil _)
    | cons d ds =>
      rw [List.flatMap_nil, List.flatMap_cons, String.utf8EncodeChar]
      split_ifs <;> exact List.nil_lt_cons _ _
  | cons c cs ih =>
    cases ds with
    | nil => exact absurd h (List.not_lt_nil _)
    | cons d ds =>
      rw [List.flatMap_cons, List.flatMap_cons]
      rcases List.cons_lt_cons_iff.1 h with hlt | ⟨rfl, hlt⟩
      · exact utf8EncodeChar_append_lt hlt _ _
      · exact List.append_left_lt (ih hlt)

lemma encode_lt {s t : String} (h : s < t) : encode s < encode t := by
  have hbytes : s.toList.flatMap String.utf8EncodeChar < t.toList.flatMap String.utf8EncodeChar :=
    flatMap_utf8EncodeChar_lt h
  rwa [← encode_ofList, ← encode_ofList, String.ofList_toList, String.ofList_toList] at hbytes

/-- Texts are ordered like their bytes. -/
theorem encode_lt_iff {s t : String} : encode s < encode t ↔ s < t := by
  refine ⟨fun h => ?_, encode_lt⟩
  by_contra hnot
  by_cases hlt : t < s
  · exact List.lt_asymm h (encode_lt hlt)
  · obtain rfl := String.le_antisymm (String.not_lt.1 hlt) (String.not_lt.1 hnot)
    exact List.lt_irrefl _ h

/-- One text is at most another if its bytes are. -/
lemma encode_le_iff {s t : String} : encode s ≤ encode t ↔ s ≤ t := by
  rw [← String.not_lt, ← encode_lt_iff, List.not_lt]

end HouseStyle.Text
