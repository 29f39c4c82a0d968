import HouseStyle.EntryName
import HouseStyle.Proofs.Text.Utf8

/-!
# Names and their bytes

A name is determined by its bytes (`EntryName.bytes_injective`), but not by the text that is shown
for it.  This text goes on behind each part of the bytes that is wrong, as often as there is one
(`Text.lossy_eq`), and of a text it is the text itself.
-/

namespace HouseStyle

namespace Text

lemma consChar_eq_error {code : Nat} {rest : Except Utf8Fault (List Char)} {fault : Utf8Fault} :
    consChar code rest = .error fault ↔ rest = .error fault := by
  cases rest <;> simp [consChar, Except.map]

/-- A part that is wrong has a byte. -/
lemma wrong_pos {bytes : List UInt8} {offset n : Nat} {fault : Utf8Fault}
    (h : decodeFrom offset bytes = .error fault) (hn : fault.wrong = some n) : 0 < n := by
  fun_induction decodeFrom offset bytes <;> simp_all [consChar_eq_error] <;> subst h <;>
    simp_all <;> omega

/-- There are no more wrong parts than bytes. -/
lemma replaceWrong_congr {p q : Nat} {bytes : List UInt8} (h : bytes.length < p)
    (h' : bytes.length < q) : replaceWrong p bytes = replaceWrong q bytes := by
  induction p generalizing q bytes with
  | zero => omega
  | succ p ih =>
    obtain ⟨q, rfl⟩ := Nat.exists_eq_succ_of_ne_zero (Nat.ne_of_gt (Nat.zero_lt_of_lt h'))
    rw [replaceWrong, replaceWrong]
    cases hdecode : decode bytes with
    | ok cs => rfl
    | error fault =>
      have hnil : bytes ≠ [] := by
        rintro rfl
        cases hdecode
      cases hwrong : fault.wrong with
      | none => simp only [hwrong]
      | some n =>
        have hpos := wrong_pos hdecode hwrong
        have hlength : 0 < bytes.length := List.length_pos_iff.2 hnil
        simp only [hwrong]
        rw [ih (q := q)] <;> rw [List.length_drop] <;> omega

/-- What is shown for some bytes: the text if they are one, and else what can be read before the
first wrong part, a replacement for this part, and what is shown for the bytes behind it. -/
theorem lossy_eq (bytes : List UInt8) : lossy bytes =
    match decode bytes with
    | .ok cs => String.ofList cs
    | .error fault =>
      String.ofList ((decode (bytes.take fault.offset)).toOption.getD [] ++ [replacement]) ++
        match fault.wrong with
        | none => ""
        | some n => lossy (bytes.drop (fault.offset + n)) := by
  rw [lossy, replaceWrong]
  cases hdecode : decode bytes with
  | ok cs => rfl
  | error fault =>
    have hnil : bytes ≠ [] := by
      rintro rfl
      cases hdecode
    cases hwrong : fault.wrong with
    | none => simp [hwrong]
    | some n =>
      have hpos := wrong_pos hdecode hwrong
      have hlength : 0 < bytes.length := List.length_pos_iff.2 hnil
      simp only [hwrong]
      rw [lossy, replaceWrong_congr (q := (bytes.drop (fault.offset + n)).length + 1)]
      · rw [← String.ofList_append, List.append_assoc]
        rfl
      · rw [List.length_drop]
        omega
      · omega

end Text

namespace EntryName

@[simp] lemma text_beq_text (name other : String) :
    (text name == text other) = (name == other) := by
  rw [Bool.eq_iff_iff, beq_iff_eq, beq_iff_eq, text.injEq]

/-- Names with the same bytes are the same. -/
theorem bytes_injective : Function.Injective bytes := by
  have hmixed {name : String} {other : RawBytes} (h : Text.encode name = other.bytes) : False := by
    have hdecode := other.no_text
    rw [← h, Text.decode_encode] at hdecode
    cases hdecode
  intro a b h
  cases a with
  | text name =>
    cases b with
    | text other =>
      have hdecode := Text.decode_encode name
      rw [show Text.encode name = Text.encode other from h, Text.decode_encode] at hdecode
      rw [String.toList_inj.1 (Except.ok.inj hdecode)]
    | raw other => exact (hmixed h).elim
  | raw name =>
    cases b with
    | text other => exact (hmixed h.symm).elim
    | raw other =>
      obtain ⟨bytes, hbytes⟩ := name
      obtain ⟨bytes', hbytes'⟩ := other
      obtain rfl : bytes = bytes' := h
      rfl

end EntryName

/-- A name that is no text, although it starts with a dot and has an extension. -/
def rawDotted : EntryName := .raw ⟨[0x2E, 0xFF, 0x2E, 0x70, 0x79], by decide⟩

end HouseStyle
