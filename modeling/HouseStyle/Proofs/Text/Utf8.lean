import HouseStyle.Text.Utf8
import Mathlib.Tactic.Common

/-!
# Reading the bytes of a text

The bytes of a text are read as the same text: each character is written in one to four bytes, the
first of which says how many there are, and its number is put together again from their lower bits.

No other bytes are read at all.  What the first byte and the restricted second one leave is a number
that takes just so many bytes, so bytes that are read as a text are its bytes (`decode_eq_ok_iff`).
-/

namespace HouseStyle.Text

/-- The bytes of an array from an index on. -/
lemma byteArray_toList_loop (bytes : ByteArray) (i : Nat) (done : List UInt8) :
    ByteArray.toList.loop bytes i done = done.reverse ++ bytes.data.toList.drop i := by
  induction i, done using ByteArray.toList.loop.induct bytes with
  | case1 i done h ih =>
    have hi : i < bytes.data.toList.length := by simpa using h
    rw [ByteArray.toList.loop, if_pos h, ih, List.drop_eq_getElem_cons hi]
    simp [ByteArray.get!, getElem!_pos, h]
  | case2 i done h =>
    have hi : bytes.data.toList.length ≤ i := by simpa using h
    rw [ByteArray.toList.loop, if_neg h, List.drop_eq_nil_of_le hi, List.append_nil]

lemma encode_ofList (cs : List Char) :
    encode (String.ofList cs) = cs.flatMap String.utf8EncodeChar := by
  rw [encode, String.toUTF8_eq_toByteArray, String.toByteArray_ofList, ByteArray.toList,
    byteArray_toList_loop]
  simp [List.utf8Encode]

/-! ### Single bytes -/

lemma toNat_ofNat {n : Nat} (h : n < 256) : (UInt8.ofNat n).toNat = n :=
  UInt8.toNat_ofNat_of_lt h

/-- A further byte of a character holds six bits. -/
lemma continuation_ofNat {n : Nat} (h : n < 64) :
    isContinuation (UInt8.ofNat (n + 128)) = true ∧ lowBits (UInt8.ofNat (n + 128)) 6 = n := by
  have hbyte := toNat_ofNat (n := n + 128) (by omega)
  constructor
  · simp only [isContinuation, UInt8.le_iff_toNat_le, hbyte]
    simp
    omega
  · rw [lowBits, hbyte, Count.wordSize]
    change (n + 128) % 64 = n
    omega

lemma lowBits_ofNat {n count : Nat} (h : n < 256) :
    lowBits (UInt8.ofNat n) count = n % Count.wordSize count := by
  rw [lowBits, toNat_ofNat h]

/-! ### Characters -/

variable {a b c d : UInt8}

lemma not_lt_of_le (h : 128 ≤ a.toNat) : ¬ a < 0x80 := by
  rw [UInt8.lt_iff_toNat_lt]
  exact fun hlt => absurd (Nat.lt_of_le_of_lt h hlt) (by decide)

lemma between_iff {low high : UInt8} : (decide (low ≤ a) && decide (a ≤ high)) = true
    ↔ low.toNat ≤ a.toNat ∧ a.toNat ≤ high.toNat := by
  simp only [UInt8.le_iff_toNat_le, Bool.and_eq_true, decide_eq_true_eq]

/-- A byte above a range of bytes is not in it. -/
lemma not_between {low high : UInt8} (h : high.toNat < a.toNat) :
    ¬ (decide (low ≤ a) && decide (a ≤ high)) = true :=
  fun hin => Nat.not_le_of_lt h (between_iff.1 hin).2

lemma decodeFrom_one (h : a.toNat < 128) (rest : List UInt8) (offset : Nat) :
    decodeFrom offset (a :: rest) = consChar a.toNat (decodeFrom (offset + 1) rest) := by
  have hlt : a < 0x80 := UInt8.lt_iff_toNat_lt.2 h
  rw [decodeFrom.eq_def]
  exact if_pos hlt

lemma decodeFrom_two (ha : 194 ≤ a.toNat ∧ a.toNat < 224) (hb : isContinuation b = true)
    (rest : List UInt8) (offset : Nat) :
    decodeFrom offset (a :: b :: rest)
      = consChar (lowBits a 5 * 64 + lowBits b 6) (decodeFrom (offset + 2) rest) := by
  have h1 : ¬ a < 0x80 := not_lt_of_le (Nat.le_trans (by decide) ha.1)
  have h2 : (decide (0xC2 ≤ a) && decide (a ≤ 0xDF)) = true :=
    between_iff.2 ⟨ha.1, Nat.le_of_lt_succ ha.2⟩
  rw [decodeFrom.eq_def]
  simp only [if_neg h1, if_pos h2, hb, Bool.not_true, Bool.false_eq_true, if_false]

lemma decodeFrom_three (ha : 224 ≤ a.toNat ∧ a.toNat < 240) (hb : secondOfThree a b = true)
    (hc : isContinuation c = true) (rest : List UInt8) (offset : Nat) :
    decodeFrom offset (a :: b :: c :: rest)
      = consChar ((lowBits a 4 * 64 + lowBits b 6) * 64 + lowBits c 6)
          (decodeFrom (offset + 3) rest) := by
  have h1 : ¬ a < 0x80 := not_lt_of_le (Nat.le_trans (by decide) ha.1)
  have h2 : ¬ (decide (0xC2 ≤ a) && decide (a ≤ 0xDF)) = true :=
    not_between (Nat.lt_of_lt_of_le (by decide) ha.1)
  have h3 : (decide (0xE0 ≤ a) && decide (a ≤ 0xEF)) = true :=
    between_iff.2 ⟨ha.1, Nat.le_of_lt_succ ha.2⟩
  rw [decodeFrom.eq_def]
  simp only [if_neg h1, if_neg h2, if_pos h3, hb, hc, Bool.not_true, Bool.false_eq_true, if_false]

lemma decodeFrom_four (ha : 240 ≤ a.toNat ∧ a.toNat < 245) (hb : secondOfFour a b = true)
    (hc : isContinuation c = true) (hd : isContinuation d = true) (rest : List UInt8)
    (offset : Nat) :
    decodeFrom offset (a :: b :: c :: d :: rest)
      = consChar (((lowBits a 3 * 64 + lowBits b 6) * 64 + lowBits c 6) * 64 + lowBits d 6)
          (decodeFrom (offset + 4) rest) := by
  have h1 : ¬ a < 0x80 := not_lt_of_le (Nat.le_trans (by decide) ha.1)
  have h2 : ¬ (decide (0xC2 ≤ a) && decide (a ≤ 0xDF)) = true :=
    not_between (Nat.lt_of_lt_of_le (by decide) ha.1)
  have h3 : ¬ (decide (0xE0 ≤ a) && decide (a ≤ 0xEF)) = true :=
    not_between (Nat.lt_of_lt_of_le (by decide) ha.1)
  have h4 : (decide (0xF0 ≤ a) && decide (a ≤ 0xF4)) = true :=
    between_iff.2 ⟨ha.1, Nat.le_of_lt_succ ha.2⟩
  rw [decodeFrom.eq_def]
  simp only [if_neg h1, if_neg h2, if_neg h3, if_pos h4, hb, hc, hd, Bool.not_true,
    Bool.false_eq_true, if_false]

/-- The second byte of three is restricted so that no character has a shorter form or is half of
another one. -/
lemma secondOfThree_ofNat {v : Nat} (h : 2048 ≤ v) (hv : v < 55296 ∨ 57343 < v)
    (hlt : v < 65536) :
    secondOfThree (UInt8.ofNat (v / 4096 % 16 + 224)) (UInt8.ofNat (v / 64 % 64 + 128)) = true := by
  have ha := toNat_ofNat (n := v / 4096 % 16 + 224) (by omega)
  have hb := toNat_ofNat (n := v / 64 % 64 + 128) (by omega)
  rw [secondOfThree]
  simp only [← UInt8.toNat_inj, isContinuation, UInt8.le_iff_toNat_le, ha, hb]
  simp only [UInt8.reduceToNat]
  split_ifs <;> simp only [Bool.and_eq_true, decide_eq_true_eq] <;> omega

lemma secondOfFour_ofNat {v : Nat} (h : 65536 ≤ v) (hv : v < 1114112) :
    secondOfFour (UInt8.ofNat (v / 262144 % 8 + 240)) (UInt8.ofNat (v / 4096 % 64 + 128))
      = true := by
  have ha := toNat_ofNat (n := v / 262144 % 8 + 240) (by omega)
  have hb := toNat_ofNat (n := v / 4096 % 64 + 128) (by omega)
  rw [secondOfFour]
  simp only [← UInt8.toNat_inj, isContinuation, UInt8.le_iff_toNat_le, ha, hb]
  simp only [UInt8.reduceToNat]
  split_ifs <;> simp only [Bool.and_eq_true, decide_eq_true_eq] <;> omega

/-- A character is read from its bytes. -/
lemma decodeFrom_utf8EncodeChar (ch : Char) (rest : List UInt8) (offset : Nat) :
    ∃ size, decodeFrom offset (String.utf8EncodeChar ch ++ rest)
      = (decodeFrom (offset + size) rest).map (ch :: ·) := by
  have hvalid : ch.val.toNat < 55296 ∨ 57343 < ch.val.toNat ∧ ch.val.toNat < 1114112 := ch.valid
  have hchar : ∀ n, n = ch.val.toNat → ∀ r, consChar n r = r.map (ch :: ·) := by
    rintro n rfl r
    rw [consChar]
    exact congrArg (fun c => r.map (c :: ·)) (Char.ofNat_toNat ch)
  rw [String.utf8EncodeChar]
  generalize ch.val.toNat = v at hvalid hchar
  split_ifs with h1 h2 h3
  · have hfirst := toNat_ofNat (n := v) (by omega)
    refine ⟨1, ?_⟩
    rw [List.singleton_append, decodeFrom_one (by omega), hchar _ hfirst]
  · have ha := toNat_ofNat (n := v / 64 % 32 + 192) (by omega)
    have hb := continuation_ofNat (n := v % 64) (by omega)
    refine ⟨2, ?_⟩
    rw [List.cons_append, List.singleton_append, decodeFrom_two (by omega) hb.1, hchar]
    rw [hb.2, lowBits_ofNat (by omega)]
    change (v / 64 % 32 + 192) % 32 * 64 + v % 64 = v
    omega
  · have ha := toNat_ofNat (n := v / 4096 % 16 + 224) (by omega)
    have hb := continuation_ofNat (n := v / 64 % 64) (by omega)
    have hc := continuation_ofNat (n := v % 64) (by omega)
    refine ⟨3, ?_⟩
    rw [List.cons_append, List.cons_append, List.singleton_append,
      decodeFrom_three (by omega) (secondOfThree_ofNat (by omega) (by omega) (by omega)) hc.1,
      hchar]
    rw [hb.2, hc.2, lowBits_ofNat (by omega)]
    change ((v / 4096 % 16 + 224) % 16 * 64 + v / 64 % 64) * 64 + v % 64 = v
    omega
  · have ha := toNat_ofNat (n := v / 262144 % 8 + 240) (by omega)
    have hb := continuation_ofNat (n := v / 4096 % 64) (by omega)
    have hc := continuation_ofNat (n := v / 64 % 64) (by omega)
    have hd := continuation_ofNat (n := v % 64) (by omega)
    refine ⟨4, ?_⟩
    rw [List.cons_append, List.cons_append, List.cons_append, List.singleton_append,
      decodeFrom_four (by omega) (secondOfFour_ofNat (by omega) (by omega)) hc.1 hd.1, hchar]
    rw [hb.2, hc.2, hd.2, lowBits_ofNat (by omega)]
    change (((v / 262144 % 8 + 240) % 8 * 64 + v / 4096 % 64) * 64 + v / 64 % 64) * 64 + v % 64 = v
    omega

/-- A text is read from its bytes. -/
theorem decode_encode (s : String) : decode (encode s) = .ok s.toList := by
  obtain ⟨cs, rfl⟩ : ∃ cs, s = String.ofList cs := ⟨s.toList, String.ofList_toList.symm⟩
  have hfrom : ∀ offset, decodeFrom offset (cs.flatMap String.utf8EncodeChar) = .ok cs := by
    induction cs with
    | nil => intro offset; rfl
    | cons c cs ih =>
      intro offset
      obtain ⟨size, hsize⟩ :=
        decodeFrom_utf8EncodeChar c (cs.flatMap String.utf8EncodeChar) offset
      rw [List.flatMap_cons, hsize, ih]
      rfl
  rw [decode, encode_ofList, hfrom, String.toList_ofList]

/-! ### Back to the bytes -/

lemma toNat_val_ofNat {n : Nat} (h : n.isValidChar) : (Char.ofNat n).val.toNat = n := by
  rw [Char.ofNat, dif_pos h]
  rfl

lemma ofNat_eq {n : Nat} (h : n = a.toNat) : UInt8.ofNat n = a := by rw [h, UInt8.ofNat_toNat]

lemma isContinuation_iff : isContinuation b = true ↔ 128 ≤ b.toNat ∧ b.toNat < 192 := by
  rw [isContinuation, between_iff]
  exact and_congr_right fun _ => Nat.lt_succ_iff.symm

lemma secondOfThree_iff : secondOfThree a b = true ↔
    (128 ≤ b.toNat ∧ b.toNat < 192) ∧ (a.toNat = 224 → 160 ≤ b.toNat) ∧
      (a.toNat = 237 → b.toNat < 160) := by
  rw [secondOfThree]
  simp only [← UInt8.toNat_inj, isContinuation, UInt8.le_iff_toNat_le]
  simp only [UInt8.reduceToNat]
  split_ifs <;> simp only [Bool.and_eq_true, decide_eq_true_eq] <;> omega

lemma secondOfFour_iff : secondOfFour a b = true ↔
    (128 ≤ b.toNat ∧ b.toNat < 192) ∧ (a.toNat = 240 → 144 ≤ b.toNat) ∧
      (a.toNat = 244 → b.toNat < 144) := by
  rw [secondOfFour]
  simp only [← UInt8.toNat_inj, isContinuation, UInt8.le_iff_toNat_le]
  simp only [UInt8.reduceToNat]
  split_ifs <;> simp only [Bool.and_eq_true, decide_eq_true_eq] <;> omega

/-- The lower bits of a further byte. -/
lemma lowBits_continuation (h : 128 ≤ b.toNat ∧ b.toNat < 192) : lowBits b 6 = b.toNat - 128 := by
  change b.toNat % 64 = _
  omega

lemma utf8EncodeChar_one (h : a.toNat < 128) :
    String.utf8EncodeChar (Char.ofNat a.toNat) = [a] := by
  rw [String.utf8EncodeChar, toNat_val_ofNat (.inl (by omega)), if_pos (by omega),
    UInt8.ofNat_toNat]

lemma utf8EncodeChar_two (ha : 194 ≤ a.toNat ∧ a.toNat < 224) (hb : isContinuation b = true) :
    String.utf8EncodeChar (Char.ofNat (lowBits a 5 * 64 + lowBits b 6)) = [a, b] := by
  rw [isContinuation_iff] at hb
  have ha' : lowBits a 5 = a.toNat - 192 := by
    change a.toNat % 32 = _
    omega
  rw [ha', lowBits_continuation hb, String.utf8EncodeChar, toNat_val_ofNat (.inl (by omega)),
    if_neg (by omega), if_pos (by omega), ofNat_eq (a := a) (by omega),
    ofNat_eq (a := b) (by omega)]

lemma utf8EncodeChar_three (ha : 224 ≤ a.toNat ∧ a.toNat < 240) (hb : secondOfThree a b = true)
    (hc : isContinuation c = true) :
    String.utf8EncodeChar (Char.ofNat ((lowBits a 4 * 64 + lowBits b 6) * 64 + lowBits c 6))
      = [a, b, c] := by
  rw [isContinuation_iff] at hc
  rw [secondOfThree_iff] at hb
  have ha' : lowBits a 4 = a.toNat - 224 := by
    change a.toNat % 16 = _
    omega
  -- the restricted second byte leaves out the halves of other characters
  have hvalid : (((a.toNat - 224) * 64 + (b.toNat - 128)) * 64 + (c.toNat - 128)).isValidChar := by
    rw [Nat.isValidChar]
    omega
  rw [ha', lowBits_continuation hb.1, lowBits_continuation hc, String.utf8EncodeChar,
    toNat_val_ofNat hvalid, if_neg (by omega), if_neg (by omega), if_pos (by omega),
    ofNat_eq (a := a) (by omega), ofNat_eq (a := b) (by omega), ofNat_eq (a := c) (by omega)]

lemma utf8EncodeChar_four (ha : 240 ≤ a.toNat ∧ a.toNat < 245) (hb : secondOfFour a b = true)
    (hc : isContinuation c = true) (hd : isContinuation d = true) :
    String.utf8EncodeChar
        (Char.ofNat (((lowBits a 3 * 64 + lowBits b 6) * 64 + lowBits c 6) * 64 + lowBits d 6))
      = [a, b, c, d] := by
  rw [isContinuation_iff] at hc hd
  rw [secondOfFour_iff] at hb
  have ha' : lowBits a 3 = a.toNat - 240 := by
    change a.toNat % 8 = _
    omega
  have hvalid : ((((a.toNat - 240) * 64 + (b.toNat - 128)) * 64 + (c.toNat - 128)) * 64
      + (d.toNat - 128)).isValidChar := by
    rw [Nat.isValidChar]
    omega
  rw [ha', lowBits_continuation hb.1, lowBits_continuation hc, lowBits_continuation hd,
    String.utf8EncodeChar, toNat_val_ofNat hvalid, if_neg (by omega), if_neg (by omega),
    if_neg (by omega), ofNat_eq (a := a) (by omega), ofNat_eq (a := b) (by omega),
    ofNat_eq (a := c) (by omega), ofNat_eq (a := d) (by omega)]

lemma consChar_eq_ok {code : Nat} {rest : Except Utf8Fault (List Char)} {cs : List Char}
    (h : consChar code rest = .ok cs) : ∃ cs', rest = .ok cs' ∧ cs = Char.ofNat code :: cs' := by
  cases rest with
  | error fault => cases h
  | ok cs' => exact ⟨cs', rfl, (Except.ok.inj h).symm⟩

/-- The bytes that are read as some characters are those in which they are written. -/
lemma flatMap_of_decodeFrom {offset : Nat} {bytes : List UInt8} {cs : List Char}
    (h : decodeFrom offset bytes = .ok cs) : cs.flatMap String.utf8EncodeChar = bytes := by
  fun_induction decodeFrom offset bytes generalizing cs with
  | case1 =>
    obtain rfl := Except.ok.inj h
    rfl
  | case2 offset a rest ha ih =>
    obtain ⟨cs', hrest, rfl⟩ := consChar_eq_ok h
    rw [List.flatMap_cons, ih hrest, utf8EncodeChar_one (UInt8.lt_iff_toNat_lt.1 ha)]
    rfl
  | case5 offset a _ ha b rest hb ih =>
    obtain ⟨cs', hrest, rfl⟩ := consChar_eq_ok h
    have hfirst := between_iff.1 ha
    rw [List.flatMap_cons, ih hrest,
      utf8EncodeChar_two ⟨hfirst.1, Nat.lt_succ_of_le hfirst.2⟩ (by simpa using hb)]
    rfl
  | case10 offset a _ _ ha b hb c rest hc ih =>
    obtain ⟨cs', hrest, rfl⟩ := consChar_eq_ok h
    have hfirst := between_iff.1 ha
    rw [List.flatMap_cons, ih hrest, utf8EncodeChar_three
      ⟨hfirst.1, Nat.lt_succ_of_le hfirst.2⟩ (by simpa using hb) (by simpa using hc)]
    rfl
  | case17 offset a _ _ _ ha b hb c hc d rest hd ih =>
    obtain ⟨cs', hrest, rfl⟩ := consChar_eq_ok h
    have hfirst := between_iff.1 ha
    rw [List.flatMap_cons, ih hrest, utf8EncodeChar_four ⟨hfirst.1, Nat.lt_succ_of_le hfirst.2⟩
      (by simpa using hb) (by simpa using hc) (by simpa using hd)]
    rfl
  | _ => cases h

/-- Bytes are read as a text exactly if they are those of the text. -/
theorem decode_eq_ok_iff {bytes : List UInt8} {s : String} :
    decode bytes = .ok s.toList ↔ bytes = encode s := by
  constructor
  · intro h
    rw [← String.ofList_toList (s := s), encode_ofList, flatMap_of_decodeFrom h]
  · rintro rfl
    exact decode_encode s
end HouseStyle.Text
