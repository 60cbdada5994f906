import CairoAsm.Text.Utf8

namespace CairoAsm.Text.Utf8

section
variable {position first : Nat} {begun : Option Begun} {done : List Char} {byte : UInt8}
  {rest : List UInt8} {s : Begun}

theorem decodeFrom_done (advanced : advance? begun byte.toNat = some s) (complete : s.owed = 0) :
    decodeFrom position first begun done (byte :: rest) =
      decodeFrom (position + 1) (if begun.isNone then byte.toNat else first) none
        (Char.ofNat s.bits :: done) rest := by
  simp only [decodeFrom, advanced, complete, if_true]

theorem decodeFrom_owing (advanced : advance? begun byte.toNat = some s) (owing : s.owed ≠ 0) :
    decodeFrom position first begun done (byte :: rest) =
      decodeFrom (position + 1) (if begun.isNone then byte.toNat else first) (some s) done
        rest := by
  simp only [decodeFrom, advanced, owing, if_false]

/-- Between characters the leading byte of the last one plays no part. -/
theorem decodeFrom_first (other : Nat) (bytes : List UInt8) :
    decodeFrom position first none done bytes = decodeFrom position other none done bytes := by
  cases bytes with
  | nil => rfl
  | cons byte rest => rfl

end

def IsTail (b : UInt8) : Prop := 0x80 ≤ b.toNat ∧ b.toNat ≤ 0xbf

theorem advance?_some {s : Begun} {b : Nat} (low : s.low ≤ b) (high : b ≤ s.high) :
    advance? (some s) b =
      some ⟨s.seen + 1, s.owed - 1, 0x80, 0xbf, s.bits * 0x40 + (b - 0x80)⟩ :=
  if_pos ⟨low, high⟩

section
variable (position first : Nat) (done : List Char) (rest : List UInt8) {a b c d : UInt8}

theorem decodeFrom_one (lead : a.toNat < 0x80) :
    decodeFrom position first none done (a :: rest) =
      decodeFrom (position + 1) 0 none (Char.ofNat a.toNat :: done) rest := by
  have begun : advance? none a.toNat = some ⟨1, 0, 0, 0, a.toNat⟩ := if_pos lead
  rw [decodeFrom_done begun rfl]
  exact decodeFrom_first 0 rest

theorem decodeFrom_two (low : 0xc2 ≤ a.toNat) (high : a.toNat < 0xe0) (second : IsTail b) :
    decodeFrom position first none done (a :: b :: rest) =
      decodeFrom (position + 2) 0 none
        (Char.ofNat ((a.toNat - 0xc0) * 0x40 + (b.toNat - 0x80)) :: done) rest := by
  have begun : advance? none a.toNat = some ⟨1, 1, 0x80, 0xbf, a.toNat - 0xc0⟩ := by
    rw [advance?, begin?, if_neg (by omega), if_neg (by omega), if_pos high]
  rw [decodeFrom_owing begun (by simp), decodeFrom_done (advance?_some second.1 second.2) rfl]
  exact decodeFrom_first 0 rest

theorem decodeFrom_three (low : 0xe0 ≤ a.toNat) (high : a.toNat < 0xf0)
    (second : (if a.toNat = 0xe0 then 0xa0 else 0x80) ≤ b.toNat ∧
      b.toNat ≤ if a.toNat = 0xed then 0x9f else 0xbf) (third : IsTail c) :
    decodeFrom position first none done (a :: b :: c :: rest) =
      decodeFrom (position + 3) 0 none
        (Char.ofNat (((a.toNat - 0xe0) * 0x40 + (b.toNat - 0x80)) * 0x40 + (c.toNat - 0x80)) ::
          done) rest := by
  have begun : advance? none a.toNat = some ⟨1, 2, if a.toNat = 0xe0 then 0xa0 else 0x80,
      if a.toNat = 0xed then 0x9f else 0xbf, a.toNat - 0xe0⟩ := by
    rw [advance?, begin?, if_neg (by omega), if_neg (by omega), if_neg (by omega), if_pos high]
  rw [decodeFrom_owing begun (by simp),
    decodeFrom_owing (advance?_some second.1 second.2) (by simp),
    decodeFrom_done (advance?_some third.1 third.2) rfl]
  exact decodeFrom_first 0 rest

theorem decodeFrom_four (low : 0xf0 ≤ a.toNat) (high : a.toNat < 0xf5)
    (second : (if a.toNat = 0xf0 then 0x90 else 0x80) ≤ b.toNat ∧
      b.toNat ≤ if a.toNat = 0xf4 then 0x8f else 0xbf) (third : IsTail c) (fourth : IsTail d) :
    decodeFrom position first none done (a :: b :: c :: d :: rest) =
      decodeFrom (position + 4) 0 none
        (Char.ofNat ((((a.toNat - 0xf0) * 0x40 + (b.toNat - 0x80)) * 0x40 +
          (c.toNat - 0x80)) * 0x40 + (d.toNat - 0x80)) :: done) rest := by
  have begun : advance? none a.toNat = some ⟨1, 3, if a.toNat = 0xf0 then 0x90 else 0x80,
      if a.toNat = 0xf4 then 0x8f else 0xbf, a.toNat - 0xf0⟩ := by
    rw [advance?, begin?, if_neg (by omega), if_neg (by omega), if_neg (by omega),
      if_neg (by omega), if_pos high]
  rw [decodeFrom_owing begun (by simp),
    decodeFrom_owing (advance?_some second.1 second.2) (by simp),
    decodeFrom_owing (advance?_some third.1 third.2) (by simp),
    decodeFrom_done (advance?_some fourth.1 fourth.2) rfl]
  exact decodeFrom_first 0 rest

end

theorem toNat_ofNat_byte {n : Nat} (h : n < 256) : (UInt8.ofNat n).toNat = n := by
  rw [UInt8.toNat_ofNat']
  exact Nat.mod_eq_of_lt h

theorem isTail_ofNat (n : Nat) : IsTail (UInt8.ofNat (n % 64 + 128)) := by
  rw [IsTail, toNat_ofNat_byte (by omega)]
  omega

/-- The bytes of a character are decoded as that character. -/
theorem decodeFrom_char (position first : Nat) (done : List Char) (c : Char)
    (rest : List UInt8) :
    ∃ next, decodeFrom position first none done (String.utf8EncodeChar c ++ rest) =
      decodeFrom next 0 none (c :: done) rest := by
  have scalar : c.toNat < 0xd800 ∨ 0xdfff < c.toNat ∧ c.toNat < 0x110000 := c.valid
  have whole : Char.ofNat c.toNat = c := Char.ofNat_toNat c
  have same : c.val.toNat = c.toNat := rfl
  rw [String.utf8EncodeChar.eq_1, same]
  generalize c.toNat = v at *
  have tail : ∀ n, (UInt8.ofNat (n % 64 + 128)).toNat = n % 64 + 128 :=
    fun n => toNat_ofNat_byte (by omega)
  by_cases one : v ≤ 127
  · have lead := toNat_ofNat_byte (show v < 256 by omega)
    refine ⟨position + 1, ?_⟩
    rw [if_pos one, List.singleton_append, decodeFrom_one _ _ _ _ (by omega), lead, whole]
  by_cases two : v ≤ 2047
  · have lead := toNat_ofNat_byte (show v / 64 % 32 + 192 < 256 by omega)
    have bits : (v / 64 % 32 + 192 - 0xc0) * 0x40 + (v % 64 + 128 - 0x80) = v := by omega
    refine ⟨position + 2, ?_⟩
    rw [if_neg one, if_pos two, List.cons_append, List.singleton_append,
      decodeFrom_two _ _ _ _ (by omega) (by omega) (isTail_ofNat v), lead, tail, bits, whole]
  by_cases three : v ≤ 65535
  · have lead := toNat_ofNat_byte (show v / 4096 % 16 + 224 < 256 by omega)
    have second := tail (v / 64)
    have bits : ((v / 4096 % 16 + 224 - 0xe0) * 0x40 + (v / 64 % 64 + 128 - 0x80)) * 0x40 +
        (v % 64 + 128 - 0x80) = v := by omega
    refine ⟨position + 3, ?_⟩
    rw [if_neg one, if_neg two, if_pos three, List.cons_append, List.cons_append,
      List.singleton_append, decodeFrom_three _ _ _ _ (by omega) (by omega)
        ⟨by split <;> omega, by split <;> omega⟩ (isTail_ofNat v), lead, tail, tail, bits, whole]
  · have lead := toNat_ofNat_byte (show v / 262144 % 8 + 240 < 256 by omega)
    have second := tail (v / 4096)
    have bits : (((v / 262144 % 8 + 240 - 0xf0) * 0x40 + (v / 4096 % 64 + 128 - 0x80)) * 0x40 +
        (v / 64 % 64 + 128 - 0x80)) * 0x40 + (v % 64 + 128 - 0x80) = v := by omega
    refine ⟨position + 4, ?_⟩
    rw [if_neg one, if_neg two, if_neg three, List.cons_append, List.cons_append, List.cons_append,
      List.singleton_append, decodeFrom_four _ _ _ _ (by omega) (by omega)
        ⟨by split <;> omega, by split <;> omega⟩ (isTail_ofNat (v / 64)) (isTail_ofNat v), lead,
      tail, tail, tail, bits, whole]

theorem decodeFrom_flatMap (position first : Nat) (done cs : List Char) :
    decodeFrom position first none done (cs.flatMap String.utf8EncodeChar) =
      .ok (done.reverse ++ cs) := by
  induction cs generalizing position first done with
  | nil => simp [decodeFrom]
  | cons c cs ih =>
    obtain ⟨next, step⟩ := decodeFrom_char position first done c (cs.flatMap String.utf8EncodeChar)
    rw [List.flatMap_cons, step, ih, List.reverse_cons, List.append_assoc, List.singleton_append]

theorem toList_toUTF8 (s : String) :
    s.toUTF8.data.toList = s.toList.flatMap String.utf8EncodeChar := by
  rw [String.toUTF8, ← String.utf8Encode_toList, List.utf8Encode, List.data_toByteArray]

/-- Every text is decoded from its bytes. -/
theorem decode_toUTF8 (s : String) : decode s.toUTF8.data.toList = .ok s.toList := by
  rw [toList_toUTF8, decode, decodeFrom_flatMap]
  rfl

theorem toNat_ofNat_scalar {v : Nat} (scalar : v < 0xd800 ∨ 0xdfff < v ∧ v < 0x110000) :
    (Char.ofNat v).val.toNat = v := by
  have valid : v.isValidChar := scalar
  rw [Char.ofNat, dif_pos valid]
  rfl

section
variable {position first : Nat} {done cs : List Char} {bytes : List UInt8} {s : Begun}
  {a b c d : UInt8}

theorem ofNat_eq_byte {n : Nat} (same : n = a.toNat) : UInt8.ofNat n = a := by
  rw [same, UInt8.ofNat_toNat]

theorem utf8EncodeChar_one (lead : a.toNat < 0x80) :
    String.utf8EncodeChar (Char.ofNat a.toNat) = [a] := by
  rw [String.utf8EncodeChar, toNat_ofNat_scalar (by omega), if_pos (by omega), UInt8.ofNat_toNat]

theorem utf8EncodeChar_two (low : 0xc2 ≤ a.toNat) (high : a.toNat < 0xe0) (second : IsTail b) :
    String.utf8EncodeChar (Char.ofNat ((a.toNat - 0xc0) * 0x40 + (b.toNat - 0x80))) = [a, b] := by
  obtain ⟨low₂, high₂⟩ := second
  rw [String.utf8EncodeChar, toNat_ofNat_scalar (by omega), if_neg (by omega), if_pos (by omega),
    ofNat_eq_byte (a := a) (by omega), ofNat_eq_byte (a := b) (by omega)]

theorem utf8EncodeChar_three (low : 0xe0 ≤ a.toNat) (high : a.toNat < 0xf0)
    (second : (if a.toNat = 0xe0 then 0xa0 else 0x80) ≤ b.toNat ∧
      b.toNat ≤ if a.toNat = 0xed then 0x9f else 0xbf) (third : IsTail c) :
    String.utf8EncodeChar (Char.ofNat (((a.toNat - 0xe0) * 0x40 + (b.toNat - 0x80)) * 0x40 +
      (c.toNat - 0x80))) = [a, b, c] := by
  obtain ⟨low₂, high₂⟩ := second
  obtain ⟨low₃, high₃⟩ := third
  have tail : 0x80 ≤ b.toNat ∧ b.toNat ≤ 0xbf :=
    ⟨by split at low₂ <;> omega, by split at high₂ <;> omega⟩
  have shortest : a.toNat ≠ 0xe0 ∨ 0xa0 ≤ b.toNat := by split at low₂ <;> omega
  have noSurrogate : a.toNat ≠ 0xed ∨ b.toNat ≤ 0x9f := by split at high₂ <;> omega
  clear low₂ high₂
  rw [String.utf8EncodeChar, toNat_ofNat_scalar (by omega), if_neg (by omega), if_neg (by omega),
    if_pos (by omega), ofNat_eq_byte (a := a) (by omega), ofNat_eq_byte (a := b) (by omega),
    ofNat_eq_byte (a := c) (by omega)]

theorem utf8EncodeChar_four (low : 0xf0 ≤ a.toNat) (high : a.toNat < 0xf5)
    (second : (if a.toNat = 0xf0 then 0x90 else 0x80) ≤ b.toNat ∧
      b.toNat ≤ if a.toNat = 0xf4 then 0x8f else 0xbf) (third : IsTail c) (fourth : IsTail d) :
    String.utf8EncodeChar (Char.ofNat ((((a.toNat - 0xf0) * 0x40 + (b.toNat - 0x80)) * 0x40 +
      (c.toNat - 0x80)) * 0x40 + (d.toNat - 0x80))) = [a, b, c, d] := by
  obtain ⟨low₂, high₂⟩ := second
  obtain ⟨low₃, high₃⟩ := third
  obtain ⟨low₄, high₄⟩ := fourth
  have tail : 0x80 ≤ b.toNat ∧ b.toNat ≤ 0xbf :=
    ⟨by split at low₂ <;> omega, by split at high₂ <;> omega⟩
  have shortest : a.toNat ≠ 0xf0 ∨ 0x90 ≤ b.toNat := by split at low₂ <;> omega
  have below : a.toNat ≠ 0xf4 ∨ b.toNat ≤ 0x8f := by split at high₂ <;> omega
  clear low₂ high₂
  rw [String.utf8EncodeChar, toNat_ofNat_scalar (by omega), if_neg (by omega), if_neg (by omega),
    if_neg (by omega), ofNat_eq_byte (a := a) (by omega), ofNat_eq_byte (a := b) (by omega),
    ofNat_eq_byte (a := c) (by omega), ofNat_eq_byte (a := d) (by omega)]

theorem decodeFrom_begun (decoded : decodeFrom position first none done (a :: bytes) = .ok cs) :
    ∃ s, begin? a.toNat = some s ∧
      (if s.owed = 0 then decodeFrom (position + 1) a.toNat none (Char.ofNat s.bits :: done) bytes
        else decodeFrom (position + 1) a.toNat (some s) done bytes) = .ok cs := by
  simp only [decodeFrom, advance?, Option.isNone_none, if_true] at decoded
  cases begins : begin? a.toNat with
  | none => simp [begins] at decoded
  | some s => exact ⟨s, rfl, by simpa only [begins] using decoded⟩

theorem decodeFrom_continued (decoded : decodeFrom position first (some s) done bytes = .ok cs) :
    ∃ b rest, bytes = b :: rest ∧ (s.low ≤ b.toNat ∧ b.toNat ≤ s.high) ∧
      (if s.owed - 1 = 0 then
        decodeFrom (position + 1) first none
          (Char.ofNat (s.bits * 0x40 + (b.toNat - 0x80)) :: done) rest
      else
        decodeFrom (position + 1) first
          (some ⟨s.seen + 1, s.owed - 1, 0x80, 0xbf, s.bits * 0x40 + (b.toNat - 0x80)⟩) done
          rest) = .ok cs := by
  cases bytes with
  | nil => simp [decodeFrom] at decoded
  | cons b rest =>
    simp only [decodeFrom, advance?, Begun.continue?, Option.isNone_some] at decoded
    split at decoded
    · cases decoded
    · rename_i next advanced
      split at advanced
      · rename_i inside
        cases advanced
        exact ⟨b, rest, rfl, inside, decoded⟩
      · cases advanced

/-- What is decoded begins with the bytes of a character. -/
theorem exists_char_of_decodeFrom
    (decoded : decodeFrom position first none done (a :: bytes) = .ok cs) :
    ∃ char rest next lead, a :: bytes = String.utf8EncodeChar char ++ rest ∧
      decodeFrom next lead none (char :: done) rest = .ok cs := by
  obtain ⟨s, begins, decoded⟩ := decodeFrom_begun decoded
  -- the cases are the ranges that `begin?` tells leading bytes apart by
  unfold begin? at begins
  split at begins
  · rename_i lead
    cases begins
    exact ⟨_, bytes, _, _, by rw [utf8EncodeChar_one lead]; rfl, decoded⟩
  split at begins
  · cases begins
  split at begins
  · cases begins
    obtain ⟨b, bytes, rfl, second, decoded⟩ := decodeFrom_continued decoded
    have whole := utf8EncodeChar_two (a := a) (by omega) (by omega) second
    exact ⟨_, bytes, _, _, by rw [whole]; rfl, decoded⟩
  split at begins
  · cases begins
    obtain ⟨b, bytes, rfl, second, decoded⟩ := decodeFrom_continued decoded
    obtain ⟨c, bytes, rfl, third, decoded⟩ := decodeFrom_continued decoded
    have whole := utf8EncodeChar_three (a := a) (by omega) (by omega) second third
    exact ⟨_, bytes, _, _, by rw [whole]; rfl, decoded⟩
  split at begins
  · cases begins
    obtain ⟨b, bytes, rfl, second, decoded⟩ := decodeFrom_continued decoded
    obtain ⟨c, bytes, rfl, third, decoded⟩ := decodeFrom_continued decoded
    obtain ⟨d, bytes, rfl, fourth, decoded⟩ := decodeFrom_continued decoded
    have whole := utf8EncodeChar_four (a := a) (by omega) (by omega) second third fourth
    exact ⟨_, bytes, _, _, by rw [whole]; rfl, decoded⟩
  · cases begins

end

theorem eq_flatMap_of_decodeFrom {position first : Nat} {done cs : List Char}
    {bytes : List UInt8} (decoded : decodeFrom position first none done bytes = .ok cs) :
    ∃ rest, cs = done.reverse ++ rest ∧ bytes = rest.flatMap String.utf8EncodeChar := by
  match bytes with
  | [] =>
    cases decoded
    exact ⟨[], (List.append_nil _).symm, rfl⟩
  | a :: bytes =>
    obtain ⟨char, later, _, _, same, decoded⟩ := exists_char_of_decodeFrom decoded
    have shorter : later.length < (a :: bytes).length := by
      rw [same, List.length_append]
      exact Nat.lt_add_of_pos_left (List.length_pos_iff.mpr String.utf8EncodeChar_ne_nil)
    obtain ⟨rest, rfl, rfl⟩ := eq_flatMap_of_decodeFrom decoded
    exact ⟨char :: rest, by rw [List.reverse_cons, List.append_assoc]; rfl, same⟩
termination_by bytes.length
decreasing_by exact shorter

/-- A text is decoded from its bytes and from no others. -/
theorem decode_eq_ok_iff {bytes : List UInt8} {cs : List Char} :
    decode bytes = .ok cs ↔ bytes = (String.ofList cs).toUTF8.data.toList := by
  constructor
  · intro decoded
    obtain ⟨_, rfl, rfl⟩ := eq_flatMap_of_decodeFrom decoded
    rw [toList_toUTF8, String.toList_ofList]
  · rintro rfl
    rw [decode_toUTF8, String.toList_ofList]

end CairoAsm.Text.Utf8
