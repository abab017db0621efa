import MailMerge.Text.Utf8

set_option autoImplicit false

namespace MailMerge.Utf8

theorem toNat_toUInt8 {n : Nat} (small : n < 256) : n.toUInt8.toNat = n :=
  UInt8.toNat_ofNat_of_lt' small

/-- A code point is below the surrogates or between them and the end of Unicode. -/
theorem toNat_range (c : Char) : c.toNat < 0xD800 ∨ 0xDFFF < c.toNat ∧ c.toNat < 0x110000 :=
  c.valid

section

variable {offset : Nat} {a b c d : UInt8} {rest : List UInt8}

theorem decodeFrom_one (first : sequenceLength a.toNat = 1) :
    decodeFrom offset (a :: rest)
      = (decodeFrom (offset + 1) rest).map (Char.ofNat a.toNat :: ·) := by
  rw [decodeFrom.eq_def]
  simp only [first]
  rfl

theorem decodeFrom_two (first : sequenceLength a.toNat = 2) (second : allowsSecond a b = true) :
    decodeFrom offset (a :: b :: rest)
      = (decodeFrom (offset + 2) rest).map
        (Char.ofNat ((a.toNat - 0xC0) * 64 + payload b) :: ·) := by
  rw [decodeFrom.eq_def]
  simp only [first, second, ↓reduceIte]
  rfl

theorem decodeFrom_three (first : sequenceLength a.toNat = 3) (second : allowsSecond a b = true)
    (third : isContinuation c = true) :
    decodeFrom offset (a :: b :: c :: rest)
      = (decodeFrom (offset + 3) rest).map
        (Char.ofNat ((a.toNat - 0xE0) * 4096 + payload b * 64 + payload c) :: ·) := by
  rw [decodeFrom.eq_def]
  simp only [first, second, third, ↓reduceIte]
  rfl

theorem decodeFrom_four (first : sequenceLength a.toNat = 4) (second : allowsSecond a b = true)
    (third : isContinuation c = true) (fourth : isContinuation d = true) :
    decodeFrom offset (a :: b :: c :: d :: rest)
      = (decodeFrom (offset + 4) rest).map
        (Char.ofNat ((a.toNat - 0xF0) * 262144 + payload b * 4096 + payload c * 64 + payload d)
          :: ·) := by
  rw [decodeFrom.eq_def]
  simp only [first, second, third, fourth, ↓reduceIte]
  rfl

end

theorem isContinuation_toUInt8 (n : Nat) : isContinuation (0x80 + n % 64).toUInt8 = true := by
  have bound : n % 64 < 64 := Nat.mod_lt n (by decide)
  have value := toNat_toUInt8 (show 0x80 + n % 64 < 256 by omega)
  simp only [isContinuation, value, Bool.and_eq_true, decide_eq_true_eq]
  omega

theorem payload_toUInt8 (n : Nat) : payload (0x80 + n % 64).toUInt8 = n % 64 := by
  have bound : n % 64 < 64 := Nat.mod_lt n (by decide)
  have value := toNat_toUInt8 (show 0x80 + n % 64 < 256 by omega)
  show (0x80 + n % 64).toUInt8.toNat - 0x80 = n % 64
  omega

section

variable {n : Nat}

theorem sequenceLength_eq_one_iff : sequenceLength n = 1 ↔ n < 0x80 := by
  unfold sequenceLength
  repeat' split
  all_goals simp_all

theorem sequenceLength_eq_two_iff : sequenceLength n = 2 ↔ 0xC2 ≤ n ∧ n ≤ 0xDF := by
  unfold sequenceLength
  repeat' split
  all_goals simp_all
  all_goals omega

theorem sequenceLength_eq_three_iff : sequenceLength n = 3 ↔ 0xE0 ≤ n ∧ n ≤ 0xEF := by
  unfold sequenceLength
  repeat' split
  all_goals simp_all
  all_goals omega

theorem sequenceLength_eq_four_iff : sequenceLength n = 4 ↔ 0xF0 ≤ n ∧ n ≤ 0xF4 := by
  unfold sequenceLength
  repeat' split
  all_goals simp_all
  all_goals omega

end

/-- Which bytes may follow a first byte, when this is the first of its length or one that could
begin too much. -/
theorem allowsSecond_iff (first second : UInt8) :
    allowsSecond first second = true ↔ 0x80 ≤ second.toNat ∧ second.toNat ≤ 0xBF ∧
      (first.toNat = 0xE0 → 0xA0 ≤ second.toNat) ∧ (first.toNat = 0xED → second.toNat ≤ 0x9F) ∧
      (first.toNat = 0xF0 → 0x90 ≤ second.toNat) ∧ (first.toNat = 0xF4 → second.toNat ≤ 0x8F) := by
  rw [allowsSecond, Bool.and_eq_true, decide_eq_true_eq, decide_eq_true_eq, secondRange]
  split
  · omega
  split
  · omega
  split
  · omega
  split <;> omega

/-- The bytes of a character in front of other bytes spell this character. -/
theorem decodeFrom_charBytes (offset : Nat) (c : Char) (rest : List UInt8) :
    decodeFrom offset (Text.charBytes c ++ rest)
      = (decodeFrom (offset + Text.width c) rest).map (c :: ·) := by
  have range := toNat_range c
  obtain ⟨n, code⟩ : ∃ n, n = c.toNat := ⟨_, rfl⟩
  have char : Char.ofNat n = c := by rw [code, Char.ofNat_toNat]
  rw [← code] at range
  simp only [Text.charBytes, Text.width, ← code]
  -- One case for each number of bytes.
  by_cases one : n < 0x80
  · have first := toNat_toUInt8 (show n < 256 by omega)
    rw [if_pos one, if_pos one, List.cons_append, List.nil_append,
      decodeFrom_one (by rw [first]; exact sequenceLength_eq_one_iff.2 one), first, char]
  rw [if_neg one, if_neg one]
  by_cases two : n < 0x800
  · have first := toNat_toUInt8 (show 0xC0 + n / 64 < 256 by omega)
    have second := toNat_toUInt8 (show 0x80 + n % 64 < 256 by omega)
    have value : (0xC0 + n / 64 - 0xC0) * 64 + n % 64 = n := by omega
    rw [if_pos two, if_pos two, List.cons_append, List.cons_append, List.nil_append,
      decodeFrom_two, first, payload_toUInt8, value, char]
    · rw [first]
      exact sequenceLength_eq_two_iff.2 (by omega)
    · rw [allowsSecond_iff, first, second]
      omega
  rw [if_neg two, if_neg two]
  by_cases three : n < 0x10000
  · have first := toNat_toUInt8 (show 0xE0 + n / 4096 < 256 by omega)
    have second := toNat_toUInt8 (show 0x80 + n / 64 % 64 < 256 by omega)
    have value : (0xE0 + n / 4096 - 0xE0) * 4096 + n / 64 % 64 * 64 + n % 64 = n := by omega
    rw [if_pos three, if_pos three, List.cons_append, List.cons_append, List.cons_append,
      List.nil_append, decodeFrom_three, first, payload_toUInt8, payload_toUInt8, value, char]
    · rw [first]
      exact sequenceLength_eq_three_iff.2 (by omega)
    · rw [allowsSecond_iff, first, second]
      omega
    · exact isContinuation_toUInt8 n
  · have first := toNat_toUInt8 (show 0xF0 + n / 262144 < 256 by omega)
    have second := toNat_toUInt8 (show 0x80 + n / 4096 % 64 < 256 by omega)
    have value : (0xF0 + n / 262144 - 0xF0) * 262144 + n / 4096 % 64 * 4096 + n / 64 % 64 * 64
        + n % 64 = n := by omega
    rw [if_neg three, if_neg three, List.cons_append, List.cons_append, List.cons_append,
      List.cons_append, List.nil_append, decodeFrom_four, first, payload_toUInt8,
      payload_toUInt8, payload_toUInt8, value, char]
    · rw [first]
      exact sequenceLength_eq_four_iff.2 (by omega)
    · rw [allowsSecond_iff, first, second]
      omega
    · exact isContinuation_toUInt8 (n / 64)
    · exact isContinuation_toUInt8 n

theorem decodeFrom_bytes (offset : Nat) (text : Text) :
    decodeFrom offset (Text.bytes text) = .ok text := by
  induction text generalizing offset with
  | nil => rfl
  | cons c rest ih =>
    show decodeFrom offset (Text.charBytes c ++ Text.bytes rest) = _
    rw [decodeFrom_charBytes, ih]
    rfl

/-- The bytes of a text spell this text. -/
@[simp] theorem decode_bytes (text : Text) : decode (Text.bytes text) = .ok text :=
  decodeFrom_bytes 0 text

/-- A text is known by its bytes. -/
theorem bytes_inj {text other : Text} : Text.bytes text = Text.bytes other ↔ text = other := by
  constructor
  · intro same
    have decoded := decode_bytes text
    rw [same, decode_bytes] at decoded
    exact (Except.ok.inj decoded).symm
  · intro same
    rw [same]

section

variable {a b c d : UInt8}

theorem toNat_ofNat {n : Nat} (range : n < 0xD800 ∨ 0xDFFF < n ∧ n < 0x110000) :
    (Char.ofNat n).toNat = n := by
  rw [Char.ofNat, dif_pos range]
  rfl

theorem toUInt8_eq {n : Nat} (same : n = a.toNat) : n.toUInt8 = a := by
  rw [same]
  exact UInt8.ofNat_toNat

theorem isContinuation_iff : isContinuation b = true ↔ 0x80 ≤ b.toNat ∧ b.toNat ≤ 0xBF := by
  simp [isContinuation]

theorem charBytes_one (first : a.toNat < 0x80) : Text.charBytes (Char.ofNat a.toNat) = [a] := by
  have code := toNat_ofNat (n := a.toNat) (by omega)
  rw [Text.charBytes, code]
  simp only [if_pos first]
  rw [toUInt8_eq rfl]

theorem charBytes_two (first : 0xC2 ≤ a.toNat ∧ a.toNat ≤ 0xDF)
    (second : allowsSecond a b = true) :
    Text.charBytes (Char.ofNat ((a.toNat - 0xC0) * 64 + payload b)) = [a, b] := by
  rw [allowsSecond_iff] at second
  obtain ⟨n, value⟩ : ∃ n, n = (a.toNat - 0xC0) * 64 + payload b := ⟨_, rfl⟩
  have bits : payload b = b.toNat - 0x80 := rfl
  have code := toNat_ofNat (n := n) (by omega)
  rw [← value, Text.charBytes, code]
  rw [if_neg (by omega), if_pos (by omega), toUInt8_eq (a := a) (by omega),
    toUInt8_eq (a := b) (by omega)]

theorem charBytes_three (first : 0xE0 ≤ a.toNat ∧ a.toNat ≤ 0xEF)
    (second : allowsSecond a b = true) (third : isContinuation c = true) :
    Text.charBytes (Char.ofNat ((a.toNat - 0xE0) * 4096 + payload b * 64 + payload c))
      = [a, b, c] := by
  rw [allowsSecond_iff] at second
  rw [isContinuation_iff] at third
  obtain ⟨n, value⟩ : ∃ n, n = (a.toNat - 0xE0) * 4096 + payload b * 64 + payload c := ⟨_, rfl⟩
  have bits : payload b = b.toNat - 0x80 := rfl
  have bits' : payload c = c.toNat - 0x80 := rfl
  have code := toNat_ofNat (n := n) (by omega)
  rw [← value, Text.charBytes, code]
  rw [if_neg (by omega), if_neg (by omega), if_pos (by omega), toUInt8_eq (a := a) (by omega),
    toUInt8_eq (a := b) (by omega), toUInt8_eq (a := c) (by omega)]

theorem charBytes_four (first : 0xF0 ≤ a.toNat ∧ a.toNat ≤ 0xF4)
    (second : allowsSecond a b = true) (third : isContinuation c = true)
    (fourth : isContinuation d = true) :
    Text.charBytes (Char.ofNat ((a.toNat - 0xF0) * 262144 + payload b * 4096 + payload c * 64
      + payload d)) = [a, b, c, d] := by
  rw [allowsSecond_iff] at second
  rw [isContinuation_iff] at third fourth
  obtain ⟨n, value⟩ : ∃ n, n = (a.toNat - 0xF0) * 262144 + payload b * 4096 + payload c * 64
    + payload d := ⟨_, rfl⟩
  have bits : payload b = b.toNat - 0x80 := rfl
  have bits' : payload c = c.toNat - 0x80 := rfl
  have bits'' : payload d = d.toNat - 0x80 := rfl
  have code := toNat_ofNat (n := n) (by omega)
  rw [← value, Text.charBytes, code]
  rw [if_neg (by omega), if_neg (by omega), if_neg (by omega), toUInt8_eq (a := a) (by omega),
    toUInt8_eq (a := b) (by omega), toUInt8_eq (a := c) (by omega), toUInt8_eq (a := d) (by omega)]

end

/-- Decoded bytes are a character's and the bytes of the text behind it. -/
theorem bytes_of_cons {offset : Nat} {front rest : List UInt8} {ch : Char} {text : Text}
    (own : Text.charBytes ch = front)
    (ih : ∀ {text : Text}, decodeFrom offset rest = .ok text → rest = Text.bytes text)
    (success : (do let text ← decodeFrom offset rest; pure (ch :: text)) = .ok text) :
    front ++ rest = Text.bytes text := by
  cases decoded : decodeFrom offset rest with
  | error fault =>
    rw [decoded] at success
    cases success
  | ok behind =>
    rw [decoded] at success
    cases success
    rw [← own, ih decoded]
    rfl

theorem bytes_of_decodeFrom {offset : Nat} {bytes : List UInt8} {text : Text}
    (success : decodeFrom offset bytes = .ok text) : bytes = Text.bytes text := by
  -- The cases that decode a character come by the number of its bytes; the others fail.
  fun_induction decodeFrom offset bytes generalizing text with
  | case1 =>
    cases success
    rfl
  | case2 offset a rest first ih =>
    exact bytes_of_cons (charBytes_one (sequenceLength_eq_one_iff.1 first)) ih success
  | case4 offset a first b rest second ih =>
    exact bytes_of_cons (charBytes_two (sequenceLength_eq_two_iff.1 first) second) ih success
  | case8 offset a first b second c rest third ih =>
    exact bytes_of_cons (charBytes_three (sequenceLength_eq_three_iff.1 first) second third) ih
      success
  | case14 offset a first b second c third d rest fourth ih =>
    exact bytes_of_cons (charBytes_four (sequenceLength_eq_four_iff.1 first) second third fourth)
      ih success
  | _ => cases success

/-- Bytes spell a text exactly when they are its bytes. -/
theorem decode_eq_ok_iff {bytes : List UInt8} {text : Text} :
    decode bytes = .ok text ↔ bytes = Text.bytes text :=
  ⟨bytes_of_decodeFrom, fun same => same ▸ decode_bytes text⟩

end MailMerge.Utf8
