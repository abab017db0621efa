import MailMerge.Markup.Scanner
import MailMerge.Proofs.Markup.Offset

/-!
Positions between characters. Where a scanner stands between two characters, the bytes ahead are
those of the characters ahead, and moving over bytes of one kind is moving over the characters of
this kind. This needs a kind that does not tell characters outside ASCII apart, since each of their
bytes is taken for one of them.
-/

set_option autoImplicit false

namespace MailMerge

namespace Text

/-- Is there a boundary between two characters, or an end of the text, behind `n` bytes? -/
def isBoundary : Nat → Text → Bool
  | 0, _ => true
  | _ + 1, [] => false
  | n + 1, c :: rest => width c ≤ n + 1 && isBoundary (n + 1 - width c) rest

theorem isBoundary_append (before after : Text) :
    isBoundary (byteLength before) (before ++ after) = true := by
  induction before with
  | nil => rw [byteLength, isBoundary]
  | cons c before ih =>
    have positive := width_pos c
    obtain ⟨n, length⟩ : ∃ n, byteLength (c :: before) = n + 1 :=
      Nat.exists_eq_succ_of_ne_zero (by rw [byteLength]; omega)
    have rest : n + 1 - width c = byteLength before := by
      rw [← length, byteLength]
      omega
    rw [length, List.cons_append, isBoundary, rest, ih, Bool.and_true, decide_eq_true_eq, ← length,
      byteLength]
    omega

theorem exists_of_isBoundary {n : Nat} {text : Text} (boundary : isBoundary n text = true) :
    ∃ before after, text = before ++ after ∧ n = byteLength before := by
  induction text generalizing n with
  | nil =>
    cases n with
    | zero => exact ⟨[], [], rfl, rfl⟩
    | succ n => cases boundary
  | cons c rest ih =>
    cases n with
    | zero => exact ⟨[], c :: rest, rfl, rfl⟩
    | succ n =>
      rw [isBoundary, Bool.and_eq_true, decide_eq_true_eq] at boundary
      obtain ⟨before, after, rfl, length⟩ := ih boundary.2
      refine ⟨c :: before, after, rfl, ?_⟩
      rw [byteLength, ← length]
      omega

/-- A boundary is no further than the end of the text. -/
theorem le_of_isBoundary {n : Nat} {text : Text} (boundary : isBoundary n text = true) :
    n ≤ byteLength text := by
  obtain ⟨before, after, rfl, rfl⟩ := exists_of_isBoundary boundary
  rw [byteLength_append]
  omega

theorem length_charBytes (c : Char) : (charBytes c).length = width c := by
  unfold charBytes width
  dsimp only
  split
  · rfl
  · split
    · rfl
    · split <;> rfl

theorem charBytes_ne_nil (c : Char) : charBytes c ≠ [] := by
  have positive := width_pos c
  rw [← length_charBytes] at positive
  exact List.ne_nil_of_length_pos positive

theorem bytes_cons (c : Char) (rest : Text) : bytes (c :: rest) = charBytes c ++ bytes rest :=
  List.flatMap_cons

theorem bytes_append (first second : Text) :
    bytes (first ++ second) = bytes first ++ bytes second := List.flatMap_append

theorem length_bytes (text : Text) : (bytes text).length = byteLength text := by
  induction text with
  | nil => rfl
  | cons c rest ih => rw [bytes_cons, List.length_append, length_charBytes, ih, byteLength]

theorem drop_bytes (before after : Text) :
    (bytes (before ++ after)).drop (byteLength before) = bytes after := by
  rw [bytes_append, ← length_bytes, List.drop_left]

/-- Every byte of a character outside ASCII is outside ASCII. -/
theorem le_of_mem_charBytes {c : Char} (beyond : 0x80 ≤ c.toNat) {b : UInt8}
    (member : b ∈ charBytes c) : 0x80 ≤ b.toNat := by
  have small : c.toNat < 0x110000 := by
    rcases Utf8.toNat_range c with low | high <;> omega
  unfold charBytes at member
  dsimp only at member
  rw [if_neg (by omega)] at member
  split at member
  · simp only [List.mem_cons, List.not_mem_nil, or_false] at member
    rcases member with rfl | rfl <;> rw [Utf8.toNat_toUInt8 (by omega)] <;> omega
  · split at member
    · simp only [List.mem_cons, List.not_mem_nil, or_false] at member
      rcases member with rfl | rfl | rfl <;> rw [Utf8.toNat_toUInt8 (by omega)] <;> omega
    · simp only [List.mem_cons, List.not_mem_nil, or_false] at member
      rcases member with rfl | rfl | rfl | rfl <;> rw [Utf8.toNat_toUInt8 (by omega)] <;> omega

theorem charBytes_of_ascii {c : Char} (ascii : c.toNat < 0x80) :
    charBytes c = [c.toNat.toUInt8] := by
  unfold charBytes
  exact if_pos ascii

/-- A kind of characters that holds all characters outside ASCII or none of them. -/
def Coarse (kind : Char → Bool) : Prop :=
  ∀ c d : Char, 0x80 ≤ c.toNat → 0x80 ≤ d.toNat → kind c = kind d

/-- A kind of characters as a kind of bytes. -/
def byteKind (kind : Char → Bool) (b : UInt8) : Bool := kind (Char.ofNat b.toNat)

section

variable {kind : Char → Bool} (coarse : Coarse kind)
include coarse

/-- All bytes of a character are of its kind. -/
theorem byteKind_of_mem_charBytes {c : Char} {b : UInt8} (member : b ∈ charBytes c) :
    byteKind kind b = kind c := by
  have byte := b.toNat_lt
  have same : (Char.ofNat b.toNat).toNat = b.toNat := Utf8.toNat_ofNat (Or.inl (by omega))
  by_cases ascii : c.toNat < 0x80
  · rw [charBytes_of_ascii ascii, List.mem_singleton] at member
    rw [byteKind, member, Utf8.toNat_toUInt8 (by omega), Char.ofNat_toNat]
  · have beyond := le_of_mem_charBytes (Nat.le_of_not_lt ascii) member
    exact coarse _ _ (by omega) (by omega)

theorem takeWhile_bytes (text : Text) :
    (bytes text).takeWhile (byteKind kind) = bytes (text.takeWhile kind) := by
  induction text with
  | nil => rfl
  | cons c rest ih =>
    rw [bytes_cons]
    cases holds : kind c with
    | true =>
      have all : ∀ b ∈ charBytes c, byteKind kind b = true := fun b member =>
        (byteKind_of_mem_charBytes coarse member).trans holds
      rw [List.takeWhile_append_of_pos all, ih, List.takeWhile_cons_of_pos holds, bytes_cons]
    | false =>
      obtain ⟨b, others, same⟩ := List.exists_cons_of_ne_nil (charBytes_ne_nil c)
      have first : byteKind kind b = false :=
        (byteKind_of_mem_charBytes coarse (same ▸ List.mem_cons_self)).trans holds
      rw [same, List.cons_append, List.takeWhile_cons_of_neg (by simp [first]),
        List.takeWhile_cons_of_neg (by simp [holds])]
      rfl

theorem any_head?_bytes (text : Text) :
    (bytes text).head?.any (byteKind kind) = text.head?.any kind := by
  cases text with
  | nil => rfl
  | cons c rest =>
    obtain ⟨b, others, same⟩ := List.exists_cons_of_ne_nil (charBytes_ne_nil c)
    rw [bytes_cons, same]
    exact byteKind_of_mem_charBytes coarse (same ▸ List.mem_cons_self)

end

section

variable {c : Char} (ascii : c.toNat < 0x80)
include ascii

theorem coarse_eq : Coarse (· == c) := by
  intro d e beyond other
  have first : d ≠ c := fun same => absurd (same ▸ ascii) (by omega)
  have second : e ≠ c := fun same => absurd (same ▸ ascii) (by omega)
  simp [first, second]

/-- A byte is that of an ASCII character exactly if it is its only byte. -/
theorem byteKind_eq : byteKind (· == c) = (· == c.toNat.toUInt8) := by
  funext b
  have byte := b.toNat_lt
  rw [byteKind, Bool.eq_iff_iff, beq_iff_eq, beq_iff_eq]
  constructor
  · rintro rfl
    rw [Utf8.toNat_ofNat (Or.inl (by omega))]
    exact UInt8.ofNat_toNat.symm
  · rintro rfl
    rw [Utf8.toNat_toUInt8 (by omega), Char.ofNat_toNat]

/-- The byte of an ASCII character is found where the character is. -/
theorem findIdx?_bytes (text : Text) :
    (bytes text).findIdx? (· == c.toNat.toUInt8)
      = (cutAt? c text).map fun parts => byteLength parts.1 := by
  induction text with
  | nil => rfl
  | cons d rest ih =>
    rw [bytes_cons, ← byteKind_eq ascii, cutAt?]
    by_cases same : d = c
    · rw [if_pos same, same, charBytes_of_ascii ascii, byteKind_eq ascii, List.singleton_append,
        List.findIdx?_cons, if_pos (beq_self_eq_true _)]
      rfl
    · have none : (charBytes d).findIdx? (byteKind (· == c)) = none := by
        rw [List.findIdx?_eq_none_iff]
        intro b member
        rw [byteKind_of_mem_charBytes (coarse_eq ascii) member, beq_eq_false_iff_ne]
        exact same
      rw [if_neg same, List.findIdx?_append, none, byteKind_eq ascii, ih, length_charBytes,
        Option.none_or, Option.map_map, Option.map_map]
      congr 1
      funext parts
      exact Nat.add_comm _ _

end

/-- The bytes of ASCII characters are ahead where the characters are. -/
theorem isPrefixOf_bytes {front : Text} (ascii : ∀ c ∈ front, c.toNat < 0x80) (text : Text) :
    (front.map (·.toNat.toUInt8)).isPrefixOf (bytes text) = front.isPrefixOf text := by
  induction front generalizing text with
  | nil => rfl
  | cons c front ih =>
    have first : c.toNat < 0x80 := ascii c List.mem_cons_self
    cases text with
    | nil => rfl
    | cons d rest =>
      obtain ⟨b, others, same⟩ := List.exists_cons_of_ne_nil (charBytes_ne_nil d)
      have kind : byteKind (· == c) b = (d == c) :=
        byteKind_of_mem_charBytes (coarse_eq first) (same ▸ List.mem_cons_self)
      rw [byteKind_eq first] at kind
      have heads : (c.toNat.toUInt8 == b) = (c == d) := by
        rw [BEq.comm, @BEq.comm _ _ _ c]
        exact kind
      rw [bytes_cons, same, List.map_cons, List.cons_append, List.isPrefixOf_cons_cons,
        List.isPrefixOf_cons_cons, heads]
      by_cases equal : c = d
      · rw [← equal, charBytes_of_ascii first] at same
        rw [← (List.cons.inj same).2, List.nil_append,
          ih (fun e member => ascii e (List.mem_cons_of_mem c member))]
      · rw [beq_eq_false_iff_ne.2 equal, Bool.false_and, Bool.false_and]

@[simp] theorem dropBytes_append (before after : Text) :
    dropBytes (byteLength before) (before ++ after) = after := by
  induction before with
  | nil =>
    cases after with
    | nil => rfl
    | cons c after => exact if_pos rfl
  | cons c before ih =>
    have positive := width_pos c
    rw [byteLength, List.cons_append, dropBytes, if_neg (by omega), Nat.add_sub_cancel_left, ih]

/-- The largest boundary up to `n`. -/
def boundaryUpTo (text : Text) : Nat → Nat
  | 0 => 0
  | n + 1 => if isBoundary (n + 1) text then n + 1 else boundaryUpTo text n

theorem takeBytes_succ {n : Nat} {text : Text} (inside : isBoundary (n + 1) text = false) :
    takeBytes (n + 1) text = takeBytes n text := by
  induction text generalizing n with
  | nil => rfl
  | cons c rest ih =>
    have positive := width_pos c
    rw [takeBytes, takeBytes]
    by_cases fits : width c ≤ n
    · have less : n + 1 - width c = n - width c + 1 := by omega
      rw [isBoundary, less, Bool.and_eq_false_iff, decide_eq_false_iff_not] at inside
      rw [if_pos fits, if_pos (by omega), less, ih (inside.resolve_left (by omega))]
    · have large : ¬ width c ≤ n + 1 := by
        intro exactly
        have same : n + 1 - width c = 0 := by omega
        rw [isBoundary, same, isBoundary, Bool.and_true, decide_eq_false_iff_not] at inside
        exact inside exactly
      rw [if_neg fits, if_neg large]

theorem takeBytes_zero (text : Text) : takeBytes 0 text = [] := by
  cases text with
  | nil => rfl
  | cons c rest =>
    have positive := width_pos c
    exact if_neg (by omega)

theorem boundaryUpTo_eq (text : Text) (n : Nat) :
    boundaryUpTo text n = byteLength (takeBytes n text) := by
  induction n with
  | zero =>
    rw [takeBytes_zero]
    rfl
  | succ n ih =>
    rw [boundaryUpTo]
    by_cases boundary : isBoundary (n + 1) text = true
    · obtain ⟨before, after, rfl, length⟩ := exists_of_isBoundary boundary
      rw [if_pos boundary, Markup.takeBytes_append (by omega), length, Nat.sub_self, takeBytes_zero,
        List.append_nil]
    · rw [if_neg boundary, ih, takeBytes_succ (Bool.eq_false_iff.2 boundary)]

theorem takeBytes_of_le {n : Nat} {text : Text} (all : byteLength text ≤ n) :
    takeBytes n text = text := by
  have parts := Markup.takeBytes_append all []
  rw [List.append_nil] at parts
  rw [parts, takeBytes, List.append_nil]

theorem takeBytes_min (n : Nat) (text : Text) :
    takeBytes (min n (byteLength text)) text = takeBytes n text := by
  by_cases all : byteLength text ≤ n
  · rw [Nat.min_eq_right all, takeBytes_of_le all, takeBytes_of_le (Nat.le_refl _)]
  · rw [Nat.min_eq_left (by omega)]

end Text

end MailMerge
