import MailMerge.Text.Basic

set_option autoImplicit false

namespace MailMerge.Utf8

/-- Where and how a sequence of bytes stops being UTF-8. -/
structure Fault where
  /-- The number of well-formed bytes in front of the fault. -/
  validUpTo : Nat
  /-- How many bytes the broken sequence has, or none when the bytes end inside a character. -/
  invalidLength : Option Nat
  deriving Repr, DecidableEq

def Fault.message (fault : Fault) : String :=
  match fault.invalidLength with
  | some length => s!"invalid utf-8 sequence of {length} bytes from index {fault.validUpTo}"
  | none => s!"incomplete utf-8 byte sequence from index {fault.validUpTo}"

def isContinuation (b : UInt8) : Bool := 0x80 ≤ b.toNat && b.toNat ≤ 0xBF

/-- The second bytes that may follow a first byte, by the smallest and the largest. The bounds rule
out overlong forms, surrogates and code points above U+10FFFF. -/
def secondRange (first : Nat) : Nat × Nat :=
  if first = 0xE0 then (0xA0, 0xBF)
  else if first = 0xED then (0x80, 0x9F)
  else if first = 0xF0 then (0x90, 0xBF)
  else if first = 0xF4 then (0x80, 0x8F)
  else (0x80, 0xBF)

/-- How many bytes a character with this first byte takes; 0 for a byte that begins none. -/
def sequenceLength (first : Nat) : Nat :=
  if first < 0x80 then 1
  else if 0xC2 ≤ first && first ≤ 0xDF then 2
  else if 0xE0 ≤ first && first ≤ 0xEF then 3
  else if 0xF0 ≤ first && first ≤ 0xF4 then 4
  else 0

def allowsSecond (first second : UInt8) : Bool :=
  (secondRange first.toNat).1 ≤ second.toNat && second.toNat ≤ (secondRange first.toNat).2

def payload (b : UInt8) : Nat := b.toNat - 0x80

/-- The text that bytes spell, where `offset` bytes stand in front of them. -/
def decodeFrom (offset : Nat) : List UInt8 → Except Fault Text
  | [] => .ok []
  | a :: rest =>
    match sequenceLength a.toNat with
    | 1 => do
      let text ← decodeFrom (offset + 1) rest
      return Char.ofNat a.toNat :: text
    | 2 =>
      match rest with
      | [] => .error ⟨offset, none⟩
      | b :: rest =>
        if allowsSecond a b then do
          let text ← decodeFrom (offset + 2) rest
          return Char.ofNat ((a.toNat - 0xC0) * 64 + payload b) :: text
        else .error ⟨offset, some 1⟩
    | 3 =>
      match rest with
      | [] => .error ⟨offset, none⟩
      | b :: rest =>
        if allowsSecond a b then
          match rest with
          | [] => .error ⟨offset, none⟩
          | c :: rest =>
            if isContinuation c then do
              let text ← decodeFrom (offset + 3) rest
              return Char.ofNat ((a.toNat - 0xE0) * 4096 + payload b * 64 + payload c) :: text
            else .error ⟨offset, some 2⟩
        else .error ⟨offset, some 1⟩
    | 4 =>
      match rest with
      | [] => .error ⟨offset, none⟩
      | b :: rest =>
        if allowsSecond a b then
          match rest with
          | [] => .error ⟨offset, none⟩
          | c :: rest =>
            if isContinuation c then
              match rest with
              | [] => .error ⟨offset, none⟩
              | d :: rest =>
                if isContinuation d then do
                  let text ← decodeFrom (offset + 4) rest
                  return Char.ofNat ((a.toNat - 0xF0) * 262144 + payload b * 4096 + payload c * 64
                    + payload d) :: text
                else .error ⟨offset, some 3⟩
            else .error ⟨offset, some 2⟩
        else .error ⟨offset, some 1⟩
    | _ => .error ⟨offset, some 1⟩

def decode (bytes : List UInt8) : Except Fault Text := decodeFrom 0 bytes

end MailMerge.Utf8
