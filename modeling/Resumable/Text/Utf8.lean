/-!
# UTF-8

Texts as byte strings and back. Reading refuses a byte string at the first byte that does not begin
a well-formed character.
-/

namespace Resumable.Text

/-- The bytes of a text. -/
def utf8 (s : String) : List UInt8 := s.toUTF8.data.toList

/-- The number of bytes of a text. -/
def utf8Size (s : String) : Nat := s.utf8ByteSize

/-- Whether a byte continues a character. -/
def isContinuation (b : UInt8) : Bool := 0x80 ≤ b && b < 0xC0

/-- The six bits that a continuation byte carries. -/
def tail6 (b : UInt8) : Nat := b.toNat % 64

/-- The first character of a byte string and what follows it, if it is well formed: the encoding
is the shortest, and the code point is none of a surrogate. -/
def utf8First? : List UInt8 → Option (Char × List UInt8)
  | [] => none
  | a :: rest =>
    if a < 0x80 then some (Char.ofNat a.toNat, rest)
    else if 0xC2 ≤ a && a < 0xE0 then
      match rest with
      | b :: rest =>
        if isContinuation b then some (Char.ofNat (a.toNat % 32 * 64 + tail6 b), rest) else none
      | _ => none
    else if 0xE0 ≤ a && a < 0xF0 then
      match rest with
      | b :: c :: rest =>
        let n := a.toNat % 16 * 4096 + tail6 b * 64 + tail6 c
        if isContinuation b && isContinuation c && n ≥ 0x800 && !(0xD800 ≤ n && n < 0xE000) then
          some (Char.ofNat n, rest)
        else none
      | _ => none
    else if 0xF0 ≤ a && a < 0xF5 then
      match rest with
      | b :: c :: d :: rest =>
        let n := a.toNat % 8 * 262144 + tail6 b * 4096 + tail6 c * 64 + tail6 d
        if isContinuation b && isContinuation c && isContinuation d && n ≥ 0x10000 &&
            n < 0x110000 then
          some (Char.ofNat n, rest)
        else none
      | _ => none
    else none

theorem length_of_utf8First? {bytes rest : List UInt8} {c : Char}
    (h : utf8First? bytes = some (c, rest)) : rest.length < bytes.length := by
  unfold utf8First? at h
  repeat' split at h
  all_goals simp_all
  all_goals omega

/-- Reads a byte string; refuses it with the index of the first byte that begins no well-formed
character. -/
def ofUtf8 (bytes : List UInt8) : Except Nat String :=
  go 0 "" bytes
where
  go (index : Nat) (text : String) (bytes : List UInt8) : Except Nat String :=
    match bytes with
    | [] => .ok text
    | a :: more =>
      match _h : utf8First? (a :: more) with
      | some (c, rest) => go (index + ((a :: more).length - rest.length)) (text.push c) rest
      | none => .error index
  termination_by bytes.length
  decreasing_by exact length_of_utf8First? _h

end Resumable.Text
