/-!
# Quoted texts

A text as a literal of the guest language: in single quotes, or in double quotes if it holds single
ones and no double ones. Backslashes, control characters and the quote itself are escaped; in a
byte string so is every byte that is not printable ASCII.
-/

namespace Resumable.Text

/-- The quote for a text with these characters. -/
def quoteFor (cs : List Char) : Char :=
  if cs.contains '\'' && !cs.contains '"' then '"' else '\''

/-- The lower-case hexadecimal digit of a number below sixteen. -/
def hexDigit (n : Nat) : Char :=
  if n < 10 then Char.ofNat ('0'.toNat + n) else Char.ofNat ('a'.toNat + (n - 10))

/-- A byte as two hexadecimal digits. -/
def hexByte (n : Nat) : List Char := [hexDigit (n / 16 % 16), hexDigit (n % 16)]

/-- A character as it stands between quotes; `isPlain` says which characters stand for
themselves. -/
def escape (quote : Char) (isPlain : Char → Bool) (c : Char) : List Char :=
  if c == '\\' then ['\\', '\\']
  else if c == '\n' then ['\\', 'n']
  else if c == '\r' then ['\\', 'r']
  else if c == '\t' then ['\\', 't']
  else if c == quote then ['\\', c]
  else if isPlain c then [c]
  else '\\' :: 'x' :: hexByte c.toNat

/-- Characters in quotes. -/
def quotedBy (isPlain : Char → Bool) (cs : List Char) : List Char :=
  let quote := quoteFor cs
  quote :: cs.flatMap (escape quote isPlain) ++ [quote]

/-- A text as a string literal. -/
def quoted (s : String) : String :=
  String.ofList (quotedBy (fun c => c.toNat ≥ 0x20 && c.toNat != 0x7F) s.toList)

/-- Bytes as a byte-string literal. -/
def quotedBytes (bytes : List UInt8) : String :=
  let cs := bytes.map fun b => Char.ofNat b.toNat
  String.ofList ('b' :: quotedBy (fun c => c.toNat ≥ 0x20 && c.toNat < 0x7F) cs)

end Resumable.Text
