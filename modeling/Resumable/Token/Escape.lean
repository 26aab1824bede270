import Resumable.Text.CharacterName

/-!
# Escapes in string literals

A backslash in a literal introduces an escape. A letter that names no escape leaves the backslash in
place. In a literal of bytes the three forms that name a code point by its number or its name are no
escapes. A character can be named if it is in the blocks of `Text.nameBlocks`; the name of any other
one is taken for a malformed escape.
-/

namespace Resumable.Token

/-- The value of a hexadecimal digit. -/
def hexDigit? (c : Char) : Option Nat :=
  if c.isDigit then some (c.toNat - '0'.toNat)
  else if 'a' ≤ c ∧ c ≤ 'f' then some (c.toNat - 'a'.toNat + 10)
  else if 'A' ≤ c ∧ c ≤ 'F' then some (c.toNat - 'A'.toNat + 10)
  else none

/-- The value of a list of hexadecimal digits. -/
def hexValue? (acc : Nat) : List Char → Option Nat
  | [] => some acc
  | c :: rest => do hexValue? (acc * 16 + (← hexDigit? c)) rest

/-- The character with a code point; a surrogate becomes the replacement character, and a number
above the last code point is no character. -/
def codePoint? (n : Nat) : Option Char :=
  if 0xD800 ≤ n ∧ n ≤ 0xDFFF then some (Char.ofNat 0xFFFD)
  else if n ≤ 0x10FFFF then some (Char.ofNat n)
  else none

/-- Whether a character is an octal digit. -/
def isOctal (c : Char) : Bool := '0' ≤ c && c ≤ '7'

/-- The value of a list of octal digits. -/
def octalValue (ds : List Char) : Nat :=
  ds.foldl (fun n c => n * 8 + (c.toNat - '0'.toNat)) 0

/-- The escapes of one letter that stand for one character. -/
def simpleEscape? : Char → Option Char
  | '\\' => some '\\'
  | '\'' => some '\''
  | '"' => some '"'
  | 'a' => some (Char.ofNat 7)
  | 'b' => some (Char.ofNat 8)
  | 'f' => some (Char.ofNat 12)
  | 'n' => some '\n'
  | 'r' => some '\r'
  | 't' => some '\t'
  | 'v' => some (Char.ofNat 11)
  | _ => none

/-- Exactly `n` hexadecimal digits at the start of a text: their value, and the rest. -/
def takeHex? (n : Nat) (cs : List Char) : Option (Nat × List Char) :=
  let ds := cs.take n
  if ds.length == n then (hexValue? 0 ds).map (·, cs.drop n) else none

/-- What the text behind a backslash stands for, and the rest; `none` is a malformed escape, or a
name that is not among those of `Text.characterNamed?`. -/
def readEscape? (bytes : Bool) : List Char → Option (List Char × List Char)
  | [] => some (['\\'], [])
  | '\n' :: rest => some ([], rest)
  | '\r' :: '\n' :: rest => some ([], rest)
  | '\r' :: rest => some ([], rest)
  | c :: rest =>
    match simpleEscape? c with
    | some d => some ([d], rest)
    | none =>
      if isOctal c then
        let ds := c :: (rest.take 2).takeWhile isOctal
        let n := octalValue ds
        some ([Char.ofNat (if bytes then n % 256 else n)], rest.drop (ds.length - 1))
      else if c == 'x' then do
        let (n, more) ← takeHex? 2 rest
        pure ([Char.ofNat n], more)
      else if bytes then some (['\\', c], rest)
      else if c == 'u' then do
        let (n, more) ← takeHex? 4 rest
        pure ([← codePoint? n], more)
      else if c == 'U' then do
        let (n, more) ← takeHex? 8 rest
        pure ([← codePoint? n], more)
      else if c == 'N' then
        match rest with
        | '{' :: more =>
          let name := more.takeWhile (· != '}')
          match more.dropWhile (· != '}') with
          -- The table of names is partial, see there.
          | _ :: tail => (Text.characterNamed? (String.ofList name)).map ([·], tail)
          | [] => none
        | _ => none
      else some (['\\', c], rest)

/-- The text of a literal with its escapes resolved. The count bounds the escapes. -/
def resolveWith (bytes : Bool) : Nat → List Char → Option (List Char)
  | 0, cs => some cs
  | _ + 1, [] => some []
  | n + 1, '\\' :: rest => do
    let (image, more) ← readEscape? bytes rest
    pure (image ++ (← resolveWith bytes n more))
  | n + 1, c :: rest => do pure (c :: (← resolveWith bytes n rest))

/-- The text of a literal with its escapes resolved, or `none` if one is malformed. -/
def resolveEscapes (bytes : Bool) (cs : List Char) : Option (List Char) :=
  if cs.contains '\\' then resolveWith bytes cs.length cs else some cs

end Resumable.Token
