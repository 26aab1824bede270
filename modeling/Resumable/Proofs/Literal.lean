import Resumable.Object.Text
import Resumable.Proofs.FormatSpec
import Resumable.Token.Escape

/-!
# Objects as programs spell them

A quoted text ends at the first quote that is not escaped, and what stands before this quote is the
text when its escapes are resolved. So quoted texts, and with them all spellings of objects, say
themselves where they end: what stands behind a spelling does not change how it is read, except that
a digit behind an integer is a digit of it. Main statement: `Object.literal_unambiguous`.
-/

namespace Resumable

namespace Text

/-! ## Quoted texts -/

/-- A text in which the quote occurs only behind a backslash. -/
inductive Unbroken (quote : Char) : List Char → Prop
  | nil : Unbroken quote []
  | plain {c cs} : c ≠ quote → c ≠ '\\' → Unbroken quote cs → Unbroken quote (c :: cs)
  | escaped {c cs} : Unbroken quote cs → Unbroken quote ('\\' :: c :: cs)

/-- The end of an unbroken text is where the quote stands. -/
theorem Unbroken.append_inj {quote : Char} (hquote : quote ≠ '\\') {cs ds rest rest' : List Char}
    (hcs : Unbroken quote cs) (hds : Unbroken quote ds)
    (h : cs ++ quote :: rest = ds ++ quote :: rest') : cs = ds ∧ rest = rest' := by
  induction hcs generalizing ds with
  | nil =>
    cases hds with
    | nil => exact ⟨rfl, (List.cons.inj h).2⟩
    | plain hc => exact absurd (List.cons.inj h).1.symm hc
    | escaped => exact absurd (List.cons.inj h).1 hquote
  | plain hc hslash _ ih =>
    cases hds with
    | nil => exact absurd (List.cons.inj h).1 hc
    | plain _ _ hds =>
      obtain ⟨rfl, htail⟩ := List.cons.inj h
      obtain ⟨rfl, rfl⟩ := ih hds htail
      exact ⟨rfl, rfl⟩
    | escaped => exact absurd (List.cons.inj h).1 hslash
  | escaped _ ih =>
    cases hds with
    | nil => exact absurd (List.cons.inj h).1.symm hquote
    | plain _ hslash => exact absurd (List.cons.inj h).1.symm hslash
    | escaped hds =>
      obtain ⟨rfl, htail⟩ := List.cons.inj (List.cons.inj h).2
      obtain ⟨rfl, rfl⟩ := ih hds htail
      exact ⟨rfl, rfl⟩

/-- The quotes of a text. -/
def IsQuote (c : Char) : Prop := c = '\'' ∨ c = '"'

theorem isQuote_quoteFor (cs : List Char) : IsQuote (quoteFor cs) := by
  unfold quoteFor
  split
  · exact .inr rfl
  · exact .inl rfl

variable {quote c : Char} {isPlain : Char → Bool} {cs rest : List Char}

theorem hexDigit_ne (hquote : IsQuote quote) (n : Nat) :
    hexDigit (n % 16) ≠ quote ∧ hexDigit (n % 16) ≠ '\\' := by
  have h : ∀ d < 16, hexDigit d ≠ '\'' ∧ hexDigit d ≠ '"' ∧ hexDigit d ≠ '\\' := by decide
  obtain ⟨hsingle, hdouble, hslash⟩ := h _ (Nat.mod_lt n (by decide))
  obtain rfl | rfl := hquote
  · exact ⟨hsingle, hslash⟩
  · exact ⟨hdouble, hslash⟩

theorem unbroken_escape_append (hquote : IsQuote quote) (hrest : Unbroken quote rest) :
    Unbroken quote (escape quote isPlain c ++ rest) := by
  unfold escape
  split_ifs with hslash hline hreturn htab hc hplain
  · exact .escaped hrest
  · exact .escaped hrest
  · exact .escaped hrest
  · exact .escaped hrest
  · exact .escaped hrest
  · exact .plain (by simpa using hc) (by simpa using hslash) hrest
  · obtain ⟨hhigh, hhigh'⟩ := hexDigit_ne hquote (c.toNat / 16)
    obtain ⟨hlow, hlow'⟩ := hexDigit_ne hquote c.toNat
    exact .escaped (.plain hhigh hhigh' (.plain hlow hlow' hrest))

theorem unbroken_flatMap_escape (hquote : IsQuote quote) (cs : List Char) :
    Unbroken quote (cs.flatMap (escape quote isPlain)) := by
  induction cs with
  | nil => exact .nil
  | cons c cs ih => exact unbroken_escape_append hquote ih

end Text

namespace Token

open Text (escape hexByte hexDigit IsQuote)

variable {quote c : Char} {isPlain : Char → Bool} {bytes : Bool} {cs rest : List Char} {n : Nat}

theorem hexDigit?_hexDigit (n : Nat) : hexDigit? (hexDigit (n % 16)) = some (n % 16) := by
  have h : ∀ d < 16, hexDigit? (hexDigit d) = some d := by decide
  exact h _ (Nat.mod_lt n (by decide))

theorem readEscape?_hexByte (bytes : Bool) (rest : List Char) (h : n < 256) :
    readEscape? bytes ('x' :: (hexByte n ++ rest)) = some ([Char.ofNat n], rest) := by
  have hvalue : takeHex? 2 (hexByte n ++ rest) = some (n, rest) := by
    simp [takeHex?, hexByte, hexValue?, hexDigit?_hexDigit]
    omega
  simp [readEscape?, simpleEscape?, isOctal, hvalue]

theorem resolveWith_backslash {text : List Char} (h : readEscape? bytes text = some ([c], rest)) :
    resolveWith bytes (n + 1) ('\\' :: text) = (resolveWith bytes n rest).map (c :: ·) := by
  rw [resolveWith, h, Option.bind_eq_bind, Option.bind_some]
  dsimp only
  cases resolveWith bytes n rest <;> rfl

theorem resolveWith_cons (hc : c ≠ '\\') :
    resolveWith bytes (n + 1) (c :: rest) = (resolveWith bytes n rest).map (c :: ·) := by
  rw [resolveWith]
  · cases resolveWith bytes n rest <;> rfl
  · exact hc

theorem resolveWith_of_plain (h : '\\' ∉ cs) : resolveWith bytes n cs = some cs := by
  induction cs generalizing n with
  | nil => cases n <;> rfl
  | cons c cs ih =>
    obtain ⟨hc, hcs⟩ := not_or.mp (mt List.mem_cons.mpr h)
    cases n with
    | zero => rfl
    | succ n => rw [resolveWith_cons (Ne.symm hc), ih hcs, Option.map_some]

/-- Resolving gives back a character that was escaped, and goes on behind it. -/
theorem resolveWith_escape_append (hquote : IsQuote quote)
    (hc : isPlain c = false → c.toNat < 256) :
    resolveWith bytes (n + 1) (escape quote isPlain c ++ rest) =
      (resolveWith bytes n rest).map (c :: ·) := by
  unfold escape
  split_ifs with hslash hline hreturn htab hq hplain
  · obtain rfl := eq_of_beq hslash
    exact resolveWith_backslash rfl
  · obtain rfl := eq_of_beq hline
    exact resolveWith_backslash rfl
  · obtain rfl := eq_of_beq hreturn
    exact resolveWith_backslash rfl
  · obtain rfl := eq_of_beq htab
    exact resolveWith_backslash rfl
  · obtain rfl := eq_of_beq hq
    obtain rfl | rfl := hquote <;> exact resolveWith_backslash rfl
  · exact resolveWith_cons (by simpa using hslash)
  · have hread := readEscape?_hexByte bytes rest (hc (by simpa using hplain))
    rw [Char.ofNat_toNat] at hread
    exact resolveWith_backslash hread

theorem resolveWith_flatMap_escape (bytes : Bool) (hquote : IsQuote quote)
    (hcs : ∀ c ∈ cs, isPlain c = false → c.toNat < 256)
    (hn : (cs.flatMap (escape quote isPlain)).length ≤ n) :
    resolveWith bytes n (cs.flatMap (escape quote isPlain)) = some cs := by
  induction cs generalizing n with
  | nil => cases n <;> rfl
  | cons c cs ih =>
    rw [List.forall_mem_cons] at hcs
    have hlength : 0 < (escape quote isPlain c).length := by
      unfold escape
      split_ifs <;> simp
    rw [List.flatMap_cons, List.length_append] at hn
    cases n with
    | zero => omega
    | succ n =>
      rw [List.flatMap_cons, resolveWith_escape_append hquote hcs.1, ih hcs.2 (by omega),
        Option.map_some]

theorem resolveEscapes_flatMap_escape (hquote : IsQuote quote)
    (hcs : ∀ c ∈ cs, isPlain c = false → c.toNat < 256) :
    resolveEscapes bytes (cs.flatMap (escape quote isPlain)) = some cs := by
  unfold resolveEscapes
  split
  · exact resolveWith_flatMap_escape bytes hquote hcs le_rfl
  · next h =>
    exact (resolveWith_of_plain (by simpa using h)).symm.trans
      (resolveWith_flatMap_escape bytes hquote hcs le_rfl)

/-- A literal in quotes: between them is a text that the quote does not break, and that says the
characters when its escapes are resolved. -/
def Quotes (bytes : Bool) (literal cs : List Char) : Prop :=
  ∃ quote inside, IsQuote quote ∧ literal = quote :: inside ++ [quote] ∧
    Text.Unbroken quote inside ∧ resolveEscapes bytes inside = some cs

theorem quotes_quotedBy (hcs : ∀ c ∈ cs, isPlain c = false → c.toNat < 256) :
    Quotes bytes (Text.quotedBy isPlain cs) cs :=
  ⟨Text.quoteFor cs, _, Text.isQuote_quoteFor cs, rfl,
    Text.unbroken_flatMap_escape (Text.isQuote_quoteFor cs) cs,
    resolveEscapes_flatMap_escape (Text.isQuote_quoteFor cs) hcs⟩

theorem quotes_quoted (s : String) : Quotes false (Text.quoted s).toList s.toList := by
  rw [Text.quoted, String.toList_ofList]
  refine quotes_quotedBy fun c _ hc => ?_
  have : c.toNat < 0x20 ∨ c.toNat = 0x7F := by simpa [Nat.not_le, or_iff_not_imp_left] using hc
  omega

/-- The characters with the numbers of bytes. -/
def byteChars (data : List UInt8) : List Char := data.map fun b => Char.ofNat b.toNat

theorem toNat_ofNat_byte (b : UInt8) : (Char.ofNat b.toNat).toNat = b.toNat := by
  have hvalid : b.toNat.isValidChar := .inl (Nat.lt_trans b.toNat_lt (by decide))
  rw [Char.ofNat, dif_pos hvalid]
  rfl

theorem byteChars_inj {data data' : List UInt8} :
    byteChars data = byteChars data' ↔ data = data' := by
  refine List.map_inj_right fun a b h => UInt8.toNat_inj.mp ?_
  rw [← toNat_ofNat_byte a, ← toNat_ofNat_byte b, h]

theorem exists_quotedBytes (data : List UInt8) : ∃ literal,
    (Text.quotedBytes data).toList = 'b' :: literal ∧ Quotes true literal (byteChars data) := by
  refine ⟨_, String.toList_ofList, quotes_quotedBy fun c hc _ => ?_⟩
  obtain ⟨b, -, rfl⟩ := List.mem_map.mp hc
  rw [toNat_ofNat_byte]
  exact b.toNat_lt

/-- A literal says itself where it ends. -/
theorem Quotes.append_inj {literal literal' cs' rest' : List Char} (h : Quotes bytes literal cs)
    (h' : Quotes bytes literal' cs') (heq : literal ++ rest = literal' ++ rest') :
    cs = cs' ∧ rest = rest' := by
  obtain ⟨quote, inside, hquote, rfl, hinside, hcs⟩ := h
  obtain ⟨quote', inside', hquote', rfl, hinside', hcs'⟩ := h'
  obtain ⟨rfl, htail⟩ := List.cons.inj heq
  have htail : inside ++ quote :: rest = inside' ++ quote :: rest' := by simpa using htail
  have hslash : quote ≠ '\\' := by
    obtain rfl | rfl := hquote <;> decide
  obtain ⟨rfl, rfl⟩ := hinside.append_inj hslash hinside' htail
  exact ⟨Option.some.inj (hcs.symm.trans hcs'), rfl⟩

end Token

namespace Object

open FormatSpec (Bars bars_nil bars_cons takeWhile_append)

/-! ## Integers -/

theorem repr_append_inj {m n : Nat} {rest rest' : List Char} (hrest : Bars Char.isDigit rest)
    (hrest' : Bars Char.isDigit rest') (h : m.repr.toList ++ rest = n.repr.toList ++ rest') :
    m = n ∧ rest = rest' := by
  rw [Nat.toList_repr, Nat.toList_repr] at h
  have hm := takeWhile_append (fun c => Decimal.isDigit_of_mem_toDigits (n := m)) hrest
  have hn := takeWhile_append (fun c => Decimal.isDigit_of_mem_toDigits (n := n)) hrest'
  have hdigits : Nat.toDigits 10 m = Nat.toDigits 10 n := by rw [← hm.1, h, hn.1]
  refine ⟨?_, by rw [← hm.2, h, hn.2]⟩
  rw [← Decimal.digitsValue_toDigits m, hdigits, Decimal.digitsValue_toDigits]

theorem exists_repr_eq_cons (n : Nat) : ∃ c cs, n.repr.toList = c :: cs ∧ c.isDigit = true := by
  obtain ⟨c, cs, h⟩ := List.exists_cons_of_ne_nil (Nat.toDigits_ne_nil (n := n) (b := 10))
  refine ⟨c, cs, Nat.toList_repr.trans h, Decimal.isDigit_of_mem_toDigits (n := n) ?_⟩
  exact h ▸ List.mem_cons_self

theorem toString_append_inj {m n : Int} {rest rest' : List Char} (hrest : Bars Char.isDigit rest)
    (hrest' : Bars Char.isDigit rest')
    (h : (toString m).toList ++ rest = (toString n).toList ++ rest') : m = n ∧ rest = rest' := by
  change m.repr.toList ++ rest = n.repr.toList ++ rest' at h
  have hminus {k : Nat} {cs cs' : List Char} : k.repr.toList ++ cs ≠ '-' :: cs' := by
    obtain ⟨c, ds, hk, hc⟩ := exists_repr_eq_cons k
    rintro h
    rw [hk] at h
    obtain ⟨rfl, -⟩ := List.cons.inj h
    cases hc
  rw [Int.repr_eq_if, Int.repr_eq_if] at h
  split_ifs at h with hm hn hn
  · obtain ⟨hmn, rfl⟩ := repr_append_inj hrest hrest' h
    exact ⟨by omega, rfl⟩
  · rw [String.toList_append] at h
    exact absurd h hminus
  · rw [String.toList_append] at h
    exact absurd h.symm hminus
  · rw [String.toList_append, String.toList_append] at h
    obtain ⟨hmn, rfl⟩ := repr_append_inj hrest hrest' (List.cons.inj h).2
    exact ⟨by omega, rfl⟩

/-! ## Sequences -/

section
variable {α : Type} {write : α → List Char}

/-- Pieces with commas between them. -/
def separated (write : α → List Char) : List α → List Char
  | [] => []
  | [a] => write a
  | a :: b :: rest => write a ++ ',' :: ' ' :: separated write (b :: rest)

/-- The brackets that close sequences. -/
def IsClosing (c : Char) : Prop := c = ')' ∨ c = ']' ∨ c = '}'

/-- A text begins with a closing bracket, or with a comma in front of one. -/
def Closes (cs : List Char) : Prop :=
  ∃ c rest, IsClosing c ∧ (cs = c :: rest ∨ cs = ',' :: c :: rest)

/-- A text begins with a character that stands neither between pieces nor behind them. -/
def Opens (cs : List Char) : Prop := ∃ c rest, cs = c :: rest ∧ c ≠ ',' ∧ ¬ IsClosing c

/-- What is written says itself where it ends, as long as no digit is behind it. -/
def EndsItself (write : α → List Char) (a b : α) : Prop :=
  ∀ rest rest', Bars Char.isDigit rest → Bars Char.isDigit rest' →
    write a ++ rest = write b ++ rest' → a = b ∧ rest = rest'

theorem Closes.bars {cs : List Char} (h : Closes cs) : Bars Char.isDigit cs := by
  obtain ⟨c, rest, hc, rfl | rfl⟩ := h
  · exact bars_cons (by obtain rfl | rfl | rfl := hc <;> rfl) rest
  · exact bars_cons rfl _

theorem Closes.not_opens {cs : List Char} (h : Closes cs) : ¬ Opens cs := by
  rintro ⟨c, rest, rfl, hcomma, hclosing⟩
  obtain ⟨d, rest', hd, h | h⟩ := h
  · exact hclosing ((List.cons.inj h).1 ▸ hd)
  · exact hcomma (List.cons.inj h).1

theorem Closes.ne_comma {cs rest : List Char} (h : Closes cs) : cs ≠ ',' :: ' ' :: rest := by
  rintro rfl
  obtain ⟨c, rest', rfl | rfl | rfl, h | h⟩ := h <;> cases h

theorem Opens.append {cs : List Char} (h : Opens cs) (rest : List Char) : Opens (cs ++ rest) := by
  obtain ⟨c, cs, rfl, hc⟩ := h
  exact ⟨c, cs ++ rest, rfl, hc⟩

theorem opens_separated {a : α} (h : Opens (write a)) (as : List α) :
    Opens (separated write (a :: as)) := by
  cases as with
  | nil => exact h
  | cons b as => exact h.append _

/-- Pieces that say where they end make a sequence that says where it ends. -/
theorem separated_append_inj {as bs : List α} {rest rest' : List Char}
    (hinj : ∀ a ∈ as, ∀ b ∈ bs, EndsItself write a b) (has : ∀ a ∈ as, Opens (write a))
    (hbs : ∀ b ∈ bs, Opens (write b)) (hrest : Closes rest) (hrest' : Closes rest')
    (h : separated write as ++ rest = separated write bs ++ rest') : as = bs ∧ rest = rest' := by
  induction as generalizing bs with
  | nil =>
    cases bs with
    | nil => exact ⟨rfl, h⟩
    | cons b bs =>
      have hopens := (opens_separated (hbs b List.mem_cons_self) bs).append rest'
      rw [← h] at hopens
      exact absurd hopens hrest.not_opens
  | cons a as ih =>
    cases bs with
    | nil =>
      have hopens := (opens_separated (has a List.mem_cons_self) as).append rest
      rw [h] at hopens
      exact absurd hopens hrest'.not_opens
    | cons b bs =>
      have hab := hinj a List.mem_cons_self b List.mem_cons_self
      have hcomma {cs : List Char} : Bars Char.isDigit (',' :: cs) := bars_cons rfl cs
      cases as with
      | nil =>
        cases bs with
        | nil =>
          obtain ⟨rfl, rfl⟩ := hab _ _ hrest.bars hrest'.bars h
          exact ⟨rfl, rfl⟩
        | cons b' bs =>
          rw [separated, separated, List.append_assoc] at h
          exact absurd (hab _ _ hrest.bars hcomma h).2 hrest.ne_comma
      | cons a' as =>
        cases bs with
        | nil =>
          rw [separated, separated, List.append_assoc] at h
          exact absurd (hab _ _ hcomma hrest'.bars h).2.symm hrest'.ne_comma
        | cons b' bs =>
          rw [separated, separated, List.append_assoc, List.append_assoc] at h
          obtain ⟨rfl, htail⟩ := hab _ _ hcomma hcomma h
          obtain ⟨hsame, rfl⟩ := ih (fun x hx y hy => hinj x (.tail _ hx) y (.tail _ hy))
            (fun x hx => has x (.tail _ hx)) (fun y hy => hbs y (.tail _ hy))
            (List.cons.inj (List.cons.inj htail).2).2
          exact ⟨congrArg (a :: ·) hsame, rfl⟩

end

/-! ## Objects -/

/-- The characters of the spelling of an object. -/
def spelling (o : Object) : List Char := o.literal.toList

/-- The characters of an entry of a dict as it is spelled. -/
def entrySpelling (e : Object × Object) : List Char := spelling e.1 ++ ':' :: ' ' :: spelling e.2

theorem toList_joined (written : String) (items : List Object) :
    (joined written items).toList = written.toList ++ separated spelling items := by
  induction items generalizing written with
  | nil => rw [joined, separated, List.append_nil]
  | cons o items ih =>
    cases items with
    | nil => rw [joined, separated, String.toList_append, spelling]
    | cons o' items =>
      rw [joined, ih, separated, spelling]
      · simp
      · exact List.cons_ne_nil _ _

theorem toList_joinedEntries (written : String) (entries : List (Object × Object)) :
    (joinedEntries written entries).toList = written.toList ++ separated entrySpelling entries := by
  induction entries generalizing written with
  | nil => rw [joinedEntries, separated, List.append_nil]
  | cons e entries ih =>
    cases entries with
    | nil =>
      rw [joinedEntries, separated, entrySpelling, spelling, spelling]
      simp
    | cons e' entries =>
      rw [joinedEntries, ih, separated, entrySpelling, spelling, spelling]
      · simp
      · exact List.cons_ne_nil _ _

theorem spelling_list (items : List Object) :
    spelling (.list items) = '[' :: separated spelling items ++ [']'] := by
  rw [spelling, literal, String.toList_append, toList_joined]
  rfl

theorem spelling_tuple (items : List Object) :
    spelling (.tuple items) =
      '(' :: separated spelling items ++ if items.length = 1 then [',', ')'] else [')'] := by
  rw [spelling, literal, String.toList_append, toList_joined]
  simp only [beq_iff_eq]
  split <;> rfl

theorem spelling_dict (entries : List (Object × Object)) :
    spelling (.dict entries) = '{' :: separated entrySpelling entries ++ ['}'] := by
  rw [spelling, literal, String.toList_append, toList_joinedEntries]
  rfl

theorem spelling_path (p : String) :
    spelling (.path p) = "PosixPath(".toList ++ (Text.quoted p).toList ++ [')'] := by
  rw [spelling, literal, String.toList_append, String.toList_append]
  rfl

/-- Objects without floats that can be spelled in a program. -/
inductive Spellable : Object → Prop
  | none : Spellable .none
  | ellipsis : Spellable .ellipsis
  | bool (b) : Spellable (.bool b)
  | int (i) : Spellable (.int i)
  | string (s) : Spellable (.string s)
  | bytes (data) : Spellable (.bytes data)
  | path (p) : Spellable (.path p)
  | list {items} : (∀ o ∈ items, Spellable o) → Spellable (.list items)
  | tuple {items} : (∀ o ∈ items, Spellable o) → Spellable (.tuple items)
  | dict {entries} : (∀ e ∈ entries, Spellable e.1) → (∀ e ∈ entries, Spellable e.2) →
      Spellable (.dict entries)

/-- The name of the type of the objects whose spelling begins with a character. -/
def typeAt (c : Char) : Option String :=
  match c with
  | 'N' => some "NoneType"
  | 'E' => some "ellipsis"
  | 'T' | 'F' => some "bool"
  | '\'' | '"' => some "str"
  | 'b' => some "bytes"
  | 'P' => some "PosixPath"
  | '[' => some "list"
  | '(' => some "tuple"
  | '{' => some "dict"
  | c => if c = '-' ∨ c.isDigit then some "int" else .none

theorem typeAt_of_isDigit {c : Char} (h : c.isDigit = true) : typeAt c = some "int" := by
  unfold typeAt
  split
  all_goals first | cases h | exact if_pos (.inr h)

/-- The first character of a spelling says the type of the object. -/
theorem exists_typeAt {o : Object} (ho : o.Spellable) :
    ∃ c cs, spelling o = c :: cs ∧ typeAt c = some o.typeName := by
  cases ho with
  | none => exact ⟨'N', _, rfl, rfl⟩
  | ellipsis => exact ⟨'E', _, rfl, rfl⟩
  | bool b =>
    cases b with
    | true => exact ⟨'T', _, rfl, rfl⟩
    | false => exact ⟨'F', _, rfl, rfl⟩
  | int i =>
    change ∃ c cs, i.toInt.repr.toList = c :: cs ∧ _
    rw [Int.repr_eq_if]
    split
    · obtain ⟨c, cs, hcs, hc⟩ := exists_repr_eq_cons i.toInt.toNat
      exact ⟨c, cs, hcs, typeAt_of_isDigit hc⟩
    · exact ⟨'-', _, String.toList_append, rfl⟩
  | string s =>
    obtain ⟨quote, inside, hquote, hliteral, -⟩ := Token.quotes_quoted s
    exact ⟨quote, _, hliteral, by obtain rfl | rfl := hquote <;> rfl⟩
  | bytes data =>
    obtain ⟨cs, hliteral, -⟩ := Token.exists_quotedBytes data
    exact ⟨'b', cs, hliteral, rfl⟩
  | path p => exact ⟨'P', _, spelling_path p, rfl⟩
  | list => exact ⟨'[', _, spelling_list _, rfl⟩
  | tuple => exact ⟨'(', _, spelling_tuple _, rfl⟩
  | dict => exact ⟨'{', _, spelling_dict _, rfl⟩

theorem opens_spelling {o : Object} (ho : o.Spellable) : Opens (spelling o) := by
  obtain ⟨c, cs, hcs, hc⟩ := exists_typeAt ho
  refine ⟨c, cs, hcs, ?_, ?_⟩
  · rintro rfl
    cases hc
  · rintro (rfl | rfl | rfl) <;> cases hc

/-- Objects of different types are told apart by the first character. -/
theorem endsItself_of_typeName {o o' : Object} (ho : o.Spellable) (ho' : o'.Spellable)
    (h : o.typeName = o'.typeName → EndsItself spelling o o') : EndsItself spelling o o' := by
  intro rest rest' hrest hrest' heq
  refine h ?_ rest rest' hrest hrest' heq
  obtain ⟨c, cs, hcs, hc⟩ := exists_typeAt ho
  obtain ⟨c', cs', hcs', hc'⟩ := exists_typeAt ho'
  rw [hcs, hcs'] at heq
  obtain ⟨rfl, -⟩ := List.cons.inj heq
  exact Option.some.inj (hc.symm.trans hc')

/-- Keys and values that say where they end make entries that say where they end. -/
theorem EndsItself.entry {e e' : Object × Object} (hkey : EndsItself spelling e.1 e'.1)
    (hvalue : EndsItself spelling e.2 e'.2) : EndsItself entrySpelling e e' := by
  intro rest rest' hrest hrest' h
  rw [entrySpelling, entrySpelling, List.append_assoc, List.append_assoc] at h
  obtain ⟨hsame, htail⟩ := hkey _ _ (bars_cons rfl _) (bars_cons rfl _) h
  obtain ⟨hsame', rfl⟩ := hvalue _ _ hrest hrest' (List.cons.inj (List.cons.inj htail).2).2
  exact ⟨Prod.ext hsame hsame', rfl⟩

theorem closes_bracket {c : Char} (hc : IsClosing c) (rest : List Char) : Closes (c :: rest) :=
  ⟨c, rest, hc, .inl rfl⟩

/-- The end of a tuple, which has a comma if there is one item. -/
theorem closes_tuple (length : Nat) (rest : List Char) :
    Closes ((if length = 1 then [',', ')'] else [')']) ++ rest) := by
  split
  · exact ⟨')', rest, .inl rfl, .inr rfl⟩
  · exact ⟨')', rest, .inl rfl, .inl rfl⟩

/-- A spelling says itself where it ends, as long as no digit is behind it. -/
theorem endsItself_spelling {o o' : Object} (ho : o.Spellable) (ho' : o'.Spellable) :
    EndsItself spelling o o' := by
  refine endsItself_of_typeName ho ho' fun htype => ?_
  induction ho generalizing o' with
  | none =>
    cases ho' with
    | none => exact fun _ _ _ _ h => ⟨rfl, List.append_cancel_left h⟩
    | _ => simp [typeName] at htype
  | ellipsis =>
    cases ho' with
    | ellipsis => exact fun _ _ _ _ h => ⟨rfl, List.append_cancel_left h⟩
    | _ => simp [typeName] at htype
  | bool b =>
    cases ho' with
    | bool b' =>
      intro rest rest' _ _ h
      cases b <;> cases b' <;> simp [spelling, literal] at h
      · exact ⟨rfl, h⟩
      · exact ⟨rfl, h⟩
    | _ => simp [typeName] at htype
  | int i =>
    cases ho' with
    | int i' =>
      intro rest rest' hrest hrest' h
      obtain ⟨hsame, rfl⟩ := toString_append_inj hrest hrest' h
      exact ⟨congrArg _ (Int64.toInt_inj.mp hsame), rfl⟩
    | _ => simp [typeName] at htype
  | string s =>
    cases ho' with
    | string s' =>
      intro rest rest' _ _ h
      obtain ⟨hsame, rfl⟩ := (Token.quotes_quoted s).append_inj (Token.quotes_quoted s') h
      exact ⟨congrArg _ (String.toList_inj.mp hsame), rfl⟩
    | _ => simp [typeName] at htype
  | bytes data =>
    cases ho' with
    | bytes data' =>
      intro rest rest' _ _ h
      obtain ⟨cs, hcs, hquotes⟩ := Token.exists_quotedBytes data
      obtain ⟨cs', hcs', hquotes'⟩ := Token.exists_quotedBytes data'
      change (Text.quotedBytes data).toList ++ rest = (Text.quotedBytes data').toList ++ rest' at h
      rw [hcs, hcs'] at h
      obtain ⟨hsame, rfl⟩ := hquotes.append_inj hquotes' (List.cons.inj h).2
      exact ⟨congrArg _ (Token.byteChars_inj.mp hsame), rfl⟩
    | _ => simp [typeName] at htype
  | path p =>
    cases ho' with
    | path p' =>
      intro rest rest' _ _ h
      rw [spelling_path, spelling_path] at h
      simp only [List.append_assoc] at h
      obtain ⟨hsame, htail⟩ := (Token.quotes_quoted p).append_inj (Token.quotes_quoted p')
        (List.append_cancel_left h)
      exact ⟨congrArg _ (String.toList_inj.mp hsame), (List.cons.inj htail).2⟩
    | _ => simp [typeName] at htype
  | list hitems ih =>
    cases ho' with
    | list hitems' =>
      intro rest rest' _ _ h
      rw [spelling_list, spelling_list] at h
      obtain ⟨rfl, htail⟩ := separated_append_inj
        (fun o ho o' ho' =>
          endsItself_of_typeName (hitems o ho) (hitems' o' ho') (ih o ho (hitems' o' ho')))
        (fun o ho => opens_spelling (hitems o ho)) (fun o ho => opens_spelling (hitems' o ho))
        (closes_bracket (.inr (.inl rfl)) rest) (closes_bracket (.inr (.inl rfl)) rest')
        (by simpa using h)
      exact ⟨rfl, (List.cons.inj htail).2⟩
    | _ => simp [typeName] at htype
  | tuple hitems ih =>
    cases ho' with
    | tuple hitems' =>
      intro rest rest' _ _ h
      rw [spelling_tuple, spelling_tuple] at h
      obtain ⟨rfl, htail⟩ := separated_append_inj
        (fun o ho o' ho' =>
          endsItself_of_typeName (hitems o ho) (hitems' o' ho') (ih o ho (hitems' o' ho')))
        (fun o ho => opens_spelling (hitems o ho)) (fun o ho => opens_spelling (hitems' o ho))
        (closes_tuple _ rest) (closes_tuple _ rest') (by simpa using h)
      exact ⟨rfl, List.append_cancel_left htail⟩
    | _ => simp [typeName] at htype
  | dict hkeys hvalues ihkeys ihvalues =>
    cases ho' with
    | dict hkeys' hvalues' =>
      intro rest rest' _ _ h
      rw [spelling_dict, spelling_dict] at h
      obtain ⟨rfl, htail⟩ := separated_append_inj
        (fun e he e' he' => .entry
          (endsItself_of_typeName (hkeys e he) (hkeys' e' he') (ihkeys e he (hkeys' e' he')))
          (endsItself_of_typeName (hvalues e he) (hvalues' e' he')
            (ihvalues e he (hvalues' e' he'))))
        (fun e he => (opens_spelling (hkeys e he)).append _)
        (fun e he => (opens_spelling (hkeys' e he)).append _)
        (closes_bracket (.inr (.inr rfl)) rest) (closes_bracket (.inr (.inr rfl)) rest')
        (by simpa using h)
      exact ⟨rfl, (List.cons.inj htail).2⟩
    | _ => simp [typeName] at htype

/-- **Unambiguous spellings**: the literals of texts and bytes give them back when the escapes
between the quotes are resolved, and different objects have different spellings. -/
theorem literal_unambiguous :
    (∀ s : String, Token.Quotes false (Text.quoted s).toList s.toList) ∧
    (∀ data : List UInt8, ∃ literal, (Text.quotedBytes data).toList = 'b' :: literal ∧
      Token.Quotes true literal (Token.byteChars data)) ∧
    ∀ o o' : Object, o.Spellable → o'.Spellable → (o.literal = o'.literal ↔ o = o') := by
  refine ⟨Token.quotes_quoted, Token.exists_quotedBytes, fun o o' ho ho' => ?_⟩
  refine ⟨fun h => ?_, congrArg literal⟩
  have hspelling : spelling o ++ [] = spelling o' ++ [] := by rw [spelling, spelling, h]
  exact (endsItself_spelling ho ho' [] [] (bars_nil _) (bars_nil _) hspelling).1

/-- A text that looks like the middle of a list is still one text. -/
theorem literal_unambiguous_imitation :
    let o : Object := .list [.string "a', 'b"]
    let o' : Object := .list [.string "a", .string "b"]
    o.Spellable ∧ o'.Spellable ∧ (o.literal = o'.literal ↔ o = o') ∧ o.literal ≠ o'.literal := by
  have ho : Spellable (.list [.string "a', 'b"]) := .list (by simp [Spellable.string])
  have ho' : Spellable (.list [.string "a", .string "b"]) := .list (by simp [Spellable.string])
  have hiff := literal_unambiguous.2.2 _ _ ho ho'
  exact ⟨ho, ho', hiff, mt hiff.mp (by simp)⟩

end Object

end Resumable
