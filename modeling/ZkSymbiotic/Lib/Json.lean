import Mathlib.Data.List.Basic
import Mathlib.Logic.Basic
import ZkSymbiotic.Lib.Hex

/-!
# JSON texts

* `Json`                 a value; the members of an object stand in their order;
* `Json.print`           its text without blanks, in which only the escapes that are needed stand;
* `readValue`            the value at the start of a text, and what is left of the text;
* `readValue_print`      a printed value is read back, whatever follows it;
* `Json.ofText_toText`   the round trip of whole texts.

The reader skips no blanks, lets leading zeros pass, and refuses escaped surrogate pairs.
-/

inductive Json where
  | null
  | bool (b : Bool)
  /-- a number without fraction and exponent -/
  | int (n : Int)
  /-- the number `m * 10 ^ e` -/
  | decimal (m e : Int)
  | string (s : String)
  | array (items : List Json)
  | object (members : List (String × Json))

namespace Json

/-! ## printing -/

def printInt : Int → List Char
  | .ofNat n => Nat.toDigits 10 n
  | .negSucc n => '-' :: Nat.toDigits 10 (n + 1)

/-- the characters with an escape of their own, and the letters of these escapes -/
def shortEscapes : List (Char × Char) :=
  [( '"', '"'), ( '\\', '\\'), (Char.ofNat 8, 'b'), (Char.ofNat 9, 't'), (Char.ofNat 10, 'n'),
    (Char.ofNat 12, 'f'), (Char.ofNat 13, 'r')]

def printChar (c : Char) : List Char :=
  match shortEscapes.lookup c with
  | some letter => ['\\', letter]
  | none =>
    if c.toNat < 32 then
      ['\\', 'u', '0', '0', Nat.digitChar (c.toNat / 16), Nat.digitChar (c.toNat % 16)]
    else [c]

def printString (s : String) : List Char := '"' :: (s.toList.flatMap printChar ++ ['"'])

mutual

def print : Json → List Char
  | .null => ['n', 'u', 'l', 'l']
  | .bool true => ['t', 'r', 'u', 'e']
  | .bool false => ['f', 'a', 'l', 's', 'e']
  | .int n => printInt n
  | .decimal m e => printInt m ++ 'e' :: printInt e
  | .string s => printString s
  | .array [] => ['[', ']']
  | .array (item :: items) => '[' :: (item.print ++ printItems items)
  | .object [] => ['{', '}']
  | .object (member :: members) => '{' :: (printMember member ++ printMembers members)

def printMember : String × Json → List Char
  | (name, value) => printString name ++ ':' :: value.print

/-- the items behind the first one -/
def printItems : List Json → List Char
  | [] => [']']
  | item :: items => ',' :: (item.print ++ printItems items)

/-- the members behind the first one -/
def printMembers : List (String × Json) → List Char
  | [] => ['}']
  | member :: members => ',' :: (printMember member ++ printMembers members)

end

def toText (v : Json) : String := String.ofList v.print

/-! ## reading -/

/-- at least one digit -/
def readDigits (text : List Char) : Option (List Char × List Char) :=
  match text.takeWhile Char.isDigit with
  | [] => none
  | digits => some (digits, text.dropWhile Char.isDigit)

/-- the sign and the digits -/
def readSigned : List Char → Option ((Bool × List Char) × List Char)
  | '-' :: text => (readDigits text).map fun read => ((true, read.1), read.2)
  | text => (readDigits text).map fun read => ((false, read.1), read.2)

def signed (sign : Bool × List Char) : Int :=
  if sign.1 then -(Nat.ofDigitChars 10 sign.2 0 : Int) else Nat.ofDigitChars 10 sign.2 0

def readFraction : List Char → Option (List Char × List Char)
  | '.' :: text => readDigits text
  | text => some ([], text)

def readExponent : List Char → Option (Option Int × List Char)
  | 'e' :: '+' :: text | 'E' :: '+' :: text =>
    (readDigits text).map fun read => (some (signed (false, read.1)), read.2)
  | 'e' :: text | 'E' :: text => (readSigned text).map fun read => (some (signed read.1), read.2)
  | text => some (none, text)

def readNumber (text : List Char) : Option (Json × List Char) := do
  let (sign, text) ← readSigned text
  let (fraction, text) ← readFraction text
  let (exponent, text) ← readExponent text
  match fraction, exponent with
  | [], none => some (.int (signed sign), text)
  | fraction, exponent =>
    some (.decimal (signed (sign.1, sign.2 ++ fraction)) (exponent.getD 0 - fraction.length), text)

/-- the character of four hex digits, unless it is one half of a pair -/
def unicodeEscape? (a b c d : Char) : Option Char := do
  let a ← hexValue? a
  let b ← hexValue? b
  let c ← hexValue? c
  let d ← hexValue? d
  let code := 16 * (16 * (16 * a + b) + c) + d
  if code.isValidChar then some (Char.ofNat code) else none

def shortEscape? (letter : Char) : Option Char :=
  if letter = '/' then some '/'
  else (shortEscapes.find? fun escape => escape.2 = letter).map (·.1)

def push (char : Char) (read : List Char × List Char) : List Char × List Char :=
  (char :: read.1, read.2)

/-- the characters up to the closing quote -/
def readChars : List Char → Option (List Char × List Char)
  | [] => none
  | '"' :: text => some ([], text)
  | '\\' :: 'u' :: a :: b :: c :: d :: text =>
    (unicodeEscape? a b c d).bind fun char => (readChars text).map (push char)
  | '\\' :: letter :: text =>
    (shortEscape? letter).bind fun char => (readChars text).map (push char)
  | char :: text => if char.toNat < 32 then none else (readChars text).map (push char)

def readString : List Char → Option (String × List Char)
  | '"' :: text => (readChars text).map fun read => (String.ofList read.1, read.2)
  | _ => none

def readScalar : List Char → Option (Json × List Char)
  | 'n' :: 'u' :: 'l' :: 'l' :: text => some (.null, text)
  | 't' :: 'r' :: 'u' :: 'e' :: text => some (.bool true, text)
  | 'f' :: 'a' :: 'l' :: 's' :: 'e' :: text => some (.bool false, text)
  | '"' :: text => (readString ('"' :: text)).map fun read => (.string read.1, read.2)
  | text => readNumber text

mutual

/-- the fuel is at least the length of the value's text -/
def readValue : Nat → List Char → Option (Json × List Char)
  | 0, _ => none
  | _ + 1, '[' :: ']' :: text => some (.array [], text)
  | fuel + 1, '[' :: text => do
    let (item, text) ← readValue fuel text
    let (items, text) ← readItems fuel text
    some (.array (item :: items), text)
  | _ + 1, '{' :: '}' :: text => some (.object [], text)
  | fuel + 1, '{' :: text => do
    let (member, text) ← readMember fuel text
    let (members, text) ← readMembers fuel text
    some (.object (member :: members), text)
  | _ + 1, text => readScalar text

def readMember : Nat → List Char → Option ((String × Json) × List Char)
  | 0, _ => none
  | fuel + 1, text => do
    let (name, text) ← readString text
    match text with
    | ':' :: text => (readValue fuel text).map fun read => ((name, read.1), read.2)
    | _ => none

def readItems : Nat → List Char → Option (List Json × List Char)
  | _ + 1, ']' :: text => some ([], text)
  | fuel + 1, ',' :: text => do
    let (item, text) ← readValue fuel text
    let (items, text) ← readItems fuel text
    some (item :: items, text)
  | _, _ => none

def readMembers : Nat → List Char → Option (List (String × Json) × List Char)
  | _ + 1, '}' :: text => some ([], text)
  | fuel + 1, ',' :: text => do
    let (member, text) ← readMember fuel text
    let (members, text) ← readMembers fuel text
    some (member :: members, text)
  | _, _ => none

end

/-- the value that a whole text is -/
def ofText (s : String) : Option Json :=
  match readValue s.toList.length s.toList with
  | some (v, []) => some v
  | _ => none

/-! ## the round trip of a number -/

/-- what follows a number does not belong to it -/
def Ends (text : List Char) : Prop :=
  ∀ c ∈ text.head?, c.isDigit = false ∧ c ≠ '.' ∧ c ≠ 'e' ∧ c ≠ 'E'

theorem ends_cons {c : Char} {text : List Char}
    (h : c.isDigit = false ∧ c ≠ '.' ∧ c ≠ 'e' ∧ c ≠ 'E') : Ends (c :: text) := by
  intro c' hc'
  obtain rfl := Option.some.inj hc'
  exact h

theorem readDigits_append {digits rest : List Char} (hdigits : ∀ c ∈ digits, c.isDigit = true)
    (hne : digits ≠ []) (hrest : ∀ c ∈ rest.head?, c.isDigit = false) :
    readDigits (digits ++ rest) = some (digits, rest) := by
  have hstop : rest.takeWhile Char.isDigit = [] ∧ rest.dropWhile Char.isDigit = rest := by
    cases rest with
    | nil => exact ⟨rfl, rfl⟩
    | cons c rest =>
      have hc : ¬ c.isDigit = true := Bool.eq_false_iff.mp (hrest c rfl)
      exact ⟨List.takeWhile_cons_of_neg hc, List.dropWhile_cons_of_neg hc⟩
  unfold readDigits
  rw [List.takeWhile_append_of_pos hdigits, List.dropWhile_append_of_pos hdigits, hstop.1, hstop.2,
    List.append_nil]
  cases digits with
  | nil => exact absurd rfl hne
  | cons d digits => rfl

theorem readDigits_toDigits (n : Nat) {rest : List Char}
    (hrest : ∀ c ∈ rest.head?, c.isDigit = false) :
    readDigits (Nat.toDigits 10 n ++ rest) = some (Nat.toDigits 10 n, rest) :=
  readDigits_append
    (fun _ hc => Nat.isDigit_of_mem_toDigits (by decide) (by decide) hc) Nat.toDigits_ne_nil hrest

/-- a printed number starts with its sign or a digit -/
theorem printInt_eq_cons (n : Int) :
    ∃ c text, printInt n = c :: text ∧ (c = '-' ∨ c.isDigit = true) := by
  cases n with
  | negSucc n => exact ⟨_, _, rfl, Or.inl rfl⟩
  | ofNat n =>
    obtain ⟨c, text, heq⟩ := List.exists_cons_of_ne_nil (Nat.toDigits_ne_nil (n := n) (b := 10))
    refine ⟨c, text, heq, Or.inr ?_⟩
    exact Nat.isDigit_of_mem_toDigits (b := 10) (n := n) (by decide) (by decide)
      (heq ▸ List.mem_cons_self)

theorem readSigned_of_ne {c : Char} (h : c ≠ '-') (text : List Char) :
    readSigned (c :: text)
      = (readDigits (c :: text)).map fun read => ((false, read.1), read.2) := by
  rw [readSigned]
  intro text' heq
  exact h (List.cons.inj heq).1

theorem signed_toDigits (negative : Bool) (n : Nat) :
    signed (negative, Nat.toDigits 10 n) = if negative then -(n : Int) else n := by
  unfold signed
  rw [Nat.ofDigitChars_ten_toDigits]

theorem readSigned_printInt (n : Int) {rest : List Char}
    (hrest : ∀ c ∈ rest.head?, c.isDigit = false) :
    ∃ sign, readSigned (printInt n ++ rest) = some (sign, rest) ∧ signed sign = n := by
  cases n with
  | negSucc n =>
    refine ⟨(true, Nat.toDigits 10 (n + 1)), ?_, signed_toDigits true (n + 1)⟩
    show (readDigits (Nat.toDigits 10 (n + 1) ++ rest)).map _ = _
    rw [readDigits_toDigits (n + 1) hrest]
    rfl
  | ofNat n =>
    have hdigits : ∀ c ∈ Nat.toDigits 10 n, c ≠ '-' := by
      rintro c hc rfl
      exact absurd (Nat.isDigit_of_mem_toDigits (by decide) (by decide) hc) (by decide)
    have hread := readDigits_toDigits n hrest
    obtain ⟨c, text, heq⟩ := List.exists_cons_of_ne_nil (Nat.toDigits_ne_nil (n := n) (b := 10))
    refine ⟨(false, Nat.toDigits 10 n), ?_, signed_toDigits false n⟩
    show readSigned (Nat.toDigits 10 n ++ rest) = _
    rw [heq] at hread hdigits ⊢
    rw [List.cons_append, readSigned_of_ne (hdigits c List.mem_cons_self), ← List.cons_append,
      hread]
    rfl

theorem readFraction_of_ne {rest : List Char} (h : ∀ c ∈ rest.head?, c ≠ '.') :
    readFraction rest = some ([], rest) := by
  unfold readFraction
  split
  · exact absurd rfl (h _ rfl)
  · rfl

theorem readExponent_of_ne {rest : List Char} (h : ∀ c ∈ rest.head?, c ≠ 'e' ∧ c ≠ 'E') :
    readExponent rest = some (none, rest) := by
  unfold readExponent
  split
  · exact absurd rfl (h _ rfl).1
  · exact absurd rfl (h _ rfl).2
  · exact absurd rfl (h _ rfl).1
  · exact absurd rfl (h _ rfl).2
  · rfl

theorem readExponent_printInt (e : Int) {rest : List Char}
    (hrest : ∀ c ∈ rest.head?, c.isDigit = false) :
    readExponent ('e' :: (printInt e ++ rest)) = some (some e, rest) := by
  obtain ⟨sign, hread, hsign⟩ := readSigned_printInt e hrest
  obtain ⟨c, text, heq, hc⟩ := printInt_eq_cons e
  have hplus : c ≠ '+' := by
    rintro rfl
    exact absurd hc (by decide)
  have hskip : readExponent ('e' :: (printInt e ++ rest))
      = (readSigned (printInt e ++ rest)).map fun read => (some (signed read.1), read.2) := by
    rw [heq, List.cons_append]
    unfold readExponent
    split
    · rename_i h
      exact absurd (List.cons.inj (List.cons.inj h).2).1 hplus
    · rename_i h
      exact absurd (List.cons.inj h).1 (by decide)
    · rename_i h
      obtain ⟨_, rfl⟩ := List.cons.inj h
      rfl
    · rename_i h
      exact absurd (List.cons.inj h).1 (by decide)
    · rename_i h _
      exact absurd rfl (h _)
  rw [hskip, hread]
  show some (some (signed sign), rest) = _
  rw [hsign]

theorem readNumber_int (n : Int) {rest : List Char} (hrest : Ends rest) :
    readNumber (printInt n ++ rest) = some (.int n, rest) := by
  obtain ⟨sign, hread, hsign⟩ := readSigned_printInt n fun c hc => (hrest c hc).1
  have hfraction := readFraction_of_ne fun c hc => (hrest c hc).2.1
  have hexponent := readExponent_of_ne fun c hc => (hrest c hc).2.2
  simp only [readNumber, hread, hfraction, hexponent, Option.bind_eq_bind, Option.bind_some, hsign]

theorem readNumber_decimal (m e : Int) {rest : List Char} (hrest : Ends rest) :
    readNumber (printInt m ++ 'e' :: (printInt e ++ rest)) = some (.decimal m e, rest) := by
  have hhead : ∀ c ∈ ('e' :: (printInt e ++ rest)).head?, c = 'e' := by
    intro c hc
    exact (Option.some.inj hc).symm
  have hdigit : ∀ c ∈ ('e' :: (printInt e ++ rest)).head?, c.isDigit = false :=
    fun c hc => hhead c hc ▸ rfl
  have hdot : ∀ c ∈ ('e' :: (printInt e ++ rest)).head?, c ≠ '.' :=
    fun c hc => hhead c hc ▸ (by decide)
  obtain ⟨sign, hread, hsign⟩ := readSigned_printInt m hdigit
  have hfraction := readFraction_of_ne hdot
  have hexponent := readExponent_printInt e fun c hc => (hrest c hc).1
  simp only [readNumber, hread, hfraction, hexponent, Option.bind_eq_bind, Option.bind_some,
    List.append_nil, hsign]
  show some (decimal m (e - 0), rest) = _
  rw [Int.sub_zero]

/-! ## the round trip of a string -/

theorem readChars_short {letter : Char} (h : letter ≠ 'u') (text : List Char) :
    readChars ('\\' :: letter :: text)
      = (shortEscape? letter).bind fun char => (readChars text).map (push char) := by
  rw [readChars]
  intro a b c d text' heq _
  exact h heq

theorem readChars_plain {c : Char} (hquote : c ≠ '"') (hslash : c ≠ '\\') (hprint : ¬ c.toNat < 32)
    (text : List Char) : readChars (c :: text) = (readChars text).map (push c) := by
  rw [readChars]
  · rw [if_neg hprint]
  · exact hquote
  · intro a b c' d text' heq _
    exact hslash heq
  · intro letter text' heq _
    exact hslash heq

theorem shortEscape?_of_mem {escape : Char × Char} (h : escape ∈ shortEscapes) :
    shortEscape? escape.2 = some escape.1 ∧ escape.2 ≠ 'u' := by
  have hall : ∀ escape ∈ shortEscapes,
      shortEscape? escape.2 = some escape.1 ∧ escape.2 ≠ 'u' := by decide
  exact hall escape h

theorem unicodeEscape?_digitChar {c : Char} (h : c.toNat < 32) :
    unicodeEscape? '0' '0' (Nat.digitChar (c.toNat / 16)) (Nat.digitChar (c.toNat % 16))
      = some c := by
  have hhigh := hexValue?_digitChar (n := c.toNat / 16) (by omega)
  have hlow := hexValue?_digitChar (n := c.toNat % 16) (by omega)
  have hzero : hexValue? '0' = some 0 := rfl
  have hcode : 16 * (16 * (16 * 0 + 0) + c.toNat / 16) + c.toNat % 16 = c.toNat := by omega
  unfold unicodeEscape?
  simp only [hhigh, hlow, hzero, Option.bind_eq_bind, Option.bind_some]
  rw [hcode]
  exact (if_pos c.valid).trans (congrArg some (Char.ofNat_toNat c))

/-- a printed character is read back -/
theorem readChars_printChar (c : Char) (text : List Char) :
    readChars (printChar c ++ text) = (readChars text).map (push c) := by
  unfold printChar
  cases hlookup : shortEscapes.lookup c with
  | some letter =>
    have hmem : (c, letter) ∈ shortEscapes := by
      obtain ⟨before, after, heq, _⟩ := List.lookup_eq_some_iff.mp hlookup
      rw [heq]
      exact List.mem_append_right before List.mem_cons_self
    obtain ⟨hescape, hletter⟩ := shortEscape?_of_mem hmem
    show readChars ('\\' :: letter :: text) = _
    rw [readChars_short hletter, hescape, Option.bind_some]
  | none =>
    have hnot : ∀ escape ∈ shortEscapes, c ≠ escape.1 := by
      intro escape hescape heq
      exact bne_iff_ne.mp (List.lookup_eq_none_iff.mp hlookup escape hescape) heq
    show readChars ((if c.toNat < 32 then _ else [c]) ++ text) = _
    by_cases hcontrol : c.toNat < 32
    · rw [if_pos hcontrol]
      show readChars ('\\' :: 'u' :: '0' :: '0' :: _ :: _ :: text) = _
      rw [readChars, unicodeEscape?_digitChar hcontrol]
      rfl
    · rw [if_neg hcontrol]
      exact readChars_plain (hnot ( '"', '"') (by decide)) (hnot ( '\\', '\\') (by decide))
        hcontrol text

theorem readString_printString (s : String) (text : List Char) :
    readString (printString s ++ text) = some (s, text) := by
  have hchars : ∀ cs : List Char,
      readChars (cs.flatMap printChar ++ '"' :: text) = some (cs, text) := by
    intro cs
    induction cs with
    | nil => rfl
    | cons c cs ih =>
      rw [List.flatMap_cons, List.append_assoc, readChars_printChar, ih]
      rfl
  have hprint : printString s ++ text = '"' :: (s.toList.flatMap printChar ++ '"' :: text) := by
    unfold printString
    rw [List.cons_append, List.append_assoc]
    rfl
  rw [hprint]
  show (readChars _).map _ = _
  rw [hchars]
  show some (String.ofList s.toList, text) = _
  rw [String.ofList_toList]

/-! ## the round trip of a value -/

theorem readValue_scalar {fuel : Nat} {text : List Char}
    (h : ∀ c ∈ text.head?, c ≠ '[' ∧ c ≠ '\x7b') :
    readValue (fuel + 1) text = readScalar text := by
  rw [readValue]
  · rintro text' rfl
    exact (h _ rfl).1 rfl
  · rintro text' rfl
    exact (h _ rfl).1 rfl
  · rintro text' rfl
    exact (h _ rfl).2 rfl
  · rintro text' rfl
    exact (h _ rfl).2 rfl

theorem readScalar_number {c : Char} (h : c = '-' ∨ c.isDigit = true) (text : List Char) :
    readScalar (c :: text) = readNumber (c :: text) := by
  have hne : ∀ d ∈ ['n', 't', 'f', '"'], c ≠ d := by
    rintro d hd rfl
    simp only [List.mem_cons, List.not_mem_nil, or_false] at hd
    rcases hd with rfl | rfl | rfl | rfl <;> exact absurd h (by decide)
  rw [readScalar]
  · intro text' heq
    exact hne 'n' (by decide) (List.cons.inj heq).1
  · intro text' heq
    exact hne 't' (by decide) (List.cons.inj heq).1
  · intro text' heq
    exact hne 'f' (by decide) (List.cons.inj heq).1
  · intro text' heq
    exact hne '"' (by decide) (List.cons.inj heq).1

/-- a number is no other scalar, and no array or object -/
theorem readValue_number {c : Char} (h : c = '-' ∨ c.isDigit = true) (fuel : Nat)
    (text : List Char) : readValue (fuel + 1) (c :: text) = readNumber (c :: text) := by
  have hbrackets : ¬ ('[' = '-' ∨ Char.isDigit '[' = true) ∧
      ¬ ('\x7b' = '-' ∨ Char.isDigit '\x7b' = true) := by decide
  have hscalar : ∀ d ∈ (c :: text).head?, d ≠ '[' ∧ d ≠ '\x7b' := by
    intro d hd
    obtain rfl := Option.some.inj hd
    exact ⟨fun heq => hbrackets.1 (heq ▸ h), fun heq => hbrackets.2 (heq ▸ h)⟩
  rw [readValue_scalar hscalar, readScalar_number h]

theorem readValue_int (n : Int) (fuel : Nat) {rest : List Char} (hrest : Ends rest) :
    readValue (fuel + 1) (print (.int n) ++ rest) = some (.int n, rest) := by
  obtain ⟨c, text, heq, hc⟩ := printInt_eq_cons n
  rw [← readNumber_int n hrest, print, heq, List.cons_append]
  exact readValue_number hc fuel _

theorem readValue_decimal (m e : Int) (fuel : Nat) {rest : List Char} (hrest : Ends rest) :
    readValue (fuel + 1) (print (.decimal m e) ++ rest) = some (.decimal m e, rest) := by
  obtain ⟨c, text, heq, hc⟩ := printInt_eq_cons m
  rw [← readNumber_decimal m e hrest, print, heq, List.append_assoc, List.cons_append,
    List.cons_append]
  exact readValue_number hc fuel _

theorem readValue_string (s : String) (fuel : Nat) (rest : List Char) :
    readValue (fuel + 1) (print (.string s) ++ rest) = some (.string s, rest) := by
  show (readString (printString s ++ rest)).map _ = _
  rw [readString_printString]
  rfl

/-- the characters besides digits that a value starts with -/
def firstChars : List Char := ['n', 't', 'f', '"', '[', '\x7b', '-']

theorem print_eq_cons (v : Json) :
    ∃ c text, v.print = c :: text ∧ (c.isDigit = true ∨ c ∈ firstChars) := by
  have hint : ∀ (n : Int) (rest : List Char), ∃ c text, printInt n ++ rest = c :: text ∧
      (c.isDigit = true ∨ c ∈ firstChars) := by
    intro n rest
    obtain ⟨c, text, heq, hc⟩ := printInt_eq_cons n
    refine ⟨c, text ++ rest, ?_, ?_⟩
    · rw [heq]
      rfl
    · rcases hc with rfl | hc
      · exact Or.inr (by decide)
      · exact Or.inl hc
  cases v with
  | null => exact ⟨_, _, rfl, by decide⟩
  | bool b =>
    cases b with
    | true => exact ⟨_, _, rfl, by decide⟩
    | false => exact ⟨_, _, rfl, by decide⟩
  | int n =>
    have h := hint n []
    rw [List.append_nil] at h
    exact h
  | decimal m e => exact hint m _
  | string s => exact ⟨_, _, rfl, by decide⟩
  | array items =>
    cases items with
    | nil => exact ⟨_, _, rfl, by decide⟩
    | cons item items => exact ⟨_, _, rfl, by decide⟩
  | object members =>
    cases members with
    | nil => exact ⟨_, _, rfl, by decide⟩
    | cons member members => exact ⟨_, _, rfl, by decide⟩

/-- no value starts with another character -/
theorem print_head?_ne (v : Json) {c : Char} (hdigit : c.isDigit = false) (hc : c ∉ firstChars)
    (rest : List Char) : ∀ d ∈ (v.print ++ rest).head?, d ≠ c := by
  obtain ⟨first, text, heq, hfirst⟩ := print_eq_cons v
  rw [heq]
  rintro d hd rfl
  obtain rfl := Option.some.inj hd
  rcases hfirst with hfirst | hfirst
  · exact absurd (hdigit.symm.trans hfirst) Bool.false_ne_true
  · exact hc hfirst

theorem ends_printItems (items : List Json) (rest : List Char) :
    Ends (printItems items ++ rest) := by
  cases items with
  | nil => exact ends_cons (by decide)
  | cons item items => exact ends_cons (by decide)

theorem ends_printMembers (members : List (String × Json)) (rest : List Char) :
    Ends (printMembers members ++ rest) := by
  cases members with
  | nil => exact ends_cons (by decide)
  | cons member members => exact ends_cons (by decide)

/-- an array that is not empty -/
theorem readValue_array {fuel : Nat} {text : List Char} (h : ∀ c ∈ text.head?, c ≠ ']') :
    readValue (fuel + 1) ('[' :: text) = (readValue fuel text).bind fun item =>
      (readItems fuel item.2).bind fun items => some (.array (item.1 :: items.1), items.2) := by
  rw [readValue]
  · rfl
  · rintro text' rfl
    exact h _ rfl rfl

theorem readValue_object {fuel : Nat} {text : List Char} (h : ∀ c ∈ text.head?, c ≠ '\x7d') :
    readValue (fuel + 1) ('\x7b' :: text) = (readMember fuel text).bind fun member =>
      (readMembers fuel member.2).bind fun members =>
        some (.object (member.1 :: members.1), members.2) := by
  rw [readValue]
  · rfl
  · rintro text' rfl
    exact h _ rfl rfl

mutual

theorem readValue_print (v : Json) (fuel : Nat) {rest : List Char} (hfuel : v.print.length ≤ fuel)
    (hrest : Ends rest) : readValue fuel (v.print ++ rest) = some (v, rest) := by
  cases fuel with
  | zero =>
    obtain ⟨c, text, heq, _⟩ := print_eq_cons v
    rw [heq] at hfuel
    exact absurd hfuel (Nat.not_succ_le_zero _)
  | succ fuel =>
    cases v with
    | null => rfl
    | bool b =>
      cases b with
      | true => rfl
      | false => rfl
    | int n => exact readValue_int n fuel hrest
    | decimal m e => exact readValue_decimal m e fuel hrest
    | string s => exact readValue_string s fuel rest
    | array items =>
      cases items with
      | nil => rfl
      | cons item items =>
        rw [print, List.length_cons, List.length_append] at hfuel
        have hitem := readValue_print item fuel (by omega) (ends_printItems items rest)
        have hitems := readItems_print items fuel rest (by omega)
        have hhead : ∀ c ∈ (item.print ++ (printItems items ++ rest)).head?, c ≠ ']' :=
          print_head?_ne item (by decide) (by decide) _
        rw [print, List.cons_append, List.append_assoc, readValue_array hhead, hitem]
        show (readItems fuel (printItems items ++ rest)).bind _ = _
        rw [hitems]
        rfl
    | object members =>
      cases members with
      | nil => rfl
      | cons member members =>
        rw [print, List.length_cons, List.length_append] at hfuel
        have hmember := readMember_print member fuel (by omega) (ends_printMembers members rest)
        have hmembers := readMembers_print members fuel rest (by omega)
        have hhead : ∀ c ∈ (printMember member ++ (printMembers members ++ rest)).head?,
            c ≠ '\x7d' := by
          intro c hc
          rw [printMember, printString] at hc
          exact Option.some.inj hc ▸ (by decide)
        rw [print, List.cons_append, List.append_assoc, readValue_object hhead, hmember]
        show (readMembers fuel (printMembers members ++ rest)).bind _ = _
        rw [hmembers]
        rfl

theorem readMember_print (member : String × Json) (fuel : Nat) {rest : List Char}
    (hfuel : (printMember member).length ≤ fuel) (hrest : Ends rest) :
    readMember fuel (printMember member ++ rest) = some (member, rest) := by
  obtain ⟨name, value⟩ := member
  rw [printMember, List.length_append, List.length_cons] at hfuel
  cases fuel with
  | zero => exact absurd hfuel (Nat.not_succ_le_zero _)
  | succ fuel =>
    have hvalue := readValue_print value fuel (by omega) hrest
    rw [printMember, List.append_assoc, List.cons_append, readMember, readString_printString]
    show (readValue fuel (value.print ++ rest)).map _ = _
    rw [hvalue]
    rfl

theorem readItems_print (items : List Json) (fuel : Nat) (rest : List Char)
    (hfuel : (printItems items).length ≤ fuel) :
    readItems fuel (printItems items ++ rest) = some (items, rest) := by
  cases items with
  | nil =>
    cases fuel with
    | zero => exact absurd hfuel (Nat.not_succ_le_zero _)
    | succ fuel => rfl
  | cons item items =>
    rw [printItems, List.length_cons, List.length_append] at hfuel
    cases fuel with
    | zero => exact absurd hfuel (Nat.not_succ_le_zero _)
    | succ fuel =>
      have hitem := readValue_print item fuel (by omega) (ends_printItems items rest)
      have hitems := readItems_print items fuel rest (by omega)
      rw [printItems, List.cons_append, List.append_assoc, readItems, hitem]
      show (readItems fuel (printItems items ++ rest)).bind _ = _
      rw [hitems]
      rfl

theorem readMembers_print (members : List (String × Json)) (fuel : Nat) (rest : List Char)
    (hfuel : (printMembers members).length ≤ fuel) :
    readMembers fuel (printMembers members ++ rest) = some (members, rest) := by
  cases members with
  | nil =>
    cases fuel with
    | zero => exact absurd hfuel (Nat.not_succ_le_zero _)
    | succ fuel => rfl
  | cons member members =>
    rw [printMembers, List.length_cons, List.length_append] at hfuel
    cases fuel with
    | zero => exact absurd hfuel (Nat.not_succ_le_zero _)
    | succ fuel =>
      have hmember := readMember_print member fuel (by omega) (ends_printMembers members rest)
      have hmembers := readMembers_print members fuel rest (by omega)
      rw [printMembers, List.cons_append, List.append_assoc, readMembers, hmember]
      show (readMembers fuel (printMembers members ++ rest)).bind _ = _
      rw [hmembers]
      rfl

end

theorem ofText_toText (v : Json) : ofText v.toText = some v := by
  have hread := readValue_print v v.print.length (Nat.le_refl _) (nofun : Ends [])
  rw [List.append_nil] at hread
  unfold ofText toText
  rw [String.toList_ofList, hread]

end Json
