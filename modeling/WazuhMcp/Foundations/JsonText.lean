import WazuhMcp.Foundations.Numeral

/-!
# JSON texts

A reader of JSON texts, as the decoders of scripting languages are: white space between tokens is passed
over, `NaN` and the infinities are constants, a number without a fraction and an exponent is an integer, and
what is built of what is read is up to the caller (`Hooks`). A text is not tied to one way of writing it:
`Reads` says that a text is read as a value wherever it stands, and there is a rule for each form of value.

* `Literal.flatMap`: what is written character by character, each in a way that is read as this character,
  is read as the string.
* `scanNumber_append`: a number is read up to where it ends.
* `Listing.group`: items with commas between them and white space around them are read as the items.
* `Reads.arr` and `Reads.obj`: the rules for arrays and objects, and `loads_eq`: a text that is read as a
  value is read so with white space around it.
-/

namespace JsonText

/-! ## Characters -/

/-- The white space between tokens. -/
def isSpace (c : Char) : Bool := c = ' ' || c = '\t' || c = '\n' || c = '\r'

/-- The text without the white space it begins with. -/
def skipSpace (cs : List Char) : List Char := cs.dropWhile isSpace

/-- The value of a hexadecimal digit. -/
def hexValue (c : Char) : Option ℕ :=
  if c.isDigit then some (c.toNat - '0'.toNat)
  else if 'a' ≤ c ∧ c ≤ 'f' then some (c.toNat - 'a'.toNat + 10)
  else if 'A' ≤ c ∧ c ≤ 'F' then some (c.toNat - 'A'.toNat + 10)
  else none

/-- A code unit in four hexadecimal digits, and what follows it. -/
def codeUnit : List Char → Option (ℕ × List Char)
  | a :: b :: c :: d :: rest => do
    let a ← hexValue a
    let b ← hexValue b
    let c ← hexValue c
    let d ← hexValue d
    return (a * 4096 + b * 256 + c * 16 + d, rest)
  | _ => none

/-- The escapes of a single character. -/
def simpleEscape (c : Char) : Option Char :=
  if c = '"' ∨ c = '\\' ∨ c = '/' then some c
  else if c = 'b' then some (Char.ofNat 0x08)
  else if c = 'f' then some (Char.ofNat 0x0c)
  else if c = 'n' then some '\n'
  else if c = 'r' then some '\r'
  else if c = 't' then some '\t'
  else none

/-- The second half of a surrogate pair, as an escape, and what follows it. -/
def lowSurrogate : List Char → Option (ℕ × List Char)
  | c :: d :: rest =>
    if c = '\\' ∧ d = 'u' then (codeUnit rest).filter fun p => 0xdc00 ≤ p.1 && p.1 ≤ 0xdfff else none
  | _ => none

/-- What stands after a backslash, and what follows it. A surrogate has to be one half of a pair: on its own
it is no character. -/
def escape : List Char → Option (Char × List Char)
  | [] => none
  | c :: cs =>
    if c = 'u' then do
      let (n, rest) ← codeUnit cs
      if 0xd800 ≤ n ∧ n ≤ 0xdbff then
        let (m, rest) ← lowSurrogate rest
        return (Char.ofNat (0x10000 + (n - 0xd800) * 0x400 + (m - 0xdc00)), rest)
      else if 0xdc00 ≤ n ∧ n ≤ 0xdfff then none
      else some (Char.ofNat n, rest)
    else (simpleEscape c).map (·, cs)

/-- A character of a string, and what follows it. Control characters have to be escaped. -/
def char : List Char → Option (Char × List Char)
  | [] => none
  | c :: cs => if c = '\\' then escape cs else if c.toNat < 0x20 then none else some (c, cs)

/-- A string after its opening quote, and what follows its closing one. -/
def string : ℕ → List Char → Option (List Char × List Char)
  | 0, _ => none
  | _ + 1, [] => none
  | fuel + 1, c :: cs =>
    if c = '"' then some ([], cs)
    else do
      let (d, rest) ← char (c :: cs)
      let (s, rest) ← string fuel rest
      return (d :: s, rest)

/-! ## Numbers -/

/-- The parts of a number: its digits before the point, and its fraction and its exponent as they stand. -/
structure NumberParts where
  negative : Bool
  whole : List Char
  fraction : List Char
  exponent : List Char

namespace NumberParts

variable (p : NumberParts)

/-- Whether there is neither a fraction nor an exponent. -/
def isInt : Bool := p.fraction.isEmpty && p.exponent.isEmpty

/-- The integer that the digits before the point denote. -/
def toInt : ℤ := if p.negative then -(Text.natOfDigits p.whole : ℤ) else Text.natOfDigits p.whole

/-- The text of the number. -/
def text : List Char := (if p.negative then ['-'] else []) ++ p.whole ++ p.fraction ++ p.exponent

end NumberParts

/-- The digits before the point, without leading zeros, and what follows them. -/
def scanWhole : List Char → Option (List Char × List Char)
  | [] => none
  | c :: cs =>
    if c = '0' then some (['0'], cs)
    else if c.isDigit then some (c :: cs.takeWhile Char.isDigit, cs.dropWhile Char.isDigit)
    else none

/-- Digits after what introduces them, and what follows them: nothing, if there is no digit. -/
def scanDigits (lead cs : List Char) : List Char × List Char :=
  if (cs.takeWhile Char.isDigit).isEmpty then ([], lead ++ cs)
  else (lead ++ cs.takeWhile Char.isDigit, cs.dropWhile Char.isDigit)

/-- The fraction, if there is one, and what follows it. -/
def scanFraction : List Char → List Char × List Char
  | [] => ([], [])
  | c :: cs => if c = '.' then scanDigits [c] cs else ([], c :: cs)

/-- The digits of an exponent with their sign, if they have one, and what follows them. -/
def scanSigned (mark : Char) : List Char → List Char × List Char
  | [] => ([], [mark])
  | c :: cs => if c = '+' ∨ c = '-' then scanDigits [mark, c] cs else scanDigits [mark] (c :: cs)

/-- The exponent, if there is one, and what follows it. -/
def scanExponent : List Char → List Char × List Char
  | [] => ([], [])
  | c :: cs => if c = 'e' ∨ c = 'E' then scanSigned c cs else ([], c :: cs)

/-- A number without its sign, and what follows it. -/
def scanUnsigned (negative : Bool) (cs : List Char) : Option (NumberParts × List Char) := do
  let (whole, rest) ← scanWhole cs
  let (fraction, rest) := scanFraction rest
  let (exponent, rest) := scanExponent rest
  return (⟨negative, whole, fraction, exponent⟩, rest)

/-- A number, and what follows it. -/
def scanNumber : List Char → Option (NumberParts × List Char)
  | [] => none
  | c :: cs => if c = '-' then scanUnsigned true cs else scanUnsigned false (c :: cs)

/-! ## Values -/

/-- What a reader builds of what it reads. -/
structure Hooks (V : Type) where
  null : V
  bool : Bool → V
  int : ℤ → V
  float : List Char → V
  nan : V
  infinity : V
  negInfinity : V
  str : List Char → V
  arr : List V → V
  obj : List (List Char × V) → V

section Reader

variable {V A : Type} (hooks : Hooks V)

/-- Elements with commas between them, up to the closing bracket, and what follows it. -/
def sequence (close : Char) (element : List Char → Option (A × List Char)) :
    ℕ → List Char → Option (List A × List Char)
  | 0, _ => none
  | fuel + 1, cs => do
    let (x, rest) ← element cs
    match skipSpace rest with
    | [] => none
    | c :: rest =>
      if c = close then some ([x], rest)
      else if c = ',' then do
        let (xs, rest) ← sequence close element fuel (skipSpace rest)
        return (x :: xs, rest)
      else none

/-- What stands between two brackets, after the opening one, and what follows the closing one. -/
def group (close : Char) (element : List Char → Option (A × List Char)) (cs : List Char) :
    Option (List A × List Char) :=
  match skipSpace cs with
  | [] => none
  | c :: rest => if c = close then some ([], rest) else sequence close element cs.length (c :: rest)

/-- A member of an object, and what follows it. -/
def member (value : List Char → Option (V × List Char)) : List Char → Option ((List Char × V) × List Char)
  | [] => none
  | c :: cs =>
    if c = '"' then do
      let (key, rest) ← string cs.length cs
      match skipSpace rest with
      | [] => none
      | d :: rest =>
        if d = ':' then do
          let (x, rest) ← value (skipSpace rest)
          return ((key, x), rest)
        else none
    else none

/-- The first of the words that the text begins with, and what follows it. -/
def word : List (String × V) → List Char → Option (V × List Char)
  | [], _ => none
  | (w, x) :: words, cs =>
    if w.toList.isPrefixOf cs then some (x, cs.drop w.toList.length) else word words cs

/-- A number, and what follows it. -/
def number (cs : List Char) : Option (V × List Char) :=
  (scanNumber cs).map fun p => (if p.1.isInt then hooks.int p.1.toInt else hooks.float p.1.text, p.2)

/-- A word or a number, and what follows it. -/
def scalar (cs : List Char) : Option (V × List Char) :=
  (word [("null", hooks.null), ("true", hooks.bool true), ("false", hooks.bool false)] cs).or
    ((number hooks cs).or
      (word [("NaN", hooks.nan), ("Infinity", hooks.infinity), ("-Infinity", hooks.negInfinity)] cs))

/-- A value, nested no deeper than the first argument says, and what follows it. -/
def value : ℕ → List Char → Option (V × List Char)
  | 0, _ => none
  | _ + 1, [] => none
  | fuel + 1, c :: cs =>
    if c = '"' then (string cs.length cs).map fun p => (hooks.str p.1, p.2)
    else if c = '\x7b' then (group '\x7d' (member (value fuel)) cs).map fun p => (hooks.obj p.1, p.2)
    else if c = '[' then (group ']' (value fuel) cs).map fun p => (hooks.arr p.1, p.2)
    else scalar hooks (c :: cs)

/-- The value of a text, if it is one value with white space around it. -/
def loads (cs : List Char) : Option V := do
  let (x, rest) ← value hooks cs.length (skipSpace cs)
  if (skipSpace rest).isEmpty then some x else none

end Reader

/-! ## Strings that are written character by character -/

/-- The text between the quotes is read as the string. -/
def Literal (cs s : List Char) : Prop :=
  ∀ fuel rest, cs.length < fuel → string fuel (cs ++ '"' :: rest) = some (s, rest)

/-- The piece of text is read as the character, and is not taken for the closing quote. -/
structure Denotes (piece : List Char) (c : Char) : Prop where
  head : ∃ d ds, piece = d :: ds ∧ d ≠ '"'
  char : ∀ rest, char (piece ++ rest) = some (c, rest)

theorem Literal.nil : Literal [] [] := by
  intro fuel rest hfuel
  cases fuel with
  | zero => exact absurd hfuel (Nat.not_lt_zero _)
  | succ fuel => rfl

theorem Literal.cons {piece cs s : List Char} {c : Char} (hpiece : Denotes piece c) (hcs : Literal cs s) :
    Literal (piece ++ cs) (c :: s) := by
  intro fuel rest hfuel
  obtain ⟨d, ds, hhead, hd⟩ := hpiece.head
  have hchar := hpiece.char (cs ++ '"' :: rest)
  subst hhead
  simp only [List.cons_append, List.length_cons, List.length_append] at hfuel hchar ⊢
  cases fuel with
  | zero => omega
  | succ fuel =>
    rw [string, if_neg hd, List.append_assoc, hchar]
    show (string fuel (cs ++ '"' :: rest)).bind _ = _
    rw [hcs fuel rest (by omega)]
    rfl

/-- **What is written character by character** is read as the string. -/
theorem Literal.flatMap {write : Char → List Char} (hwrite : ∀ c, Denotes (write c) c) (s : List Char) :
    Literal (s.flatMap write) s := by
  induction s with
  | nil => exact .nil
  | cons c s ih => exact .cons (hwrite c) ih

/-- A character that is no control character stands for itself. -/
theorem denotes_self {c : Char} (hquote : c ≠ '"') (hslash : c ≠ '\\') (hc : 0x20 ≤ c.toNat) :
    Denotes [c] c where
  head := ⟨c, [], rfl, hquote⟩
  char rest := by
    show char (c :: rest) = _
    rw [char, if_neg hslash, if_neg (by omega)]

theorem denotes_escape {e c : Char} (he : e ≠ 'u') (hc : simpleEscape e = some c) :
    Denotes ['\\', e] c where
  head := ⟨'\\', [e], rfl, by decide⟩
  char rest := by
    show char ('\\' :: e :: rest) = _
    rw [char, if_pos rfl, escape, if_neg he, hc]
    rfl

theorem hexValue_digitChar : ∀ d < 16, hexValue (Nat.digitChar d) = some d := by decide

/-- The hexadecimal digits of a code unit. -/
def hexDigits (n : ℕ) : List Char :=
  [n / 4096 % 16, n / 256 % 16, n / 16 % 16, n % 16].map Nat.digitChar

theorem codeUnit_hexDigits {n : ℕ} (hn : n < 0x10000) (rest : List Char) :
    codeUnit (hexDigits n ++ rest) = some (n, rest) := by
  have hsum : n / 4096 % 16 * 4096 + n / 256 % 16 * 256 + n / 16 % 16 * 16 + n % 16 = n := by omega
  simp only [hexDigits, List.map_cons, List.map_nil, List.cons_append, List.nil_append, codeUnit,
    hexValue_digitChar _ (Nat.mod_lt _ (by omega : 16 > 0)), Option.bind_eq_bind, Option.bind_some,
    Option.pure_def, hsum]

/-- No character is a surrogate. -/
theorem not_surrogate (c : Char) : ¬(0xd800 ≤ c.toNat ∧ c.toNat ≤ 0xdfff) := by
  have hvalid : c.toNat < 0xd800 ∨ 0xdfff < c.toNat ∧ c.toNat < 0x110000 := c.valid
  omega

theorem toNat_lt (c : Char) : c.toNat < 0x110000 := by
  have hvalid : c.toNat < 0xd800 ∨ 0xdfff < c.toNat ∧ c.toNat < 0x110000 := c.valid
  omega

/-- A character may be written as the escape of its code unit. -/
theorem denotes_codeUnit {c : Char} (hc : c.toNat < 0x10000) :
    Denotes ('\\' :: 'u' :: hexDigits c.toNat) c where
  head := ⟨'\\', _, rfl, by decide⟩
  char rest := by
    have hsurrogate := not_surrogate c
    show char ('\\' :: 'u' :: (hexDigits c.toNat ++ rest)) = _
    rw [char, if_pos rfl, escape, if_pos rfl, codeUnit_hexDigits hc]
    show (if _ then _ else _) = _
    rw [if_neg (by omega), if_neg (by omega), Char.ofNat_toNat]

theorem escape_pair {n m : ℕ} {cs rest rest' : List Char} (hunit : codeUnit cs = some (n, rest))
    (hn : 0xd800 ≤ n ∧ n ≤ 0xdbff) (hlow : lowSurrogate rest = some (m, rest')) :
    escape ('u' :: cs) = some (Char.ofNat (0x10000 + (n - 0xd800) * 0x400 + (m - 0xdc00)), rest') := by
  rw [escape, if_pos rfl, hunit]
  simp only [Option.bind_eq_bind, Option.bind_some, if_pos hn, hlow, Option.pure_def]

theorem lowSurrogate_hexDigits {m : ℕ} (hm : 0xdc00 ≤ m ∧ m ≤ 0xdfff) (rest : List Char) :
    lowSurrogate ('\\' :: 'u' :: (hexDigits m ++ rest)) = some (m, rest) := by
  rw [lowSurrogate, if_pos ⟨rfl, rfl⟩, codeUnit_hexDigits (by omega)]
  exact Option.filter_eq_some_iff.mpr ⟨rfl, by simpa using hm⟩

/-- A character beyond the code units may be written as a pair of surrogates. -/
theorem denotes_surrogates {c : Char} (hc : 0x10000 ≤ c.toNat) :
    Denotes (('\\' :: 'u' :: hexDigits (0xd800 + (c.toNat - 0x10000) / 0x400)) ++
      ('\\' :: 'u' :: hexDigits (0xdc00 + (c.toNat - 0x10000) % 0x400))) c where
  head := ⟨'\\', _, rfl, by decide⟩
  char rest := by
    have hlt := toNat_lt c
    have hsum : 0x10000 + (0xd800 + (c.toNat - 0x10000) / 0x400 - 0xd800) * 0x400 +
        (0xdc00 + (c.toNat - 0x10000) % 0x400 - 0xdc00) = c.toNat := by omega
    have hescape := escape_pair (codeUnit_hexDigits (by omega) _) (by omega)
      (lowSurrogate_hexDigits (m := 0xdc00 + (c.toNat - 0x10000) % 0x400) (by omega) rest)
      (n := 0xd800 + (c.toNat - 0x10000) / 0x400)
    rw [hsum, Char.ofNat_toNat] at hescape
    simp only [List.cons_append, List.append_assoc]
    rw [char, if_pos rfl]
    exact hescape

/-! ## Numbers and what follows them -/

/-- Nothing that a number could go on with. -/
def Ends (rest : List Char) : Prop :=
  ∀ c ∈ rest.head?, c.isDigit = false ∧ c ≠ '.' ∧ c ≠ 'e' ∧ c ≠ 'E'

theorem Ends.nil : Ends [] := by
  intro c hc
  cases hc

theorem Ends.cons {c : Char} {cs : List Char} (hc : c.isDigit = false ∧ c ≠ '.' ∧ c ≠ 'e' ∧ c ≠ 'E') :
    Ends (c :: cs) := by
  intro d hd
  cases hd
  exact hc

section Span

variable {p : Char → Bool} {rest : List Char} (hrest : ∀ c ∈ rest.head?, p c = false)
include hrest

theorem takeWhile_append_stop (cs : List Char) : (cs ++ rest).takeWhile p = cs.takeWhile p := by
  induction cs with
  | nil =>
    cases rest with
    | nil => rfl
    | cons c rest => simp [hrest c rfl]
  | cons c cs ih => simp only [List.cons_append, List.takeWhile_cons, ih]

theorem dropWhile_append_stop (cs : List Char) : (cs ++ rest).dropWhile p = cs.dropWhile p ++ rest := by
  induction cs with
  | nil =>
    cases rest with
    | nil => rfl
    | cons c rest => simp [hrest c rfl]
  | cons c cs ih =>
    simp only [List.cons_append, List.dropWhile_cons, ih]
    split <;> rfl

end Span

section NumberEnds

variable {rest : List Char} (hrest : Ends rest)
include hrest

theorem Ends.isDigit : ∀ c ∈ rest.head?, c.isDigit = false := fun c hc => (hrest c hc).1

theorem scanWhole_append {cs ds cs' : List Char} (h : scanWhole cs = some (ds, cs')) :
    scanWhole (cs ++ rest) = some (ds, cs' ++ rest) := by
  cases cs with
  | nil => cases h
  | cons c cs =>
    simp only [List.cons_append, scanWhole, takeWhile_append_stop hrest.isDigit,
      dropWhile_append_stop hrest.isDigit] at h ⊢
    split at h
    · rename_i hc
      cases h
      rw [if_pos hc]
    · rename_i hc
      split at h
      · rename_i hdigit
        cases h
        rw [if_neg hc, if_pos hdigit]
      · cases h

theorem scanDigits_append (lead cs : List Char) :
    scanDigits lead (cs ++ rest) = ((scanDigits lead cs).1, (scanDigits lead cs).2 ++ rest) := by
  unfold scanDigits
  rw [takeWhile_append_stop hrest.isDigit, dropWhile_append_stop hrest.isDigit]
  split
  · rw [List.append_assoc]
  · rfl

theorem scanFraction_append (cs : List Char) :
    scanFraction (cs ++ rest) = ((scanFraction cs).1, (scanFraction cs).2 ++ rest) := by
  cases cs with
  | nil =>
    cases rest with
    | nil => rfl
    | cons c rest => simp [scanFraction, (hrest c rfl).2.1]
  | cons c cs =>
    simp only [List.cons_append, scanFraction, scanDigits_append hrest]
    split <;> rfl

/-- An exponent that ends with the text ends before what follows. -/
theorem scanExponent_append {cs : List Char} (h : (scanExponent cs).2 = []) :
    scanExponent (cs ++ rest) = ((scanExponent cs).1, rest) := by
  cases cs with
  | nil =>
    cases rest with
    | nil => rfl
    | cons c rest => simp [scanExponent, (hrest c rfl).2.2.1, (hrest c rfl).2.2.2]
  | cons c cs =>
    simp only [List.cons_append, scanExponent] at h ⊢
    split at h
    · rename_i hc
      rw [if_pos hc]
      cases cs with
      | nil => cases h
      | cons d ds =>
        simp only [List.cons_append, scanSigned] at h ⊢
        split at h
        · rename_i hd
          rw [if_pos hd, if_pos hc, scanDigits_append hrest, h, List.nil_append, if_pos hd]
        · rename_i hd
          rw [if_neg hd, if_pos hc, ← List.cons_append, scanDigits_append hrest, h, List.nil_append,
            if_neg hd]
    · cases h

theorem scanUnsigned_append {negative : Bool} {cs : List Char} {p : NumberParts}
    (h : scanUnsigned negative cs = some (p, [])) :
    scanUnsigned negative (cs ++ rest) = some (p, rest) := by
  unfold scanUnsigned at h ⊢
  cases hwhole : scanWhole cs with
  | none =>
    rw [hwhole] at h
    cases h
  | some found =>
    obtain ⟨ds, cs'⟩ := found
    rw [hwhole] at h
    simp only [Option.bind_eq_bind, Option.bind_some, Option.pure_def, Option.some.injEq, Prod.mk.injEq] at h
    rw [scanWhole_append hrest hwhole]
    simp only [Option.bind_eq_bind, Option.bind_some, Option.pure_def, scanFraction_append hrest,
      scanExponent_append hrest h.2, h.1]

/-- **A number that is a whole text** is read in front of whatever does not continue it. -/
theorem scanNumber_append {cs : List Char} {p : NumberParts} (h : scanNumber cs = some (p, [])) :
    scanNumber (cs ++ rest) = some (p, rest) := by
  cases cs with
  | nil => cases h
  | cons c cs =>
    simp only [List.cons_append, scanNumber] at h ⊢
    split at h
    · rename_i hc
      rw [if_pos hc, scanUnsigned_append hrest h]
    · rename_i hc
      rw [if_neg hc, ← List.cons_append, scanUnsigned_append hrest h]

end NumberEnds

/-! ## Integers and floats -/

theorem scanWhole_toDigits (n : ℕ) : scanWhole (Nat.toDigits 10 n) = some (Nat.toDigits 10 n, []) := by
  cases Nat.eq_zero_or_pos n with
  | inl hn =>
    rw [hn]
    rfl
  | inr hn =>
    obtain ⟨hne, hhead, hall⟩ := Text.isNumeral_toDigits hn
    cases hds : Nat.toDigits 10 n with
    | nil => exact absurd hds hne
    | cons d ds =>
      rw [hds] at hhead hall
      obtain ⟨hd, hrest⟩ := List.forall_mem_cons.mp (List.all_eq_true.mp hall)
      have htake : ds.takeWhile Char.isDigit = ds := List.takeWhile_eq_self_iff.mpr hrest
      have hdrop : ds.dropWhile Char.isDigit = [] := List.dropWhile_eq_nil_iff.mpr hrest
      rw [scanWhole, if_neg (by simpa using hhead), if_pos hd, htake, hdrop]

theorem scanUnsigned_toDigits (negative : Bool) (n : ℕ) :
    scanUnsigned negative (Nat.toDigits 10 n) = some (⟨negative, Nat.toDigits 10 n, [], []⟩, []) := by
  rw [scanUnsigned, scanWhole_toDigits]
  rfl

theorem digit_ne_minus {d : Char} (hd : d.isDigit = true) : d ≠ '-' := by
  rintro rfl
  cases hd

/-- The decimal digits of an integer are read as the integer. -/
theorem scanNumber_int (i : ℤ) : ∃ p, scanNumber (toString i).toList = some (p, []) ∧ p.isInt = true ∧
    p.toInt = i ∧ p.text = (toString i).toList := by
  cases i with
  | ofNat n =>
    have htext : (toString (Int.ofNat n)).toList = Nat.toDigits 10 n := Nat.toList_repr
    refine ⟨⟨false, Nat.toDigits 10 n, [], []⟩, ?_, rfl, ?_, ?_⟩
    · rw [htext, ← scanUnsigned_toDigits]
      cases hds : Nat.toDigits 10 n with
      | nil => exact absurd hds Nat.toDigits_ne_nil
      | cons d ds =>
        have hd : d.isDigit = true :=
          Nat.isDigit_of_mem_toDigits (by omega) (by omega) (hds ▸ List.mem_cons_self)
        rw [scanNumber, if_neg (digit_ne_minus hd)]
    · simp [NumberParts.toInt, Text.natOfDigits_toDigits]
    · rw [htext]
      simp [NumberParts.text]
  | negSucc n =>
    have htext : (toString (Int.negSucc n)).toList = '-' :: Nat.toDigits 10 (n + 1) := by
      show ("-" ++ Nat.repr (n + 1)).toList = _
      rw [String.toList_append, Nat.toList_repr]
      rfl
    refine ⟨⟨true, Nat.toDigits 10 (n + 1), [], []⟩, ?_, rfl, ?_, ?_⟩
    · rw [htext, scanNumber, if_pos rfl, scanUnsigned_toDigits]
    · simp only [NumberParts.toInt, if_true, Text.natOfDigits_toDigits]
      rfl
    · rw [htext]
      simp [NumberParts.text]

/-- Whether the text is a number with a fraction or an exponent. -/
def isFloat (cs : List Char) : Bool :=
  match scanNumber cs with
  | some (p, []) => !p.isInt && p.text == cs
  | _ => false

theorem isFloat_iff {cs : List Char} : isFloat cs = true ↔
    ∃ p, scanNumber cs = some (p, []) ∧ p.isInt = false ∧ p.text = cs := by
  unfold isFloat
  split
  · rename_i p h
    simp [h]
  · rename_i hne
    refine iff_of_false (by simp) ?_
    rintro ⟨p, h, -⟩
    exact hne p h

/-- The characters of numbers. -/
def IsNumberChar (c : Char) : Prop := c.isDigit = true ∨ c ∈ ['.', 'e', 'E', '+', '-']

theorem scanDigits_chars {lead cs : List Char} (hlead : ∀ c ∈ lead, IsNumberChar c) :
    ∀ c ∈ (scanDigits lead cs).1, IsNumberChar c := by
  unfold scanDigits
  split
  · exact fun c hc => absurd hc List.not_mem_nil
  · intro c hc
    rcases List.mem_append.mp hc with hc | hc
    · exact hlead c hc
    · exact .inl (List.mem_takeWhile_imp hc)

theorem scanWhole_chars {cs ds rest : List Char} (h : scanWhole cs = some (ds, rest)) :
    ∀ c ∈ ds, IsNumberChar c := by
  cases cs with
  | nil => cases h
  | cons d cs =>
    rw [scanWhole] at h
    split at h
    · cases h
      intro c hc
      rw [List.mem_singleton.mp hc]
      exact .inl rfl
    · split at h
      · rename_i hd
        cases h
        intro c hc
        rcases List.mem_cons.mp hc with rfl | hc
        · exact .inl hd
        · exact .inl (List.mem_takeWhile_imp hc)
      · cases h

theorem scanFraction_chars (cs : List Char) : ∀ c ∈ (scanFraction cs).1, IsNumberChar c := by
  unfold scanFraction
  split
  · exact fun c hc => absurd hc List.not_mem_nil
  · split
    · rename_i hd
      exact scanDigits_chars (by simp [IsNumberChar, hd])
    · exact fun c hc => absurd hc List.not_mem_nil

theorem scanExponent_chars (cs : List Char) : ∀ c ∈ (scanExponent cs).1, IsNumberChar c := by
  unfold scanExponent
  split
  · exact fun c hc => absurd hc List.not_mem_nil
  · rename_i d cs
    split
    · rename_i hd
      have hmark : IsNumberChar d := by rcases hd with rfl | rfl <;> simp [IsNumberChar]
      unfold scanSigned
      split
      · exact fun c hc => absurd hc List.not_mem_nil
      · split
        · rename_i hsign
          refine scanDigits_chars (List.forall_mem_cons.mpr ⟨hmark, ?_⟩)
          rcases hsign with rfl | rfl <;> simp [IsNumberChar]
        · exact scanDigits_chars (List.forall_mem_cons.mpr ⟨hmark, by simp⟩)
    · exact fun c hc => absurd hc List.not_mem_nil

/-- A number is written with digits, points, signs and marks of exponents. -/
theorem scanNumber_chars {cs rest : List Char} {p : NumberParts} (h : scanNumber cs = some (p, rest)) :
    ∀ c ∈ p.text, IsNumberChar c := by
  have hunsigned : ∃ negative cs', scanUnsigned negative cs' = some (p, rest) := by
    cases cs with
    | nil => cases h
    | cons c cs =>
      rw [scanNumber] at h
      split at h
      · exact ⟨_, _, h⟩
      · exact ⟨_, _, h⟩
  obtain ⟨negative, cs', h⟩ := hunsigned
  unfold scanUnsigned at h
  cases hwhole : scanWhole cs' with
  | none =>
    rw [hwhole] at h
    cases h
  | some found =>
    rw [hwhole] at h
    simp only [Option.bind_eq_bind, Option.bind_some, Option.pure_def, Option.some.injEq, Prod.mk.injEq] at h
    obtain ⟨rfl, -⟩ := h
    intro c hc
    simp only [NumberParts.text, List.mem_append] at hc
    rcases hc with ((hc | hc) | hc) | hc
    · split at hc
      · rw [List.mem_singleton.mp hc]
        simp [IsNumberChar]
      · exact absurd hc List.not_mem_nil
    · exact scanWhole_chars hwhole c hc
    · exact scanFraction_chars _ c hc
    · exact scanExponent_chars _ c hc

theorem isFloat_chars {cs : List Char} (h : isFloat cs = true) : ∀ c ∈ cs, IsNumberChar c := by
  obtain ⟨p, hscan, -, htext⟩ := isFloat_iff.mp h
  rw [← htext]
  exact scanNumber_chars hscan

/-! ## Items between brackets -/

section Listing

variable {V A : Type}

/-- White space. -/
def Spaces (cs : List Char) : Prop := ∀ c ∈ cs, isSpace c = true

/-- A character that white space and closing brackets are not. -/
def Starts (c : Char) : Prop := isSpace c = false ∧ c ≠ ']' ∧ c ≠ '\x7d'

instance (c : Char) : Decidable (Starts c) :=
  inferInstanceAs (Decidable (isSpace c = false ∧ c ≠ ']' ∧ c ≠ '\x7d'))

theorem Spaces.nil : Spaces [] := fun _ hc => absurd hc List.not_mem_nil

theorem Spaces.blank : Spaces [' '] := by
  intro c hc
  rw [List.mem_singleton.mp hc]
  rfl

theorem skipSpace_append {w : List Char} (hw : Spaces w) (cs : List Char) :
    skipSpace (w ++ cs) = skipSpace cs := by
  rw [skipSpace, List.dropWhile_append_of_pos hw, skipSpace]

theorem skipSpace_cons {c : Char} (hc : isSpace c = false) (cs : List Char) :
    skipSpace (c :: cs) = c :: cs := by
  rw [skipSpace, List.dropWhile_cons_of_neg (by simp [hc])]

/-- No number goes on after white space and a character that does not continue one. -/
theorem Ends.spaces {w : List Char} (hw : Spaces w) {rest : List Char} (hrest : Ends rest) :
    Ends (w ++ rest) := by
  cases w with
  | nil => exact hrest
  | cons c w =>
    have hc : isSpace c = true := hw c List.mem_cons_self
    refine .cons ?_
    simp only [isSpace, Bool.or_eq_true, decide_eq_true_eq] at hc
    rcases hc with ((rfl | rfl) | rfl) | rfl <;> decide

/-- The text is read as the element by a reader of elements, whatever follows that does not continue it. -/
structure Element (element : List Char → Option (A × List Char)) (cs : List Char) (x : A) : Prop where
  head : ∃ c ds, cs = c :: ds ∧ Starts c
  reads : ∀ rest, Ends rest → element (cs ++ rest) = some (x, rest)

/-- Texts with commas between them and white space around them. -/
inductive Listing (E : List Char → A → Prop) : List Char → List A → Prop where
  | one {w cs w' : List Char} {x : A} (hw : Spaces w) (hx : E cs x) (hw' : Spaces w') :
    Listing E (w ++ cs ++ w') [x]
  | cons {w cs w' rest : List Char} {x : A} {xs : List A} (hw : Spaces w) (hx : E cs x) (hw' : Spaces w')
    (hrest : Listing E rest xs) : Listing E (w ++ cs ++ w' ++ ',' :: rest) (x :: xs)

theorem Listing.imp {E E' : List Char → A → Prop} {cs : List Char} {xs : List A} (h : Listing E cs xs)
    (himp : ∀ ds x, ds.length ≤ cs.length → E ds x → E' ds x) : Listing E' cs xs := by
  induction h with
  | one hw hx hw' =>
    refine .one hw (himp _ _ ?_ hx) hw'
    simp only [List.length_append]
    omega
  | cons hw hx hw' _ ih =>
    refine .cons hw (himp _ _ ?_ hx) hw' (ih fun ds x hds => himp ds x ?_)
    · simp only [List.length_append]
      omega
    · simp only [List.length_append, List.length_cons]
      omega

/-- Texts with one and the same white space after every comma. -/
theorem Listing.flatMap {B : Type} {E : List Char → A → Prop} {text : B → List Char} {v : B → A}
    {gap next stop : List Char} (hgap : Spaces gap) (hnext : Spaces next) (hstop : Spaces stop) {b : B}
    {bs : List B} (hE : ∀ y ∈ b :: bs, E (text y) (v y)) :
    Listing E (gap ++ text b ++ (bs.flatMap fun y => ',' :: (next ++ text y)) ++ stop)
      ((b :: bs).map v) := by
  induction bs generalizing b gap with
  | nil =>
    rw [List.flatMap_nil, List.append_nil]
    exact .one hgap (hE b List.mem_cons_self) hstop
  | cons y ys ih =>
    obtain ⟨hb, hys⟩ := List.forall_mem_cons.mp hE
    have hrest := Listing.cons hgap hb .nil (ih hnext hys)
    simpa only [List.map_cons, List.flatMap_cons, List.append_nil, List.append_assoc, List.cons_append]
      using hrest

/-- A bracket that closes a list. -/
structure Closes (close : Char) : Prop where
  space : isSpace close = false
  comma : close ≠ ','
  ends : ∀ rest, Ends (close :: rest)
  start : ¬Starts close

theorem closes_bracket : Closes ']' := ⟨by decide, by decide, fun _ => .cons (by decide), fun h => h.2.1 rfl⟩

theorem closes_brace : Closes '\x7d' := ⟨by decide, by decide, fun _ => .cons (by decide), fun h => h.2.2 rfl⟩

variable {close : Char} {element : List Char → Option (A × List Char)} {cs : List Char} {xs : List A}

theorem sequence_one (hclose : Closes close) {x : A} (hx : Element element cs x) {w : List Char}
    (hw : Spaces w) (fuel : ℕ) (rest : List Char) :
    sequence close element (fuel + 1) (cs ++ w ++ close :: rest) = some ([x], rest) := by
  rw [sequence, List.append_assoc, hx.reads _ (.spaces hw (hclose.ends rest))]
  show (match skipSpace (w ++ close :: rest) with
    | [] => none
    | c :: rest => _) = _
  rw [skipSpace_append hw, skipSpace_cons hclose.space]
  exact if_pos rfl

theorem sequence_cons (hclose : Closes close) {x : A} (hx : Element element cs x) {w : List Char}
    (hw : Spaces w) (fuel : ℕ) {ts rest : List Char}
    (hrest : sequence close element fuel (skipSpace ts) = some (xs, rest)) :
    sequence close element (fuel + 1) (cs ++ w ++ ',' :: ts) = some (x :: xs, rest) := by
  rw [sequence, List.append_assoc, hx.reads _ (.spaces hw (.cons (by decide)))]
  show (match skipSpace (w ++ ',' :: ts) with
    | [] => none
    | c :: rest => _) = _
  rw [skipSpace_append hw, skipSpace_cons (by decide)]
  show (if _ then _ else if _ then _ else _) = _
  rw [if_neg (Ne.symm hclose.comma), if_pos rfl, hrest]
  rfl

theorem skipSpace_element {x : A} (hx : Element element cs x) {w : List Char} (hw : Spaces w)
    (rest : List Char) : skipSpace (w ++ cs ++ rest) = cs ++ rest := by
  obtain ⟨c, ds, rfl, hc⟩ := hx.head
  rw [List.append_assoc, skipSpace_append hw, List.cons_append, skipSpace_cons hc.1]

/-- What is left after the white space of a list starts like an element, and is read element by element. -/
theorem Listing.sequence (hclose : Closes close) (h : Listing (Element element) cs xs) :
    (∃ c ds, skipSpace (cs ++ close :: rest) = c :: ds ∧ Starts c) ∧
      ∀ fuel, cs.length < fuel → sequence close element fuel (skipSpace (cs ++ close :: rest)) =
        some (xs, rest) := by
  induction h with
  | @one w cs w' x hw hx hw' =>
    have hskip := skipSpace_element hx hw (w' ++ close :: rest)
    rw [← List.append_assoc] at hskip
    rw [hskip]
    refine ⟨?_, ?_⟩
    · obtain ⟨c, ds, rfl, hc⟩ := hx.head
      exact ⟨c, _, rfl, hc⟩
    · intro fuel hfuel
      cases fuel with
      | zero => omega
      | succ fuel => rw [← List.append_assoc, sequence_one hclose hx hw']
  | @cons w cs w' ts x xs hw hx hw' _ ih =>
    have hskip := skipSpace_element hx hw (w' ++ ',' :: ts ++ close :: rest)
    rw [show w ++ cs ++ w' ++ ',' :: ts ++ close :: rest = w ++ cs ++ (w' ++ ',' :: ts ++ close :: rest) by
      simp only [List.append_assoc, List.cons_append], hskip]
    refine ⟨?_, ?_⟩
    · obtain ⟨c, ds, rfl, hc⟩ := hx.head
      exact ⟨c, _, rfl, hc⟩
    · intro fuel hfuel
      simp only [List.length_append, List.length_cons] at hfuel
      cases fuel with
      | zero => omega
      | succ fuel =>
        rw [show cs ++ (w' ++ ',' :: ts ++ close :: rest) = cs ++ w' ++ ',' :: (ts ++ close :: rest) by
          simp only [List.append_assoc, List.cons_append]]
        exact sequence_cons hclose hx hw' fuel (ih.2 fuel (by omega))

/-- **Items with commas between them and white space around them** are read as the items. -/
theorem Listing.group (hclose : Closes close) (h : Listing (Element element) cs xs) (rest : List Char) :
    group close element (cs ++ close :: rest) = some (xs, rest) := by
  obtain ⟨⟨c, ds, hhead, hc⟩, hsequence⟩ := @h.sequence _ _ _ _ _ rest hclose
  have hlength : cs.length < (cs ++ close :: rest).length := by simp
  have hitems := hsequence _ hlength
  unfold JsonText.group
  rw [hhead] at hitems ⊢
  have hne : c ≠ close := by
    rintro rfl
    exact hclose.start hc
  show (if c = close then _ else _) = _
  rw [if_neg hne]
  exact hitems

/-- There may be no item at all. -/
theorem group_nil (hclose : Closes close) {w : List Char} (hw : Spaces w) (rest : List Char) :
    group close element (w ++ close :: rest) = some ([], rest) := by
  unfold JsonText.group
  rw [skipSpace_append hw, skipSpace_cons hclose.space]
  exact if_pos rfl

end Listing

/-! ## Values -/

section Values

variable {V : Type} (hooks : Hooks V)

/-- The text is read as the value, whatever follows that does not continue it. -/
def Reads (cs : List Char) (x : V) : Prop :=
  ∀ fuel, cs.length ≤ fuel → Element (value hooks fuel) cs x

/-- The text is read as the member of an object. -/
inductive ReadsMember : List Char → List Char × V → Prop where
  | mk {lit key w w' cs : List Char} {x : V} (hkey : Literal lit key) (hw : Spaces w) (hw' : Spaces w')
    (hx : Reads hooks cs x) : ReadsMember ('"' :: lit ++ '"' :: (w ++ ':' :: (w' ++ cs))) (key, x)

variable {hooks} {cs : List Char} {x : V}

/-- A rule for a value that is not nested. -/
theorem Reads.of_head {c : Char} {ds : List Char} (hc : Starts c)
    (h : ∀ fuel rest, Ends rest → (c :: ds).length ≤ fuel + 1 →
      value hooks (fuel + 1) (c :: (ds ++ rest)) = some (x, rest)) : Reads hooks (c :: ds) x := by
  intro fuel hfuel
  cases fuel with
  | zero => exact absurd hfuel (Nat.not_succ_le_zero _)
  | succ fuel => exact ⟨⟨c, ds, rfl, hc⟩, fun rest hrest => h fuel rest hrest hfuel⟩

theorem Reads.str {lit s : List Char} (h : Literal lit s) : Reads hooks ('"' :: (lit ++ ['"'])) (hooks.str s) := by
  refine .of_head (by decide) fun fuel rest _ _ => ?_
  have hlength : lit.length < (lit ++ ['"'] ++ rest).length := by simp
  have hstring : string (lit ++ ['"'] ++ rest).length (lit ++ ['"'] ++ rest) = some (s, rest) := by
    rw [List.append_assoc]
    rw [List.append_assoc] at hlength
    exact h _ rest hlength
  rw [value, if_pos rfl, hstring]
  rfl

/-- A word or a number is no string, array or object. -/
theorem Reads.of_scalar {c : Char} {ds : List Char} (hc : Starts c) (hquote : c ≠ '"')
    (hbrace : c ≠ '\x7b') (hbracket : c ≠ '[')
    (h : ∀ rest, Ends rest → scalar hooks (c :: (ds ++ rest)) = some (x, rest)) :
    Reads hooks (c :: ds) x := by
  refine .of_head hc fun fuel rest hrest _ => ?_
  rw [value, if_neg hquote, if_neg hbrace, if_neg hbracket, h rest hrest]

theorem Reads.null : Reads hooks "null".toList hooks.null :=
  .of_scalar (c := 'n') (by decide) (by decide) (by decide) (by decide) fun _ _ => rfl

theorem Reads.true : Reads hooks "true".toList (hooks.bool true) :=
  .of_scalar (c := 't') (by decide) (by decide) (by decide) (by decide) fun _ _ => rfl

theorem Reads.false : Reads hooks "false".toList (hooks.bool false) :=
  .of_scalar (c := 'f') (by decide) (by decide) (by decide) (by decide) fun _ _ => rfl

theorem Reads.nan : Reads hooks "NaN".toList hooks.nan :=
  .of_scalar (c := 'N') (by decide) (by decide) (by decide) (by decide) fun _ _ => rfl

theorem Reads.infinity : Reads hooks "Infinity".toList hooks.infinity :=
  .of_scalar (c := 'I') (by decide) (by decide) (by decide) (by decide) fun _ _ => rfl

theorem Reads.negInfinity : Reads hooks "-Infinity".toList hooks.negInfinity :=
  .of_scalar (c := '-') (by decide) (by decide) (by decide) (by decide) fun _ _ => rfl

/-- A number starts with a digit or a minus sign. -/
theorem scanNumber_head {c : Char} {ds : List Char} {p : NumberParts × List Char}
    (h : scanNumber (c :: ds) = some p) : c = '-' ∨ c.isDigit = true := by
  rw [scanNumber] at h
  split at h
  · exact .inl (by assumption)
  · right
    unfold scanUnsigned at h
    cases hwhole : scanWhole (c :: ds) with
    | none =>
      rw [hwhole] at h
      cases h
    | some found =>
      rw [scanWhole] at hwhole
      split at hwhole
      · rename_i hc
        rw [hc]
        rfl
      · split at hwhole
        · assumption
        · cases hwhole

theorem ne_of_numberHead {c d : Char} (hc : c = '-' ∨ c.isDigit = Bool.true) (hminus : d ≠ '-')
    (hdigit : d.isDigit = Bool.false) : c ≠ d := by
  rintro rfl
  rcases hc with hc | hc
  · exact hminus hc
  · rw [hc] at hdigit
    cases hdigit

theorem starts_of_numberHead {c : Char} (hc : c = '-' ∨ c.isDigit = Bool.true) : Starts c := by
  refine ⟨?_, ne_of_numberHead hc (by decide) (by decide), ne_of_numberHead hc (by decide) (by decide)⟩
  simp [isSpace, ne_of_numberHead hc]

theorem word_eq_none {words : List (String × V)} {c : Char} {ds : List Char}
    (h : ∀ w ∈ words, ∃ d es, w.1.toList = d :: es ∧ d ≠ c) : word words (c :: ds) = none := by
  induction words with
  | nil => rfl
  | cons w words ih =>
    obtain ⟨⟨d, es, hw, hd⟩, hwords⟩ := List.forall_mem_cons.mp h
    rw [word, hw]
    simp only [List.isPrefixOf, beq_eq_false_iff_ne.mpr hd, Bool.false_and, Bool.false_eq_true, if_false]
    exact ih hwords

/-- A number is read as an integer or as a float. -/
theorem Reads.number {p : NumberParts} (h : scanNumber cs = some (p, [])) :
    Reads hooks cs (if p.isInt then hooks.int p.toInt else hooks.float p.text) := by
  cases cs with
  | nil => cases h
  | cons c ds =>
    have hc : c = '-' ∨ c.isDigit = Bool.true := scanNumber_head h
    refine .of_scalar (starts_of_numberHead hc) (ne_of_numberHead hc (by decide) (by decide))
      (ne_of_numberHead hc (by decide) (by decide)) (ne_of_numberHead hc (by decide) (by decide))
      fun rest hrest => ?_
    have hscan := scanNumber_append hrest h
    have hword : word [("null", hooks.null), ("true", hooks.bool Bool.true), ("false", hooks.bool Bool.false)]
        (c :: (ds ++ rest)) = none := by
      apply word_eq_none
      simp only [List.forall_mem_cons, List.not_mem_nil, IsEmpty.forall_iff, implies_true, and_true]
      exact ⟨⟨'n', _, rfl, (ne_of_numberHead hc (by decide) (by decide)).symm⟩,
        ⟨'t', _, rfl, (ne_of_numberHead hc (by decide) (by decide)).symm⟩,
        ⟨'f', _, rfl, (ne_of_numberHead hc (by decide) (by decide)).symm⟩⟩
    rw [scalar, hword, Option.none_or, JsonText.number, ← List.cons_append, hscan]
    rfl

theorem Reads.int (i : ℤ) : Reads hooks (toString i).toList (hooks.int i) := by
  obtain ⟨p, hscan, hint, hvalue, -⟩ := scanNumber_int i
  have hreads : Reads hooks (toString i).toList _ := .number hscan
  rwa [hint, if_pos rfl, hvalue] at hreads

theorem Reads.float (hfloat : isFloat cs = Bool.true) : Reads hooks cs (hooks.float cs) := by
  obtain ⟨p, hscan, hint, htext⟩ := isFloat_iff.mp hfloat
  have hreads : Reads hooks cs _ := .number hscan
  rwa [hint, if_neg Bool.false_ne_true, htext] at hreads

/-! ## Arrays and objects -/

theorem Reads.arr_nil {w : List Char} (hw : Spaces w) : Reads hooks ('[' :: (w ++ [']'])) (hooks.arr []) := by
  refine .of_head (by decide) fun fuel rest _ _ => ?_
  rw [value, if_neg (by decide), if_neg (by decide), if_pos rfl, List.append_assoc]
  show (group ']' _ (w ++ ']' :: rest)).map _ = _
  rw [group_nil closes_bracket hw]
  rfl

theorem Reads.obj_nil {w : List Char} (hw : Spaces w) :
    Reads hooks ('\x7b' :: (w ++ ['\x7d'])) (hooks.obj []) := by
  refine .of_head (by decide) fun fuel rest _ _ => ?_
  rw [value, if_neg (by decide), if_pos rfl, List.append_assoc]
  show (group '\x7d' _ (w ++ '\x7d' :: rest)).map _ = _
  rw [group_nil closes_brace hw]
  rfl

/-- **An array is read item by item.** -/
theorem Reads.arr {xs : List V} (h : Listing (Reads hooks) cs xs) :
    Reads hooks ('[' :: (cs ++ [']'])) (hooks.arr xs) := by
  refine .of_head (by decide) fun fuel rest _ hfuel => ?_
  have hitems : Listing (Element (value hooks fuel)) cs xs := h.imp fun ds x hds hx => hx fuel <| by
    simp only [List.length_cons, List.length_append] at hfuel
    omega
  rw [value, if_neg (by decide), if_neg (by decide), if_pos rfl, List.append_assoc]
  show (group ']' _ (cs ++ ']' :: rest)).map _ = _
  rw [hitems.group closes_bracket]
  rfl

theorem ReadsMember.element {kv : List Char × V} (h : ReadsMember hooks cs kv) {fuel : ℕ}
    (hfuel : cs.length ≤ fuel) : Element (member (value hooks fuel)) cs kv := by
  cases h with
  | @mk lit key w w' cs x hkey hw hw' hx =>
    refine ⟨⟨'"', _, rfl, by decide⟩, fun rest hrest => ?_⟩
    have hvalue := hx fuel (by simp only [List.length_append, List.length_cons] at hfuel; omega)
    obtain ⟨c, ds, hhead, hc⟩ := hvalue.head
    set tail := w ++ ':' :: (w' ++ (cs ++ rest)) with htail
    have htext : '"' :: lit ++ '"' :: (w ++ ':' :: (w' ++ cs)) ++ rest = '"' :: (lit ++ '"' :: tail) := by
      simp only [htail, List.cons_append, List.append_assoc]
    have hkey' : string (lit ++ '"' :: tail).length (lit ++ '"' :: tail) = some (key, tail) :=
      hkey _ tail (by simp)
    have hskip : skipSpace tail = ':' :: (w' ++ (cs ++ rest)) := by
      rw [htail, skipSpace_append hw, skipSpace_cons (by decide)]
    have hskip' : skipSpace (w' ++ (cs ++ rest)) = cs ++ rest := by
      rw [skipSpace_append hw', hhead, List.cons_append, skipSpace_cons hc.1]
    rw [htext, member, if_pos rfl, hkey']
    show (match skipSpace tail with
      | [] => none
      | d :: rest => _) = _
    rw [hskip]
    show (if _ then (value hooks fuel (skipSpace (w' ++ (cs ++ rest)))).bind _ else _) = _
    rw [if_pos rfl, hskip', hvalue.reads rest hrest]
    rfl

/-- **An object is read member by member.** -/
theorem Reads.obj {kvs : List (List Char × V)} (h : Listing (ReadsMember hooks) cs kvs) :
    Reads hooks ('\x7b' :: (cs ++ ['\x7d'])) (hooks.obj kvs) := by
  refine .of_head (by decide) fun fuel rest _ hfuel => ?_
  have hitems : Listing (Element (member (value hooks fuel))) cs kvs := h.imp fun ds kv hds hkv =>
    hkv.element <| by
      simp only [List.length_cons, List.length_append] at hfuel
      omega
  rw [value, if_neg (by decide), if_pos rfl, List.append_assoc]
  show (group '\x7d' _ (cs ++ '\x7d' :: rest)).map _ = _
  rw [hitems.group closes_brace]
  rfl

/-- **A text that is read as a value** is a text of this value, also with white space around it. -/
theorem loads_eq {w w' : List Char} (hw : Spaces w) (hw' : Spaces w') (h : Reads hooks cs x) :
    loads hooks (w ++ cs ++ w') = some x := by
  have hvalue : Element (value hooks (w ++ cs ++ w').length) cs x :=
    h _ (by simp only [List.length_append]; omega)
  have hskip : skipSpace w' = [] := by
    rw [← List.append_nil w', skipSpace_append hw']
    rfl
  have hends : Ends w' := by
    rw [← List.append_nil w']
    exact .spaces hw' .nil
  rw [loads, skipSpace_element hvalue hw, hvalue.reads w' hends]
  show (if (skipSpace w').isEmpty then _ else _) = _
  rw [hskip]
  rfl

end Values

end JsonText
