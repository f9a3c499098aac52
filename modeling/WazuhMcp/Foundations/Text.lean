import Mathlib.Data.List.DropRight

/-!
# Text as lists of characters

The string operations of a scripting language, on `String` by way of its characters, so that they
reduce on literals and the list lemmas apply: prefix and suffix tests, stripping, and splitting at a
separator character.

* `rstrip_idem`: stripping twice is stripping once, and `strip_eq_self`: a text whose ends are fine is
  left as it is; `strip_eq_empty_iff`: nothing is left of a text that consists of what is stripped.
* `split_join`: a nonempty list of separator-free parts is recovered from their join.
-/

namespace Text

/-- `s.startswith(p)`. -/
def startsWith (s p : String) : Bool := p.toList.isPrefixOf s.toList

/-- `s.endswith(p)`. -/
def endsWith (s p : String) : Bool := p.toList.isSuffixOf s.toList

/-- `p in s`. -/
def contains (s p : String) : Bool := s.toList.tails.any p.toList.isPrefixOf

/-- `s` without its last `n` characters. -/
def dropRight (s : String) (n : ℕ) : String := String.ofList (s.toList.take (s.toList.length - n))

/-- `s` without the characters at its end that satisfy `p`. -/
def rstrip (p : Char → Bool) (s : String) : String := String.ofList (s.toList.rdropWhile p)

/-- `s` without the characters at its ends that satisfy `p`. -/
def strip (p : Char → Bool) (s : String) : String :=
  String.ofList ((s.toList.dropWhile p).rdropWhile p)

/-- `s.capitalize()`, on ASCII letters. -/
def capitalize (s : String) : String :=
  match s.toList with
  | [] => ""
  | c :: cs => String.ofList (c.toUpper :: cs.map Char.toLower)

/-- `s.lower()`, on ASCII letters. -/
def lower (s : String) : String := String.ofList (s.toList.map Char.toLower)

/-- Whether `re.match` of a pattern `^...$` succeeds, when `p` says which texts the pattern between
the anchors matches: `$` also matches before a newline at the very end. -/
def reMatch (p : List Char → Bool) (s : String) : Bool :=
  p s.toList || (s.toList.getLast? == some '\n' && p s.toList.dropLast)

/-- The number that decimal digits denote. -/
def natOfDigits (cs : List Char) : ℕ := cs.foldl (fun n c => 10 * n + (c.toNat - '0'.toNat)) 0

/-- `int(s)` of a text, on ASCII: surrounding blanks, a sign, and digits that single underscores may
part. -/
def parseInt (s : String) : Option ℤ :=
  let blank (c : Char) : Bool := c.isWhitespace || c.toNat = 0x0b || c.toNat = 0x0c
  let cs := (strip blank s).toList
  let (negative, cs) := match cs with
    | '-' :: cs => (true, cs)
    | '+' :: cs => (false, cs)
    | cs => (false, cs)
  let groups := cs.splitOn '_'
  if groups.all (fun g => !g.isEmpty && g.all Char.isDigit) then
    let n : ℤ := natOfDigits groups.flatten
    some (if negative then -n else n)
  else
    none

/-- `sep.join(parts)` for a separator character. -/
def join (sep : Char) (parts : List String) : String :=
  String.ofList ([sep].intercalate (parts.map String.toList))

/-- `s.split(sep)` for a separator character. -/
def split (sep : Char) (s : String) : List String := (s.toList.splitOn sep).map String.ofList

/-- What `s.replace(old, new)` makes of the characters of `s` that follow the next `skip`. -/
def replaceChars (old new : List Char) : ℕ → List Char → List Char
  | _, [] => []
  | skip + 1, _ :: cs => replaceChars old new skip cs
  | 0, c :: cs =>
    if old.isPrefixOf (c :: cs) then new ++ replaceChars old new (old.length - 1) cs
    else c :: replaceChars old new 0 cs

/-- `s.replace(old, new)`, for a text `old` that is not empty. -/
def replace (s old new : String) : String :=
  String.ofList (replaceChars old.toList new.toList 0 s.toList)

theorem rstrip_idem (p : Char → Bool) (s : String) : rstrip p (rstrip p s) = rstrip p s := by
  simp [rstrip, List.rdropWhile_idempotent]

/-- Nothing is stripped off a text whose first and last characters do not satisfy `p`. -/
theorem strip_eq_self {p : Char → Bool} {s : String}
    (hhead : ∀ c, s.toList.head? = some c → p c = false)
    (hlast : ∀ c, s.toList.getLast? = some c → p c = false) : strip p s = s := by
  have hdrop : s.toList.dropWhile p = s.toList := by
    cases hs : s.toList with
    | nil => rfl
    | cons c cs => simp [hhead c (by simp [hs])]
  have hrdrop : s.toList.rdropWhile p = s.toList := by
    rw [List.rdropWhile_eq_self_iff]
    intro hne
    simp [hlast _ (List.getLast?_eq_some_getLast hne)]
  rw [strip, hdrop, hrdrop, String.ofList_toList]

/-- Nothing is left of a text exactly if all its characters are stripped. -/
theorem strip_eq_empty_iff {p : Char → Bool} {s : String} : strip p s = "" ↔ s.toList.all p = true := by
  have hempty : strip p s = "" ↔ (s.toList.dropWhile p).rdropWhile p = [] := by
    rw [strip, ← String.toList_inj, String.toList_ofList]
    rfl
  rw [hempty, List.rdropWhile_eq_nil_iff, List.all_eq_true]
  constructor
  · intro h
    -- the first character that is not stripped off the front would be stripped off the end
    have hdrop : s.toList.dropWhile p = [] := by
      cases hs : s.toList.dropWhile p with
      | nil => rfl
      | cons c cs =>
        have hc : p c = true := h c (by rw [hs]; exact List.mem_cons_self)
        have hhead := List.head?_dropWhile_not p s.toList
        rw [hs] at hhead
        simp [hc] at hhead
    exact List.dropWhile_eq_nil_iff.mp hdrop
  · intro h c hc
    exact h c ((List.dropWhile_sublist p).mem hc)

/-- What is left of a text is not all of the kind that is stripped. -/
theorem not_all_strip {p : Char → Bool} {s : String} (h : strip p s ≠ "") :
    (strip p s).toList.all p = false := by
  have hne : (s.toList.dropWhile p).rdropWhile p ≠ [] := by
    intro hnil
    rw [strip, hnil] at h
    exact h rfl
  rw [strip, String.toList_ofList, List.all_eq_false]
  exact ⟨_, List.getLast_mem hne, List.rdropWhile_last_not p _ hne⟩

/-! ## Splitting -/

/-- What stands before and after the first separator of a text is determined by the text. -/
theorem append_sep_inj {sep : Char} {cs cs' rest rest' : List Char} (hcs : sep ∉ cs)
    (hcs' : sep ∉ cs') (h : cs ++ sep :: rest = cs' ++ sep :: rest') : cs = cs' ∧ rest = rest' := by
  induction cs generalizing cs' with
  | nil =>
    cases cs' with
    | nil => exact ⟨rfl, (List.cons.inj h).2⟩
    | cons c cs' => exact absurd ((List.cons.inj h).1 ▸ List.mem_cons_self) hcs'
  | cons c cs ih =>
    cases cs' with
    | nil => exact absurd ((List.cons.inj h).1 ▸ List.mem_cons_self) hcs
    | cons c' cs' =>
      obtain ⟨rfl, htail⟩ := List.cons.inj h
      obtain ⟨rfl, hrest⟩ := ih (fun hmem => hcs (List.mem_cons_of_mem _ hmem))
        (fun hmem => hcs' (List.mem_cons_of_mem _ hmem)) htail
      exact ⟨rfl, hrest⟩

theorem join_singleton (sep : Char) (s : String) : join sep [s] = s := by
  simp [join]

theorem sep_mem_join_pair (sep : Char) (s s' : String) : sep ∈ (join sep [s, s']).toList := by
  simp [join]

/-- A joined text is as long as its parts and the separators between them. -/
theorem length_join (sep : Char) (parts : List String) :
    (join sep parts).length = (parts.flatMap String.toList).length + (parts.length - 1) := by
  rw [join, String.length_ofList]
  induction parts with
  | nil => rfl
  | cons part parts ih =>
    cases parts with
    | nil => simp
    | cons next parts =>
      rw [List.map_cons, List.map_cons, List.intercalate_cons_cons, ← List.map_cons, List.length_append,
        List.length_append, ih]
      simp only [List.flatMap_cons, List.length_append, List.length_cons, List.length_nil]
      omega

/-- **Splitting undoes joining** parts that do not contain the separator. -/
theorem split_join {sep : Char} {parts : List String} (hparts : ∀ p ∈ parts, sep ∉ p.toList)
    (hne : parts ≠ []) : split sep (join sep parts) = parts := by
  rw [split, join, String.toList_ofList, List.splitOn_intercalate]
  · simp
  · simpa using hparts
  · simpa using hne

end Text
