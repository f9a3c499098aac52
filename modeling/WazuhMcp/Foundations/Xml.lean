import Mathlib.Data.List.Basic
import Mathlib.Tactic.SplitIfs

/-!
# XML documents

XML 1.0 documents without an XML declaration and a document type declaration, read as a tree: line ends
are normalized (`normalizeLineEnds`), the text is cut into tags, character data, CDATA sections, comments
and processing instructions (`tokens`), and these are nested (`step`). References to characters and to
the five predefined entities are resolved in text and in attribute values (`expand`).

* `expand_flatMap`: what is written character by character, each by a piece that denotes it, is read
  back.
* `Reads.leaf`, `Reads.element`, `Reads.append`: what reads as an element, as the element around what is
  read already, and as two pieces in a row.
* `parse_element`: the tree of a document whose root is written so.
-/

namespace Xml

/-! ## Characters and names -/

/-- `Char` -/
def isXmlChar (c : Char) : Bool :=
  c.toNat = 0x9 || c.toNat = 0xa || c.toNat = 0xd || (0x20 ≤ c.toNat && c.toNat ≤ 0xd7ff) ||
    (0xe000 ≤ c.toNat && c.toNat ≤ 0xfffd) || (0x10000 ≤ c.toNat && c.toNat ≤ 0x10ffff)

/-- `S`, one character of it. -/
def isSpace (c : Char) : Bool := c = ' ' || c = '\t' || c = '\r' || c = '\n'

/-- The ranges of `NameStartChar`. -/
def nameStartRanges : List (ℕ × ℕ) :=
  [(0x3a, 0x3a), (0x41, 0x5a), (0x5f, 0x5f), (0x61, 0x7a), (0xc0, 0xd6), (0xd8, 0xf6), (0xf8, 0x2ff),
    (0x370, 0x37d), (0x37f, 0x1fff), (0x200c, 0x200d), (0x2070, 0x218f), (0x2c00, 0x2fef),
    (0x3001, 0xd7ff), (0xf900, 0xfdcf), (0xfdf0, 0xfffd), (0x10000, 0xeffff)]

/-- The ranges that `NameChar` adds to those. -/
def nameRanges : List (ℕ × ℕ) :=
  [(0x2d, 0x2e), (0x30, 0x39), (0xb7, 0xb7), (0x300, 0x36f), (0x203f, 0x2040)]

/-- Whether the character is in one of the ranges. -/
def inRanges (ranges : List (ℕ × ℕ)) (c : Char) : Bool :=
  ranges.any fun r => r.1 ≤ c.toNat && c.toNat ≤ r.2

/-- `NameStartChar` -/
def isNameStart : Char → Bool := inRanges nameStartRanges

/-- `NameChar` -/
def isNameChar (c : Char) : Bool := isNameStart c || inRanges nameRanges c

/-- `Name` -/
def isName (s : String) : Bool :=
  match s.toList with
  | [] => false
  | c :: cs => isNameStart c && cs.all isNameChar

/-- Line ends are passed on as a single line feed. -/
def normalizeLineEnds : List Char → List Char
  | [] => []
  | '\r' :: '\n' :: cs => '\n' :: normalizeLineEnds cs
  | '\r' :: cs => '\n' :: normalizeLineEnds cs
  | c :: cs => c :: normalizeLineEnds cs

/-! ## References -/

/-- The value of a hexadecimal digit. -/
def hexValue (c : Char) : Option ℕ :=
  if c.isDigit then some (c.toNat - '0'.toNat)
  else if 'a' ≤ c ∧ c ≤ 'f' then some (c.toNat - 'a'.toNat + 10)
  else if 'A' ≤ c ∧ c ≤ 'F' then some (c.toNat - 'A'.toNat + 10)
  else none

/-- The number that digits of a base denote. -/
def number (base : ℕ) (digit : Char → Option ℕ) (cs : List Char) : Option ℕ :=
  if cs.isEmpty then none
  else cs.foldlM (fun n c => (digit c).map (base * n + ·)) 0

/-- The character of a number, which has to be one that a document may contain. -/
def charOf (n : ℕ) : Option Char :=
  if n.isValidChar && isXmlChar (Char.ofNat n) then some (Char.ofNat n) else none

/-- What a reference denotes: the text between `&` and `;` names a predefined entity or has the number
of a character. -/
def reference : List Char → Option Char
  | ['l', 't'] => some '<'
  | ['g', 't'] => some '>'
  | ['a', 'm', 'p'] => some '&'
  | ['a', 'p', 'o', 's'] => some '\''
  | ['q', 'u', 'o', 't'] => some '"'
  | '#' :: 'x' :: digits => (number 16 hexValue digits).bind charOf
  | '#' :: digits =>
    (number 10 (fun c => if c.isDigit then hexValue c else none) digits).bind charOf
  | _ => none

/-- The text that characters and references stand for, when `literal` says what a character stands for.
The first argument is what has been read of a reference that is open. -/
def expand (literal : Char → Option Char) : Option (List Char) → List Char → Option (List Char)
  | none, [] => some []
  | some _, [] => none
  | none, c :: cs =>
    if c = '&' then expand literal (some []) cs
    else do
      let d ← literal c
      let ds ← expand literal none cs
      return d :: ds
  | some body, c :: cs =>
    if c = ';' then do
      let d ← reference body
      let ds ← expand literal none cs
      return d :: ds
    else expand literal (some (body ++ [c])) cs

/-- A character of an attribute value: white space is a space, and `<` is not allowed. -/
def attrLiteral (c : Char) : Option Char :=
  if c = '<' then none else if isSpace c then some ' ' else some c

/-! ## Tags and what stands between them -/

/-- What a document is cut into. -/
inductive Token where
  | start (name : String) (attrs : List (String × String))
  | empty (name : String) (attrs : List (String × String))
  | stop (name : String)
  | text (raw : List Char)
  | cdata (text : String)
  | comment (text : String)
  | pi (target data : String)
  deriving DecidableEq, Repr

/-- The text without the white space it begins with. -/
def skipSpace (cs : List Char) : List Char := cs.dropWhile isSpace

/-- What stands before and after the first occurrence of `pat`, which is not empty. -/
def breakOn (pat : List Char) : List Char → Option (List Char × List Char)
  | [] => none
  | c :: cs =>
    if pat.isPrefixOf (c :: cs) then some ([], (c :: cs).drop pat.length)
    else (breakOn pat cs).map fun p => (c :: p.1, p.2)

/-- A name, and what follows it. -/
def scanName (cs : List Char) : Option (String × List Char) :=
  let name := String.ofList (cs.takeWhile isNameChar)
  if isName name then some (name, cs.dropWhile isNameChar) else none

/-- `Eq`, and what follows it. -/
def scanEq (cs : List Char) : Option (List Char) :=
  match skipSpace cs with
  | '=' :: cs => some (skipSpace cs)
  | _ => none

/-- `AttValue`, and what follows it. -/
def attValue : List Char → Option (String × List Char)
  | [] => none
  | q :: cs =>
    if q = '"' ∨ q = '\'' then
      match cs.dropWhile (· != q) with
      | [] => none
      | _ :: rest => (expand attrLiteral none (cs.takeWhile (· != q))).map fun v => (String.ofList v, rest)
    else none

/-- The attributes up to the end of the tag, whether it is the tag of an empty element, and what follows
the tag. No attribute may be given twice. -/
def attributes : ℕ → List Char → Option (List (String × String) × Bool × List Char)
  | 0, _ => none
  | n + 1, cs =>
    match skipSpace cs with
    | '>' :: rest => some ([], false, rest)
    | '/' :: '>' :: rest => some ([], true, rest)
    | rest =>
      if cs.head?.any isSpace then do
        let (name, rest) ← scanName rest
        let rest ← scanEq rest
        let (value, rest) ← attValue rest
        let (attrs, isEmpty, rest) ← attributes n rest
        if attrs.any (·.1 = name) then none else some ((name, value) :: attrs, isEmpty, rest)
      else none

/-- `STag` and `EmptyElemTag`, after `<`. -/
def startTag (cs : List Char) : Option (Token × List Char) := do
  let (name, rest) ← scanName cs
  let (attrs, isEmpty, rest) ← attributes (rest.length + 1) rest
  return (if isEmpty then .empty name attrs else .start name attrs, rest)

/-- `ETag`, after `</`. -/
def endTag (cs : List Char) : Option (Token × List Char) := do
  let (name, rest) ← scanName cs
  match skipSpace rest with
  | '>' :: rest => some (.stop name, rest)
  | _ => none

/-- `PI`, after `<?`. The target is not `xml`, in whatever case. -/
def procInst (cs : List Char) : Option (Token × List Char) := do
  let (target, rest) ← scanName cs
  let (data, after) ← breakOn ['?', '>'] rest
  if target.toList.map Char.toLower = ['x', 'm', 'l'] then none
  else if data = [] ∨ data.head?.any isSpace then
    some (.pi target (String.ofList (skipSpace data)), after)
  else none

/-- `Comment` and `CDSect`, after `<!`. There is no `--` in a comment. -/
def declaration : List Char → Option (Token × List Char)
  | '-' :: '-' :: cs => do
    let (text, rest) ← breakOn ['-', '-'] cs
    match rest with
    | '>' :: rest => some (.comment (String.ofList text), rest)
    | _ => none
  | '[' :: 'C' :: 'D' :: 'A' :: 'T' :: 'A' :: '[' :: cs => do
    let (text, rest) ← breakOn [']', ']', '>'] cs
    return (.cdata (String.ofList text), rest)
  | _ => none

/-- What begins with `<`. -/
def markup : List Char → Option (Token × List Char)
  | '/' :: cs => endTag cs
  | '?' :: cs => procInst cs
  | '!' :: cs => declaration cs
  | cs => startTag cs

/-- The next token, and what follows it. -/
def nextToken : List Char → Option (Token × List Char)
  | '<' :: cs => markup cs
  | cs => some (.text (cs.takeWhile (· != '<')), cs.dropWhile (· != '<'))

/-- The tokens of a text, at most `n` of them. -/
def tokens : ℕ → List Char → Option (List Token)
  | _, [] => some []
  | 0, _ :: _ => none
  | n + 1, c :: cs => do
    let (tok, rest) ← nextToken (c :: cs)
    let toks ← tokens n rest
    return tok :: toks

/-! ## Nesting -/

/-- A node of the tree. -/
inductive Node where
  | element (name : String) (attrs : List (String × String)) (children : List Node)
  | text (s : String)
  | comment (s : String)
  | pi (target data : String)
  deriving Repr

/-- What is between the tags of an element. -/
def Node.children : Node → List Node
  | .element _ _ children => children
  | _ => []

/-- An element of that name. -/
def Node.isNamed (name : String) : Node → Bool
  | .element n _ _ => n = name
  | _ => false

/-- The text that is directly in an element. -/
def Node.textOf (node : Node) : String :=
  String.join (node.children.map fun
    | .text s => s
    | _ => "")

/-- The children with one more after them. There are no empty texts and no two texts in a row. -/
def addNode (children : List Node) : Node → List Node
  | .text t =>
    if t = "" then children
    else match children.getLast? with
      | some (.text s) => children.dropLast ++ [.text (s ++ t)]
      | _ => children ++ [.text t]
  | node => children ++ [node]

/-- An element whose end is still to come. -/
structure Frame where
  name : String
  attrs : List (String × String)
  children : List Node

/-- The elements that are open, innermost first, and the root if it is closed. -/
structure State where
  frames : List Frame
  root : Option Node

/-- Put a complete node where the document is. Beside the root there are only comments and processing
instructions. -/
def State.put (s : State) (node : Node) : Option State :=
  match s.frames, node with
  | f :: fs, node => some { s with frames := { f with children := addNode f.children node } :: fs }
  | [], .element name attrs children =>
    if s.root.isSome then none else some { s with root := some (.element name attrs children) }
  | [], .text _ => none
  | [], _ => some s

/-- The document, one token further. -/
def step (s : State) : Token → Option State
  | .start name attrs => some { s with frames := ⟨name, attrs, []⟩ :: s.frames }
  | .empty name attrs => s.put (.element name attrs [])
  | .stop name =>
    match s.frames with
    | [] => none
    | f :: fs =>
      if f.name = name then { s with frames := fs }.put (.element f.name f.attrs f.children) else none
  | .text raw =>
    if s.frames.isEmpty && raw.all isSpace then some s
    else if (breakOn [']', ']', '>'] raw).isSome then none
    else do
      let t ← expand some none raw
      s.put (.text (String.ofList t))
  | .cdata t => s.put (.text t)
  | .comment t => s.put (.comment t)
  | .pi target data => s.put (.pi target data)

/-- The root element of a document. -/
def parse (doc : String) : Option Node :=
  if doc.toList.all isXmlChar then do
    let cs := normalizeLineEnds doc.toList
    let toks ← tokens cs.length cs
    let s ← toks.foldlM step ⟨[], none⟩
    if s.frames.isEmpty then s.root else none
  else none

/-! ## Line ends -/

theorem normalizeLineEnds_cons {c : Char} (hc : c ≠ '\r') (cs : List Char) :
    normalizeLineEnds (c :: cs) = c :: normalizeLineEnds cs := by
  apply normalizeLineEnds.eq_4
  · intro cs' h
    exact absurd h hc
  · intro h
    exact absurd h hc

theorem normalizeLineEnds_return {cs : List Char} (hcs : cs.head? ≠ some '\n') :
    normalizeLineEnds ('\r' :: cs) = '\n' :: normalizeLineEnds cs := by
  apply normalizeLineEnds.eq_3
  intro cs' h
  rw [h] at hcs
  exact hcs rfl

theorem normalizeLineEnds_pair (cs : List Char) :
    normalizeLineEnds ('\r' :: '\n' :: cs) = '\n' :: normalizeLineEnds cs := rfl

/-- Induction along the line ends of a text. -/
@[elab_as_elim]
theorem lineEnds_induction {motive : List Char → Prop} (nil : motive [])
    (pair : ∀ cs, motive cs → motive ('\r' :: '\n' :: cs))
    (single : ∀ cs, cs.head? ≠ some '\n' → motive cs → motive ('\r' :: cs))
    (other : ∀ c cs, c ≠ '\r' → motive cs → motive (c :: cs)) (cs : List Char) : motive cs := by
  induction cs using normalizeLineEnds.induct with
  | case1 => exact nil
  | case2 cs ih => exact pair cs ih
  | case3 cs hcs ih =>
    apply single cs _ ih
    intro h
    obtain ⟨cs', rfl⟩ := List.head?_eq_some_iff.mp h
    exact hcs cs' rfl
  | case4 c cs _ hc ih => exact other c cs hc ih

theorem normalizeLineEnds_append {cs : List Char} (hcs : '\r' ∉ cs) (rest : List Char) :
    normalizeLineEnds (cs ++ rest) = cs ++ normalizeLineEnds rest := by
  induction cs with
  | nil => rfl
  | cons c cs ih =>
    rw [List.mem_cons, not_or] at hcs
    rw [List.cons_append, normalizeLineEnds_cons (Ne.symm hcs.1), ih hcs.2, List.cons_append]

theorem normalizeLineEnds_of_noReturn {cs : List Char} (hcs : '\r' ∉ cs) :
    normalizeLineEnds cs = cs := by
  have h := normalizeLineEnds_append hcs []
  rwa [List.append_nil, show normalizeLineEnds [] = [] from rfl, List.append_nil] at h

/-- A line end does not reach into what begins with another character than a line feed. -/
theorem normalizeLineEnds_append_of_head {rest : List Char} (hrest : rest.head? ≠ some '\n')
    (cs : List Char) :
    normalizeLineEnds (cs ++ rest) = normalizeLineEnds cs ++ normalizeLineEnds rest := by
  induction cs using lineEnds_induction with
  | nil => rfl
  | pair cs ih =>
    rw [List.cons_append, List.cons_append, normalizeLineEnds_pair, ih, normalizeLineEnds_pair,
      List.cons_append]
  | single cs hcs ih =>
    have happ : (cs ++ rest).head? ≠ some '\n' := by
      cases cs with
      | nil => exact hrest
      | cons c cs => exact hcs
    rw [List.cons_append, normalizeLineEnds_return happ, ih, normalizeLineEnds_return hcs,
      List.cons_append]
  | other c cs hc ih =>
    rw [List.cons_append, normalizeLineEnds_cons hc, ih, normalizeLineEnds_cons hc, List.cons_append]

theorem mem_of_mem_normalizeLineEnds {c : Char} {cs : List Char} (h : c ∈ normalizeLineEnds cs) :
    c = '\n' ∨ c ∈ cs := by
  induction cs using lineEnds_induction with
  | nil => exact absurd h List.not_mem_nil
  | pair cs ih =>
    rw [normalizeLineEnds_pair, List.mem_cons] at h
    rcases h with h | h
    · exact Or.inl h
    · exact (ih h).imp_right fun hmem => List.mem_cons_of_mem _ (List.mem_cons_of_mem _ hmem)
  | single cs hcs ih =>
    rw [normalizeLineEnds_return hcs, List.mem_cons] at h
    rcases h with h | h
    · exact Or.inl h
    · exact (ih h).imp_right (List.mem_cons_of_mem _)
  | other d cs hd ih =>
    rw [normalizeLineEnds_cons hd, List.mem_cons] at h
    rcases h with rfl | h
    · exact Or.inr List.mem_cons_self
    · exact (ih h).imp_right (List.mem_cons_of_mem _)

theorem normalizeLineEnds_ne_nil {cs : List Char} (h : cs ≠ []) : normalizeLineEnds cs ≠ [] := by
  induction cs using lineEnds_induction with
  | nil => exact absurd rfl h
  | pair cs _ => exact List.cons_ne_nil _ _
  | single cs hcs _ =>
    rw [normalizeLineEnds_return hcs]
    exact List.cons_ne_nil _ _
  | other c cs hc _ =>
    rw [normalizeLineEnds_cons hc]
    exact List.cons_ne_nil _ _

/-- Writing character by character commutes with normalizing, if line ends are written as they are and
nothing else is written with one. -/
theorem normalizeLineEnds_flatMap {w : Char → List Char} (hreturn : w '\r' = ['\r'])
    (hfeed : w '\n' = ['\n']) (hne : ∀ c, w c ≠ []) (hwr : ∀ c, c ≠ '\r' → '\r' ∉ w c)
    (hwf : ∀ c, c ≠ '\n' → '\n' ∉ w c) (cs : List Char) :
    normalizeLineEnds (cs.flatMap w) = (normalizeLineEnds cs).flatMap w := by
  induction cs using lineEnds_induction with
  | nil => rfl
  | pair cs ih =>
    rw [List.flatMap_cons, List.flatMap_cons, hreturn, hfeed, List.singleton_append,
      List.singleton_append, normalizeLineEnds_pair, ih, normalizeLineEnds_pair, List.flatMap_cons,
      hfeed, List.singleton_append]
  | single cs hcs ih =>
    have hhead : (cs.flatMap w).head? ≠ some '\n' := by
      cases cs with
      | nil => simp
      | cons c cs =>
        have hc : c ≠ '\n' := by
          rintro rfl
          exact hcs rfl
        intro h
        rw [List.flatMap_cons, List.head?_append_of_ne_nil _ (hne c)] at h
        exact hwf c hc (List.mem_of_head? h)
    rw [List.flatMap_cons, hreturn, List.singleton_append, normalizeLineEnds_return hhead, ih,
      normalizeLineEnds_return hcs, List.flatMap_cons, hfeed, List.singleton_append]
  | other c cs hc ih =>
    rw [List.flatMap_cons, normalizeLineEnds_append (hwr c hc), ih, normalizeLineEnds_cons hc,
      List.flatMap_cons]

/-! ## Written characters -/

/-- The piece stands for the character, before whatever follows. -/
def Denotes (literal : Char → Option Char) (piece : List Char) (c : Char) : Prop :=
  ∀ rest, expand literal none (piece ++ rest) = (expand literal none rest).map (c :: ·)

variable {literal : Char → Option Char}

theorem denotes_literal {c : Char} (hamp : c ≠ '&') (hc : literal c = some c) :
    Denotes literal [c] c := by
  intro rest
  rw [List.singleton_append, expand, if_neg hamp, hc]
  cases expand literal none rest <;> rfl

theorem expand_body {body : List Char} (hbody : ';' ∉ body) (acc rest : List Char) :
    expand literal (some acc) (body ++ ';' :: rest) =
      (reference (acc ++ body)).bind fun d => (expand literal none rest).map (d :: ·) := by
  induction body generalizing acc with
  | nil =>
    rw [List.nil_append, expand, if_pos rfl, List.append_nil]
    cases reference acc with
    | none => rfl
    | some d => cases expand literal none rest <;> rfl
  | cons c body ih =>
    rw [List.mem_cons, not_or] at hbody
    rw [List.cons_append, expand, if_neg (Ne.symm hbody.1), ih hbody.2, List.append_assoc,
      List.singleton_append]

theorem denotes_reference {body : List Char} {d : Char} (hbody : ';' ∉ body)
    (hd : reference body = some d) : Denotes literal ('&' :: (body ++ [';'])) d := by
  intro rest
  rw [List.cons_append, expand, if_pos rfl, List.append_assoc, List.singleton_append,
    expand_body hbody, List.nil_append, hd, Option.bind_some]

/-- **A text that is written character by character is read back**, if each piece stands for its
character. -/
theorem expand_flatMap {w : Char → List Char} {cs : List Char}
    (hw : ∀ c ∈ cs, Denotes literal (w c) c) : expand literal none (cs.flatMap w) = some cs := by
  induction cs with
  | nil => rfl
  | cons c cs ih =>
    rw [List.flatMap_cons, hw c List.mem_cons_self,
      ih fun d hd => hw d (List.mem_cons_of_mem _ hd), Option.map_some]

/-! ## Names and attributes -/

theorem isXmlChar_of_isNameChar {c : Char} (h : isNameChar c = true) : isXmlChar c = true := by
  simp only [isNameChar, isNameStart, inRanges, nameStartRanges, nameRanges, List.any_cons,
    List.any_nil, Bool.or_false, Bool.or_eq_true, Bool.and_eq_true, decide_eq_true_eq] at h
  simp only [isXmlChar, Bool.or_eq_true, Bool.and_eq_true, decide_eq_true_eq]
  omega

theorem isName_iff {s : String} : isName s = true ↔
    ∃ c cs, s.toList = c :: cs ∧ isNameStart c = true ∧ ∀ d ∈ s.toList, isNameChar d = true := by
  unfold isName
  cases hs : s.toList with
  | nil => simp
  | cons c cs =>
    simp only [Bool.and_eq_true, List.all_eq_true, List.cons.injEq, List.mem_cons, forall_eq_or_imp]
    constructor
    · rintro ⟨hc, hcs⟩
      exact ⟨c, cs, ⟨rfl, rfl⟩, hc, by rw [isNameChar, hc, Bool.true_or], hcs⟩
    · rintro ⟨d, ds, ⟨rfl, rfl⟩, hd, -, hcs⟩
      exact ⟨hd, hcs⟩

theorem scanName_append {name : String} (hname : isName name = true) {rest : List Char}
    (hrest : rest.head?.any isNameChar = false) :
    scanName (name.toList ++ rest) = some (name, rest) := by
  obtain ⟨-, -, -, -, hall⟩ := isName_iff.mp hname
  have htake : rest.takeWhile isNameChar = [] := by
    cases rest with
    | nil => rfl
    | cons c rest => rw [List.takeWhile_cons, if_neg (by simpa using hrest)]
  have hdrop : rest.dropWhile isNameChar = rest := by
    cases rest with
    | nil => rfl
    | cons c rest => rw [List.dropWhile_cons, if_neg (by simpa using hrest)]
  unfold scanName
  rw [List.takeWhile_append_of_pos hall, htake, List.append_nil, String.ofList_toList,
    if_pos hname, List.dropWhile_append_of_pos hall, hdrop]

/-- A quoted text that is an attribute value. -/
structure Quotes (quoted : List Char) (value : String) : Prop where
  legal : ∀ c ∈ quoted, isXmlChar c = true
  noReturn : '\r' ∉ quoted
  scan : ∀ rest, attValue (quoted ++ rest) = some (value, rest)

theorem quotes_of_expand {q : Char} (hq : q = '"' ∨ q = '\'') {raw : List Char} {value : String}
    (hlegal : ∀ c ∈ raw, isXmlChar c = true) (hreturn : '\r' ∉ raw) (hquote : q ∉ raw)
    (hvalue : expand attrLiteral none raw = some value.toList) : Quotes (q :: (raw ++ [q])) value where
  legal := by
    intro c hc
    rw [List.mem_cons, List.mem_append, List.mem_singleton] at hc
    rcases hc with rfl | hc | rfl
    · rcases hq with rfl | rfl <;> decide
    · exact hlegal c hc
    · rcases hq with rfl | rfl <;> decide
  noReturn := by
    rw [List.mem_cons, List.mem_append, List.mem_singleton, not_or, not_or]
    refine ⟨?_, hreturn, ?_⟩ <;> rcases hq with rfl | rfl <;> decide
  scan := by
    intro rest
    have hall : ∀ c ∈ raw, (c != q) = true := by
      intro c hc
      rw [bne_iff_ne]
      rintro rfl
      exact hquote hc
    have hstop : (q != q) = false := bne_self_eq_false q
    rw [List.cons_append, List.append_assoc, List.singleton_append, attValue, if_pos hq,
      List.dropWhile_append_of_pos hall, List.takeWhile_append_of_pos hall, List.takeWhile_cons,
      List.dropWhile_cons, hstop]
    simp only [Bool.false_eq_true, if_false, List.append_nil, hvalue, Option.map_some,
      String.ofList_toList]

/-- A quoted text begins with its quote. -/
theorem Quotes.scanEq_cons {quoted : List Char} {value : String} (h : Quotes quoted value)
    (rest : List Char) : scanEq ('=' :: (quoted ++ rest)) = some (quoted ++ rest) := by
  have hscan := h.scan []
  rw [List.append_nil] at hscan
  cases quoted with
  | nil => cases hscan
  | cons q cs =>
    have hq : isSpace q = false := by
      rw [attValue] at hscan
      split_ifs at hscan with hq
      rcases hq with rfl | rfl <;> rfl
    simp [scanEq, skipSpace, show isSpace '=' = false from rfl, hq]

/-- The text of the attributes of a tag. -/
inductive Attributes : List Char → List (String × String) → Prop where
  | nil : Attributes [] []
  | cons {name value : String} {quoted cs : List Char} {attrs : List (String × String)}
      (hname : isName name = true) (hquoted : Quotes quoted value)
      (hnew : name ∉ attrs.map Prod.fst) (hattrs : Attributes cs attrs) :
      Attributes (' ' :: (name.toList ++ '=' :: (quoted ++ cs))) ((name, value) :: attrs)

namespace Attributes

variable {cs : List Char} {attrs : List (String × String)}

theorem legal (h : Attributes cs attrs) : ∀ c ∈ cs, isXmlChar c = true := by
  induction h with
  | nil => exact fun c hc => absurd hc List.not_mem_nil
  | cons hname hquoted _ _ ih =>
    intro c hc
    obtain ⟨-, -, -, -, hall⟩ := isName_iff.mp hname
    rw [List.mem_cons, List.mem_append, List.mem_cons, List.mem_append] at hc
    rcases hc with rfl | hc | rfl | hc | hc
    · decide
    · exact isXmlChar_of_isNameChar (hall c hc)
    · decide
    · exact hquoted.legal c hc
    · exact ih c hc

theorem noReturn (h : Attributes cs attrs) : '\r' ∉ cs := by
  induction h with
  | nil => exact List.not_mem_nil
  | cons hname hquoted _ _ ih =>
    intro hc
    obtain ⟨-, -, -, -, hall⟩ := isName_iff.mp hname
    rw [List.mem_cons, List.mem_append, List.mem_cons, List.mem_append] at hc
    rcases hc with hc | hc | hc | hc | hc
    · exact absurd hc (by decide)
    · exact absurd (hall _ hc) (by decide)
    · exact absurd hc (by decide)
    · exact hquoted.noReturn hc
    · exact ih hc

theorem head (h : Attributes cs attrs) (rest : List Char) :
    (cs ++ '>' :: rest).head?.any isNameChar = false := by
  cases h with
  | nil => rfl
  | cons _ _ _ _ => rfl

/-- The attributes of a tag are read, with fuel for each of its characters. -/
theorem scan (h : Attributes cs attrs) (rest : List Char) :
    ∀ n, (cs ++ '>' :: rest).length ≤ n →
      attributes n (cs ++ '>' :: rest) = some (attrs, false, rest) := by
  induction h with
  | nil =>
    intro n hn
    cases n with
    | zero => simp at hn
    | succ n => rfl
  | @cons name value quoted cs attrs hname hquoted hnew hattrs ih =>
    intro n hn
    obtain ⟨c, name', hcons, hstart, hall⟩ := isName_iff.mp hname
    cases n with
    | zero => simp at hn
    | succ n =>
      have hlen : (cs ++ '>' :: rest).length ≤ n := by
        simp only [List.length_append, List.length_cons] at hn ⊢
        omega
      have hspace : isSpace c = false := by
        rw [Bool.eq_false_iff]
        intro hc
        simp only [isSpace, Bool.or_eq_true, decide_eq_true_eq] at hc
        rcases hc with ((rfl | rfl) | rfl) | rfl <;> exact absurd hstart (by decide)
      have hskip : skipSpace (' ' :: (name.toList ++ '=' :: (quoted ++ cs)) ++ '>' :: rest) =
          name.toList ++ '=' :: (quoted ++ (cs ++ '>' :: rest)) := by
        rw [hcons]
        simp [skipSpace, hspace, show isSpace ' ' = true from rfl]
      have hscan : scanName (name.toList ++ '=' :: (quoted ++ (cs ++ '>' :: rest))) =
          some (name, '=' :: (quoted ++ (cs ++ '>' :: rest))) := scanName_append hname rfl
      have hany : (attrs.any fun a => decide (a.1 = name)) = false := by
        rw [List.any_eq_false]
        intro a ha
        rw [decide_eq_true_eq]
        rintro rfl
        exact hnew (List.mem_map_of_mem ha)
      rw [attributes, hskip]
      split
      · next h =>
        rw [hcons] at h
        exact absurd hstart (by rw [(List.cons.inj h).1]; decide)
      · next h =>
        rw [hcons] at h
        exact absurd hstart (by rw [(List.cons.inj h).1]; decide)
      · rw [List.cons_append, List.head?_cons, Option.any_some, if_pos (show isSpace ' ' = true from rfl), hscan]
        simp only [Option.bind_eq_bind, Option.bind_some, hquoted.scanEq_cons, hquoted.scan, ih n hlen, hany,
          Bool.false_eq_true, if_false]

end Attributes

/-! ## Tags and texts -/

/-- The start tag of an element. -/
def openTag (name : String) (attrText : List Char) : List Char :=
  '<' :: (name.toList ++ (attrText ++ ['>']))

/-- The end tag of an element. -/
def closeTag (name : String) : List Char := '<' :: '/' :: (name.toList ++ ['>'])

variable {name : String} {attrText : List Char} {attrs : List (String × String)}

theorem nextToken_openTag (hname : isName name = true) (hattrs : Attributes attrText attrs)
    (rest : List Char) :
    nextToken (openTag name attrText ++ rest) = some (.start name attrs, rest) := by
  obtain ⟨c, name', hcons, hstart, hall⟩ := isName_iff.mp hname
  have htext : openTag name attrText ++ rest =
      '<' :: (name.toList ++ (attrText ++ '>' :: rest)) := by
    simp [openTag]
  have htag : startTag (name.toList ++ (attrText ++ '>' :: rest)) = some (.start name attrs, rest) := by
    unfold startTag
    rw [scanName_append hname (hattrs.head rest)]
    simp only [Option.bind_eq_bind, Option.bind_some, hattrs.scan rest _ (Nat.le_succ _)]
    rfl
  have hne : ∀ d, isNameStart d = false → c ≠ d := by
    rintro d hd rfl
    rw [hd] at hstart
    cases hstart
  rw [htext, nextToken, ← htag, hcons]
  apply markup.eq_4
  · intro cs h
    exact hne '/' (by decide) (List.cons.inj h).1
  · intro cs h
    exact hne '?' (by decide) (List.cons.inj h).1
  · intro cs h
    exact hne '!' (by decide) (List.cons.inj h).1

theorem nextToken_closeTag (hname : isName name = true) (rest : List Char) :
    nextToken (closeTag name ++ rest) = some (.stop name, rest) := by
  have htext : closeTag name ++ rest = '<' :: '/' :: (name.toList ++ '>' :: rest) := by
    simp [closeTag]
  have hscan : scanName (name.toList ++ '>' :: rest) = some (name, '>' :: rest) :=
    scanName_append hname rfl
  rw [htext, nextToken, markup, endTag, hscan]
  rfl

theorem nextToken_text {raw : List Char} (hraw : raw ≠ []) (hopen : '<' ∉ raw) (rest : List Char) :
    nextToken (raw ++ '<' :: rest) = some (.text raw, '<' :: rest) := by
  have hall : ∀ c ∈ raw, (c != '<') = true := by
    intro c hc
    rw [bne_iff_ne]
    rintro rfl
    exact hopen hc
  have htext : nextToken (raw ++ '<' :: rest) =
      some (.text ((raw ++ '<' :: rest).takeWhile (· != '<')),
        (raw ++ '<' :: rest).dropWhile (· != '<')) := by
    apply nextToken.eq_2
    intro cs h
    cases raw with
    | nil => exact hraw rfl
    | cons c raw => exact hopen (by rw [(List.cons.inj h).1]; exact List.mem_cons_self)
  rw [htext, List.takeWhile_append_of_pos hall, List.dropWhile_append_of_pos hall]
  simp

/-- A separator that does not occur is not found. -/
theorem breakOn_eq_none {pat cs : List Char} {c : Char} (hc : c ∈ pat) (hcs : c ∉ cs) :
    breakOn pat cs = none := by
  induction cs with
  | nil => rfl
  | cons d cs ih =>
    have hprefix : ¬ pat.isPrefixOf (d :: cs) = true := by
      intro h
      exact hcs ((List.isPrefixOf_iff_prefix.mp h).subset hc)
    rw [breakOn, if_neg hprefix, ih fun h => hcs (List.mem_cons_of_mem _ h), Option.map_none]

theorem openTag_noReturn (hname : isName name = true) (hattrs : Attributes attrText attrs) :
    '\r' ∉ openTag name attrText := by
  obtain ⟨-, -, -, -, hall⟩ := isName_iff.mp hname
  intro h
  rw [openTag, List.mem_cons, List.mem_append, List.mem_append, List.mem_singleton] at h
  rcases h with h | h | h | h
  · exact absurd h (by decide)
  · exact absurd (hall _ h) (by decide)
  · exact hattrs.noReturn h
  · exact absurd h (by decide)

theorem closeTag_noReturn (hname : isName name = true) : '\r' ∉ closeTag name := by
  obtain ⟨-, -, -, -, hall⟩ := isName_iff.mp hname
  intro h
  rw [closeTag, List.mem_cons, List.mem_cons, List.mem_append, List.mem_singleton] at h
  rcases h with h | h | h | h
  · exact absurd h (by decide)
  · exact absurd h (by decide)
  · exact absurd (hall _ h) (by decide)
  · exact absurd h (by decide)

theorem legal_openTag (hname : isName name = true) (hattrs : Attributes attrText attrs) :
    ∀ c ∈ openTag name attrText, isXmlChar c = true := by
  obtain ⟨-, -, -, -, hall⟩ := isName_iff.mp hname
  intro c h
  rw [openTag, List.mem_cons, List.mem_append, List.mem_append, List.mem_singleton] at h
  rcases h with rfl | h | h | rfl
  · decide
  · exact isXmlChar_of_isNameChar (hall _ h)
  · exact hattrs.legal c h
  · decide

theorem legal_closeTag (hname : isName name = true) : ∀ c ∈ closeTag name, isXmlChar c = true := by
  obtain ⟨-, -, -, -, hall⟩ := isName_iff.mp hname
  intro c h
  rw [closeTag, List.mem_cons, List.mem_cons, List.mem_append, List.mem_singleton] at h
  rcases h with rfl | rfl | h | rfl
  · decide
  · decide
  · exact isXmlChar_of_isNameChar (hall _ h)
  · decide

/-! ## Reading a document back -/

/-- The text is cut into these tokens, once its line ends are normalized. -/
def Scans (cs : List Char) (toks : List Token) : Prop :=
  ∀ n, (normalizeLineEnds cs).length ≤ n → tokens n (normalizeLineEnds cs) = some toks

theorem scans_nil : Scans [] [] := by
  intro n _
  cases n <;> rfl

theorem Scans.cons {cs piece rest : List Char} {tok : Token} {toks : List Token}
    (hcs : normalizeLineEnds cs = piece ++ normalizeLineEnds rest) (hne : piece ≠ [])
    (htok : nextToken (piece ++ normalizeLineEnds rest) = some (tok, normalizeLineEnds rest))
    (hrest : Scans rest toks) : Scans cs (tok :: toks) := by
  intro n hn
  rw [hcs] at hn ⊢
  cases piece with
  | nil => exact absurd rfl hne
  | cons c piece =>
    cases n with
    | zero => simp at hn
    | succ n =>
      have hlen : (normalizeLineEnds rest).length ≤ n := by
        rw [List.length_append, List.length_cons] at hn
        omega
      rw [List.cons_append] at htok ⊢
      rw [tokens, htok]
      simp [hrest n hlen]

variable {rest : List Char} {toks : List Token}

theorem Scans.openTag (hname : isName name = true) (hattrs : Attributes attrText attrs)
    (h : Scans rest toks) : Scans (openTag name attrText ++ rest) (.start name attrs :: toks) := by
  apply Scans.cons (normalizeLineEnds_append (openTag_noReturn hname hattrs) rest) _ _ h
  · exact List.cons_ne_nil _ _
  · exact nextToken_openTag hname hattrs _

theorem Scans.closeTag (hname : isName name = true) (h : Scans rest toks) :
    Scans (closeTag name ++ rest) (.stop name :: toks) := by
  apply Scans.cons (normalizeLineEnds_append (closeTag_noReturn hname) rest) _ _ h
  · exact List.cons_ne_nil _ _
  · exact nextToken_closeTag hname _

theorem Scans.text {raw : List Char} (hraw : raw ≠ []) (hopen : '<' ∉ raw)
    (h : Scans ('<' :: rest) toks) :
    Scans (raw ++ '<' :: rest) (.text (normalizeLineEnds raw) :: toks) := by
  have hcs : normalizeLineEnds (raw ++ '<' :: rest) =
      normalizeLineEnds raw ++ normalizeLineEnds ('<' :: rest) :=
    normalizeLineEnds_append_of_head (by simp) raw
  have hopen' : '<' ∉ normalizeLineEnds raw := by
    intro hmem
    rcases mem_of_mem_normalizeLineEnds hmem with hc | hc
    · exact absurd hc (by decide)
    · exact hopen hc
  apply Scans.cons hcs (normalizeLineEnds_ne_nil hraw) _ h
  rw [normalizeLineEnds_cons (by decide : '<' ≠ '\r')]
  exact nextToken_text (normalizeLineEnds_ne_nil hraw) hopen' _

/-- The text reads as these nodes, wherever it stands in an element. -/
structure Reads (cs : List Char) (nodes : List Node) : Prop where
  legal : ∀ c ∈ cs, isXmlChar c = true
  scan : ∃ toks, (∀ rest more, Scans rest more → Scans (cs ++ rest) (toks ++ more)) ∧
    ∀ f fs root, toks.foldlM step ⟨f :: fs, root⟩ =
      some ⟨{ f with children := f.children ++ nodes } :: fs, root⟩

/-- The text reads as these nodes if it is all that the element contains. -/
structure Content (name : String) (cs : List Char) (nodes : List Node) : Prop where
  legal : ∀ c ∈ cs, isXmlChar c = true
  scan : ∃ toks, (∀ rest more, Scans (closeTag name ++ rest) more →
      Scans (cs ++ (closeTag name ++ rest)) (toks ++ more)) ∧
    ∀ attrs fs root, toks.foldlM step ⟨⟨name, attrs, []⟩ :: fs, root⟩ =
      some ⟨⟨name, attrs, nodes⟩ :: fs, root⟩

variable {cs cs' : List Char} {nodes nodes' : List Node}

theorem Reads.nil : Reads [] [] where
  legal := fun _ hc => absurd hc List.not_mem_nil
  scan := ⟨[], fun _ _ h => h, fun f fs root => by simp⟩

/-- **What stands in a row is read in a row.** -/
theorem Reads.append (h : Reads cs nodes) (h' : Reads cs' nodes') :
    Reads (cs ++ cs') (nodes ++ nodes') where
  legal := by
    intro c hc
    rcases List.mem_append.mp hc with hc | hc
    · exact h.legal c hc
    · exact h'.legal c hc
  scan := by
    obtain ⟨toks, hscan, hbuild⟩ := h.scan
    obtain ⟨toks', hscan', hbuild'⟩ := h'.scan
    refine ⟨toks ++ toks', ?_, ?_⟩
    · intro rest more hrest
      rw [List.append_assoc, List.append_assoc]
      exact hscan _ _ (hscan' _ _ hrest)
    · intro f fs root
      rw [List.foldlM_append, hbuild]
      simp [hbuild']

theorem Reads.content (h : Reads cs nodes) : Content name cs nodes where
  legal := h.legal
  scan := by
    obtain ⟨toks, hscan, hbuild⟩ := h.scan
    exact ⟨toks, fun rest more => hscan _ more, fun attrs fs root => hbuild _ fs root⟩

/-- The nodes of a text: none if it is empty. -/
def textPart (text : List Char) : List Node :=
  if text = [] then [] else [.text (String.ofList text)]

theorem addNode_text (text : List Char) :
    addNode [] (.text (String.ofList text)) = textPart text := by
  unfold addNode textPart
  by_cases hnil : text = []
  · rw [if_pos hnil, hnil]
    rfl
  · have hne : String.ofList text ≠ "" := by
      intro h
      apply hnil
      rw [← @String.toList_ofList text, h]
      rfl
    simp [hnil, hne]

/-- **A text is read with its line ends normalized.** -/
theorem content_text {raw text : List Char} (hlegal : ∀ c ∈ raw, isXmlChar c = true)
    (hopen : '<' ∉ raw) (hclose : '>' ∉ raw)
    (htext : expand some none (normalizeLineEnds raw) = some text) :
    Content name raw (textPart text) where
  legal := hlegal
  scan := by
    by_cases hraw : raw = []
    · subst hraw
      obtain rfl : [] = text := by simpa [normalizeLineEnds, expand] using htext
      exact ⟨[], fun _ _ h => h, fun _ _ _ => rfl⟩
    · refine ⟨[.text (normalizeLineEnds raw)], ?_, ?_⟩
      · intro rest more h
        exact Scans.text hraw hopen h
      · intro attrs fs root
        have hend : breakOn [']', ']', '>'] (normalizeLineEnds raw) = none := by
          apply breakOn_eq_none (by simp : '>' ∈ _)
          intro hmem
          rcases mem_of_mem_normalizeLineEnds hmem with hc | hc
          · exact absurd hc (by decide)
          · exact hclose hc
        have hstep : step ⟨⟨name, attrs, []⟩ :: fs, root⟩ (.text (normalizeLineEnds raw)) =
            some ⟨⟨name, attrs, addNode [] (.text (String.ofList text))⟩ :: fs, root⟩ := by
          simp [step, State.put, hend, htext]
        rw [addNode_text] at hstep
        rw [List.foldlM_cons, hstep]
        rfl

namespace Content

variable (hname : isName name = true) (hattrs : Attributes attrText attrs)
include hname hattrs

theorem legal_element (h : Content name cs nodes) :
    ∀ c ∈ openTag name attrText ++ (cs ++ closeTag name), isXmlChar c = true := by
  intro c hc
  rw [List.mem_append, List.mem_append] at hc
  rcases hc with hc | hc | hc
  · exact legal_openTag hname hattrs c hc
  · exact h.legal c hc
  · exact legal_closeTag hname c hc

/-- The tokens of an element, and that they put it where the document is. -/
theorem scan_element (h : Content name cs nodes) : ∃ toks,
    (∀ rest more, Scans rest more →
      Scans (openTag name attrText ++ (cs ++ closeTag name) ++ rest) (toks ++ more)) ∧
    ∀ s : State, toks.foldlM step s = s.put (.element name attrs nodes) := by
  obtain ⟨toks, hscan, hbuild⟩ := h.scan
  refine ⟨.start name attrs :: (toks ++ [.stop name]), ?_, ?_⟩
  · intro rest more hrest
    rw [List.append_assoc, List.append_assoc, List.cons_append, List.append_assoc]
    exact (hscan _ _ (hrest.closeTag hname)).openTag hname hattrs
  · intro s
    rw [List.foldlM_cons]
    change (toks ++ [Token.stop name]).foldlM step ⟨⟨name, attrs, []⟩ :: s.frames, s.root⟩ = _
    rw [List.foldlM_append, hbuild]
    simp [step]

/-- **An element, with its content between the tags.** -/
theorem reads (h : Content name cs nodes) :
    Reads (openTag name attrText ++ (cs ++ closeTag name)) [.element name attrs nodes] where
  legal := h.legal_element hname hattrs
  scan := by
    obtain ⟨toks, hscan, hbuild⟩ := h.scan_element hname hattrs
    exact ⟨toks, hscan, fun f fs root => hbuild ⟨f :: fs, root⟩⟩

/-- **The tree of a document that is such an element.** -/
theorem parse_eq (h : Content name cs nodes) {doc : String}
    (hdoc : doc.toList = openTag name attrText ++ (cs ++ closeTag name)) :
    parse doc = some (.element name attrs nodes) := by
  obtain ⟨toks, hscan, hbuild⟩ := h.scan_element hname hattrs
  have hlegal : doc.toList.all isXmlChar = true := by
    rw [List.all_eq_true, hdoc]
    exact h.legal_element hname hattrs
  have htoks := hscan [] [] scans_nil
  rw [List.append_nil, List.append_nil, ← hdoc] at htoks
  unfold parse
  rw [if_pos hlegal]
  simp only [Option.bind_eq_bind, htoks _ (Nat.le_refl _), Option.bind_some, hbuild]
  rfl

example : parse "<a b='1'>x&lt;&#65;</a>" = some (.element "a" [("b", "1")] [.text "x<A"]) := rfl

end Content

end Xml
