import Mathlib.Data.List.Basic

/-!
# The query language of the Server API

What the `q` parameter of a request is read as, as far as this repository relies on it: clauses
`field operator value`, set apart by `,` (or) and `;` (and), with parentheses. A value is any text without
these four characters, and there is no way to escape them.

A query of one clause is read back from its text if the value is such a text (`parse_render`); every
structural character of a text is read as structure (`mem_of_parse`), so that no value holds one
(`plain_of_parse`).
-/

namespace WazuhMcp.Query

/-- The operators of a clause. -/
inductive Operator where
  /-- `=` -/
  | eq
  /-- `!=` -/
  | ne
  /-- `<` -/
  | lt
  /-- `>` -/
  | gt
  /-- `~`, for a value that is contained -/
  | like
  deriving DecidableEq, Repr

namespace Operator

/-- How an operator is written. -/
def chars : Operator → List Char
  | eq => ['=']
  | ne => ['!', '=']
  | lt => ['<']
  | gt => ['>']
  | like => ['~']

/-- The operator that a text begins with, and what follows it. -/
def read? : List Char → Option (Operator × List Char)
  | '=' :: cs => some (eq, cs)
  | '!' :: '=' :: cs => some (ne, cs)
  | '<' :: cs => some (lt, cs)
  | '>' :: cs => some (gt, cs)
  | '~' :: cs => some (like, cs)
  | _ => none

@[simp] theorem read?_chars (op : Operator) (cs : List Char) : read? (op.chars ++ cs) = some (op, cs) := by
  cases op <;> rfl

/-- What is read is an operator as it is written. -/
theorem eq_of_read? {cs rest : List Char} {op : Operator} (h : read? cs = some (op, rest)) :
    cs = op.chars ++ rest := by
  unfold read? at h
  split at h <;> cases h <;> rfl

end Operator

/-- `field operator value` -/
structure Clause where
  field : String
  op : Operator
  value : String
  deriving DecidableEq, Repr

/-- The parts of a query. -/
inductive Token where
  | clause (c : Clause)
  /-- `,` -/
  | or
  /-- `;` -/
  | and
  /-- `(` -/
  | opening
  /-- `)` -/
  | closing
  deriving DecidableEq, Repr

/-- The part that a structural character stands for. -/
def structural? : Char → Option Token
  | ',' => some .or
  | ';' => some .and
  | '(' => some .opening
  | ')' => some .closing
  | _ => none

/-- A text without structural characters. -/
def Plain (cs : List Char) : Prop := ∀ c ∈ cs, structural? c = none

instance (cs : List Char) : Decidable (Plain cs) := inferInstanceAs (Decidable (∀ c ∈ cs, _))

/-- The characters of a field. -/
def isFieldChar (c : Char) : Bool := c.isAlphanum || c = '_' || c = '.'

/-- The text is a field. -/
def IsField (text : String) : Prop := text ≠ "" ∧ ∀ c ∈ text.toList, isFieldChar c = true

/-- The clause that a text is. -/
def clause? (cs : List Char) : Option Clause :=
  let name := cs.takeWhile isFieldChar
  if name = [] then none
  else
    (Operator.read? (cs.dropWhile isFieldChar)).map fun (op, value) =>
      ⟨String.ofList name, op, String.ofList value⟩

/-- The parts of the text between two structural characters: a clause, or nothing. -/
def between (run : List Char) : Option (List Token) :=
  if run = [] then some [] else (clause? run).map fun c => [.clause c]

/-- The parts of a text, where `run` was read since the last structural character. -/
def tokens (run : List Char) : List Char → Option (List Token)
  | [] => between run
  | c :: cs =>
    match structural? c with
    | none => tokens (run ++ [c]) cs
    | some t => do
      let before ← between run
      let after ← tokens [] cs
      return before ++ t :: after

/-- The parts are a query: clauses set apart by `,` or `;`, in parentheses that match, of which `depth` are
open. Where a clause is `due`, there has to be one. -/
def arranged : (due : Bool) → (depth : ℕ) → List Token → Bool
  | false, 0, [] => true
  | true, depth, .clause _ :: ts => arranged false depth ts
  | true, depth, .opening :: ts => arranged true (depth + 1) ts
  | false, depth + 1, .closing :: ts => arranged false depth ts
  | false, depth, .or :: ts => arranged true depth ts
  | false, depth, .and :: ts => arranged true depth ts
  | _, _, _ => false

/-- **How a query is read.** -/
def parse (text : String) : Option (List Token) :=
  (tokens [] text.toList).filter (arranged true 0)

/-! ## Plain text -/

theorem plain_nil : Plain [] := List.forall_mem_nil _

theorem plain_append {cs ds : List Char} : Plain (cs ++ ds) ↔ Plain cs ∧ Plain ds :=
  List.forall_mem_append

theorem not_clause_of_structural {ch : Char} {c : Clause} : structural? ch ≠ some (.clause c) := by
  unfold structural?
  split <;> simp

theorem structural?_of_isFieldChar {c : Char} (h : isFieldChar c = true) : structural? c = none := by
  unfold structural?
  split
  · exact absurd h (by decide)
  · exact absurd h (by decide)
  · exact absurd h (by decide)
  · exact absurd h (by decide)
  · rfl

theorem plain_operator (op : Operator) : Plain op.chars := by
  cases op <;> simp [Plain, Operator.chars, structural?]

/-- A plain text is one run. -/
theorem tokens_of_plain {run cs : List Char} (h : Plain cs) : tokens run cs = between (run ++ cs) := by
  induction cs generalizing run with
  | nil => rw [tokens, List.append_nil]
  | cons c cs ih =>
    have hc : structural? c = none := h c List.mem_cons_self
    simp only [tokens, hc]
    rw [ih fun d hd => h d (List.mem_cons_of_mem c hd), List.append_assoc]
    rfl

/-! ## Writing a clause -/

namespace Clause

/-- How a clause is written. -/
def render (c : Clause) : String := c.field ++ String.ofList c.op.chars ++ c.value

/-- A clause that is read as it is written. -/
structure WellFormed (c : Clause) : Prop where
  isField : IsField c.field
  plain_value : Plain c.value.toList

variable {c : Clause}

theorem toList_render : c.render.toList = c.field.toList ++ (c.op.chars ++ c.value.toList) := by
  simp [render]

/-- The field of a clause ends where its operator begins. -/
theorem takeWhile_render (h : IsField c.field) :
    c.render.toList.takeWhile isFieldChar = c.field.toList := by
  rw [toList_render, List.takeWhile_append_of_pos h.2]
  cases c.op <;> exact List.append_nil _

theorem dropWhile_render (h : IsField c.field) :
    c.render.toList.dropWhile isFieldChar = c.op.chars ++ c.value.toList := by
  rw [toList_render, List.dropWhile_append_of_pos h.2]
  cases c.op <;> rfl

theorem clause?_render (h : c.WellFormed) : clause? c.render.toList = some c := by
  have hname : c.field.toList ≠ [] := fun hempty => h.isField.1 (String.toList_eq_nil_iff.mp hempty)
  rw [clause?, takeWhile_render h.isField, dropWhile_render h.isField, Operator.read?_chars]
  simp [hname]

theorem plain_render (h : c.WellFormed) : Plain c.render.toList := by
  rw [toList_render, plain_append, plain_append]
  exact ⟨fun ch hch => structural?_of_isFieldChar (h.isField.2 ch hch), plain_operator c.op,
    h.plain_value⟩

end Clause

/-- **A clause is read as it is written.** -/
theorem parse_render {c : Clause} (h : c.WellFormed) : parse c.render = some [.clause c] := by
  have hne : c.render.toList ≠ [] := by
    intro hempty
    rw [Clause.toList_render, List.append_eq_nil_iff] at hempty
    exact h.isField.1 (String.toList_eq_nil_iff.mp hempty.1)
  rw [parse, tokens_of_plain (Clause.plain_render h), List.nil_append, between, if_neg hne,
    Clause.clause?_render h]
  rfl

/-! ## Reading a text -/

/-- The value of a clause is in its text. -/
theorem mem_of_clause? {cs : List Char} {c : Clause} (h : clause? cs = some c) {ch : Char}
    (hch : ch ∈ c.value.toList) : ch ∈ cs := by
  simp only [clause?] at h
  split at h
  · cases h
  · obtain ⟨⟨op, value⟩, hread, rfl⟩ := Option.map_eq_some_iff.mp h
    have hvalue : ch ∈ value := by simpa using hch
    have hrest : ch ∈ cs.dropWhile isFieldChar := by
      rw [Operator.eq_of_read? hread]
      exact List.mem_append_right _ hvalue
    exact (List.dropWhile_suffix _).subset hrest

/-- A clause between two structural characters has a plain value. -/
theorem plain_of_between {run : List Char} {ts : List Token} (hrun : Plain run)
    (h : between run = some ts) {c : Clause} (hc : .clause c ∈ ts) : Plain c.value.toList := by
  unfold between at h
  split at h
  · cases h
    cases hc
  · obtain ⟨d, hd, rfl⟩ := Option.map_eq_some_iff.mp h
    obtain rfl := Token.clause.inj (List.mem_singleton.mp hc)
    exact fun ch hch => hrun ch (mem_of_clause? hd hch)

/-- What is read after a run, by whether a structural character comes next. -/
theorem tokens_cons {run cs : List Char} {ch : Char} {ts : List Token}
    (h : tokens run (ch :: cs) = some ts) :
    (structural? ch = none ∧ tokens (run ++ [ch]) cs = some ts) ∨
      ∃ t before after, structural? ch = some t ∧ between run = some before ∧
        tokens [] cs = some after ∧ ts = before ++ t :: after := by
  simp only [tokens] at h
  split at h
  · rename_i hch
    exact .inl ⟨hch, h⟩
  · rename_i t hch
    obtain ⟨before, hbefore, h⟩ := Option.bind_eq_some_iff.mp h
    obtain ⟨after, hafter, h⟩ := Option.bind_eq_some_iff.mp h
    exact .inr ⟨t, before, after, hch, hbefore, hafter, (Option.some.inj h).symm⟩

theorem plain_of_tokens {run cs : List Char} {ts : List Token} (hrun : Plain run)
    (h : tokens run cs = some ts) {c : Clause} (hc : .clause c ∈ ts) : Plain c.value.toList := by
  induction cs generalizing run ts with
  | nil => exact plain_of_between hrun h hc
  | cons ch cs ih =>
    rcases tokens_cons h with ⟨hch, h⟩ | ⟨t, before, after, hch, hbefore, hafter, rfl⟩
    · refine ih (plain_append.mpr ⟨hrun, ?_⟩) h hc
      intro d hd
      rwa [List.mem_singleton.mp hd]
    · rcases List.mem_append.mp hc with hc | hc
      · exact plain_of_between hrun hbefore hc
      · rcases List.mem_cons.mp hc with rfl | hc
        · exact absurd hch not_clause_of_structural
        · exact ih plain_nil hafter hc

theorem mem_of_tokens {run cs : List Char} {ts : List Token} (h : tokens run cs = some ts) {ch : Char}
    (hmem : ch ∈ cs) {t : Token} (ht : structural? ch = some t) : t ∈ ts := by
  induction cs generalizing run ts with
  | nil => cases hmem
  | cons d cs ih =>
    rcases tokens_cons h with ⟨hd, h⟩ | ⟨u, before, after, hd, hbefore, hafter, rfl⟩
    · rcases List.mem_cons.mp hmem with rfl | hmem
      · rw [ht] at hd
        cases hd
      · exact ih h hmem
    · rcases List.mem_cons.mp hmem with rfl | hmem
      · obtain rfl := Option.some.inj (ht.symm.trans hd)
        exact List.mem_append_right _ List.mem_cons_self
      · exact List.mem_append_right _ (List.mem_cons_of_mem _ (ih hafter hmem))

variable {text : String} {ts : List Token}

/-- **No value of a query holds a structural character.** -/
theorem plain_of_parse (h : parse text = some ts) {c : Clause} (hc : .clause c ∈ ts) :
    Plain c.value.toList :=
  plain_of_tokens plain_nil (Option.filter_eq_some_iff.mp h).1 hc

/-- **Every structural character of a query is read as structure.** -/
theorem mem_of_parse (h : parse text = some ts) {ch : Char} (hmem : ch ∈ text.toList) {t : Token}
    (ht : structural? ch = some t) : t ∈ ts :=
  mem_of_tokens (Option.filter_eq_some_iff.mp h).1 hmem ht

example : parse "(name~a;tactics=b),id!=1" = some [.opening, .clause ⟨"name", .like, "a"⟩, .and,
    .clause ⟨"tactics", .eq, "b"⟩, .closing, .or, .clause ⟨"id", .ne, "1"⟩] := by decide +kernel

end WazuhMcp.Query
