import WazuhMcp.Foundations.Text

/-!
# Lines in pairs

A text whose lines end with newlines, and the lines of a text taken in pairs, where blank lines in front of
a pair are passed over. Lines without newlines that have been written in pairs are read as these pairs
(`readPairs_write`); the text that is written for no pair at all holds one blank line.
-/

namespace Lines

/-- `"\n".join(lines) + "\n"` -/
def write (lines : List String) : String := Text.join '\n' lines ++ "\n"

/-- The lines of a text, if the last one ends with a newline. -/
def read (s : String) : Option (List String) :=
  let parts := Text.split '\n' s
  if parts.getLast? = some "" then some parts.dropLast else none

/-- The lines in pairs. -/
def pairs : List String → Option (List (String × String))
  | [] => some []
  | line :: rest =>
    if line = "" then pairs rest
    else
      match rest with
      | [] => none
      | next :: rest => (pairs rest).map ((line, next) :: ·)

/-- The lines of a text in pairs. -/
def readPairs (s : String) : Option (List (String × String)) := (read s).bind pairs

variable {lines : List String}

theorem write_eq_join (hne : lines ≠ []) : write lines = Text.join '\n' (lines ++ [""]) := by
  apply String.toList_injective
  unfold write Text.join
  simp only [String.toList_append, String.toList_ofList]
  induction lines with
  | nil => exact absurd rfl hne
  | cons line lines ih =>
    cases lines with
    | nil => simp
    | cons next lines =>
      have hrest := ih (by simp)
      simp only [List.map_cons, List.cons_append, List.intercalate_cons_cons, List.append_assoc] at hrest ⊢
      rw [hrest]

/-- The text that is written for no line. -/
theorem read_write_nil : read (write []) = some [""] := by decide

/-- **Reading undoes writing.** -/
theorem read_write (hlines : ∀ l ∈ lines, '\n' ∉ l.toList) (hne : lines ≠ []) :
    read (write lines) = some lines := by
  have hparts : ∀ l ∈ lines ++ [""], '\n' ∉ l.toList := by
    simpa [or_imp, forall_and] using hlines
  rw [read, write_eq_join hne, Text.split_join hparts (by simp)]
  simp

/-- The lines, each with a newline after it. -/
def terminated (lines : List String) : String :=
  String.ofList (lines.flatMap fun line => line.toList ++ ['\n'])

theorem terminated_eq_join (lines : List String) : terminated lines = Text.join '\n' (lines ++ [""]) := by
  apply String.toList_injective
  rw [terminated, Text.join, String.toList_ofList, String.toList_ofList]
  induction lines with
  | nil => rfl
  | cons line lines ih =>
    rw [List.flatMap_cons, ih]
    cases lines with
    | nil => simp
    | cons next lines => simp

/-- Lines that end with newlines are read as they are, also if there is none. -/
theorem read_terminated (hlines : ∀ l ∈ lines, '\n' ∉ l.toList) : read (terminated lines) = some lines := by
  have hparts : ∀ l ∈ lines ++ [""], '\n' ∉ l.toList := by
    simpa [or_imp, forall_and] using hlines
  rw [read, terminated_eq_join, Text.split_join hparts (by simp)]
  simp

variable {α : Type} {f g : α → String}

theorem pairs_flatMap {xs : List α} (hf : ∀ x ∈ xs, f x ≠ "") :
    pairs (xs.flatMap fun x => [f x, g x]) = some (xs.map fun x => (f x, g x)) := by
  induction xs with
  | nil => rfl
  | cons x xs ih =>
    obtain ⟨hx, hxs⟩ := List.forall_mem_cons.mp hf
    rw [List.flatMap_cons, List.cons_append, List.cons_append, List.nil_append, pairs, if_neg hx]
    simp only [ih hxs, Option.map_some, List.map_cons]

/-- **Lines that are written in pairs** are read in pairs. -/
theorem readPairs_write {xs : List α} (hf : ∀ x ∈ xs, f x ≠ "" ∧ '\n' ∉ (f x).toList)
    (hg : ∀ x ∈ xs, '\n' ∉ (g x).toList) :
    readPairs (write (xs.flatMap fun x => [f x, g x])) = some (xs.map fun x => (f x, g x)) := by
  cases xs with
  | nil =>
    rw [List.flatMap_nil, readPairs, read_write_nil]
    rfl
  | cons x xs =>
    have hlines : ∀ l ∈ (x :: xs).flatMap fun x => [f x, g x], '\n' ∉ l.toList := by
      intro l hl
      obtain ⟨y, hy, hl⟩ := List.mem_flatMap.mp hl
      rcases List.mem_pair.mp hl with rfl | rfl
      · exact (hf y hy).2
      · exact hg y hy
    rw [readPairs, read_write hlines (by simp), Option.bind_some]
    exact pairs_flatMap fun y hy => (hf y hy).1

end Lines
