import Mathlib.Data.Set.Card
import Mathlib.Logic.Function.Basic
import Mathlib.Order.Interval.Finset.Nat
import WazuhMcp.Foundations.Rotation
import WazuhMcp.Foundations.Runs

/-!
# The file sink

`FileSink` appends each event as one line of JSON to a file. When the file has reached a size, the
archives `.1`, `.2`, … are shifted by one, in a loop that goes down from `.keep`, and the file becomes
the archive `.1`.

* `shiftFrom_eq`: the loop moves each archive up by one and overwrites none.
* `represents_deliver`: the directory of the sink is a rotated log, of which `max keep 1` archives are kept.
* `rotation_retains_suffix`: the archives and the file hold a suffix of the lines that were delivered, each
  from its delivery on until a rotation drops it with the oldest archive.
* `archives_bounded_iff`: at most `keep` archives are there, unless `keep` is 0 and a rotation has been due.
-/

namespace WazuhMcp

/-! ## The directory -/

/-- The names the sink uses: its path, and its path with a number as a further suffix. -/
inductive FileName
  | path
  | suffixed (i : ℕ)
deriving DecidableEq, Repr

/-- What a directory holds: the lines of each file that exists. -/
abbrev Files := FileName → Option (List String)

namespace Files

variable (fs : Files) (name : FileName)

/-- The directory without files. -/
def empty : Files := fun _ => none

/-- `name.exists()` -/
def isThere : Bool := (fs name).isSome

/-- `name.unlink()` -/
def unlink : Files := Function.update fs name none

/-- `name.rename(dst)`, which replaces what `dst` was. -/
def rename (dst : FileName) : Files :=
  Function.update (Function.update fs dst (fs name)) name none

/-- `name.open("a")` -/
def openAppend : Files := Function.update fs name (some ((fs name).getD []))

/-- A line is written to the open file. -/
def write (line : String) : Files := Function.update fs name (some ((fs name).getD [] ++ [line]))

/-- `name.stat().st_size`, of lines in UTF-8. -/
def sizeOf : List String → ℕ
  | [] => 0
  | line :: lines => line.utf8ByteSize + sizeOf lines

theorem sizeOf_append (lines lines' : List String) :
    sizeOf (lines ++ lines') = sizeOf lines + sizeOf lines' := by
  induction lines with
  | nil => simp [sizeOf]
  | cons line lines ih => simp only [List.cons_append, sizeOf, ih]; omega

end Files

/-! ## The sink -/

/-- A sink with its settings. `dumps` is `json.dumps`, which raises for what is not JSON. -/
structure FileSink (Event : Type) where
  rotateSize : ℤ
  keep : ℕ
  dumps : Event → Except String String

namespace FileSink

variable {Event : Type} (sink : FileSink Event)

/-- A turn of the loop: the archive `.i` goes to `.i+1`, or is dropped. -/
def shiftArchive (fs : Files) (i : ℕ) : Files :=
  if fs.isThere (.suffixed i) then
    if i = sink.keep then fs.unlink (.suffixed i) else fs.rename (.suffixed i) (.suffixed (i + 1))
  else fs

/-- The loop, for `i` down to 1. -/
def shiftFrom : ℕ → Files → Files
  | 0, fs => fs
  | i + 1, fs => shiftFrom i (sink.shiftArchive fs (i + 1))

/-- `_rotate_if_needed` -/
def rotateIfNeeded (fs : Files) : Files :=
  match fs .path with
  | none => fs
  | some lines =>
    if (Files.sizeOf lines : ℤ) < sink.rotateSize then fs
    else (sink.shiftFrom sink.keep fs).rename .path (.suffixed 1)

/-- `_deliver`. The file is open by the time `json.dumps` is called. -/
def deliver (fs : Files) (event : Event) : Except String Unit × Files :=
  let fs := (sink.rotateIfNeeded fs).openAppend .path
  match sink.dumps event with
  | .error e => (.error e, fs)
  | .ok text => (.ok (), fs.write .path (text ++ "\n"))

/-- The directory after one more attempt to deliver an event. -/
def attempt (fs : Files) (event : Event) : Files := (sink.deliver fs event).2

/-- The directory after these attempts, from an empty one. -/
def after (events : List Event) : Files := Runs.exec sink.attempt Files.empty events

/-- The line of an event, if it can be delivered. -/
def line? (event : Event) : Option String := (sink.dumps event).toOption.map (· ++ "\n")

/-- The lines of the events that are delivered. -/
def deliveredLines (events : List Event) : List String := events.filterMap sink.line?

/-- The numbers of the archives, the oldest first. -/
def archiveNumbers : List ℕ := ((List.range (max sink.keep 1)).map (· + 1)).reverse

/-- The archives that exist, one after the other, and the current file. -/
def retained (fs : Files) : List String :=
  (sink.archiveNumbers.flatMap fun i => (fs (.suffixed i)).getD []) ++ (fs .path).getD []

/-- The lines of the archive with the last number, which has to go when the file becomes an archive. -/
def outgoing (fs : Files) : List String := (fs (.suffixed (max sink.keep 1))).getD []

/-! ## The loop -/

/-- The archives `.1` to `.n` moved up by one. -/
def shifted (n : ℕ) (fs : Files) : Files
  | .suffixed (j + 1) =>
    if j = 0 then none else if j ≤ n then fs (.suffixed j) else fs (.suffixed (j + 1))
  | name => fs name

variable {sink} {fs : Files} {n : ℕ}

/-- Where the next number is free, the turn moves whatever is there. -/
theorem shiftArchive_of_free (hn : n ≠ sink.keep) (hfree : fs (.suffixed (n + 1)) = none) :
    sink.shiftArchive fs n = fs.rename (.suffixed n) (.suffixed (n + 1)) := by
  unfold shiftArchive
  rw [if_neg hn]
  split
  · rfl
  · rename_i hthere
    have hnone : fs (.suffixed n) = none := by simpa [Files.isThere] using hthere
    funext name
    unfold Files.rename
    grind [Function.update_apply]

theorem shiftArchive_keep : sink.shiftArchive fs sink.keep = fs.unlink (.suffixed sink.keep) := by
  unfold shiftArchive
  split
  · rw [if_pos rfl]
  · rename_i hthere
    have hnone : fs (.suffixed sink.keep) = none := by simpa [Files.isThere] using hthere
    exact (@Function.update_eq_self_iff _ _ _ fs _ _ |>.mpr hnone.symm).symm

/-- Moving the last one first, and then the others, moves them all. -/
theorem shifted_rename :
    shifted n (fs.rename (.suffixed (n + 1)) (.suffixed (n + 2))) = shifted (n + 1) fs := by
  funext name
  cases name with
  | path => rfl
  | suffixed i =>
    cases i with
    | zero => rfl
    | succ j =>
      simp only [shifted, Files.rename, Function.update_apply, FileName.suffixed.injEq]
      grind

/-- **The loop moves every archive up by one and overwrites none**, when the number above them is
free. -/
theorem shiftFrom_eq (hn : n < sink.keep) (hfree : fs (.suffixed (n + 1)) = none) :
    sink.shiftFrom n fs = shifted n fs := by
  induction n generalizing fs with
  | zero =>
    funext name
    cases name with
    | path => rfl
    | suffixed i =>
      cases i with
      | zero => rfl
      | succ j =>
        simp only [shiftFrom, shifted]
        grind
  | succ n ih =>
    show sink.shiftFrom n (sink.shiftArchive fs (n + 1)) = _
    have hfreed : (fs.rename (.suffixed (n + 1)) (.suffixed (n + 2))) (.suffixed (n + 1)) = none :=
      Function.update_self _ _ _
    rw [shiftArchive_of_free (by omega) hfree, ih (by omega) hfreed, shifted_rename]

/-- The whole loop drops the archive `.keep` and moves the others. -/
theorem shiftFrom_keep {k : ℕ} (hkeep : sink.keep = k + 1) :
    sink.shiftFrom sink.keep fs = shifted k (fs.unlink (.suffixed (k + 1))) := by
  have hfree : (fs.unlink (.suffixed (k + 1))) (.suffixed (k + 1)) = none := Function.update_self _ _ _
  have hlast : sink.shiftArchive fs (k + 1) = fs.unlink (.suffixed (k + 1)) := by
    rw [← hkeep, shiftArchive_keep]
  have hrest : sink.shiftFrom k (fs.unlink (.suffixed (k + 1))) = shifted k (fs.unlink (.suffixed (k + 1))) :=
    shiftFrom_eq (by omega) hfree
  rw [hkeep, shiftFrom, hlast, hrest]

/-! ## A rotated log -/

/-- The directory holds a rotated log, with the archives numbered from 1. -/
structure Represents (sink : FileSink Event) (fs : Files) (log : RotatedLog String) : Prop where
  current : fs .path = log.current
  zeroth : fs (.suffixed 0) = none
  archives : ∀ i, fs (.suffixed (i + 1)) = log.archives[i]?
  bounded : log.archives.length ≤ max sink.keep 1

/-- Whether a rotation is due. -/
def due (sink : FileSink Event) (log : RotatedLog String) : Bool :=
  match log.current with
  | none => false
  | some lines => decide (sink.rotateSize ≤ Files.sizeOf lines)

/-- The log after one more attempt. -/
def logAttempt (sink : FileSink Event) (log : RotatedLog String) (event : Event) : RotatedLog String :=
  let log := (if sink.due log then log.rotate (max sink.keep 1) else log).begin
  match sink.line? event with
  | none => log
  | some line => log.append line

variable {log : RotatedLog String}

theorem represents_empty : sink.Represents Files.empty {} :=
  ⟨rfl, rfl, fun i => by simp [Files.empty], by simp⟩

theorem represents_begin (h : sink.Represents fs log) :
    sink.Represents (fs.openAppend .path) log.begin := by
  refine ⟨?_, h.zeroth, h.archives, h.bounded⟩
  show some ((fs .path).getD []) = some (log.current.getD [])
  rw [h.current]

theorem represents_append (h : sink.Represents fs log) (line : String) :
    sink.Represents (fs.write .path line) (log.append line) := by
  refine ⟨?_, h.zeroth, h.archives, h.bounded⟩
  show some ((fs .path).getD [] ++ [line]) = some (log.current.getD [] ++ [line])
  rw [h.current]

/-- What the loop and the renaming after it leave. -/
theorem represents_rotate {lines : List String} (h : sink.Represents fs log)
    (hcurrent : log.current = some lines) :
    sink.Represents ((sink.shiftFrom sink.keep fs).rename .path (.suffixed 1))
      (log.rotate (max sink.keep 1)) := by
  have hbounded := h.bounded
  have hpath : fs .path = some lines := h.current.trans hcurrent
  have hrotate : log.rotate (max sink.keep 1)
      = { archives := (lines :: log.archives).take (max sink.keep 1), current := none } := by
    unfold RotatedLog.rotate
    rw [hcurrent]
  rw [hrotate]
  refine ⟨rfl, ?_, ?_, List.length_take_le _ _⟩
  · cases hkeep : sink.keep with
    | zero => exact h.zeroth
    | succ k =>
      rw [← hkeep, shiftFrom_keep hkeep]
      exact h.zeroth
  · intro i
    cases hkeep : sink.keep with
    | zero =>
      -- nothing is shifted: the file replaces the archive
      cases i with
      | zero => exact hpath
      | succ j =>
        show fs (.suffixed (j + 1 + 1)) = _
        rw [h.archives, List.getElem?_eq_none (by omega), List.getElem?_eq_none (by simp)]
    | succ k =>
      rw [← hkeep, shiftFrom_keep hkeep, hkeep]
      cases i with
      | zero =>
        show fs .path = _
        simpa using hpath
      | succ j =>
        show (if j + 1 = 0 then none else if j + 1 ≤ k then
            (fs.unlink (.suffixed (k + 1))) (.suffixed (j + 1))
          else (fs.unlink (.suffixed (k + 1))) (.suffixed (j + 1 + 1))) = _
        rw [if_neg (by omega)]
        split
        · rename_i hj
          have hother : FileName.suffixed (j + 1) ≠ .suffixed (k + 1) := by simp; omega
          rw [Files.unlink, Function.update_of_ne hother, h.archives,
            List.getElem?_take_of_lt (by omega), List.getElem?_cons_succ]
        · rename_i hj
          rw [List.getElem?_take_eq_none (by omega), Files.unlink, Function.update_apply, h.archives,
            List.getElem?_eq_none (by omega)]
          simp

theorem rotateIfNeeded_of_not_due (h : sink.Represents fs log) (hdue : sink.due log = false) :
    sink.rotateIfNeeded fs = fs := by
  unfold due at hdue
  unfold rotateIfNeeded
  rw [h.current]
  cases hcurrent : log.current with
  | none => rfl
  | some lines =>
    rw [hcurrent] at hdue
    exact if_pos (by simpa using hdue)

theorem due_iff : sink.due log = true ↔
    ∃ lines, log.current = some lines ∧ sink.rotateSize ≤ Files.sizeOf lines := by
  unfold due
  cases log.current <;> simp

theorem rotateIfNeeded_of_due (h : sink.Represents fs log) (hdue : sink.due log = true) :
    sink.rotateIfNeeded fs = (sink.shiftFrom sink.keep fs).rename .path (.suffixed 1) := by
  obtain ⟨lines, hcurrent, hsize⟩ := due_iff.mp hdue
  unfold rotateIfNeeded
  rw [h.current, hcurrent]
  exact if_neg (by omega)

theorem represents_rotateIfNeeded (h : sink.Represents fs log) :
    sink.Represents (sink.rotateIfNeeded fs)
      (if sink.due log then log.rotate (max sink.keep 1) else log) := by
  split
  · rename_i hdue
    rw [rotateIfNeeded_of_due h hdue]
    obtain ⟨lines, hcurrent, -⟩ := due_iff.mp hdue
    exact represents_rotate h hcurrent
  · rename_i hdue
    rwa [rotateIfNeeded_of_not_due h (by simpa using hdue)]

/-- **The sink is a rotated log**: what one attempt does to the directory, it does to the log. -/
theorem represents_attempt (h : sink.Represents fs log) (event : Event) :
    sink.Represents (sink.attempt fs event) (sink.logAttempt log event) := by
  have hopened := represents_begin (represents_rotateIfNeeded h)
  unfold attempt deliver logAttempt line?
  cases sink.dumps event with
  | error e => exact hopened
  | ok text => exact represents_append hopened (text ++ "\n")

/-- The log after these attempts. -/
def logAfter (sink : FileSink Event) (events : List Event) : RotatedLog String :=
  Runs.exec sink.logAttempt {} events

theorem represents_after (events : List Event) :
    sink.Represents (sink.after events) (sink.logAfter events) := by
  unfold after logAfter
  induction events using List.reverseRecOn with
  | nil => exact represents_empty
  | append_singleton events event ih =>
    rw [Runs.exec_append_singleton, Runs.exec_append_singleton]
    exact represents_attempt ih event

/-! ## What is retained -/

theorem retained_eq (h : sink.Represents fs log) : sink.retained fs = log.retained := by
  have hparts : (List.range (max sink.keep 1)).map (fun i => (fs (.suffixed (i + 1))).getD [])
      = log.archives ++ List.replicate (max sink.keep 1 - log.archives.length) [] := by
    have hbounded := h.bounded
    apply List.ext_getElem
    · simp only [List.length_map, List.length_range, List.length_append, List.length_replicate]
      omega
    · intro i hi hi'
      rw [List.getElem_map, List.getElem_range, h.archives]
      by_cases hlt : i < log.archives.length
      · rw [List.getElem_append_left hlt, List.getElem?_eq_getElem hlt, Option.getD_some]
      · rw [List.getElem_append_right (by omega), List.getElem?_eq_none (by omega),
          List.getElem_replicate, Option.getD_none]
  unfold retained archiveNumbers RotatedLog.retained
  rw [h.current, List.flatMap_def, List.map_reverse, List.map_map]
  congr 1
  show ((List.range (max sink.keep 1)).map fun i => (fs (.suffixed (i + 1))).getD []).reverse.flatten = _
  rw [hparts, List.reverse_append, List.flatten_append, List.reverse_replicate,
    List.flatten_replicate_nil, List.nil_append]

theorem deliveredLines_append (events : List Event) (event : Event) :
    sink.deliveredLines (events ++ [event])
      = sink.deliveredLines events ++ (sink.line? event).toList := by
  unfold deliveredLines
  rw [List.filterMap_append]
  cases hline : sink.line? event <;> simp [hline]

/-- One more attempt, on the log as it is after the rotation if one is due. -/
theorem retained_logAttempt_eq (event : Event) : (sink.logAttempt log event).retained =
    (if sink.due log then log.rotate (max sink.keep 1) else log).retained ++ (sink.line? event).toList := by
  unfold logAttempt
  cases sink.line? event with
  | none => simp [RotatedLog.retained_begin]
  | some line => simp [RotatedLog.retained_append, RotatedLog.retained_begin]

theorem retained_logAttempt {lines : List String} (h : log.retained <:+ lines) (event : Event) :
    (sink.logAttempt log event).retained <:+ lines ++ (sink.line? event).toList := by
  have hrotated : (if sink.due log then log.rotate (max sink.keep 1) else log).retained <:+ lines := by
    split
    · exact RotatedLog.retained_rotate.trans h
    · exact h
  obtain ⟨front, hfront⟩ := hrotated
  rw [retained_logAttempt_eq]
  exact ⟨front, by rw [← List.append_assoc, hfront]⟩

theorem retained_logAfter (events : List Event) :
    (sink.logAfter events).retained <:+ sink.deliveredLines events := by
  unfold logAfter
  induction events using List.reverseRecOn with
  | nil => exact List.suffix_rfl
  | append_singleton events event ih =>
    rw [Runs.exec_append_singleton, deliveredLines_append]
    exact retained_logAttempt ih event

/-- From `fs` to `fs'` the file becomes the newest archive and every archive the next one, except that
the oldest one may go. -/
structure IsRotation (fs fs' : Files) : Prop where
  path : fs' .path = none
  newest : fs' (.suffixed 1) = fs .path
  shifted : ∀ i, (fs (.suffixed i)).isSome →
    fs' (.suffixed (i + 1)) = fs (.suffixed i) ∨ ∀ j, (fs (.suffixed j)).isSome → j ≤ i

theorem Represents.le_length (h : sink.Represents fs log) {i : ℕ} (hi : (fs (.suffixed i)).isSome) :
    0 < i ∧ i ≤ log.archives.length := by
  cases i with
  | zero => simp [h.zeroth] at hi
  | succ i =>
    rw [h.archives] at hi
    have hlt : i < log.archives.length := by simpa using hi
    exact ⟨by omega, hlt⟩

theorem isRotation_of_due (h : sink.Represents fs log) (hdue : sink.due log = true) :
    IsRotation fs (sink.rotateIfNeeded fs) := by
  obtain ⟨lines, hcurrent, -⟩ := due_iff.mp hdue
  have hafter := represents_rotate h hcurrent
  rw [← rotateIfNeeded_of_due h hdue] at hafter
  refine ⟨?_, ?_, fun i hi => ?_⟩
  · rw [hafter.current, RotatedLog.rotate, hcurrent]
  · rw [hafter.archives, h.current, RotatedLog.rotate, hcurrent]
    simp
  · obtain ⟨hpos, hlength⟩ := h.le_length hi
    obtain ⟨i, rfl⟩ : ∃ j, i = j + 1 := ⟨i - 1, by omega⟩
    by_cases hkept : i + 1 < max sink.keep 1
    · left
      rw [hafter.archives, RotatedLog.rotate_keeps hcurrent hkept, h.archives]
    · right
      intro j hj
      have hj' := (h.le_length hj).2
      have hbounded := h.bounded
      omega

/-- A rotation drops the archive with the last number, if there is one, and nothing else. -/
theorem retained_rotateIfNeeded (h : sink.Represents fs log) (hdue : sink.due log = true) :
    sink.retained fs = sink.outgoing fs ++ sink.retained (sink.rotateIfNeeded fs) := by
  obtain ⟨lines, hcurrent, -⟩ := due_iff.mp hdue
  have hafter := represents_rotateIfNeeded h
  rw [if_pos hdue] at hafter
  have hlast : sink.outgoing fs = (log.archives[max sink.keep 1 - 1]?).getD [] := by
    rw [outgoing, ← h.archives]
    congr
    omega
  rw [retained_eq h, retained_eq hafter, hlast]
  exact RotatedLog.retained_eq_append_rotate (by omega) h.bounded hcurrent

/-- A line that is delivered comes behind what there is. -/
theorem retained_attempt (h : sink.Represents fs log) (event : Event) : sink.retained (sink.attempt fs event) =
    sink.retained (sink.rotateIfNeeded fs) ++ (sink.line? event).toList := by
  rw [retained_eq (represents_attempt h event), retained_logAttempt_eq,
    retained_eq (represents_rotateIfNeeded h)]

/-- **A rotation loses nothing but the oldest archive**: after any attempts from an empty directory, the
archives and the file together hold a suffix of the delivered lines; if the file is rotated next, one archive
goes at most, and it is the oldest; and the line that is delivered next comes behind what is left then. -/
theorem rotation_retains_suffix (sink : FileSink Event) (events : List Event) :
    sink.retained (sink.after events) <:+ sink.deliveredLines events ∧
      (sink.rotateIfNeeded (sink.after events) = sink.after events ∨
        IsRotation (sink.after events) (sink.rotateIfNeeded (sink.after events)) ∧
          sink.retained (sink.after events) =
            sink.outgoing (sink.after events) ++ sink.retained (sink.rotateIfNeeded (sink.after events))) ∧
      ∀ event, sink.retained (sink.after (events ++ [event])) =
        sink.retained (sink.rotateIfNeeded (sink.after events)) ++ (sink.line? event).toList := by
  have hafter := @represents_after _ sink events
  refine ⟨?_, ?_, fun event => ?_⟩
  · rw [retained_eq hafter]
    exact retained_logAfter events
  · cases hdue : sink.due (sink.logAfter events) with
    | false => exact .inl (rotateIfNeeded_of_not_due hafter hdue)
    | true => exact .inr ⟨isRotation_of_due hafter hdue, retained_rotateIfNeeded hafter hdue⟩
  · rw [after, Runs.exec_append_singleton]
    exact retained_attempt hafter event

/-! ## How many archives there are -/

/-- The number of files with one of the suffixes `.1`, `.2`, … -/
noncomputable def archiveCount (fs : Files) : ℕ∞ := {i | 0 < i ∧ (fs (.suffixed i)).isSome}.encard

/-- No rotation has been due by the last of these attempts: it is the first one, or the lines before it
have not reached the size. -/
def NeverDue (sink : FileSink Event) (events : List Event) : Prop :=
  events.length ≤ 1 ∨ (Files.sizeOf (sink.deliveredLines events.dropLast) : ℤ) < sink.rotateSize

theorem archiveCount_eq (h : sink.Represents fs log) : archiveCount fs = log.archives.length := by
  have hnumbers : {i | 0 < i ∧ (fs (.suffixed i)).isSome} = ↑(Finset.Icc 1 log.archives.length) := by
    ext i
    simp only [Set.mem_ofPred_eq, Finset.coe_Icc, Set.mem_Icc]
    constructor
    · rintro ⟨-, hi⟩
      exact h.le_length hi
    · rintro ⟨hpos, hlength⟩
      obtain ⟨i, rfl⟩ : ∃ j, i = j + 1 := ⟨i - 1, by omega⟩
      rw [h.archives]
      simpa using hlength
  rw [archiveCount, hnumbers, Set.encard_coe_eq_coe_finsetCard, Nat.card_Icc, Nat.add_sub_cancel]

theorem neverDue_append {events : List Event} {event : Event} :
    sink.NeverDue (events ++ [event]) ↔
      events = [] ∨ (Files.sizeOf (sink.deliveredLines events) : ℤ) < sink.rotateSize := by
  unfold NeverDue
  rw [List.dropLast_concat]
  simp

/-- The lines only grow. -/
theorem NeverDue.of_append {events : List Event} {event : Event}
    (h : sink.NeverDue (events ++ [event])) : sink.NeverDue events := by
  rcases neverDue_append.mp h with rfl | hsize
  · exact .inl (by simp)
  · rcases List.eq_nil_or_concat events with rfl | ⟨front, last, rfl⟩
    · exact .inl (by simp)
    · right
      rw [List.concat_eq_append, deliveredLines_append, Files.sizeOf_append] at hsize
      rw [List.concat_eq_append, List.dropLast_concat]
      omega

/-- What the log is as long as no rotation has been due. -/
def unrotated (sink : FileSink Event) (events : List Event) : RotatedLog String where
  current := if events.isEmpty then none else some (sink.deliveredLines events)

theorem due_unrotated {events : List Event} : sink.due (sink.unrotated events) = true ↔
    events ≠ [] ∧ sink.rotateSize ≤ Files.sizeOf (sink.deliveredLines events) := by
  cases events <;> simp [due, unrotated]

theorem logAttempt_unrotated {events : List Event} {event : Event}
    (hdue : sink.due (sink.unrotated events) = false) :
    sink.logAttempt (sink.unrotated events) event = sink.unrotated (events ++ [event]) := by
  have hlines : (sink.unrotated events).current.getD [] = sink.deliveredLines events := by
    cases events <;> simp [unrotated, deliveredLines]
  have hbegun : (sink.unrotated events).begin
      = { archives := [], current := some (sink.deliveredLines events) } := by
    unfold RotatedLog.begin
    rw [hlines]
    rfl
  have hunrotated : sink.unrotated (events ++ [event])
      = { current := some (sink.deliveredLines events ++ (sink.line? event).toList) } := by
    simp [unrotated, deliveredLines_append]
  unfold logAttempt
  rw [hdue, hunrotated]
  cases sink.line? event with
  | none => simp [hbegun]
  | some line => simp [hbegun, RotatedLog.append]

theorem logAfter_of_neverDue {events : List Event} (h : sink.NeverDue events) :
    sink.logAfter events = sink.unrotated events := by
  induction events using List.reverseRecOn with
  | nil => rfl
  | append_singleton events event ih =>
    have hdue : sink.due (sink.unrotated events) = false := by
      rw [Bool.eq_false_iff, ne_eq, due_unrotated]
      rcases neverDue_append.mp h with hnil | hsize
      · exact fun hdue => hdue.1 hnil
      · exact fun hdue => absurd hdue.2 (by omega)
    have hbefore : Runs.exec sink.logAttempt {} events = sink.unrotated events := ih h.of_append
    rw [logAfter, Runs.exec_append_singleton, hbefore, logAttempt_unrotated hdue]

theorem logAttempt_archives_ne_nil {event : Event}
    (h : log.archives ≠ [] ∨ sink.due log = true) : (sink.logAttempt log event).archives ≠ [] := by
  have hrotated : (if sink.due log then log.rotate (max sink.keep 1) else log).archives ≠ [] := by
    split
    · rename_i hdue
      obtain ⟨lines, hcurrent, -⟩ := due_iff.mp hdue
      exact RotatedLog.rotate_archives_ne_nil (by omega) hcurrent
    · rename_i hdue
      exact h.resolve_right hdue
  unfold logAttempt
  cases sink.line? event <;> exact hrotated

/-- Once a rotation has been due there are archives. -/
theorem logAfter_archives_ne_nil {events : List Event} (h : ¬ sink.NeverDue events) :
    (sink.logAfter events).archives ≠ [] := by
  induction events using List.reverseRecOn with
  | nil => exact absurd (.inl (by simp)) h
  | append_singleton events event ih =>
    rw [logAfter, Runs.exec_append_singleton]
    apply logAttempt_archives_ne_nil
    by_cases hbefore : sink.NeverDue events
    · right
      have hlog : Runs.exec sink.logAttempt {} events = sink.unrotated events :=
        logAfter_of_neverDue hbefore
      rw [hlog, due_unrotated]
      rw [neverDue_append, not_or] at h
      exact ⟨h.1, by omega⟩
    · exact .inl (ih hbefore)

theorem archives_logAfter_eq_nil_iff {events : List Event} :
    (sink.logAfter events).archives = [] ↔ sink.NeverDue events := by
  constructor
  · exact fun harchives => of_not_not fun h => logAfter_archives_ne_nil h harchives
  · intro h
    rw [logAfter_of_neverDue h]
    rfl

/-- **`keep` bounds the number of archives**, unless it is 0: then the first rotation makes one. -/
theorem archives_bounded_iff (sink : FileSink Event) (events : List Event) :
    archiveCount (sink.after events) ≤ sink.keep ↔ 0 < sink.keep ∨ sink.NeverDue events := by
  have hafter := @represents_after _ sink events
  have hbounded := hafter.bounded
  rw [archiveCount_eq hafter, Nat.cast_le]
  rcases Nat.eq_zero_or_pos sink.keep with hkeep | hkeep
  · rw [hkeep, Nat.le_zero, List.length_eq_zero_iff, archives_logAfter_eq_nil_iff]
    simp
  · exact iff_of_true (by omega) (.inl hkeep)

/-- Two empty events, with a size that one of them reaches. -/
theorem archives_exceed_keep :
    ¬ archiveCount (({ rotateSize := 1, keep := 0, dumps := fun _ => .ok "{}" } : FileSink Unit).after
      [(), ()]) ≤ (0 : ℕ) := by
  intro h
  have hnone := Set.encard_eq_zero.mp (nonpos_iff_eq_zero.mp h)
  exact Set.notMem_empty 1 (hnone ▸ ⟨Nat.one_pos, by decide +kernel⟩)

end FileSink

end WazuhMcp
