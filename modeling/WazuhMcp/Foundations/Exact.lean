import WazuhMcp.Foundations.Prog

/-!
# Outcomes that tell of the events

What a program makes of an operation that fails is one thing, and which failures it is prepared for
another. `Exact H G` relates them: the outcome of a run is good, as `G` says, exactly if all its events
are of the kind `H` that the program is prepared for. `Stops P x` says that an event of the kind `P`
ends the run with the exception `x`.

Both hold of every run of a program if they do of its parts (`all_exact_bind`, `all_stops_bind`).
-/

namespace Interact.Prog

variable {E : Type} {R : E → Type} {X α β : Type} {H P : Event E R → Prop}
  {G : Except X α → Prop} {G' : Except X β → Prop} {tr tr' : List (Event E R)} {out : Except X α}

/-- The outcome is good exactly if every event of the run is of the kind. -/
def Exact (H : Event E R → Prop) (G : Except X α → Prop) (tr : List (Event E R))
    (out : Except X α) : Prop := G out ↔ ∀ ev ∈ tr, H ev

theorem exact_nil (h : G out) : Exact H G [] out := iff_of_true h (by simp)

theorem exact_of_mem {ev : Event E R} (hmem : ev ∈ tr) (hev : ¬ H ev) (h : ¬ G out) :
    Exact H G tr out := iff_of_false h fun hall => hev (hall ev hmem)

/-- Events of the kind may come before. -/
theorem Exact.append (htr : ∀ ev ∈ tr, H ev) (h : Exact H G tr' out) : Exact H G (tr ++ tr') out := by
  refine h.trans ?_
  rw [List.forall_mem_append]
  exact (and_iff_right htr).symm

/-- **Sequencing**: what the first part returns must be good for the second part, which cannot make up
for what is not. -/
theorem all_exact_bind {p : Prog E R X α} {f : α → Prog E R X β} (hp : p.All (Exact H G))
    (hgood : ∀ a, G (.ok a) → (f a).All (Exact H G'))
    (hbad : ∀ a, ¬ G (.ok a) → (f a).All fun _ out => ¬ G' out)
    (herror : ∀ x, G (.error x) ↔ G' (.error x)) : (p >>= f).All (Exact H G') := by
  rw [all_bind]
  refine hp.mono fun tr out htr => ?_
  cases out with
  | error x => exact (herror x).symm.trans htr
  | ok a =>
    by_cases ha : G (.ok a)
    · exact (hgood a ha).mono fun tr' out' hout' => hout'.append (htr.mp ha)
    · refine (hbad a ha).mono fun tr' out' hout' => iff_of_false hout' fun hall => ha (htr.mpr ?_)
      exact fun ev hev => hall ev (List.mem_append_left _ hev)

/-- An operation: the program is prepared for some answers, and ends badly on all others. -/
theorem all_exact_op {e : E} {k : R e → Prog E R X α} (hgood : ∀ r, H ⟨e, r⟩ → (k r).All (Exact H G))
    (hbad : ∀ r, ¬ H ⟨e, r⟩ → (k r).All fun _ out => ¬ G out) : (op e k).All (Exact H G) := by
  intro r
  by_cases hr : H ⟨e, r⟩
  · refine (hgood r hr).mono fun tr out hout => ?_
    show Exact H G ([⟨e, r⟩] ++ tr) out
    apply hout.append
    simpa using hr
  · exact (hbad r hr).mono fun tr out hout => exact_of_mem List.mem_cons_self hr hout

/-- What the second part guarantees, whatever has come before it. -/
theorem all_bind_right {p : Prog E R X α} {f : α → Prog E R X β}
    {Q : List (Event E R) → Except X β → Prop} (hf : ∀ a, (f a).All Q) (herror : ∀ tr x, Q tr (.error x))
    (hbefore : ∀ tr tr' out, Q tr' out → Q (tr ++ tr') out) : (p >>= f).All Q := by
  rw [all_bind]
  refine all_of_forall p fun tr out => ?_
  cases out with
  | error x => exact herror tr x
  | ok a => exact (hf a).mono fun tr' out' => hbefore tr tr' out'

/-- A run with an event of the kind ends with the exception. -/
def Stops (P : Event E R → Prop) (x : X) (tr : List (Event E R)) (out : Except X α) : Prop :=
  (∃ ev ∈ tr, P ev) → out = .error x

variable {x : X}

theorem stops_nil : Stops P x [] out := fun h => by simp at h

theorem all_stops_bind {p : Prog E R X α} {f : α → Prog E R X β} (hp : p.All (Stops P x))
    (hf : ∀ a, (f a).All (Stops P x)) : (p >>= f).All (Stops P x) := by
  rw [all_bind]
  refine hp.mono fun tr out htr => ?_
  cases out with
  | error y =>
    intro h
    rw [Except.error.inj (htr h)]
  | ok a =>
    refine (hf a).mono ?_
    rintro tr' out' htr' ⟨ev, hev, hkind⟩
    rcases List.mem_append.mp hev with hev | hev
    · cases htr ⟨ev, hev, hkind⟩
    · exact htr' ⟨ev, hev, hkind⟩

theorem all_stops_op {e : E} {k : R e → Prog E R X α} (hstop : ∀ r, P ⟨e, r⟩ → k r = .raise x)
    (hk : ∀ r, (k r).All (Stops P x)) : (op e k).All (Stops P x) := by
  intro r
  by_cases hr : P ⟨e, r⟩
  · rw [hstop r hr]
    exact fun _ => rfl
  · refine (hk r).mono ?_
    rintro tr out hout ⟨ev, hev, hkind⟩
    rcases List.mem_cons.mp hev with rfl | hev
    · exact absurd hkind hr
    · exact hout ⟨ev, hev, hkind⟩

end Interact.Prog
