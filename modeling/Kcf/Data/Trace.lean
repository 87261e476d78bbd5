import Kcf.Data.Snoc

/-!
# Laws of traces

A trace lists events in the order in which they happened.  A law says which event may
follow which history; a trace is lawful if each of its events was allowed when it came.
-/

namespace Kcf.Data

open List

variable {Event : Type} {law : List Event → Event → Prop} {trace : List Event}

/-- Every event of the trace obeys the law. -/
def Lawful (law : List Event → Event → Prop) (trace : List Event) : Prop :=
  ∀ before event after, trace = before ++ event :: after → law before event

namespace Lawful

theorem nil : Lawful law [] := by
  intro before event after split
  exact absurd split.symm (append_ne_nil_of_right_ne_nil before (cons_ne_nil event after))

theorem snoc {event : Event} (lawful : Lawful law trace) (allowed : law trace event) :
    Lawful law (trace ++ [event]) := by
  intro before other after split
  -- the event in question is the last one, or an earlier one
  rcases after.eq_nil_or_concat with rfl | ⟨rest, last, rfl⟩
  · obtain ⟨rfl, same⟩ := append_inj' split rfl
    cases same
    exact allowed
  · rw [concat_eq_append, ← cons_append, ← append_assoc] at split
    exact lawful before other rest (append_inj' split rfl).1

theorem mem {event : Event} (lawful : Lawful law trace) (member : event ∈ trace) :
    ∃ before, law before event := by
  obtain ⟨before, after, rfl⟩ := append_of_mem member
  exact ⟨before, lawful before event after rfl⟩

end Lawful

/-- An event of the longer trace is its last one, or an event of the shorter trace. -/
theorem exists_split_snoc {holds : List Event → Event → List Event → Prop} {last : Event} :
    (∃ before event after, trace ++ [last] = before ++ event :: after ∧ holds before event after) ↔
      holds trace last [] ∨
        ∃ before event after, trace = before ++ event :: after ∧
          holds before event (after ++ [last]) := by
  constructor
  · rintro ⟨before, event, after, split, held⟩
    rcases after.eq_nil_or_concat with rfl | ⟨rest, other, rfl⟩
    · obtain ⟨rfl, same⟩ := append_inj' split rfl
      cases same
      exact .inl held
    · rw [concat_eq_append] at split held
      rw [← cons_append, ← append_assoc] at split
      obtain ⟨rfl, same⟩ := append_inj' split rfl
      cases same
      exact .inr ⟨before, event, rest, rfl, held⟩
  · rintro (held | ⟨before, event, after, rfl, held⟩)
    · exact ⟨trace, last, [], rfl, held⟩
    · exact ⟨before, event, after ++ [last], by simp, held⟩

theorem Lawful.of_append {later : List Event} (lawful : Lawful law (trace ++ later)) :
    Lawful law trace :=
  fun before event after split => lawful before event (after ++ later) (by simp [split])

theorem lawful_snoc {event : Event} :
    Lawful law (trace ++ [event]) ↔ Lawful law trace ∧ law trace event :=
  ⟨fun lawful => ⟨lawful.of_append, lawful trace event [] rfl⟩, fun both => both.1.snoc both.2⟩

/-- An event of the first kind has happened, and none of the second kind since. -/
def Since (starts ends : Event → Prop) (trace : List Event) : Prop :=
  ∃ earlier event later,
    trace = earlier ++ event :: later ∧ starts event ∧ ∀ other ∈ later, ¬ends other

variable {starts ends : Event → Prop}

theorem not_since_nil : ¬Since starts ends [] := by
  rintro ⟨earlier, event, later, split, -, -⟩
  exact absurd split.symm (append_ne_nil_of_right_ne_nil earlier (cons_ne_nil event later))

theorem since_snoc {event : Event} :
    Since starts ends (trace ++ [event]) ↔
      starts event ∨ Since starts ends trace ∧ ¬ends event := by
  rw [Since, exists_split_snoc]
  simp only [forall_mem_append, forall_mem_singleton, not_mem_nil, false_imp_iff,
    implies_true, and_true, ← and_assoc, exists_and_right, Since]

end Kcf.Data
