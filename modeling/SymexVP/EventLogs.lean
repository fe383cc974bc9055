import Mathlib.Data.List.Basic

/-!
# Properties of event logs

What has been shown since the last event of a kind, and what every event finds before
it. Both are kept by adding events one at a time, and both can be read off any place of
a finished log.
-/

namespace EventLog

variable {α : Type} {begins breaks : α → Prop} {first : α} {log : List α}

/-- The last event that begins is `first`, and nothing has broken what it began. -/
def Since (begins breaks : α → Prop) (first : α) (log : List α) : Prop :=
  ∃ before after, log = before ++ first :: after ∧ ∀ event ∈ after, ¬begins event ∧ ¬breaks event

theorem Since.start (begins breaks : α → Prop) (first : α) (log : List α) :
    Since begins breaks first (log ++ [first]) := ⟨log, [], rfl, nofun⟩

theorem Since.append (since : Since begins breaks first log) {events : List α}
    (calm : ∀ event ∈ events, ¬begins event ∧ ¬breaks event) :
    Since begins breaks first (log ++ events) := by
  obtain ⟨before, after, rfl, undisturbed⟩ := since
  refine ⟨before, after ++ events, List.append_assoc _ _ _, ?_⟩
  intro event member
  obtain earlier | later := List.mem_append.mp member
  · exact undisturbed event earlier
  · exact calm event later

/-- An event with no later one that begins is the last one. -/
theorem Since.split {before between : List α} {start : α}
    (since : Since begins breaks first (before ++ start :: between)) (starts : begins start)
    (last : ∀ event ∈ between, ¬begins event) (isFirst : begins first) :
    first = start ∧ ∀ event ∈ between, ¬breaks event := by
  obtain ⟨before', after, same, undisturbed⟩ := since
  obtain ⟨extra, rfl, rest⟩ | ⟨extra, rfl, rest⟩ := List.append_eq_append_iff.mp same
  · cases extra with
    | nil =>
        cases rest
        exact ⟨rfl, fun event member => (undisturbed event member).2⟩
    | cons other extra =>
        cases rest
        exact absurd isFirst (last first (List.mem_append_right _ List.mem_cons_self))
  · cases extra with
    | nil =>
        cases rest
        exact ⟨rfl, fun event member => (undisturbed event member).2⟩
    | cons other extra =>
        cases rest
        exact absurd starts (undisturbed start (List.mem_append_right _ List.mem_cons_self)).1

/-- Every event is proper after what was shown before it. -/
def Proper (proper : List α → α → Prop) (log : List α) : Prop :=
  ∀ before event after, log = before ++ event :: after → proper before event

variable {proper : List α → α → Prop}

theorem Proper.nil : Proper proper [] := by
  intro before event after same
  exact absurd same.symm (by simp)

theorem Proper.concat (holds : Proper proper log) {event : α} (next : proper log event) :
    Proper proper (log ++ [event]) := by
  intro before found after same
  obtain rfl | ⟨after, latest, rfl⟩ := List.eq_nil_or_concat after
  · obtain ⟨rfl, found_eq⟩ := List.append_inj' same rfl
    cases found_eq
    exact next
  · rw [List.concat_eq_append, ← List.cons_append, ← List.append_assoc] at same
    obtain ⟨rfl, -⟩ := List.append_inj' same rfl
    exact holds before found after rfl

end EventLog
