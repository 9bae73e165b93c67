import FallingSand.Text.Split

/-!
# Cutting at a mark

A text is cut where a mark stands first. For a mark of one character this is the one way to
write the text as a part without the character, the character and a rest
(`splitAtFirst?_eq_some_iff`).
-/

namespace FallingSand.Text

/-- A mark is not found where its first character does not occur. -/
theorem splitAtFirst?_eq_none {first : Char} {mark text : List Char} (h : first ∉ text) :
    splitAtFirst? (first :: mark) text = none := by
  induction text with
  | nil => rfl
  | cons c rest ih =>
    rw [List.mem_cons, not_or] at h
    rw [splitAtFirst?, dropLead?, if_neg h.1, ih h.2]
    rfl

theorem splitAtFirst?_cons_of_ne {mark c : Char} (different : mark ≠ c) (rest : List Char) :
    splitAtFirst? [mark] (c :: rest) =
      (splitAtFirst? [mark] rest).map fun parts => (c :: parts.1, parts.2) :=
  splitAtFirst?_cons (if_neg different)

/-- A text is cut behind a run without the character. -/
theorem splitAtFirst?_append {mark : Char} {run : List Char} (without : mark ∉ run)
    (text : List Char) : splitAtFirst? [mark] (run ++ text) =
      (splitAtFirst? [mark] text).map fun parts => (run ++ parts.1, parts.2) := by
  induction run with
  | nil =>
    rw [List.nil_append]
    cases splitAtFirst? [mark] text <;> rfl
  | cons c run ih =>
    rw [List.mem_cons, not_or] at without
    rw [List.cons_append, splitAtFirst?_cons_of_ne without.1, ih without.2, Option.map_map]
    rfl

/-- Cutting at a character finds the front part that does not have it. -/
theorem splitAtFirst?_eq_some_iff {mark : Char} {text before after : List Char} :
    splitAtFirst? [mark] text = some (before, after) ↔
      mark ∉ before ∧ text = before ++ mark :: after := by
  have cut {front : List Char} (without : mark ∉ front) (rest : List Char) :
      splitAtFirst? [mark] (front ++ mark :: rest) = some (front, rest) := by
    have here : dropLead? [mark] (mark :: rest) = some rest := if_pos rfl
    rw [splitAtFirst?_append without, splitAtFirst?_here here, Option.map_some, List.append_nil]
  constructor
  · intro found
    by_cases occurs : mark ∈ text
    · obtain ⟨front, rest, rfl, without⟩ := List.eq_append_cons_of_mem occurs
      rw [cut without] at found
      cases found
      exact ⟨without, rfl⟩
    · rw [splitAtFirst?_eq_none occurs] at found
      cases found
  · rintro ⟨without, rfl⟩
    exact cut without after

end FallingSand.Text
