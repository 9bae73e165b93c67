import FallingSand.Text.Blank
import Mathlib.Data.List.TakeWhile

/-!
# Trimming

What is dropped at the ends of a text is blank, and a text without blanks at its ends stays
as it is.
-/

namespace FallingSand.Text

variable {text : List Char}

theorem exists_trimStart (text : List Char) :
    ∃ before, (∀ c ∈ before, isBlank c = true) ∧ text = before ++ trimStart text :=
  ⟨text.takeWhile isBlank, fun _ member => List.mem_takeWhile_imp member,
    List.takeWhile_append_dropWhile.symm⟩

theorem exists_trimEnd (text : List Char) :
    ∃ after, (∀ c ∈ after, isBlank c = true) ∧ text = trimEnd text ++ after := by
  refine ⟨(text.reverse.takeWhile isBlank).reverse, fun c member => ?_, ?_⟩
  · exact List.mem_takeWhile_imp (List.mem_reverse.mp member)
  · rw [trimEnd, ← List.reverse_append, List.takeWhile_append_dropWhile, List.reverse_reverse]

theorem trimStart_eq_self (head : ∀ c ∈ text.head?, isBlank c = false) : trimStart text = text := by
  cases text with
  | nil => rfl
  | cons c rest => exact List.dropWhile_cons_of_neg (by rw [head c rfl]; decide)

theorem trimEnd_eq_self (last : ∀ c ∈ text.getLast?, isBlank c = false) : trimEnd text = text := by
  have reversed : trimStart text.reverse = text.reverse :=
    trimStart_eq_self (by rwa [List.head?_reverse])
  rw [trimStart] at reversed
  rw [trimEnd, reversed, List.reverse_reverse]

/-- Nothing is trimmed behind characters that are not blank. -/
theorem trimEnd_append {run : List Char} (nonempty : run ≠ [])
    (visible : ∀ c ∈ run, isBlank c = false) : trimEnd (text ++ run) = text ++ run := by
  refine trimEnd_eq_self fun c last => visible c ?_
  have ends : (text ++ run).getLast? = run.getLast? := by
    rw [List.getLast?_append, List.getLast?_eq_some_getLast nonempty, Option.some_or]
  exact List.mem_of_getLast? (ends ▸ last)

/-- Blanks at the end make no difference. -/
theorem trimEnd_append_blank {after : List Char} (blank : ∀ c ∈ after, isBlank c = true) :
    trimEnd (text ++ after) = trimEnd text := by
  rw [trimEnd, List.reverse_append, List.dropWhile_append_of_pos fun c member =>
    blank c (List.mem_reverse.mp member), trimEnd]

/-- Blanks around a text make no difference. -/
theorem trim_append_blank {before after : List Char} (front : ∀ c ∈ before, isBlank c = true)
    (back : ∀ c ∈ after, isBlank c = true) : trim (before ++ (text ++ after)) = trim text := by
  rw [trim, trimStart, List.dropWhile_append_of_pos front, List.dropWhile_append]
  split
  · rename_i nothing
    rw [trim, trimStart, List.isEmpty_iff.mp nothing, List.dropWhile_eq_nil_iff.mpr back]
  · exact trimEnd_append_blank back

theorem trim_eq_self (head : ∀ c ∈ text.head?, isBlank c = false)
    (last : ∀ c ∈ text.getLast?, isBlank c = false) : trim text = text := by
  rw [trim, trimStart_eq_self head, trimEnd_eq_self last]

/-- The first character that is left after the blanks at the start is not blank. -/
theorem head?_trimStart {c : Char} (first : (trimStart text).head? = some c) :
    isBlank c = false := by
  have := List.head?_dropWhile_not isBlank text
  rw [trimStart] at first
  rw [first] at this
  simpa using this

/-- Blanks that are dropped at the end are not dropped at the start. -/
theorem head?_trim (text : List Char) : (trim text).head? = (trimStart text).head? := by
  obtain ⟨after, blank, same⟩ := exists_trimEnd (trimStart text)
  rw [trim]
  cases ends : trimEnd (trimStart text) with
  | cons c rest =>
    rw [ends] at same
    rw [same]
    rfl
  | nil =>
    rw [ends, List.nil_append] at same
    cases found : (trimStart text).head? with
    | none => rfl
    | some c =>
      have visible := head?_trimStart found
      rw [same] at found
      rw [blank c (List.mem_of_head? found)] at visible
      cases visible

/-- Only blanks are trimmed to nothing. -/
theorem trim_eq_nil_iff : trim text = [] ↔ ∀ c ∈ text, isBlank c = true := by
  rw [← List.head?_eq_none_iff, head?_trim, List.head?_eq_none_iff, trimStart,
    List.dropWhile_eq_nil_iff]

end FallingSand.Text
