import FallingSand.Proofs.Text.Scanning
import FallingSand.Script.Statement

/-!
# Words at the start of a line

Most forms start with a word and layout. The line is then that word, the layout and what the
rest of the form reads, and the word is the one by which the form was chosen.
-/

namespace FallingSand.Script

open Text (Scanner)
open Text.Scanner

variable {α : Type} {parts : α} {line after : List Char} {word : String}

/-- A word that layout separates from what follows. -/
theorem leading_eq_some : leading word line = some ((), after) ↔
    ∃ gap, IsRun isLayout gap ∧ Ends isLayout after ∧ line = word.toList ++ (gap ++ after) := by
  rw [leading, bind_apply, Option.bind_eq_some_iff]
  constructor
  · rintro ⟨⟨⟨⟩, left⟩, read, separated⟩
    obtain ⟨gap, valid, stop, rfl⟩ := layout1_eq_some.mp separated
    exact ⟨gap, valid, stop, literal_eq_some.mp read⟩
  · rintro ⟨gap, valid, stop, rfl⟩
    exact ⟨((), gap ++ after), literal_eq_some.mpr rfl, layout1_eq_some.mpr ⟨gap, valid, stop, rfl⟩⟩

theorem not_isKeywordChar_of_isLayout {c : Char} (h : isLayout c = true) :
    isKeywordChar c = false := by
  unfold isLayout at h
  simp only [Bool.or_eq_true, beq_iff_eq] at h
  rcases h with ((rfl | rfl) | rfl) | rfl <;> rfl

/-- The word that a line starts with ends where layout begins. -/
theorem keyword_append {first space : Char} (letters : word.toList.all isKeywordChar = true)
    (start : word.toList.head? = some first) (arrow : first ≠ '-')
    (layout : isLayout space = true) (rest : List Char) :
    keyword (word.toList ++ space :: rest) = word := by
  have noArrow : Text.dropLead? ['-', '>'] (word.toList ++ space :: rest) = none := by
    cases cs : word.toList with
    | nil => rw [cs] at start; cases start
    | cons c others =>
      rw [cs] at start
      cases start
      exact if_neg (Ne.symm arrow)
  have taken : (word.toList ++ space :: rest).takeWhile isKeywordChar = word.toList := by
    rw [List.takeWhile_append_of_pos (List.all_eq_true.mp letters),
      List.takeWhile_cons_of_neg (by rw [not_isKeywordChar_of_isLayout layout]; decide),
      List.append_nil]
  unfold keyword
  rw [noArrow, taken]
  exact String.ofList_toList

/-- A line whose form starts with a word has that word as its first. -/
theorem keyword_of_leading {first : Char} {rest : Unit → Scanner α}
    (letters : word.toList.all isKeywordChar = true)
    (start : word.toList.head? = some first) (arrow : first ≠ '-')
    {description : String} (h : Form.read ⟨description, leading word >>= rest⟩ line = .ok parts) :
    keyword line = word := by
  unfold Form.read at h
  split at h
  · cases h
  rename_i result read
  change (leading word line).bind (fun r => rest r.1 r.2) = _ at read
  obtain ⟨⟨⟨⟩, after⟩, read, -⟩ := Option.bind_eq_some_iff.mp read
  obtain ⟨gap, valid, -, rfl⟩ := leading_eq_some.mp read
  obtain ⟨space, others, rfl⟩ := List.exists_cons_of_ne_nil valid.nonempty
  exact keyword_append letters start arrow (valid.chars space List.mem_cons_self) _

end FallingSand.Script
