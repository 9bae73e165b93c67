import FallingSand.Proofs.Script.Comments
import FallingSand.Proofs.Script.Recompiling
import FallingSand.Proofs.Text.Splitting
import FallingSand.Proofs.Text.Trimming

/-!
# Plain lines

A script that is written as a list of plain lines, without comments, is read as these
lines.
-/

namespace FallingSand

namespace Text

/-- A line ends at its line feed. -/
theorem linesFrom_append {text : List Char} (noBreak : '\n' ∉ text)
    (last : ∀ c ∈ text.getLast?, c ≠ '\r') (rest : List Char) :
    linesFrom [] (text ++ '\n' :: rest) = text :: linesFrom [] rest := by
  have run (line : List Char) : linesFrom line (text ++ '\n' :: rest) =
      linesFrom (text.reverse ++ line) ('\n' :: rest) := by
    induction text generalizing line with
    | nil => rfl
    | cons c more ih =>
      rw [List.mem_cons, not_or] at noBreak
      have step : linesFrom line (c :: (more ++ '\n' :: rest)) =
          linesFrom (c :: line) (more ++ '\n' :: rest) := if_neg (Ne.symm noBreak.1)
      rw [List.cons_append, step, ih noBreak.2 (fun d found => ?_), List.reverse_cons,
        List.append_assoc, List.singleton_append]
      refine last d ?_
      rw [List.getLast?_cons, Option.mem_def.mp found]
      rfl
  rw [run, List.append_nil, linesFrom, if_pos rfl, List.reverse_reverse]
  -- the line feed has no carriage return before it
  intro line reversed
  have ends : text.getLast? = some '\r' := by
    rw [← List.head?_reverse, reversed]
    rfl
  exact last _ ends rfl

end Text

namespace Script

open Text

/-- A line without comments, and without blanks around it. -/
structure Plain (text : List Char) : Prop where
  head : ∃ c, text.head? = some c ∧ isBlank c = false
  last : ∀ c ∈ text.getLast?, isBlank c = false
  noBreak : '\n' ∉ text
  noComment : '/' ∉ text

namespace Plain

variable {text : List Char} (plain : Plain text)

include plain

theorem trim_eq : trim text = text := by
  obtain ⟨first, head, visible⟩ := plain.head
  refine trim_eq_self (fun c found => ?_) plain.last
  rw [head] at found
  cases found
  exact visible

theorem isEmpty_eq : text.isEmpty = false := by
  obtain ⟨first, head, -⟩ := plain.head
  cases text with
  | nil => cases head
  | cons => rfl

theorem uncomment_eq (number : Nat) : uncomment number none text = (text, none) := by
  have line : splitAtFirst? ['/', '/'] text = none := splitAtFirst?_eq_none plain.noComment
  have block : splitAtFirst? ['/', '*'] text = none := splitAtFirst?_eq_none plain.noComment
  rw [uncomment_code, line, block]

end Plain

variable {texts : List (List Char)}

theorem textLines_scriptOf (plain : ∀ text ∈ texts, Plain text) :
    Text.lines (scriptOf texts) = texts := by
  induction texts with
  | nil => rfl
  | cons text rest ih =>
    have first := plain text List.mem_cons_self
    have later := ih fun other member => plain other (List.mem_cons_of_mem _ member)
    have last : ∀ c ∈ text.getLast?, c ≠ '\r' := by
      rintro _ found rfl
      cases first.last _ found
    rw [scriptOf, List.flatMap_cons, List.append_assoc, List.singleton_append]
    exact (linesFrom_append first.noBreak last _).trans (congrArg _ later)

theorem keptLines_plain (number : Nat) (plain : ∀ text ∈ texts, Plain text) :
    (keptLines number none texts).2 = none ∧
      (keptLines number none texts).1.map (·.text) = texts := by
  induction texts generalizing number with
  | nil => exact ⟨rfl, rfl⟩
  | cons text rest ih =>
    have first := plain text List.mem_cons_self
    obtain ⟨closed, later⟩ := ih (number + 1)
      fun other member => plain other (List.mem_cons_of_mem _ member)
    unfold keptLines
    rw [first.uncomment_eq]
    dsimp only
    rw [first.trim_eq, first.isEmpty_eq, if_neg Bool.false_ne_true, List.map_cons, later]
    exact ⟨closed, rfl⟩

/-- A script that is written in plain lines is read as these. -/
theorem reads_scriptOf (plain : ∀ text ∈ texts, Plain text) : Reads (scriptOf texts) texts := by
  obtain ⟨closed, same⟩ := keptLines_plain 1 plain
  unfold Reads lines
  rw [textLines_scriptOf plain]
  generalize keptLines 1 none texts = result at closed same
  obtain ⟨kept, opened⟩ := result
  cases closed
  exact congrArg some same

end Script

end FallingSand
