/-!
# Cutting texts

`dropLead?` takes a given front part off a text, `splitAtFirst?` cuts a text at
the first occurrence of a mark, `parts` cuts it at every occurrence of a
character, and `lines` cuts it at line ends. A line end is a line feed with at
most one carriage return before it, and the last line need not have one.
-/

namespace FallingSand.Text

/-- Whether `text` starts with `lead`, and if so what follows it. -/
def dropLead? : List Char → List Char → Option (List Char)
  | [], text => some text
  | _ :: _, [] => none
  | l :: lead, c :: text => if l = c then dropLead? lead text else none

/-- The text before the first occurrence of `mark` and the text after it. -/
def splitAtFirst? (mark : List Char) : List Char → Option (List Char × List Char)
  | [] => if mark.isEmpty then some ([], []) else none
  | c :: rest =>
    match dropLead? mark (c :: rest) with
    | some after => some ([], after)
    | none => (splitAtFirst? mark rest).map fun (before, after) => (c :: before, after)

theorem splitAtFirst?_here {mark text after : List Char} {c : Char}
    (found : dropLead? mark (c :: text) = some after) :
    splitAtFirst? mark (c :: text) = some ([], after) := by
  rw [splitAtFirst?, found]

/-- A mark that does not stand right here is searched for behind the character. -/
theorem splitAtFirst?_cons {mark text : List Char} {c : Char}
    (apart : dropLead? mark (c :: text) = none) : splitAtFirst? mark (c :: text) =
      (splitAtFirst? mark text).map fun (before, after) => (c :: before, after) := by
  rw [splitAtFirst?, apart]

/-- A front part that is taken off a text makes up its length with the rest. -/
theorem length_dropLead? {lead text after : List Char} (h : dropLead? lead text = some after) :
    lead.length + after.length = text.length := by
  induction lead generalizing text with
  | nil => simp_all [dropLead?]
  | cons l lead ih =>
    cases text with
    | nil => simp [dropLead?] at h
    | cons c text =>
      rw [dropLead?] at h
      split at h
      · have := ih h
        simp only [List.length_cons]
        omega
      · simp at h

/-- The two sides of a cut and the mark make up the text. -/
theorem length_splitAtFirst? {mark text before after : List Char}
    (h : splitAtFirst? mark text = some (before, after)) :
    before.length + mark.length + after.length = text.length := by
  induction text generalizing before with
  | nil =>
    rw [splitAtFirst?] at h
    split at h
    · simp_all
    · simp at h
  | cons c rest ih =>
    rw [splitAtFirst?] at h
    split at h
    · rename_i tail hlead
      have := length_dropLead? hlead
      simp_all
    · obtain ⟨⟨b, a⟩, hsplit, heq⟩ := Option.map_eq_some_iff.1 h
      obtain ⟨rfl, rfl⟩ := Prod.mk.inj heq
      have := ih hsplit
      simp only [List.length_cons]
      omega

/-- The parts of a text between the occurrences of a character. There is always one
part more than there are occurrences. -/
def parts (mark : Char) : List Char → List (List Char)
  | [] => [[]]
  | c :: rest =>
    if c = mark then [] :: parts mark rest
    else match parts mark rest with
      | [] => [[c]]
      | part :: more => (c :: part) :: more

/-- The lines of a text of which the line so far is known, reversed. -/
def linesFrom (line : List Char) : List Char → List (List Char)
  | [] => if line.isEmpty then [] else [line.reverse]
  | c :: rest =>
    if c = '\n' then
      (match line with
        | '\r' :: line => line.reverse
        | _ => line.reverse) :: linesFrom [] rest
    else linesFrom (c :: line) rest

/-- The lines of a text, without their ends. -/
def lines (text : List Char) : List (List Char) := linesFrom [] text

end FallingSand.Text
