import FallingSand.Proofs.Script.Lines

/-!
# What is seen along a script

A builder says what is known between two lines, and not how that came about. `gather`
collects what there is to be seen between the builders before and after each line, in the
order of the lines, so that statements about everything a script has done can be made of
lists. What has been collected at some place belongs to a line of the script, with all that
was collected before it.
-/

namespace FallingSand.Script.Builder

variable {α : Type} (seen : Builder → Builder → Option α)

/-- What is seen of the accepted lines from a builder on, the first of which has the given
index. -/
def gather (b : Builder) (index : Nat) : List (List Char) → List α
  | [] => []
  | text :: rest =>
    match b.line index text with
    | .ok b' => (seen b b').toList ++ b'.gather (index + 1) rest
    | .error _ => []

variable {seen} {b b' : Builder} {index : Nat} {line : List Char}
  {before after texts : List (List Char)}

theorem gather_cons (accepted : b.line index line = .ok b') : b.gather seen index (line :: after) =
    (seen b b').toList ++ b'.gather seen (index + 1) after := by
  simp only [gather, accepted]

theorem gather_append (h : b.lines index before = .ok b') :
    b.gather seen index (before ++ after) =
      b.gather seen index before ++ b'.gather seen (index + before.length) after := by
  induction before generalizing b index with
  | nil =>
    cases h
    rfl
  | cons text rest ih =>
    unfold lines at h
    split at h
    · rename_i next accepted
      rw [List.cons_append, gather_cons accepted, gather_cons accepted, ih h,
        List.append_assoc, List.length_cons, Nat.add_right_comm, Nat.add_assoc]
    · cases h

/-- One more line. -/
theorem gather_concat (run : lines {} 0 before = .ok b)
    (accepted : b.line (0 + before.length) line = .ok b') :
    gather seen {} 0 (before ++ [line]) = gather seen {} 0 before ++ (seen b b').toList := by
  rw [gather_append run, gather_cons accepted, gather, List.append_nil]

/-- What is seen somewhere is seen of a line, and what comes before it was seen of the lines
before. -/
theorem exists_line_of_gather {earlier later : List α} {x : α}
    (h : b.gather seen index texts = earlier ++ x :: later) :
    ∃ before text after b₁ b₂, texts = before ++ text :: after ∧
      b.lines index before = .ok b₁ ∧ b₁.line (index + before.length) text = .ok b₂ ∧
      seen b₁ b₂ = some x ∧ b.gather seen index before = earlier := by
  induction texts generalizing b index earlier with
  | nil => simp [gather] at h
  | cons text rest ih =>
    simp only [gather] at h
    split at h
    · rename_i next accepted
      -- either it is seen of the first line or of a later one
      have ofRest (earlier' : List α)
          (h : next.gather seen (index + 1) rest = earlier' ++ x :: later)
          (same : (seen b next).toList ++ earlier' = earlier) :
          ∃ before text' after b₁ b₂, text :: rest = before ++ text' :: after ∧
            b.lines index before = .ok b₁ ∧ b₁.line (index + before.length) text' = .ok b₂ ∧
            seen b₁ b₂ = some x ∧ b.gather seen index before = earlier := by
        obtain ⟨before, text', after, b₁, b₂, rfl, run, accepted', found, same'⟩ := ih h
        refine ⟨text :: before, text', after, b₁, b₂, rfl, ?_, ?_, found, ?_⟩
        · rw [lines, accepted]
          exact run
        · rw [List.length_cons, Nat.add_comm before.length, ← Nat.add_assoc]
          exact accepted'
        · rw [gather_cons accepted, same', same]
      cases first : seen b next with
      | none =>
        rw [first] at h
        exact ofRest earlier h (by rw [first]; rfl)
      | some y =>
        rw [first] at h
        cases earlier with
        | nil =>
          cases h
          exact ⟨[], text, rest, b, next, rfl, rfl, accepted, first, rfl⟩
        | cons head earlier =>
          obtain ⟨rfl, following⟩ := List.cons.inj h
          exact ofRest earlier following (by rw [first]; rfl)
    · simp at h

end FallingSand.Script.Builder
