import FallingSand.Text.Scanner
import Mathlib.Data.List.TakeWhile

/-!
# What scanners take

A run of characters is taken up to the first character of another kind, so a scanner that
is given a run and something that ends it gives the run and leaves the rest. A scanner for
which some character ends every run and opens nothing never looks beyond that character:
it takes the same from a text whether the text ends there or goes on (`StopsBefore`).
-/

namespace FallingSand.Text.Scanner

variable {α β : Type}

/-! ## Scanners as functions -/

theorem pure_apply (a : α) (text : List Char) : (pure a : Scanner α) text = some (a, text) := rfl

theorem bind_apply (s : Scanner α) (k : α → Scanner β) (text : List Char) :
    (s >>= k) text = (s text).bind fun r => k r.1 r.2 := rfl

theorem layout_apply (text : List Char) : layout text = some ((), text.dropWhile isLayout) := rfl

/-- What may be missing is taken if it is there. -/
theorem optional_apply (s : Scanner α) (text : List Char) :
    optional s text = some (match s text with
      | some (a, left) => (some a, left)
      | none => (none, text)) := by
  have parts : optional s text =
      ((s text).bind fun r => some (some r.1, r.2)).orElse fun _ => some (none, text) := rfl
  rw [parts]
  cases s text <;> rfl

theorem char_cons (c : Char) (rest : List Char) : char c (c :: rest) = some ((), rest) :=
  if_pos rfl

theorem char_eq_some {c : Char} {text left : List Char} (h : char c text = some ((), left)) :
    text = c :: left := by
  cases text with
  | nil => cases h
  | cons d rest =>
    by_cases same : d = c
    · rw [same, char_cons] at h
      cases h
      rw [same]
    · exact nomatch (if_neg same).symm.trans h

/-! ## Kinds of characters -/

section Blanks

variable {c : Char}

theorem isNameChar_of_isDigit (h : c.isDigit = true) : isNameChar c = true := by
  simp [isNameChar, Char.isAlphanum, h]

theorem isBlank_of_isLayout (h : isLayout c = true) : isBlank c = true := by
  simp only [isLayout, Bool.or_eq_true, beq_iff_eq] at h
  rcases h with ((rfl | rfl) | rfl) | rfl <;> rfl

theorem not_isBlank_of_isNameChar (h : isNameChar c = true) : isBlank c = false := by
  have visible : 32 < c.toNat ∧ c.toNat < 128 := by
    have value : c.toNat = c.val.toNat := rfl
    have kinds : isNameChar c = (decide ('A'.val ≤ c.val ∧ c.val ≤ 'Z'.val) ||
        (decide ('a'.val ≤ c.val) && decide (c.val ≤ 'z'.val)) ||
        (decide ('0'.val ≤ c.val) && decide (c.val ≤ '9'.val)) || c == '_') := rfl
    simp only [kinds, Bool.or_eq_true, Bool.and_eq_true, decide_eq_true_eq, beq_iff_eq,
      UInt32.le_iff_toNat_le] at h
    rcases h with ((h | h) | h) | rfl
    case inr => decide
    all_goals rw [value]; exact ⟨lt_of_lt_of_le (by decide) h.1, h.2.trans_lt (by decide)⟩
  cases blank : isBlank c with
  | false => rfl
  | true =>
    simp only [isBlank, blankRanges, List.any_cons, List.any_nil, Bool.or_eq_true,
      Bool.and_eq_true, decide_eq_true_eq, Bool.or_false] at blank
    omega

end Blanks

/-! ## Runs -/

section Runs

variable {p : Char → Bool} {run rest : List Char}

/-- A nonempty text of characters of one kind. -/
structure IsRun (p : Char → Bool) (run : List Char) : Prop where
  nonempty : run ≠ []
  chars : ∀ c ∈ run, p c = true

/-- A text that no character of a kind starts. -/
def Ends (p : Char → Bool) (rest : List Char) : Prop := ∀ c ∈ rest.head?, p c = false

theorem ends_nil : Ends p [] := nofun

theorem ends_cons {c : Char} (other : p c = false) : Ends p (c :: rest) := by
  intro d first
  cases first
  exact other

/-- What is left of a text ends the run that is taken. -/
theorem ends_dropWhile (text : List Char) : Ends p (text.dropWhile p) := by
  intro c first
  have := List.head?_dropWhile_not p text
  rw [Option.mem_def.mp first] at this
  simpa using this

theorem dropWhile_of_ends (stop : Ends p rest) : rest.dropWhile p = rest := by
  cases rest with
  | nil => rfl
  | cons c rest => exact List.dropWhile_cons_of_neg (by simp [stop c rfl])

theorem takeWhile_exact (chars : ∀ c ∈ run, p c = true) (stop : Ends p rest) :
    (run ++ rest).takeWhile p = run := by
  rw [List.takeWhile_append_of_pos chars]
  cases rest with
  | nil => simp
  | cons c rest => simp [stop c rfl]

theorem dropWhile_exact (chars : ∀ c ∈ run, p c = true) (stop : Ends p rest) :
    (run ++ rest).dropWhile p = rest := by
  rw [List.dropWhile_append_of_pos chars, dropWhile_of_ends stop]

theorem takeWhile1_exact (valid : IsRun p run) (stop : Ends p rest) :
    takeWhile1 p (run ++ rest) = some (run, rest) := by
  rw [takeWhile1, takeWhile_exact valid.chars stop, dropWhile_exact valid.chars stop,
    if_neg (by simpa using valid.nonempty)]

/-- Whatever is taken is a run, and what is left ends it. -/
theorem takeWhile1_eq_some {text left : List Char} (h : takeWhile1 p text = some (run, left)) :
    IsRun p run ∧ text = run ++ left ∧ Ends p left := by
  unfold takeWhile1 at h
  split at h
  · cases h
  rename_i nonempty
  cases h
  refine ⟨⟨by simpa using nonempty, fun c member => List.mem_takeWhile_imp member⟩, ?_,
    ends_dropWhile text⟩
  exact List.takeWhile_append_dropWhile.symm

theorem identifier_exact (valid : IsRun isNameChar run) (stop : Ends isNameChar rest) :
    identifier (run ++ rest) = some (String.ofList run, rest) := by
  rw [identifier, bind_apply, takeWhile1_exact valid stop]
  rfl

theorem identifier_eq_some {text left : List Char} {name : String}
    (h : identifier text = some (name, left)) : ∃ run, IsRun isNameChar run ∧
      name = String.ofList run ∧ text = run ++ left ∧ Ends isNameChar left := by
  rw [identifier, bind_apply] at h
  obtain ⟨⟨run, after⟩, taken, h⟩ := Option.bind_eq_some_iff.mp h
  cases h
  obtain ⟨valid, same, stop⟩ := takeWhile1_eq_some taken
  exact ⟨run, valid, rfl, same, stop⟩

/-- A numeral is read up to its end, and refused when it exceeds the limit. -/
theorem naturalUpTo_exact (valid : IsRun Char.isDigit run) (stop : Ends Char.isDigit rest)
    (limit : Nat) : naturalUpTo limit (run ++ rest) =
      if digitsValue run ≤ limit then some (digitsValue run, rest) else none := by
  rw [naturalUpTo, bind_apply, natural, bind_apply, takeWhile1_exact valid stop]
  show (if digitsValue run ≤ limit then
    (pure (digitsValue run) : Scanner Nat) else failure) rest = _
  split <;> rfl

theorem naturalUpTo_eq_some {text left : List Char} {limit value : Nat}
    (h : naturalUpTo limit text = some (value, left)) : ∃ digits, IsRun Char.isDigit digits ∧
      digitsValue digits = value ∧ value ≤ limit ∧ text = digits ++ left ∧
      Ends Char.isDigit left := by
  rw [naturalUpTo, bind_apply, natural, bind_apply] at h
  obtain ⟨⟨number, after⟩, read, h⟩ := Option.bind_eq_some_iff.mp h
  obtain ⟨⟨digits, after'⟩, taken, read⟩ := Option.bind_eq_some_iff.mp read
  cases read
  obtain ⟨valid, same, stop⟩ := takeWhile1_eq_some taken
  dsimp only at h
  split at h
  · rename_i small
    cases h
    exact ⟨digits, valid, rfl, small, same, stop⟩
  · cases h

end Runs

theorem dropLead?_eq_some {lead text after : List Char} :
    dropLead? lead text = some after ↔ text = lead ++ after := by
  induction lead generalizing text with
  | nil => exact ⟨fun h => Option.some.inj h, fun h => congrArg some h⟩
  | cons c lead ih =>
    cases text with
    | nil => simp [dropLead?]
    | cons d text =>
      rw [dropLead?]
      by_cases same : c = d
      · rw [if_pos same, ih, same, List.cons_append, List.cons.injEq, eq_self, true_and]
      · simp [same, Ne.symm same]

theorem literal_eq_some {word : String} {text left : List Char} :
    literal word text = some ((), left) ↔ text = word.toList ++ left := by
  rw [← dropLead?_eq_some, literal, Option.map_eq_some_iff]
  exact ⟨fun ⟨_, dropped, same⟩ => by cases same; exact dropped,
    fun dropped => ⟨left, dropped, rfl⟩⟩

/-- Layout of which there has to be some. -/
theorem layout1_eq_some {text left : List Char} : layout1 text = some ((), left) ↔
    ∃ gap, IsRun isLayout gap ∧ Ends isLayout left ∧ text = gap ++ left := by
  rw [layout1, bind_apply, Option.bind_eq_some_iff]
  constructor
  · rintro ⟨⟨gap, after⟩, taken, same⟩
    cases same
    obtain ⟨valid, parts, stop⟩ := takeWhile1_eq_some taken
    exact ⟨gap, valid, stop, parts⟩
  · rintro ⟨gap, valid, stop, rfl⟩
    exact ⟨(gap, left), takeWhile1_exact valid stop, rfl⟩

/-- A mark with layout around it. -/
theorem mark_exact {c : Char} (visible : isLayout c = false) {gap gap' rest : List Char}
    (before : ∀ d ∈ gap, isLayout d = true) (after : ∀ d ∈ gap', isLayout d = true)
    (stop : Ends isLayout rest) : mark c (gap ++ c :: (gap' ++ rest)) = some ((), rest) := by
  rw [mark, bind_apply, layout_apply, Option.bind_some, bind_apply,
    dropWhile_exact before (ends_cons visible), char_cons, Option.bind_some, layout_apply,
    dropWhile_exact after stop]

theorem mark_eq_some {c : Char} {text left : List Char} (h : mark c text = some ((), left)) :
    ∃ gap gap', (∀ d ∈ gap, isLayout d = true) ∧ (∀ d ∈ gap', isLayout d = true) ∧
      text = gap ++ c :: (gap' ++ left) ∧ Ends isLayout left := by
  rw [mark, bind_apply, layout_apply, Option.bind_some, bind_apply] at h
  obtain ⟨⟨⟨⟩, after⟩, read, h⟩ := Option.bind_eq_some_iff.mp h
  rw [layout_apply] at h
  cases h
  refine ⟨text.takeWhile isLayout, after.takeWhile isLayout,
    fun d member => List.mem_takeWhile_imp member, fun d member => List.mem_takeWhile_imp member,
    ?_, ends_dropWhile after⟩
  rw [List.takeWhile_append_dropWhile, ← char_eq_some read, List.takeWhile_append_dropWhile]

/-! ## Characters that are never passed -/

/-- A scanner that takes the same from a text when a given character follows it. -/
def StopsBefore (c : Char) (s : Scanner α) : Prop :=
  ∀ text rest, s (text ++ c :: rest) = (s text).map fun r => (r.1, r.2 ++ c :: rest)

namespace StopsBefore

variable {c : Char} {s : Scanner α}

theorem of_pure (a : α) : StopsBefore c (pure a : Scanner α) := fun _ _ => rfl

theorem of_failure : StopsBefore c (failure : Scanner α) := fun _ _ => rfl

theorem of_bind {k : α → Scanner β} (first : StopsBefore c s) (next : ∀ a, StopsBefore c (k a)) :
    StopsBefore c (s >>= k) := by
  intro text rest
  rw [bind_apply, bind_apply, first]
  cases s text with
  | none => rfl
  | some r => exact next r.1 r.2 rest

theorem of_optional (stops : StopsBefore c s) : StopsBefore c (optional s) := by
  intro text rest
  rw [optional_apply, optional_apply, stops]
  cases s text <;> rfl

theorem of_char {d : Char} (other : c ≠ d) : StopsBefore c (char d) := by
  intro text rest
  cases text with
  | nil => exact if_neg other
  | cons first text =>
    by_cases same : first = d
    · rw [same, List.cons_append, char_cons, char_cons]
      rfl
    · have refused (rest : List Char) : char d (first :: rest) = none := if_neg same
      rw [List.cons_append, refused, refused]
      rfl

section Runs

variable {p : Char → Bool} (other : p c = false)

include other

theorem takeWhile_append (text rest : List Char) :
    (text ++ c :: rest).takeWhile p = text.takeWhile p ∧
      (text ++ c :: rest).dropWhile p = text.dropWhile p ++ c :: rest := by
  induction text with
  | nil => simp [other]
  | cons first text ih =>
    cases kind : p first with
    | true => simp [kind, ih]
    | false => simp [kind]

theorem of_takeWhile1 : StopsBefore c (takeWhile1 p) := by
  intro text rest
  rw [takeWhile1, takeWhile1, (takeWhile_append other text rest).1,
    (takeWhile_append other text rest).2]
  split <;> rfl

end Runs

theorem of_layout (visible : isLayout c = false) : StopsBefore c layout := by
  intro text rest
  rw [layout_apply, layout_apply, (takeWhile_append visible text rest).2]
  rfl

theorem of_mark {d : Char} (visible : isLayout c = false) (other : c ≠ d) :
    StopsBefore c (mark d) :=
  (of_layout visible).of_bind fun _ => (of_char other).of_bind fun _ => of_layout visible

theorem of_identifier (other : isNameChar c = false) : StopsBefore c identifier :=
  (of_takeWhile1 other).of_bind fun _ => of_pure _

theorem of_naturalUpTo (other : c.isDigit = false) (limit : Nat) :
    StopsBefore c (naturalUpTo limit) := by
  refine of_bind ((of_takeWhile1 other).of_bind fun _ => of_pure _) fun value => ?_
  split
  · exact of_pure value
  · exact of_failure

end StopsBefore

end FallingSand.Text.Scanner
