import FallingSand.Proofs.Text.Scanning
import FallingSand.Script.Compile

/-!
# Comments

The lines of a script are found by searches for the marks of comments: for the first `//`, the
first `/*` and the first `*/` of what is left of a line. A scan from left to right says the same
without searching. It stands in code or in a comment (`ScanMode`), looks at one character and
the one after it, and goes on over the ends of lines. `lines_eq_scanned` says that the lines of
every script are those of the scan.
-/

namespace FallingSand.Script

open FallingSand.Text

/-! ## The scan -/

/-- Where a scan stands. -/
inductive ScanMode where
  | code
  /-- In a comment that was opened on a line. -/
  | comment (opened : Nat)
  deriving DecidableEq, Repr

/-- The line of the open comment, if there is one. -/
def ScanMode.opened? : ScanMode → Option Nat
  | .code => none
  | .comment opened => some opened

/-- What a scan emits of a line with a number, and where it stands after the line. A `//` drops
the rest of the line, a `/*` emits a space and opens a comment, and a comment goes on to the
next `*/`. -/
def scan (number : Nat) : ScanMode → List Char → List Char × ScanMode
  | mode, [] => ([], mode)
  | .code, '/' :: '/' :: _ => ([], .code)
  | .code, '/' :: '*' :: rest =>
    let (more, mode) := scan number (.comment number) rest
    (' ' :: more, mode)
  | .code, c :: rest =>
    let (more, mode) := scan number .code rest
    (c :: more, mode)
  | .comment _, '*' :: '/' :: rest => scan number .code rest
  | .comment opened, _ :: rest => scan number (.comment opened) rest

/-- What a scan emits of lines, each with its number, and where it stands at their end. -/
def scanLines (number : Nat) (mode : ScanMode) :
    List (List Char) → List (Nat × List Char) × ScanMode
  | [] => ([], mode)
  | raw :: rest =>
    let (text, mode) := scan number mode raw
    let (more, mode) := scanLines (number + 1) mode rest
    ((number, text) :: more, mode)

/-- The line for an emitted text: what is left of it when it is trimmed, unless that is
nothing. -/
def keptLine? (emitted : Nat × List Char) : Option Line :=
  let text := trim emitted.2
  if text.isEmpty then none else some ⟨emitted.1, text⟩

/-- The lines that a scan keeps of a script, or the line of a comment that is open at the end. -/
def scanned (source : List Char) : Except Nat (List Line) :=
  match scanLines 1 .code (Text.lines source) with
  | (emitted, .code) => .ok (emitted.filterMap keptLine?)
  | (_, .comment opened) => .error opened

/-! ## Searches, character by character -/

variable {number opened : Nat} {text : List Char} {c : Char}

/-- A mark of two characters stands here only if both follow. -/
theorem dropLead?_pair_eq_none {a b : Char} (other : ∀ rest, c = a → text = b :: rest → False) :
    dropLead? [a, b] (c :: text) = none := by
  rw [Option.eq_none_iff_forall_ne_some]
  intro after found
  obtain ⟨first, second⟩ := List.cons.inj (Scanner.dropLead?_eq_some.mp found)
  exact other after first second

theorem uncomment_code (number : Nat) (text : List Char) : uncomment number none text =
    match splitAtFirst? ['/', '/'] text, splitAtFirst? ['/', '*'] text with
    | some (code, _), none => (code, none)
    | none, none => (text, none)
    | some (code, _), some (before, after) =>
      if before.length < code.length then
        (before ++ ' ' :: (uncomment number (some number) after).1,
          (uncomment number (some number) after).2)
      else (code, none)
    | none, some (before, after) =>
      (before ++ ' ' :: (uncomment number (some number) after).1,
        (uncomment number (some number) after).2) := by
  rw [uncomment]
  split <;> simp_all

theorem uncomment_comment (number opened : Nat) (text : List Char) :
    uncomment number (some opened) text = match splitAtFirst? ['*', '/'] text with
    | some (_, after) => uncomment number none after
    | none => ([], some opened) := by
  rw [uncomment]
  split <;> simp_all

/-- In code a character is kept where no comment starts. -/
theorem uncomment_code_cons (number : Nat) (line : dropLead? ['/', '/'] (c :: text) = none)
    (block : dropLead? ['/', '*'] (c :: text) = none) : uncomment number none (c :: text) =
      (c :: (uncomment number none text).1, (uncomment number none text).2) := by
  rw [uncomment_code, uncomment_code, splitAtFirst?_cons line, splitAtFirst?_cons block]
  cases splitAtFirst? ['/', '/'] text with
  | none => cases splitAtFirst? ['/', '*'] text <;> rfl
  | some code =>
    cases splitAtFirst? ['/', '*'] text with
    | none => rfl
    | some before =>
      simp only [Option.map_some, List.length_cons, Nat.add_lt_add_iff_right]
      split <;> rfl

theorem uncomment_line (number : Nat) (rest : List Char) :
    uncomment number none ('/' :: '/' :: rest) = ([], none) := by
  rw [uncomment_code, splitAtFirst?_here (Scanner.dropLead?_eq_some.mpr rfl)]
  cases splitAtFirst? ['/', '*'] ('/' :: '/' :: rest) <;> rfl

/-- A `/*` that stands right here stands before any `//`. -/
theorem uncomment_block (number : Nat) (rest : List Char) :
    uncomment number none ('/' :: '*' :: rest) =
      (' ' :: (uncomment number (some number) rest).1,
        (uncomment number (some number) rest).2) := by
  have apart : dropLead? ['/', '/'] ('/' :: '*' :: rest) = none := by simp [dropLead?]
  have here : dropLead? ['/', '*'] ('/' :: '*' :: rest) = some rest :=
    Scanner.dropLead?_eq_some.mpr rfl
  rw [uncomment_code, splitAtFirst?_here here, splitAtFirst?_cons apart]
  cases splitAtFirst? ['/', '/'] ('*' :: rest) with
  | none => rfl
  | some code => simp

theorem uncomment_close (number opened : Nat) (rest : List Char) :
    uncomment number (some opened) ('*' :: '/' :: rest) = uncomment number none rest := by
  rw [uncomment_comment, splitAtFirst?_here (Scanner.dropLead?_eq_some.mpr rfl)]

/-- In a comment a character is dropped where the comment does not end. -/
theorem uncomment_comment_cons (number opened : Nat)
    (apart : dropLead? ['*', '/'] (c :: text) = none) :
    uncomment number (some opened) (c :: text) = uncomment number (some opened) text := by
  rw [uncomment_comment, uncomment_comment, splitAtFirst?_cons apart]
  cases splitAtFirst? ['*', '/'] text <;> rfl

/-! ## The scan finds the same -/

/-- What the searches leave of a line is what the scan emits, and both stand at the same place
after it. -/
theorem uncomment_eq_scan (number : Nat) (mode : ScanMode) (text : List Char) :
    uncomment number mode.opened? text =
      ((scan number mode text).1, (scan number mode text).2.opened?) := by
  fun_induction scan number mode text with
  | case1 mode =>
    cases mode with
    | code => exact uncomment_code number []
    | comment opened => exact uncomment_comment number opened []
  | case2 rest => exact uncomment_line number rest
  | case3 rest more mode ends ih =>
    rw [ends] at ih
    have inside : uncomment number (some number) rest = (more, mode.opened?) := ih
    exact (uncomment_block number rest).trans (by rw [inside])
  | case4 c rest line block more mode ends ih =>
    rw [ends] at ih
    have later : uncomment number none rest = (more, mode.opened?) := ih
    have here := uncomment_code_cons number (dropLead?_pair_eq_none line)
      (dropLead?_pair_eq_none block)
    exact here.trans (by rw [later])
  | case5 opened rest ih =>
    rw [← ih]
    exact uncomment_close number opened rest
  | case6 opened c rest apart ih =>
    rw [← ih]
    exact uncomment_comment_cons number opened (dropLead?_pair_eq_none apart)

/-- A `//` hides the mark behind it, and a `/*` does not end by its own slash. -/
example : scan 7 .code "a//*b".toList = ("a".toList, .code) ∧
    scan 7 .code "a/*/b*/c".toList = ("a c".toList, .code) := by decide

theorem keptLines_eq_scanLines (number : Nat) (mode : ScanMode) (texts : List (List Char)) :
    keptLines number mode.opened? texts = ((scanLines number mode texts).1.filterMap keptLine?,
      (scanLines number mode texts).2.opened?) := by
  induction texts generalizing number mode with
  | nil => rfl
  | cons raw rest ih =>
    simp only [keptLines, scanLines, uncomment_eq_scan, ih, List.filterMap_cons, keptLine?]
    split <;> rfl

/-- The lines of a script are those that a scan from left to right keeps. A comment that is open
at the end of the scan is the problem of the script. -/
theorem lines_eq_scanned (source : List Char) : lines source = scanned source ∧
    ∀ opened, scanned source = .error opened →
      compile source = .error (.onLine opened .unterminatedComment) := by
  have same : lines source = scanned source := by
    have kept := keptLines_eq_scanLines 1 .code (Text.lines source)
    unfold lines scanned
    rw [show ScanMode.code.opened? = none from rfl] at kept
    rw [kept]
    generalize scanLines 1 .code (Text.lines source) = ended
    obtain ⟨emitted, _ | opened⟩ := ended <;> rfl
  refine ⟨same, ?_⟩
  intro opened unended
  unfold compile
  rw [same, unended]

/-- A script with a mark of a comment in each kind of comment, and a comment that the slash of
its own mark does not end. -/
def overlapping : List Char :=
  "a //* b\n/* // */ c /**/ d\n  /*/ e".toList

theorem overlapping_unterminated : lines overlapping = scanned overlapping ∧
    scanned overlapping = .error 3 ∧
    compile overlapping = .error (.onLine 3 .unterminatedComment) := by
  have unended : scanned overlapping = .error 3 := rfl
  obtain ⟨same, fails⟩ := lines_eq_scanned overlapping
  exact ⟨same, unended, fails 3 unended⟩

end FallingSand.Script
