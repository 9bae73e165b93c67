import FallingSand.Proofs.Expr.Templates

/-!
# Reading filled templates

The reader of formulas moves along a template whatever names fill its places: it fails with all
of them, or it stops at the same point with all of them (`Reads`). So it is with each of its
parts, of which those that read numbers, operators and names are treated here.
-/

namespace FallingSand.Expr

open FallingSand.Text
open FallingSand.Text.Scanner (Ends takeWhile_exact dropWhile_exact)
open Reader
open FallingSand.Number (readFloat?)

variable {α β : Type} {V : Variable → Prop} {t : Template}

/-! ## Readers as functions -/

namespace Reader

theorem bind_apply (r : Reader α) (k : α → Reader β) (s : Reading) :
    (r >>= k) s = (r s).bind fun result => k result.1 result.2 := rfl

theorem storeGroup_apply (s : Reading) : storeGroup s =
    if capacity ≤ s.groups then .error .tooMany
    else .ok ((), { s with groups := s.groups + 1 }) := by
  unfold storeGroup
  rw [bind_apply]
  by_cases full : capacity ≤ s.groups
  · rw [if_pos full]
    exact congrFun (if_pos full) s
  · rw [if_neg full]
    exact congrFun (if_neg full) s

theorem storeOperand_apply (s : Reading) : storeOperand s =
    if capacity ≤ s.operands then .error .tooMany
    else .ok ((), { s with operands := s.operands + 1 }) := by
  unfold storeOperand
  rw [bind_apply]
  by_cases full : capacity ≤ s.operands
  · rw [if_pos full]
    exact congrFun (if_pos full) s
  · rw [if_neg full]
    exact congrFun (if_neg full) s

end Reader

/-! ## Readers of templates -/

/-- Whatever fills the places, a reader either fails, or it gives results and leaves a template
of which `Q` is true. -/
def Reads (t : Template) (r : Naming → Reader α) (Q : (Naming → α) → Template → Prop) : Prop :=
  ∀ groups operands,
    (∀ ν, ∃ fault, r ν ⟨fill ν.name t, groups, operands⟩ = .error fault) ∨
    ∃ a rest groups' operands', Q a rest ∧ ∀ ν, r ν ⟨fill ν.name t, groups, operands⟩ =
      .ok (a ν, ⟨fill ν.name rest, groups', operands'⟩)

namespace Reads

variable {r : Naming → Reader α} {k : Naming → α → Reader β}
  {Q : (Naming → α) → Template → Prop} {R : (Naming → β) → Template → Prop}

theorem of_pure {a : Naming → α} (h : Q a t) : Reads t (fun ν => pure (a ν)) Q :=
  fun groups operands => .inr ⟨a, t, groups, operands, h, fun _ => rfl⟩

theorem of_throw (fault : Naming → Fault) : Reads t (fun ν => (throw (fault ν) : Reader α)) Q :=
  fun _ _ => .inl fun ν => ⟨fault ν, rfl⟩

theorem of_bind (first : Reads t r Q)
    (next : ∀ a rest, Q a rest → Reads rest (fun ν => k ν (a ν)) R) :
    Reads t (fun ν => r ν >>= k ν) R := by
  intro groups operands
  rcases first groups operands with fails | ⟨a, rest, groups', operands', holds, gives⟩
  · refine .inl fun ν => ?_
    obtain ⟨fault, failed⟩ := fails ν
    exact ⟨fault, (bind_apply (r ν) (k ν) _).trans (congrArg (Except.bind · _) failed)⟩
  · have step (ν : Naming) : (r ν >>= k ν) ⟨fill ν.name t, groups, operands⟩ =
        k ν (a ν) ⟨fill ν.name rest, groups', operands'⟩ :=
      (bind_apply (r ν) (k ν) _).trans (congrArg (Except.bind · _) (gives ν))
    rcases next a rest holds groups' operands' with fails | ⟨b, rest', g, o, holds, gives⟩
    · exact .inl fun ν => (fails ν).imp fun _ failed => (step ν).trans failed
    · exact .inr ⟨b, rest', g, o, holds, fun ν => (step ν).trans (gives ν)⟩

theorem mono {Q' : (Naming → α) → Template → Prop} (h : Reads t r Q)
    (weaker : ∀ a rest, Q a rest → Q' a rest) : Reads t r Q' := by
  intro groups operands
  exact (h groups operands).imp id fun ⟨a, rest, g, o, holds, gives⟩ =>
    ⟨a, rest, g, o, weaker a rest holds, gives⟩

theorem congr {r' : Naming → Reader α} (same : ∀ ν, r ν = r' ν) (h : Reads t r' Q) :
    Reads t r Q :=
  (funext same : r = r') ▸ h

/-- Spaces are skipped before a reader looks at the text. -/
theorem of_peek {k : Naming → List Char → Reader β}
    (next : Reads t.skip (fun ν => k ν (fill ν.name t.skip)) R) :
    Reads t (fun ν => peek >>= k ν) R := by
  have step (ν : Naming) (groups operands : Nat) :
      (peek >>= k ν) ⟨fill ν.name t, groups, operands⟩ =
        k ν (fill ν.name t.skip) ⟨fill ν.name t.skip, groups, operands⟩ := by
    rw [← fill_skip]
    rfl
  intro groups operands
  exact (next groups operands).imp
    (fun fails ν => (fails ν).imp fun _ failed => (step ν _ _).trans failed)
    fun ⟨b, rest, g, o, holds, gives⟩ =>
      ⟨b, rest, g, o, holds, fun ν => (step ν _ _).trans (gives ν)⟩

theorem of_goTo {rest : Template} {k : Naming → Reader β} (next : Reads rest k R) :
    Reads t (fun ν => goTo (fill ν.name rest) >>= fun _ => k ν) R :=
  fun groups operands => next groups operands

/-- A reader may see how long the text is. -/
theorem of_get {k : Naming → List Char → Reader β}
    (next : Reads t (fun ν => k ν (fill ν.name t)) R) :
    Reads t (fun ν => get >>= fun s => k ν s.rest) R :=
  fun groups operands => next groups operands

theorem storeGroup : Reads t (fun _ => Reader.storeGroup) fun _ rest => rest = t := by
  intro groups operands
  by_cases full : capacity ≤ groups
  · exact .inl fun ν => ⟨.tooMany, (storeGroup_apply _).trans (if_pos full)⟩
  · exact .inr ⟨fun _ => (), t, groups + 1, operands, rfl, fun ν =>
      (storeGroup_apply _).trans (if_neg full)⟩

theorem storeOperand : Reads t (fun _ => Reader.storeOperand) fun _ rest => rest = t := by
  intro groups operands
  by_cases full : capacity ≤ operands
  · exact .inl fun ν => ⟨.tooMany, (storeOperand_apply _).trans (if_pos full)⟩
  · exact .inr ⟨fun _ => (), t, groups, operands + 1, rfl, fun ν =>
      (storeOperand_apply _).trans (if_neg full)⟩

end Reads

/-! ## Numbers -/

theorem scanNumber_of_startsName {c : Char} {rest : List Char} (starts : startsName c = true)
    (nan : dropLead? ['N', 'a', 'N'] (c :: rest) = none)
    (inf : dropLead? ['i', 'n', 'f'] (c :: rest) = none) :
    scanNumber true true true false [] (c :: rest) = ([], false, true, c :: rest) := by
  have point : (c == '.') = false := beq_false_of_ne (startsName_ne starts rfl)
  have minus : (c == '-') = false := beq_false_of_ne (startsName_ne starts rfl)
  have plus : (c == '+') = false := beq_false_of_ne (startsName_ne starts rfl)
  unfold scanNumber
  rw [nan, inf, not_isDigit_of_startsName starts, point, minus, plus]
  rfl

theorem scanNumber_of_isName {name rest : List Char} (valid : IsName name)
    (stop : Ends continuesName rest) :
    scanNumber true true true false [] (name ++ rest) = ([], false, true, name ++ rest) := by
  obtain ⟨c, others, rfl, starts⟩ := valid.starts
  have apart {mark : List Char} (refused : dropLead? mark (c :: others) = none)
      (chars : mark.all continuesName = true) : dropLead? mark (c :: (others ++ rest)) = none := by
    rw [← List.cons_append, dropLead?_append (List.all_eq_true.mp chars) stop, refused]
    rfl
  exact scanNumber_of_startsName starts (apart valid.nan rfl) (apart valid.inf rfl)

/-- Whether a scan that starts with `seen` takes the same from a template whatever fills its
places, and leaves the rest of it. -/
def Scans (V : Variable → Prop) (t : Template) (seen : Bool)
    (scan : List Char → List Char × Bool × Bool × List Char) : Prop :=
  ∃ read seen' scaleOk rest,
    (∀ name, scan (fill name t) = (read, seen', scaleOk, fill name rest)) ∧
    Spaced V rest ∧ rest.plain ∧ (rest = t ∧ seen' = seen ∨ rest.length < t.length)

namespace Scans

variable {seen : Bool} {scan : List Char → List Char × Bool × Bool × List Char}

/-- Nothing is taken. -/
theorem stay (spaced : Spaced V t) (plain : t.plain) (read : List Char) (scaleOk : Bool)
    (scanned : ∀ name, scan (fill name t) = (read, seen, scaleOk, fill name t)) :
    Scans V t seen scan :=
  ⟨read, seen, scaleOk, t, scanned, spaced, plain, .inl ⟨rfl, rfl⟩⟩

/-- A character is taken. -/
theorem next {c : Char} {rest : Template} {seen' : Bool}
    {scan' : List Char → List Char × Bool × Bool × List Char}
    (step : ∀ text, scan (c :: text) = scan' text) (later : Scans V rest seen' scan') :
    Scans V (.char c :: rest) seen scan := by
  obtain ⟨read, seen'', scaleOk, left, scanned, spaced, plain, shorter⟩ := later
  refine ⟨read, seen'', scaleOk, left, fun name => (step _).trans (scanned name), spaced, plain,
    .inr ?_⟩
  rw [List.length_cons]
  rcases shorter with ⟨rfl, -⟩ | shorter <;> omega

/-- A word is taken, and nothing after it. -/
theorem word {mark : List Char} (nonempty : mark ≠ []) {rest : Template}
    (spaced : Spaced V t) (parts : t = mark.map .char ++ rest) (plain : rest.plain)
    {read : List Char} {seen' scaleOk : Bool}
    (scanned : ∀ name, scan (fill name t) = (read, seen', scaleOk, fill name rest)) :
    Scans V t seen scan := by
  refine ⟨read, seen', scaleOk, rest, scanned, (parts ▸ spaced).suffix, plain, .inr ?_⟩
  have length := congrArg List.length parts
  have positive := List.length_pos_iff.mpr nonempty
  rw [List.length_append, List.length_map] at length
  omega

end Scans

/-- What is scanned where a character is no part of a numeral: one of the words that are numbers,
or nothing more. -/
def wordOf (scaleOk seen : Bool) (read text : List Char) : List Char × Bool × Bool × List Char :=
  (dropLead? ['N', 'a', 'N'] text).elim
    ((dropLead? ['i', 'n', 'f'] text).elim (read, seen, scaleOk, text)
      (('f' :: 'n' :: 'i' :: read, true, false, ·)))
    (('N' :: 'a' :: 'N' :: read, true, false, ·))

theorem wordOf_fill (spaced : Spaced V t) (plain : t.plain) (scaleOk seen : Bool)
    (read : List Char) : Scans V t seen (wordOf scaleOk seen read) := by
  rcases dropLead?_fill (by decide : ' ' ∉ ['N', 'a', 'N']) spaced plain with
    nan | ⟨rest, parts, left, found⟩
  case inr =>
    have took (name) : wordOf scaleOk seen read (fill name t) =
        ('N' :: 'a' :: 'N' :: read, true, false, fill name rest) := by
      rw [wordOf, found]
      rfl
    exact .word (List.cons_ne_nil _ _) spaced parts left took
  rcases dropLead?_fill (by decide : ' ' ∉ ['i', 'n', 'f']) spaced plain with
    inf | ⟨rest, parts, left, found⟩
  case inr =>
    have took (name) : wordOf scaleOk seen read (fill name t) =
        ('f' :: 'n' :: 'i' :: read, true, false, fill name rest) := by
      rw [wordOf, nan, found]
      rfl
    exact .word (List.cons_ne_nil _ _) spaced parts left took
  refine .stay spaced plain read scaleOk fun name => ?_
  rw [wordOf, nan, inf]
  rfl

/-- What is scanned as a number does not depend on the names in a template. -/
theorem scanNumber_fill (spaced : Spaced V t) (plain : t.plain) :
    ∀ signOk wordOk scaleOk seen read,
      Scans V t seen (scanNumber signOk wordOk scaleOk seen read) := by
  induction t with
  | nil => exact fun _ _ _ _ _ => .stay spaced plain _ _ fun _ => rfl
  | cons letter others ih =>
    cases letter with
    | hole v => cases plain
    | char c =>
      intro signOk wordOk scaleOk seen read
      -- A character that is taken is no space, so no place follows it.
      have further (visible : c ≠ ' ') := ih spaced.tail (spaced.plain_tail visible)
      by_cases digit : (c.isDigit || c == '.') = true
      · refine .next (fun text => by rw [scanNumber, if_pos digit]) (further ?_ _ _ _ _ _)
        rintro rfl
        cases digit
      by_cases sign : (signOk && (c == '-' || c == '+')) = true
      · refine .next (fun text => by rw [scanNumber, if_neg digit, if_pos sign])
          (further ?_ _ _ _ _ _)
        rintro rfl
        exact nomatch (Bool.and_eq_true_iff.mp sign).2
      by_cases exponent : (seen && (c == 'e' || c == 'E')) = true
      · refine .next (fun text => by rw [scanNumber, if_neg digit, if_neg sign, if_pos exponent])
          (further ?_ _ _ _ _ _)
        rintro rfl
        exact nomatch (Bool.and_eq_true_iff.mp exponent).2
      by_cases wordly : wordOk = true
      case neg =>
        refine .stay spaced plain read scaleOk fun name => ?_
        rw [fill, scanNumber, if_neg digit, if_neg sign, if_neg exponent, if_neg wordly]
      obtain ⟨read', seen', scaleOk', rest, scanned, left⟩ :=
        wordOf_fill spaced plain scaleOk seen read
      refine ⟨read', seen', scaleOk', rest, fun name => ?_, left⟩
      rw [← scanned, fill, scanNumber, if_neg digit, if_neg sign, if_neg exponent, if_pos wordly,
        wordOf]
      cases dropLead? ['N', 'a', 'N'] (c :: fill name others) <;>
        cases dropLead? ['i', 'n', 'f'] (c :: fill name others) <;> rfl

/-- The text of a number and the text after it, once the longest front part is known that can be
a number. -/
def scaled (read : List Char) (scaleOk : Bool) (rest : List Char) : List Char × List Char :=
  match rest with
  | c :: after =>
    match scale? c with
    | some exponent => if scaleOk then (read.reverse ++ 'e' :: exponent.toList, after)
      else (read.reverse, rest)
    | none => (read.reverse, rest)
  | [] => (read.reverse, rest)

/-- A scaling letter is taken from the text around the places. -/
theorem scaled_fill (spaced : Spaced V t) (plain : t.plain) (read : List Char) (scaleOk : Bool) :
    ∃ text rest, Spaced V rest ∧ rest.length ≤ t.length ∧
      ∀ name, scaled read scaleOk (fill name t) = (text, fill name rest) := by
  cases t with
  | nil => exact ⟨read.reverse, [], .nil, Nat.le_refl _, fun _ => rfl⟩
  | cons letter rest =>
    cases letter with
    | hole v => cases plain
    | char c =>
      cases exponent : scale? c with
      | none =>
        refine ⟨read.reverse, _, spaced, Nat.le_refl _, fun name => ?_⟩
        rw [fill, scaled, exponent]
      | some exponent' =>
        cases scaleOk with
        | false =>
          refine ⟨read.reverse, _, spaced, Nat.le_refl _, fun name => ?_⟩
          rw [fill, scaled, exponent]
          rfl
        | true =>
          refine ⟨read.reverse ++ 'e' :: exponent'.toList, rest, spaced.tail, Nat.le_succ _,
            fun name => ?_⟩
          rw [fill, scaled, exponent]
          rfl

/-- What is left to do for a number once the text is scanned. -/
def numberOf (scanned : List Char × Bool × Bool × List Char) : Reader (Option Float) :=
  if scanned.2.1 then
    match readFloat? (scaled scanned.1 scanned.2.2.1 scanned.2.2.2).1 with
    | some value => do
      goTo (scaled scanned.1 scanned.2.2.1 scanned.2.2.2).2
      return some value
    | none => throw (.badNumber (scaled scanned.1 scanned.2.2.1 scanned.2.2.2).1)
  else return none

theorem number?_eq :
    number? = peek >>= fun text => numberOf (scanNumber true true true false [] text) := by
  unfold number?
  congr 1
  funext text
  obtain ⟨read, seen, scaleOk, rest⟩ := scanNumber true true true false [] text
  cases seen <;> rfl

/-- What is read as a number does not depend on the names in a template. -/
theorem number?_reads (spaced : Spaced V t) : Reads t (fun _ => number?) fun a rest =>
    Spaced V rest ∧ (a = (fun _ => none) ∧ rest = t.skip ∨
      ∃ x, a = (fun _ => some x) ∧ rest.length < t.length) := by
  rw [number?_eq]
  refine .of_peek ?_
  have left := spaced.skip
  have shorter := length_skip_le t
  rcases plain_or_hole t.skip with plain | ⟨v, after, skipped⟩
  · obtain ⟨read, seen, scaleOk, rest, scanned, spaced', plain', progress⟩ :=
      scanNumber_fill left plain true true true false []
    refine .congr (fun ν => congrArg numberOf (scanned ν.name)) ?_
    cases seen with
    | false => exact .of_pure ⟨left, .inl ⟨rfl, rfl⟩⟩
    | true =>
      obtain ⟨text, rest', spaced'', shorter', same⟩ := scaled_fill spaced' plain' read scaleOk
      have last (ν : Naming) : numberOf (read, true, scaleOk, fill ν.name rest) =
          match readFloat? text with
          | some value => goTo (fill ν.name rest') >>= fun _ => return some value
          | none => throw (.badNumber text) := by
        unfold numberOf
        rw [same]
        rfl
      refine .congr last ?_
      cases readFloat? text with
      | none => exact .of_throw _
      | some value =>
        have := progress.resolve_left fun stay => nomatch stay.2
        dsimp only
        refine .of_goTo (.of_pure ⟨spaced'', .inr ⟨value, rfl, ?_⟩⟩)
        omega
  · rw [skipped] at left ⊢
    obtain ⟨-, next⟩ := spaced_hole left
    have unseen (ν : Naming) :
        numberOf (scanNumber true true true false [] (fill ν.name (.hole v :: after))) =
          pure none :=
      congrArg numberOf (scanNumber_of_isName (ν.valid v).toIsName (next ν.name))
    exact .congr unseen (.of_pure ⟨left, .inl ⟨rfl, rfl⟩⟩)

/-! ## Operators -/

/-- The operator that a text begins with, and the text after it. -/
def leadingOperator? (list : List (List Char × Op)) (text : List Char) : Option (Op × List Char) :=
  list.findSome? fun entry => (dropLead? entry.1 text).map fun rest => (entry.2, rest)

/-- What the spelling of an operator is like: a word, or a sign. -/
def isMark (mark : List Char) : Bool :=
  !mark.contains ' ' && (mark == ['o', 'r'] || mark == ['a', 'n', 'd'] ||
    mark.head?.any fun c => !startsName c)

theorem isMark_of_mem : ∀ entry ∈ operators, isMark entry.1 = true := List.all_eq_true.mp rfl

theorem leadingOperator?_fill (spaced : Spaced V t) (plain : t.plain)
    {list : List (List Char × Op)} (marks : ∀ entry ∈ list, isMark entry.1 = true) :
    (∀ name, leadingOperator? list (fill name t) = none) ∨
      ∃ op rest, Spaced V rest ∧ rest.length < t.length ∧
        ∀ name, leadingOperator? list (fill name t) = some (op, fill name rest) := by
  induction list with
  | nil => exact .inl fun _ => rfl
  | cons entry others ih =>
    obtain ⟨mark, op⟩ := entry
    obtain ⟨head, tail⟩ := List.forall_mem_cons.mp marks
    have spaceless : ' ' ∉ mark := by
      have := (Bool.and_eq_true_iff.mp head).1
      simpa using this
    rcases dropLead?_fill spaceless spaced plain with refused | ⟨rest, parts, -, found⟩
    · have later (name : Variable → List Char) :
          leadingOperator? ((mark, op) :: others) (fill name t) =
            leadingOperator? others (fill name t) := by
        rw [leadingOperator?, List.findSome?_cons, refused]
        rfl
      rcases ih tail with missing | ⟨op', rest, left, shorter, found⟩
      · exact .inl fun name => (later name).trans (missing name)
      · exact .inr ⟨op', rest, left, shorter, fun name => (later name).trans (found name)⟩
    · refine .inr ⟨op, rest, (parts ▸ spaced).suffix, ?_, fun name => ?_⟩
      · have nonempty : mark ≠ [] := by
          rintro rfl
          cases head
        have length := congrArg List.length parts
        have positive := List.length_pos_iff.mpr nonempty
        rw [List.length_append, List.length_map] at length
        omega
      · rw [leadingOperator?, List.findSome?_cons, found]
        rfl

/-- No operator stands where a variable does. -/
theorem leadingOperator?_of_isVariable {name rest : List Char} (valid : IsVariable name)
    (stop : Ends continuesName rest) : leadingOperator? operators (name ++ rest) = none := by
  refine List.findSome?_eq_none_iff.mpr fun entry member => ?_
  have apart {mark : List Char} (refused : dropLead? mark name = none)
      (chars : mark.all continuesName = true) : dropLead? mark (name ++ rest) = none := by
    rw [dropLead?_append (List.all_eq_true.mp chars) stop, refused]
    rfl
  have kind := (Bool.and_eq_true_iff.mp (isMark_of_mem entry member)).2
  simp only [Bool.or_eq_true, beq_iff_eq] at kind
  rcases kind with (word | word) | sign
  · rw [word, apart valid.or rfl]
    rfl
  · rw [word, apart valid.and rfl]
    rfl
  · obtain ⟨c, others, rfl, starts⟩ := valid.starts
    obtain ⟨mark, op⟩ := entry
    cases mark with
    | nil => cases sign
    | cons d mark =>
      have other : startsName d = false := by simpa using sign
      rw [List.cons_append, dropLead?, if_neg (startsName_ne starts other).symm]
      rfl

/-- What is read as an operator does not depend on the names in a template. -/
theorem operator?_reads (spaced : Spaced V t) : Reads t (fun _ => operator?) fun a rest =>
    Spaced V rest ∧ (a = (fun _ => none) ∧ rest = t.skip ∨
      ∃ op, a = (fun _ => some op) ∧ rest.length < t.length) := by
  have parts : operator? = peek >>= fun text => match leadingOperator? operators text with
      | some (op, rest) => do goTo rest; return some op
      | none => return none := rfl
  rw [parts]
  refine .of_peek ?_
  have left := spaced.skip
  have shorter := length_skip_le t
  rcases plain_or_hole t.skip with plain | ⟨v, after, skipped⟩
  · rcases leadingOperator?_fill left plain isMark_of_mem with
      missing | ⟨op, rest, spaced', shorter', found⟩
    · refine .congr (fun ν => ?_) (.of_pure ⟨left, .inl ⟨rfl, rfl⟩⟩)
      rw [missing]
    · refine .congr (fun ν => ?_) (.of_goTo (.of_pure ⟨spaced', .inr ⟨op, rfl, ?_⟩⟩))
      · rw [found]
      · omega
  · rw [skipped] at left ⊢
    obtain ⟨-, next⟩ := spaced_hole left
    refine .congr (fun ν => ?_) (.of_pure ⟨left, .inl ⟨rfl, rfl⟩⟩)
    rw [fill, leadingOperator?_of_isVariable (ν.valid v) (next ν.name)]

/-! ## Names -/

/-- A text that stands for a variable until it has a name, and is no name itself. -/
def key : Variable → String
  | .property n => String.ofList ('[' :: List.replicate n 'v')
  | .random n => String.ofList (']' :: List.replicate n 'r')

/-- The name of the variable that a text stands for, or the text itself. -/
def Naming.subst (ν : Naming) (text : String) : String :=
  match text.toList with
  | '[' :: rest => String.ofList (ν.name (.property rest.length))
  | ']' :: rest => String.ofList (ν.name (.random rest.length))
  | _ => text

/-- The texts in the formula of a template: what stands for a variable of a kind, and names. -/
inductive Known (V : Variable → Prop) : String → Prop
  | place {v : Variable} (kind : V v) : Known V (key v)
  | word {c : Char} {rest : List Char} (starts : startsName c = true) :
    Known V (String.ofList (c :: rest))

theorem subst_key (ν : Naming) (v : Variable) : ν.subst (key v) = String.ofList (ν.name v) := by
  cases v <;> simp [Naming.subst, key]

theorem subst_word (ν : Naming) {c : Char} (rest : List Char) (starts : startsName c = true) :
    ν.subst (String.ofList (c :: rest)) = String.ofList (c :: rest) := by
  unfold Naming.subst
  rw [String.toList_ofList]
  split
  · rename_i same
    cases same
    cases starts
  · rename_i same
    cases same
    cases starts
  · rfl

/-- What is left to do for a name once spaces are skipped. -/
def nameOf : List Char → Reader (Option String)
  | c :: rest =>
    if startsName c then do
      goTo (rest.dropWhile continuesName)
      return some (String.ofList (c :: rest.takeWhile continuesName))
    else return none
  | [] => return none

theorem name?_eq : name? = peek >>= nameOf := by
  unfold name?
  congr 1

/-- A name is read up to its end. -/
theorem nameOf_append {c : Char} {run rest : List Char} (starts : startsName c = true)
    (chars : ∀ d ∈ run, continuesName d = true) (stop : Ends continuesName rest) :
    nameOf (c :: (run ++ rest)) = do goTo rest; return some (String.ofList (c :: run)) := by
  rw [nameOf, if_pos starts, takeWhile_exact chars stop, dropWhile_exact chars stop]

/-- What is read as a name is the name of a variable, or it is the same for all. -/
theorem name?_reads (spaced : Spaced V t) : Reads t (fun _ => name?) fun a rest =>
    Spaced V rest ∧ (a = (fun _ => none) ∧ rest = t.skip ∨
      (∃ text, Known V text ∧ a = fun ν => some (ν.subst text)) ∧ rest.length < t.length) := by
  rw [name?_eq]
  refine .of_peek ?_
  have left := spaced.skip
  have shorter := length_skip_le t
  match skipped : t.skip with
  | [] => exact .of_pure ⟨.nil, .inl ⟨rfl, rfl⟩⟩
  | .char c :: others =>
    rw [skipped] at left shorter
    cases starts : startsName c with
    | false =>
      refine .congr (fun ν => ?_) (.of_pure ⟨left, .inl ⟨rfl, rfl⟩⟩)
      rw [fill, nameOf, starts]
      rfl
    | true =>
      have visible : c ≠ ' ' := startsName_ne starts rfl
      obtain ⟨run, rest, rfl, chars, stop⟩ :=
        exists_run (p := continuesName) rfl left.tail (left.plain_tail visible)
      refine .congr (fun ν => ?_) (.of_goTo (.of_pure ⟨left.tail.suffix,
        .inr ⟨⟨String.ofList (c :: run), .word starts, rfl⟩, ?_⟩⟩))
      · rw [fill, fill_append, fill_chars, nameOf_append starts chars (stop ν.name),
          subst_word ν run starts]
      · rw [List.length_cons, List.length_append] at shorter
        omega
  | .hole v :: others =>
    rw [skipped] at left shorter
    obtain ⟨kind, stop⟩ := spaced_hole left
    refine .congr (fun ν => ?_) (.of_goTo (.of_pure ⟨left.tail,
      .inr ⟨⟨key v, .place kind, rfl⟩, ?_⟩⟩))
    · obtain ⟨c, run, same, starts⟩ := (ν.valid v).starts
      have chars := (ν.valid v).continues
      rw [same] at chars
      rw [fill, same, List.cons_append,
        nameOf_append starts (List.forall_mem_cons.mp chars).2 (stop ν.name), subst_key, same]
    · rw [List.length_cons] at shorter
      omega

end FallingSand.Expr
