import FallingSand.Proofs.Expr.Tokens
import FallingSand.Proofs.Text.Scanning

/-!
# Property brackets

What the inside of a property bracket looks like: a name, or a name, a minus sign and two
numerals with a comma between them, with layout around each part (`scan_coordinated`,
`scan_eq_some`). The numerals have to fit 32 bits without a sign; a bracket with a larger
one is no token.

Where a bracket is a token of an expression any blanks may stand at its end. Where it is the
target of a step the scanner has to reach the closing mark by itself, and after a coordinate
it passes no blanks at all (`eq_nil_iff_snug`).
-/

namespace FallingSand.Expr

open FallingSand.Text
open FallingSand.Text.Scanner

/-- The part of a property bracket from the minus sign on. -/
def scanPair : Scanner (UInt32 × UInt32) := do
  char '-'; layout
  let x ← scanCoordinate
  mark ','
  let y ← scanCoordinate
  return (x, y)

theorem scan_apply (text : List Char) : PropertyRef.scan text =
    (identifier (text.dropWhile isLayout)).bind fun r =>
      match scanPair (r.2.dropWhile isLayout) with
      | some (coordinate, left) => some (⟨r.1, some coordinate⟩, left)
      | none => some (⟨r.1, none⟩, r.2.dropWhile isLayout) := by
  have parts : PropertyRef.scan text = (identifier (text.dropWhile isLayout)).bind fun r =>
      (optional scanPair (r.2.dropWhile isLayout)).bind fun c => some (⟨r.1, c.1⟩, c.2) := rfl
  rw [parts]
  congr 1
  funext r
  rw [optional_apply]
  cases scanPair (r.2.dropWhile isLayout) <;> rfl

/-! ## Coordinates -/

section Coordinate

variable {digits rest text left : List Char}

theorem scanCoordinate_exact (valid : IsRun Char.isDigit digits)
    (stop : Ends Char.isDigit rest) : scanCoordinate (digits ++ rest) =
      if digitsValue digits < 4294967296 then
        some (UInt32.ofNat (digitsValue digits), rest)
      else none := by
  rw [scanCoordinate, bind_apply, naturalUpTo_exact valid stop]
  by_cases small : digitsValue digits < 4294967296
  · rw [if_pos small, if_pos (by simp only [UInt32.size]; omega)]
    rfl
  · rw [if_neg small, if_neg (by simp only [UInt32.size]; omega)]
    rfl

theorem scanCoordinate_eq_some {x : UInt32} (h : scanCoordinate text = some (x, left)) :
    ∃ digits, IsRun Char.isDigit digits ∧ digitsValue digits = x.toNat ∧ text = digits ++ left ∧
      Ends Char.isDigit left := by
  rw [scanCoordinate, bind_apply] at h
  obtain ⟨⟨value, after⟩, read, h⟩ := Option.bind_eq_some_iff.mp h
  cases h
  obtain ⟨digits, valid, same, small, parts, stop⟩ := naturalUpTo_eq_some read
  refine ⟨digits, valid, ?_, parts, stop⟩
  rw [same, UInt32.toNat_ofNat_of_lt']
  simp only [UInt32.size] at small ⊢
  omega

end Coordinate

/-- The insides of brackets `[name - x, y]`, with layout between their parts and a text
`after` the second numeral. -/
inductive Coordinated : List Char → String → Nat → Nat → List Char → Prop
  | intro {before name between gap xs gap' gap'' ys after : List Char} :
      (∀ c ∈ before, isLayout c = true) → IsRun isNameChar name →
      (∀ c ∈ between, isLayout c = true) → (∀ c ∈ gap, isLayout c = true) →
      IsRun Char.isDigit xs → (∀ c ∈ gap', isLayout c = true) →
      (∀ c ∈ gap'', isLayout c = true) → IsRun Char.isDigit ys → Ends Char.isDigit after →
      Coordinated
        (before ++ (name ++ (between ++ '-' ::
          (gap ++ (xs ++ (gap' ++ ',' :: (gap'' ++ (ys ++ after))))))))
        (String.ofList name) (digitsValue xs) (digitsValue ys) after

/-- The insides of brackets `[name]`, with layout around the name and a text `after` that. -/
inductive Named : List Char → String → List Char → Prop
  | intro {before name between after : List Char} :
      (∀ c ∈ before, isLayout c = true) → IsRun isNameChar name →
      (∀ c ∈ between, isLayout c = true) → Ends isLayout after →
      Named (before ++ (name ++ (between ++ after))) (String.ofList name) after

/-- A bracket with a coordinate as it is usually written. -/
theorem coordinated_usual {name xs ys : List Char} (hname : IsRun isNameChar name)
    (hx : IsRun Char.isDigit xs) (hy : IsRun Char.isDigit ys) :
    Coordinated (name ++ ' ' :: '-' :: ' ' :: (xs ++ ',' :: ' ' :: ys)) (String.ofList name)
      (digitsValue xs) (digitsValue ys) [] := by
  have space : ∀ c ∈ [' '], isLayout c = true := List.all_eq_true.mp rfl
  have none : ∀ c ∈ ([] : List Char), isLayout c = true := List.all_eq_true.mp rfl
  simpa using Coordinated.intro none hname space space hx none space hy ends_nil

section Kinds

variable {c : Char} {run rest : List Char}

theorem not_isLayout_of_isNameChar (h : isNameChar c = true) : isLayout c = false := by
  cases layout : isLayout c with
  | false => rfl
  | true =>
    simp only [isLayout, Bool.or_eq_true, beq_iff_eq] at layout
    rcases layout with ((rfl | rfl) | rfl) | rfl <;> cases h

/-- A run is ended by another kind of character; layout may come first. -/
theorem ends_gap {p : Char → Bool} (layout : ∀ c ∈ run, isLayout c = true)
    (apart : ∀ c, isLayout c = true → p c = false) (stop : Ends p rest) : Ends p (run ++ rest) := by
  cases run with
  | nil => exact stop
  | cons first others => exact ends_cons (apart first (layout first List.mem_cons_self))

theorem ends_isLayout_of_isRun {p : Char → Bool} (valid : IsRun p run)
    (visible : ∀ c, p c = true → isLayout c = false) : Ends isLayout (run ++ rest) := by
  obtain ⟨first, others, rfl⟩ := List.exists_cons_of_ne_nil valid.nonempty
  exact ends_cons (visible first (valid.chars first List.mem_cons_self))

theorem not_isNameChar_of_isLayout (h : isLayout c = true) : isNameChar c = false := by
  cases name : isNameChar c with
  | false => rfl
  | true =>
    rw [not_isLayout_of_isNameChar name] at h
    cases h

theorem not_isDigit_of_isLayout (h : isLayout c = true) : c.isDigit = false := by
  cases digit : c.isDigit with
  | false => rfl
  | true =>
    rw [not_isLayout_of_isNameChar (isNameChar_of_isDigit digit)] at h
    cases h

end Kinds

/-! ## What the scanner reads -/

section Scan

variable {inner after left : List Char} {name : String} {x y : Nat} {ref : PropertyRef}

/-- From the minus sign on everything is read if both numerals fit, and nothing otherwise. -/
theorem scanPair_exact {gap xs gap' gap'' ys : List Char} (hgap : ∀ c ∈ gap, isLayout c = true)
    (hx : IsRun Char.isDigit xs) (hgap' : ∀ c ∈ gap', isLayout c = true)
    (hgap'' : ∀ c ∈ gap'', isLayout c = true) (hy : IsRun Char.isDigit ys)
    (stop : Ends Char.isDigit after) :
    scanPair ('-' :: (gap ++ (xs ++ (gap' ++ ',' :: (gap'' ++ (ys ++ after)))))) =
      if digitsValue xs < 4294967296 ∧ digitsValue ys < 4294967296 then
        some ((UInt32.ofNat (digitsValue xs), UInt32.ofNat (digitsValue ys)), after)
      else none := by
  have visible : ∀ c, c.isDigit = true → isLayout c = false := fun c digit =>
    not_isLayout_of_isNameChar (isNameChar_of_isDigit digit)
  have comma : Ends Char.isDigit (gap' ++ ',' :: (gap'' ++ (ys ++ after))) :=
    ends_gap hgap' (fun c => not_isDigit_of_isLayout) (ends_cons rfl)
  rw [scanPair, bind_apply, char_cons, Option.bind_some, bind_apply, layout_apply,
    dropWhile_exact hgap (ends_isLayout_of_isRun hx visible), Option.bind_some, bind_apply,
    scanCoordinate_exact hx comma]
  by_cases fitsX : digitsValue xs < 4294967296
  · rw [if_pos fitsX, Option.bind_some, bind_apply,
      mark_exact rfl hgap' hgap'' (ends_isLayout_of_isRun hy visible), Option.bind_some,
      bind_apply, scanCoordinate_exact hy stop]
    by_cases fitsY : digitsValue ys < 4294967296
    · rw [if_pos fitsY, if_pos ⟨fitsX, fitsY⟩]
      rfl
    · rw [if_neg fitsY, if_neg fun both => fitsY both.2]
      rfl
  · rw [if_neg fitsX, if_neg fun both => fitsX both.1]
    rfl

theorem scanPair_eq_some {text : List Char} {c : UInt32 × UInt32}
    (h : scanPair text = some (c, left)) : ∃ gap xs gap' gap'' ys,
      (∀ c ∈ gap, isLayout c = true) ∧ IsRun Char.isDigit xs ∧ (∀ c ∈ gap', isLayout c = true) ∧
      (∀ c ∈ gap'', isLayout c = true) ∧ IsRun Char.isDigit ys ∧ Ends Char.isDigit left ∧
      digitsValue xs = c.1.toNat ∧ digitsValue ys = c.2.toNat ∧
      text = '-' :: (gap ++ (xs ++ (gap' ++ ',' :: (gap'' ++ (ys ++ left))))) := by
  rw [scanPair, bind_apply] at h
  obtain ⟨⟨⟨⟩, first⟩, minus, h⟩ := Option.bind_eq_some_iff.mp h
  rw [bind_apply, layout_apply, Option.bind_some, bind_apply] at h
  obtain ⟨⟨x, second⟩, readX, h⟩ := Option.bind_eq_some_iff.mp h
  rw [bind_apply] at h
  obtain ⟨⟨⟨⟩, third⟩, comma, h⟩ := Option.bind_eq_some_iff.mp h
  rw [bind_apply] at h
  obtain ⟨⟨y, fourth⟩, readY, h⟩ := Option.bind_eq_some_iff.mp h
  cases h
  obtain ⟨xs, validX, valueX, textX, -⟩ := scanCoordinate_eq_some readX
  obtain ⟨gap', gap'', hgap', hgap'', parts, -⟩ := mark_eq_some comma
  obtain ⟨ys, validY, valueY, textY, stop⟩ := scanCoordinate_eq_some readY
  refine ⟨first.takeWhile isLayout, xs, gap', gap'', ys,
    fun c member => List.mem_takeWhile_imp member, validX, hgap', hgap'', validY, stop, valueX,
    valueY, ?_⟩
  rw [char_eq_some minus, ← textY, ← parts, ← textX, List.takeWhile_append_dropWhile]

/-- The name that a bracket starts with. -/
theorem identifier_exact_of_layout {before run rest : List Char}
    (layout : ∀ c ∈ before, isLayout c = true) (valid : IsRun isNameChar run)
    (stop : Ends isNameChar rest) :
    identifier ((before ++ (run ++ rest)).dropWhile isLayout) =
      some (String.ofList run, rest) := by
  rw [dropWhile_exact layout
      (ends_isLayout_of_isRun valid fun c => not_isLayout_of_isNameChar),
    identifier_exact valid stop]

/-- A bracket with a coordinate is read as it is written if its numerals fit 32 bits. -/
theorem scan_coordinated (h : Coordinated inner name x y after) (fits : x < 4294967296)
    (fits' : y < 4294967296) : PropertyRef.scan inner =
      some (⟨name, some (UInt32.ofNat x, UInt32.ofNat y)⟩, after) := by
  cases h with
  | intro hbefore hname hbetween hgap hx hgap' hgap'' hy stop =>
    rw [scan_apply, identifier_exact_of_layout hbefore hname
        (ends_gap hbetween (fun c => not_isNameChar_of_isLayout) (ends_cons rfl)),
      Option.bind_some]
    dsimp only
    rw [dropWhile_exact hbetween (ends_cons rfl), scanPair_exact hgap hx hgap' hgap'' hy stop,
      if_pos ⟨fits, fits'⟩]

/-- Otherwise the scanner goes no further than the name. -/
theorem scan_oversized (h : Coordinated inner name x y after)
    (large : ¬(x < 4294967296 ∧ y < 4294967296)) :
    ∃ rest, PropertyRef.scan inner = some (⟨name, none⟩, '-' :: rest) := by
  cases h with
  | @intro before name between gap xs gap' gap'' ys after hbefore hname hbetween hgap hx hgap'
      hgap'' hy stop =>
    refine ⟨gap ++ (xs ++ (gap' ++ ',' :: (gap'' ++ (ys ++ after)))), ?_⟩
    rw [scan_apply, identifier_exact_of_layout hbefore hname
        (ends_gap hbetween (fun c => not_isNameChar_of_isLayout) (ends_cons rfl)),
      Option.bind_some]
    dsimp only
    rw [dropWhile_exact hbetween (ends_cons rfl), scanPair_exact hgap hx hgap' hgap'' hy stop,
      if_neg large]

/-- Whatever is read has one of the two forms. -/
theorem scan_eq_some (h : PropertyRef.scan inner = some (ref, left)) :
    (∃ x y, ref.coordinate = some (x, y) ∧
      Coordinated inner ref.name x.toNat y.toNat left) ∨
    ref.coordinate = none ∧ Named inner ref.name left := by
  rw [scan_apply] at h
  obtain ⟨⟨_, rest⟩, read, h⟩ := Option.bind_eq_some_iff.mp h
  obtain ⟨run, valid, rfl, parts, -⟩ := identifier_eq_some read
  have start : inner = inner.takeWhile isLayout ++ (run ++ rest) := by
    rw [← parts, List.takeWhile_append_dropWhile]
  have middle : rest = rest.takeWhile isLayout ++ rest.dropWhile isLayout :=
    List.takeWhile_append_dropWhile.symm
  have layout (text : List Char) : ∀ c ∈ text.takeWhile isLayout, isLayout c = true :=
    fun c member => List.mem_takeWhile_imp member
  dsimp only at h
  split at h
  · rename_i c left' pair
    cases h
    obtain ⟨gap, xs, gap', gap'', ys, hgap, hx, hgap', hgap'', hy, stop, valueX, valueY, same⟩ :=
      scanPair_eq_some pair
    refine .inl ⟨c.1, c.2, rfl, ?_⟩
    rw [start, middle, same, ← valueX, ← valueY]
    exact .intro (layout inner) valid (layout rest) hgap hx hgap' hgap'' hy stop
  · cases h
    have shape := Named.intro (layout inner) valid (layout rest) (ends_dropWhile rest)
    rw [List.takeWhile_append_dropWhile, ← start] at shape
    exact .inr ⟨rfl, shape⟩

/-- Before everything else there is a name, with layout before it. -/
theorem start_of_scan (h : PropertyRef.scan inner = some (ref, left)) :
    ∃ before run rest, (∀ c ∈ before, isLayout c = true) ∧ IsRun isNameChar run ∧
      inner = before ++ (run ++ rest) := by
  rcases scan_eq_some h with ⟨x, y, -, shape⟩ | ⟨-, shape⟩
  · generalize x.toNat = x at shape
    generalize y.toNat = y at shape
    generalize ref.name = name at shape
    cases shape with
    | intro hbefore hname => exact ⟨_, _, _, hbefore, hname, rfl⟩
  · generalize ref.name = name at shape
    cases shape with
    | intro hbefore hname => exact ⟨_, _, _, hbefore, hname, rfl⟩

/-- What the scanner leaves is the end of the text. -/
theorem suffix_of_scan (h : PropertyRef.scan inner = some (ref, left)) : left <:+ inner := by
  rcases scan_eq_some h with ⟨x, y, -, shape⟩ | ⟨-, shape⟩
  · generalize x.toNat = x at shape
    generalize y.toNat = y at shape
    generalize ref.name = name at shape
    cases shape with
    | @intro before name between gap xs gap' gap'' ys =>
      refine ⟨before ++ (name ++ (between ++ '-' :: (gap ++ (xs ++ (gap' ++ ',' ::
        (gap'' ++ ys)))))), ?_⟩
      simp
  · generalize ref.name = name at shape
    cases shape with
    | @intro before name between => exact ⟨before ++ (name ++ between), by simp⟩

end Scan

/-! ## Tokens -/

section Tokens

variable {inner left : List Char} {name : String} {x y : Nat} {ref : PropertyRef}

theorem scanWhole?_eq_some {α : Type} {scanner : Scanner α} {text : List Char} {a : α} :
    scanWhole? scanner text = some a ↔
      ∃ left, scanner text = some (a, left) ∧ ∀ c ∈ left, isBlank c = true := by
  unfold scanWhole?
  cases scanner text with
  | none => simp
  | some r =>
    obtain ⟨b, left⟩ := r
    simp only [List.isEmpty_iff, trim_eq_nil_iff, Option.ite_none_right_eq_some, Option.some.injEq,
      Prod.mk.injEq]
    constructor
    · rintro ⟨blank, rfl⟩
      exact ⟨left, ⟨rfl, rfl⟩, blank⟩
    · rintro ⟨_, ⟨rfl, rfl⟩, blank⟩
      exact ⟨blank, rfl⟩

/-- No property bracket is taken for a random token. -/
theorem head?_of_scan (h : PropertyRef.scan inner = some (ref, left)) :
    (trimStart inner).head? ≠ some '$' := by
  obtain ⟨before, run, rest, layout, valid, rfl⟩ := start_of_scan h
  obtain ⟨first, others, rfl⟩ := List.exists_cons_of_ne_nil valid.nonempty
  have named := valid.chars first List.mem_cons_self
  have start : trimStart (before ++ (first :: others ++ rest)) = first :: (others ++ rest) :=
    dropWhile_exact (fun c member => isBlank_of_isLayout (layout c member))
      (ends_cons (not_isBlank_of_isNameChar named))
  rw [start]
  rintro ⟨rfl⟩
  cases named

/-- The property tokens are the texts that the scanner reads, up to blanks at the end. -/
theorem property?_eq_some : property? inner = some ref ↔
    ∃ left, PropertyRef.scan inner = some (ref, left) ∧ ∀ c ∈ left, isBlank c = true := by
  unfold property? Token.read
  constructor
  · intro h
    split at h
    · rename_i read
      cases h
      split at read
      · split at read
        · cases read
        · split at read <;> cases read
      · split at read
        · cases read
        · rename_i whole
          cases read
          exact scanWhole?_eq_some.mp whole
    · cases h
  · rintro ⟨left, scanned, blank⟩
    rw [if_neg (head?_of_scan scanned), scanWhole?_eq_some.mpr ⟨left, scanned, blank⟩]

/-- The insides of brackets `[name - x, y]`, with blanks around their parts. -/
def Writes (inner : List Char) (name : String) (x y : Nat) : Prop :=
  ∃ after, Coordinated inner name x y after ∧ ∀ c ∈ after, isBlank c = true

/-- A bracket with a coordinate is a token if its numerals fit 32 bits, and then it means what
it says. -/
theorem property?_of_writes (h : Writes inner name x y) :
    property? inner = if x < 4294967296 ∧ y < 4294967296 then
      some ⟨name, some (UInt32.ofNat x, UInt32.ofNat y)⟩ else none := by
  obtain ⟨after, shape, blank⟩ := h
  split
  · rename_i fits
    exact property?_eq_some.mpr ⟨after, scan_coordinated shape fits.1 fits.2, blank⟩
  · rename_i large
    rw [Option.eq_none_iff_forall_ne_some]
    intro ref found
    obtain ⟨left, scanned, blank⟩ := property?_eq_some.mp found
    obtain ⟨rest, stuck⟩ := scan_oversized shape large
    rw [stuck] at scanned
    cases scanned
    exact nomatch blank '-' List.mem_cons_self

theorem token_of_property? (h : property? inner = some ref) :
    Token.read inner = .ok (.property ref) := by
  unfold property? at h
  split at h
  · rename_i read
    cases h
    exact read
  · cases h

/-- No numeral of a token is too large. -/
theorem fits_of_writes (h : Writes inner name x y) {token : Token}
    (read : Token.read inner = .ok token) : x < 4294967296 ∧ y < 4294967296 := by
  by_contra large
  have missing := property?_of_writes h
  rw [if_neg large] at missing
  obtain ⟨after, shape, -⟩ := h
  obtain ⟨rest, scanned⟩ := scan_oversized shape large
  unfold property? Token.read at missing
  unfold Token.read at read
  rw [if_neg (head?_of_scan scanned)] at read missing
  cases whole : scanWhole? PropertyRef.scan inner with
  | none =>
    rw [whole] at read
    cases read
  | some ref =>
    rw [whole] at missing
    cases missing

end Tokens

/-! ## Where the scanner comes to the end -/

/-- The insides of brackets at the end of which stand no blanks, or layout after a name. -/
def Snug (inner : List Char) : Prop :=
  trimEnd inner = inner ∨ ',' ∉ inner ∧ ∀ c ∈ inner, isBlank c = true → isLayout c = true

instance (inner : List Char) : Decidable (Snug inner) :=
  letI : Decidable (∀ c ∈ inner, isBlank c = true → isLayout c = true) :=
    List.decidableBAll _ inner
  inferInstanceAs (Decidable (_ ∨ _))

section Snug

variable {inner left : List Char} {name : String} {x y : Nat} {ref : PropertyRef}

/-- A text that ends with blanks is longer than what trimming leaves of it. -/
theorem eq_nil_of_trimEnd {before after : List Char} (blank : ∀ c ∈ after, isBlank c = true)
    (h : trimEnd (before ++ after) = before ++ after) : after = [] := by
  obtain ⟨dropped, -, same⟩ := exists_trimEnd before
  have shorter := congrArg List.length same
  have equal := congrArg List.length h
  rw [trimEnd_append_blank blank] at equal
  simp only [List.length_append] at shorter equal
  exact List.eq_nil_of_length_eq_zero (by omega)

theorem Coordinated.trimEnd_eq_self (h : Coordinated inner name x y []) :
    trimEnd inner = inner := by
  generalize ends : ([] : List Char) = after at h
  cases h with
  | @intro before name between gap xs gap' gap'' ys after _ _ _ _ _ _ _ hy =>
    have visible (front : List Char) : trimEnd (front ++ ys) = front ++ ys :=
      trimEnd_append hy.nonempty fun c member =>
        not_isBlank_of_isNameChar (isNameChar_of_isDigit (hy.chars c member))
    subst ends
    simpa using visible (before ++ (name ++ (between ++ '-' :: (gap ++ (xs ++
      (gap' ++ ',' :: gap''))))))

theorem Coordinated.comma_mem (h : Coordinated inner name x y left) : ',' ∈ inner := by
  cases h with
  | intro => simp

/-- In front of what is left stand only name characters and layout. -/
theorem Named.eq_append (h : Named inner name left) :
    Ends isLayout left ∧ ∃ front, inner = front ++ left ∧
      ∀ c ∈ front, isNameChar c = true ∨ isLayout c = true := by
  cases h with
  | @intro before run between after hbefore hname hbetween stop =>
    refine ⟨stop, before ++ (run ++ between), by simp, fun c member => ?_⟩
    simp only [List.mem_append] at member
    rcases member with member | member | member
    · exact .inr (hbefore c member)
    · exact .inl (hname.chars c member)
    · exact .inr (hbetween c member)

/-- The scanner comes to the end of a token by itself if no blanks stop it. -/
theorem eq_nil_iff_snug (h : PropertyRef.scan inner = some (ref, left))
    (blank : ∀ c ∈ left, isBlank c = true) : left = [] ↔ Snug inner := by
  have shape := scan_eq_some h
  generalize ref.name = name at shape
  constructor
  · rintro rfl
    rcases shape with ⟨x, y, -, shape⟩ | ⟨-, shape⟩
    · exact .inl shape.trimEnd_eq_self
    · obtain ⟨-, front, same, plain⟩ := shape.eq_append
      rw [List.append_nil] at same
      subst same
      refine .inr ⟨fun comma => ?_, fun c member blank => ?_⟩
      · rcases plain ',' comma with named | layout
        · cases named
        · cases layout
      · rcases plain c member with named | layout
        · rw [not_isBlank_of_isNameChar named] at blank
          cases blank
        · exact layout
  · rintro (snug | ⟨noComma, plain⟩)
    · obtain ⟨before, rfl⟩ := suffix_of_scan h
      exact eq_nil_of_trimEnd blank snug
    · rcases shape with ⟨x, y, -, shape⟩ | ⟨-, shape⟩
      · exact absurd shape.comma_mem noComma
      · cases left with
        | nil => rfl
        | cons c rest =>
          have layout := plain c ((suffix_of_scan h).subset List.mem_cons_self)
            (blank c List.mem_cons_self)
          rw [shape.eq_append.1 c rfl] at layout
          cases layout

end Snug

end FallingSand.Expr
