import FallingSand.Number.Decimal
import FallingSand.Proofs.Text.Scanning

/-!
# Numerals of integers

A numeral is the decimal digits of a number with any zeros before them and maybe a sign. The
readers of natural numbers and of 32-bit integers take a whole text if and only if it is a
numeral of a number that fits, and give that number (`readNatural?_eq_some_iff`,
`readInt32?_eq_some_iff`).
-/

namespace FallingSand.Number

open FallingSand.Text.Scanner

/-! ## Digits -/

/-- Whether a text is the digits of a number, maybe with zeros before them. -/
def IsDigits (n : Nat) (text : List Char) : Prop :=
  ∃ zeros, text = List.replicate zeros '0' ++ Nat.toDigits 10 n

theorem isRun_toDigits (n : Nat) : IsRun Char.isDigit (Nat.toDigits 10 n) :=
  ⟨Nat.toDigits_ne_nil, fun _ member => Nat.isDigit_of_mem_toDigits (by decide) (by decide) member⟩

theorem IsDigits.isRun {n : Nat} {text : List Char} (digits : IsDigits n text) :
    IsRun Char.isDigit text := by
  obtain ⟨zeros, rfl⟩ := digits
  refine ⟨by simp [Nat.toDigits_ne_nil], fun c member => ?_⟩
  rcases List.mem_append.mp member with zero | digit
  · rw [List.eq_of_mem_replicate zero]
    rfl
  · exact (isRun_toDigits n).chars c digit

/-- One digit more after the digits that are read. -/
def addDigit (value : Nat) (c : Char) : Nat := 10 * value + (digit? c).getD 0

theorem digitsValue_eq_foldl (digits : List Char) :
    digitsValue digits = digits.foldl addDigit 0 := rfl

/-- A digit is the digit of its own value. -/
theorem digit_eq {c : Char} (digit : c.isDigit = true) :
    (digit? c).getD 0 < 10 ∧ Nat.digitChar ((digit? c).getD 0) = c := by
  have bounds : 48 ≤ c.toNat ∧ c.toNat ≤ 57 := by
    simpa [Char.isDigit, UInt32.le_iff_toNat_le] using digit
  have value : (digit? c).getD 0 = c.toNat - 48 := by
    rw [digit?, if_pos digit]
    rfl
  rw [value]
  refine ⟨by omega, Char.toNat_inj.mp ?_⟩
  rw [Nat.toNat_digitChar_of_lt_ten (by omega)]
  omega

/-- Behind a number that is not zero every digit counts. -/
theorem toDigits_append {digits : List Char} (chars : ∀ c ∈ digits, c.isDigit = true)
    {value : Nat} (positive : 0 < value) :
    Nat.toDigits 10 value ++ digits = Nat.toDigits 10 (digits.foldl addDigit value) := by
  induction digits generalizing value with
  | nil => exact List.append_nil _
  | cons c rest ih =>
    obtain ⟨head, tail⟩ := List.forall_mem_cons.mp chars
    obtain ⟨small, same⟩ := digit_eq head
    have longer : Nat.toDigits 10 value ++ [c] = Nat.toDigits 10 (addDigit value c) := by
      rw [addDigit, ← Nat.toDigits_append_toDigits (by decide) positive small,
        Nat.toDigits_of_lt_base small, same]
    have positive' : 0 < addDigit value c := by
      unfold addDigit
      omega
    rw [List.foldl_cons, ← ih tail positive', ← longer, List.append_assoc]
    rfl

/-- A run of digits is the digits of the number that it writes. -/
theorem isDigits_digitsValue {digits : List Char} (valid : IsRun Char.isDigit digits) :
    IsDigits (digitsValue digits) digits := by
  rw [digitsValue_eq_foldl]
  obtain ⟨nonempty, chars⟩ := valid
  induction digits with
  | nil => exact absurd rfl nonempty
  | cons c rest ih =>
    obtain ⟨head, tail⟩ := List.forall_mem_cons.mp chars
    rw [List.foldl_cons]
    by_cases zero : c = '0'
    · subst zero
      have kept : addDigit 0 '0' = 0 := rfl
      rw [kept]
      by_cases last : rest = []
      · exact ⟨0, by rw [last]; rfl⟩
      · obtain ⟨zeros, same⟩ := ih last tail
        refine ⟨zeros + 1, ?_⟩
        rw [List.replicate_succ, List.cons_append, ← same]
    · obtain ⟨small, same⟩ := digit_eq head
      have first : addDigit 0 c = (digit? c).getD 0 := by simp [addDigit]
      have positive : 0 < (digit? c).getD 0 := by
        refine Nat.pos_of_ne_zero fun vanishes => zero ?_
        rw [← same, vanishes]
        rfl
      refine ⟨0, ?_⟩
      rw [first, ← toDigits_append tail positive, Nat.toDigits_of_lt_base small, same]
      rfl

/-- A number is the value of its digits. -/
theorem digitsValue_toDigits (n : Nat) : digitsValue (Nat.toDigits 10 n) = n := by
  have step : ∀ (digits : List Char), (∀ c ∈ digits, c.isDigit = true) → ∀ value,
      digits.foldl addDigit value =
        digits.foldl (fun value c => 10 * value + (c.toNat - '0'.toNat)) value := by
    intro digits chars
    induction digits with
    | nil => exact fun _ => rfl
    | cons c rest ih =>
      obtain ⟨head, tail⟩ := List.forall_mem_cons.mp chars
      intro value
      have same : addDigit value c = 10 * value + (c.toNat - '0'.toNat) := by
        rw [addDigit, digit?, if_pos head]
        rfl
      rw [List.foldl_cons, List.foldl_cons, same, ih tail]
  rw [digitsValue_eq_foldl, step _ (isRun_toDigits n).chars, ← Nat.ofDigitChars_eq_foldl,
    Nat.ofDigitChars_ten_toDigits]

theorem IsDigits.digitsValue_eq {n : Nat} {text : List Char} (digits : IsDigits n text) :
    digitsValue text = n := by
  obtain ⟨zeros, rfl⟩ := digits
  have skipped : (List.replicate zeros '0').foldl addDigit 0 = 0 := by
    induction zeros with
    | zero => rfl
    | succ zeros ih => exact ih
  rw [digitsValue_eq_foldl, List.foldl_append, skipped, ← digitsValue_eq_foldl,
    digitsValue_toDigits]

/-- The digits of a number are read whole, unless it exceeds the limit. -/
theorem naturalUpTo_eq_some_iff {limit n : Nat} {text : List Char} :
    naturalUpTo limit text = some (n, []) ↔ n ≤ limit ∧ IsDigits n text := by
  constructor
  · intro read
    obtain ⟨digits, valid, rfl, small, same, -⟩ := naturalUpTo_eq_some read
    rw [List.append_nil] at same
    rw [same]
    exact ⟨small, isDigits_digitsValue valid⟩
  · rintro ⟨small, digits⟩
    have read := naturalUpTo_exact digits.isRun ends_nil limit
    rw [List.append_nil, digits.digitsValue_eq, if_pos small] at read
    exact read

/-! ## Signs -/

/-- Whether a text is the digits of a number, maybe with a plus sign before them. -/
def IsUnsigned (n : Nat) (text : List Char) : Prop :=
  ∃ digits, IsDigits n digits ∧ (text = digits ∨ text = '+' :: digits)

/-- Whether a text is the digits of an integer with a sign that it may have. Without a sign it
is not negative, and zero may have either sign. -/
def IsNumeral (n : Int) (text : List Char) : Prop :=
  0 ≤ n ∧ IsUnsigned n.natAbs text ∨
    n ≤ 0 ∧ ∃ digits, IsDigits n.natAbs digits ∧ text = '-' :: digits

/-- A numeral is not empty and made of digits and signs. -/
theorem IsNumeral.isRun {n : Int} {text : List Char} (numeral : IsNumeral n text) :
    IsRun (fun c => c.isDigit || c == '+' || c == '-') text := by
  have plain {n : Nat} {digits : List Char} (valid : IsDigits n digits) {c : Char}
      (member : c ∈ digits) : (c.isDigit || c == '+' || c == '-') = true := by
    rw [valid.isRun.chars c member, Bool.true_or, Bool.true_or]
  have signed {n : Nat} {digits : List Char} (valid : IsDigits n digits) {d : Char}
      (mark : d = '+' ∨ d = '-') :
      IsRun (fun c => c.isDigit || c == '+' || c == '-') (d :: digits) := by
    refine ⟨List.cons_ne_nil _ _, List.forall_mem_cons.mpr ⟨?_, fun c => plain valid⟩⟩
    rcases mark with rfl | rfl <;> rfl
  rcases numeral with ⟨-, digits, valid, rfl | rfl⟩ | ⟨-, digits, valid, rfl⟩
  · exact ⟨valid.isRun.nonempty, fun c => plain valid⟩
  · exact signed valid (.inl rfl)
  · exact signed valid (.inr rfl)

/-- Digits do not begin with a sign. -/
theorem IsDigits.head_ne {n : Nat} {c : Char} {text : List Char} (digits : IsDigits n (c :: text)) :
    c ≠ '+' ∧ c ≠ '-' := by
  have digit := digits.isRun.chars c List.mem_cons_self
  constructor <;> (rintro rfl; cases digit)

theorem exists_sign (text : List Char) : ∃ negative left, sign text = some (negative, left) := by
  unfold sign
  split <;> exact ⟨_, _, rfl⟩

/-- A numeral is its sign and the digits behind it. -/
theorem isNumeral_iff {n : Int} {text left : List Char} {negative : Bool}
    (signed : sign text = some (negative, left)) : IsNumeral n text ↔
      (if negative then n ≤ 0 else 0 ≤ n) ∧ IsDigits n.natAbs left := by
  unfold IsNumeral IsUnsigned
  unfold sign at signed
  split at signed
  · rename_i rest
    cases signed
    constructor
    · rintro (⟨-, digits, valid, same | same⟩ | ⟨side, digits, valid, same⟩)
      · exact absurd rfl (same ▸ valid).head_ne.2
      · exact absurd (List.cons.inj same).1 (by decide)
      · exact ⟨side, by rwa [(List.cons.inj same).2]⟩
    · exact fun ⟨side, digits⟩ => .inr ⟨side, left, digits, rfl⟩
  · rename_i rest
    cases signed
    constructor
    · rintro (⟨side, digits, valid, same | same⟩ | ⟨-, digits, -, same⟩)
      · exact absurd rfl (same ▸ valid).head_ne.1
      · exact ⟨side, by rwa [(List.cons.inj same).2]⟩
      · exact absurd (List.cons.inj same).1 (by decide)
    · exact fun ⟨side, digits⟩ => .inl ⟨side, left, digits, .inr rfl⟩
  · rename_i noMinus noPlus
    cases signed
    constructor
    · rintro (⟨side, digits, valid, same | same⟩ | ⟨-, digits, -, same⟩)
      · exact ⟨side, by rwa [same]⟩
      · exact (noPlus digits same).elim
      · exact (noMinus digits same).elim
    · exact fun ⟨side, digits⟩ => .inl ⟨side, text, digits, .inl rfl⟩

/-- A numeral is a numeral of one integer. -/
theorem IsNumeral.unique {m n : Int} {text : List Char} (left : IsNumeral m text)
    (right : IsNumeral n text) : m = n := by
  obtain ⟨negative, digits, signed⟩ := exists_sign text
  obtain ⟨sideLeft, left⟩ := (isNumeral_iff signed).mp left
  obtain ⟨sideRight, right⟩ := (isNumeral_iff signed).mp right
  have absolute : m.natAbs = n.natAbs := left.digitsValue_eq.symm.trans right.digitsValue_eq
  cases negative <;> simp only [if_true, if_false, Bool.false_eq_true] at sideLeft sideRight <;>
    omega

/-- What is made of digits that go on to the end of a text. -/
theorem match_naturalUpTo_eq_some_iff {limit n : Nat} {digits : List Char} :
    (match naturalUpTo limit digits with
      | some (value, []) => some value
      | _ => none) = some n ↔ n ≤ limit ∧ IsDigits n digits := by
  rw [← naturalUpTo_eq_some_iff]
  split <;> simp_all

/-- A natural number is read of its numerals and of nothing else. -/
theorem readNatural?_eq_some_iff {limit n : Nat} {text : List Char} :
    readNatural? limit text = some n ↔ n ≤ limit ∧ IsUnsigned n text := by
  unfold readNatural?
  split
  · rename_i rest
    refine match_naturalUpTo_eq_some_iff.trans
      (and_congr_right fun _ => ⟨fun digits => ⟨rest, digits, .inr rfl⟩, ?_⟩)
    rintro ⟨digits, valid, same | same⟩
    · exact absurd rfl (same ▸ valid).head_ne.1
    · rwa [(List.cons.inj same).2]
  · rename_i unsigned
    refine match_naturalUpTo_eq_some_iff.trans
      (and_congr_right fun _ => ⟨fun digits => ⟨text, digits, .inl rfl⟩, ?_⟩)
    rintro ⟨digits, valid, same | same⟩
    · rwa [same]
    · exact (unsigned digits same).elim

/-- What is made of the digits that are left behind a sign. -/
theorem match_digits_eq_some_iff {left : List Char} {x : Int32} (limit : Nat) (word : Nat → Int32) :
    (match (naturalUpTo limit left).bind fun r => some (word r.1, r.2) with
      | some (value, []) => some value
      | _ => none) = some x ↔ ∃ n ≤ limit, IsDigits n left ∧ word n = x := by
  constructor
  · intro found
    split at found
    · rename_i value taken
      cases found
      obtain ⟨⟨n, rest⟩, read, same⟩ := Option.bind_eq_some_iff.mp taken
      obtain ⟨rfl, rfl⟩ := Prod.mk.inj (Option.some.inj same)
      obtain ⟨small, digits⟩ := naturalUpTo_eq_some_iff.mp read
      exact ⟨n, small, digits, rfl⟩
    · cases found
  · rintro ⟨n, small, digits, rfl⟩
    rw [naturalUpTo_eq_some_iff.mpr ⟨small, digits⟩]
    rfl

/-- An integer that fits 32 bits is the value of its word. -/
theorem ofInt_eq_iff {n : Int} {x : Int32} (low : -2147483648 ≤ n) (high : n < 2147483648) :
    Int32.ofInt n = x ↔ n = x.toInt := by
  constructor
  · rintro rfl
    exact (Int32.toInt_ofInt_of_le low high).symm
  · rintro rfl
    exact Int32.ofInt_toInt x

/-- Behind a sign an integer is read of the digits of its absolute value. -/
theorem readInt32?_of_sign {text left : List Char} {negative : Bool} {x : Int32}
    (signed : sign text = some (negative, left)) : readInt32? text = some x ↔
      (if negative then x.toInt ≤ 0 else 0 ≤ x.toInt) ∧ IsDigits x.toInt.natAbs left := by
  have low := x.le_toInt
  have high := x.toInt_lt
  unfold readInt32?
  rw [int32, bind_apply, signed]
  cases negative with
  | true =>
    refine (match_digits_eq_some_iff 0x80000000 fun n => Int32.ofInt (-n)).trans ⟨?_, ?_⟩
    · rintro ⟨n, small, digits, same⟩
      have same := (ofInt_eq_iff (by omega) (by omega)).mp same
      have absolute : x.toInt.natAbs = n := by omega
      rw [absolute]
      exact ⟨show x.toInt ≤ 0 by omega, digits⟩
    · rintro ⟨side, digits⟩
      have side : x.toInt ≤ 0 := side
      exact ⟨_, by omega, digits, (ofInt_eq_iff (by omega) (by omega)).mpr (by omega)⟩
  | false =>
    refine (match_digits_eq_some_iff 0x7FFFFFFF fun n => Int32.ofInt n).trans ⟨?_, ?_⟩
    · rintro ⟨n, small, digits, same⟩
      have same := (ofInt_eq_iff (by omega) (by omega)).mp same
      have absolute : x.toInt.natAbs = n := by omega
      rw [absolute]
      exact ⟨show 0 ≤ x.toInt by omega, digits⟩
    · rintro ⟨side, digits⟩
      have side : 0 ≤ x.toInt := side
      exact ⟨_, by omega, digits, (ofInt_eq_iff (by omega) (by omega)).mpr (by omega)⟩

/-- A 32-bit integer is read of its numerals and of nothing else. -/
theorem readInt32?_eq_some_iff {x : Int32} {text : List Char} :
    readInt32? text = some x ↔ IsNumeral x.toInt text := by
  obtain ⟨negative, left, signed⟩ := exists_sign text
  rw [readInt32?_of_sign signed, isNumeral_iff signed]

end FallingSand.Number
