import FallingSand.CommandLine.Stroke
import FallingSand.Proofs.Number.Numerals
import FallingSand.Proofs.Text.Splitting
import FallingSand.Proofs.Text.Trimming

/-!
# Strokes that are read

A text is cut at its first at sign, and what follows that at the first comma. It is read as a
stroke if and only if the three parts are a material that is not blank and two numerals of
32-bit integers, with blanks around them (`Cut.read_eq_ok_iff`). What a stroke is written as
with blanks and signs and zeros is read as the stroke again, and nothing else is read
(`read_placement`).
-/

namespace FallingSand.CommandLine

open FallingSand.Number (IsDigits IsNumeral readInt32? readInt32?_eq_some_iff)
open FallingSand.Text
open FallingSand.Text.Scanner (isNameChar_of_isDigit not_isBlank_of_isNameChar)

/-- Whether a text is a part with blanks around it. -/
def Padded (part text : List Char) : Prop :=
  ∃ before after, (∀ c ∈ before, isBlank c = true) ∧ (∀ c ∈ after, isBlank c = true) ∧
    text = before ++ (part ++ after)

theorem Padded.trim_eq {part text : List Char} (padded : Padded part text) :
    trim text = trim part := by
  obtain ⟨before, after, front, back, rfl⟩ := padded
  exact trim_append_blank front back

/-- Padding brings in no character that is not blank. -/
theorem Padded.not_mem {part text : List Char} (padded : Padded part text) {c : Char}
    (visible : isBlank c = false) (without : c ∉ part) : c ∉ text := by
  obtain ⟨before, after, front, back, rfl⟩ := padded
  simp only [List.mem_append, not_or]
  exact ⟨fun member => by simp [front c member] at visible, without,
    fun member => by simp [back c member] at visible⟩

theorem padded_trim (text : List Char) : Padded (trim text) text := by
  obtain ⟨before, front, whole⟩ := exists_trimStart text
  obtain ⟨after, back, rest⟩ := exists_trimEnd (trimStart text)
  exact ⟨before, after, front, back, by rw [trim, ← rest, ← whole]⟩

/-- A numeral has no blanks. -/
theorem isBlank_of_mem_numeral {n : Int} {text : List Char} (numeral : IsNumeral n text) {c : Char}
    (member : c ∈ text) : isBlank c = false := by
  have kind := numeral.isRun.chars c member
  simp only [Bool.or_eq_true, beq_iff_eq] at kind
  rcases kind with (digit | rfl) | rfl
  · exact not_isBlank_of_isNameChar (isNameChar_of_isDigit digit)
  · rfl
  · rfl

/-- A numeral with blanks around it is trimmed to the numeral. -/
theorem Padded.trim_numeral {n : Int} {part text : List Char} (padded : Padded part text)
    (numeral : IsNumeral n part) : trim text = part := by
  rw [padded.trim_eq]
  refine trim_eq_self (fun c first => ?_) fun c last => ?_
  · exact isBlank_of_mem_numeral numeral (List.mem_of_head? first)
  · exact isBlank_of_mem_numeral numeral (List.mem_of_getLast? last)

theorem comma_notMem_numeral {n : Int} {text : List Char} (numeral : IsNumeral n text) :
    ',' ∉ text := fun member => by cases numeral.isRun.chars _ member

namespace Stroke

/-- Whether a text is cut into three parts at its first at sign and at the first comma after
it. -/
structure Cut (text material x y : List Char) : Prop where
  whole : text = material ++ '@' :: (x ++ ',' :: y)
  material : '@' ∉ material
  x : ',' ∉ x

/-- Whether three parts of a text ask for a stroke. -/
structure Asked (stroke : Stroke) (material x y : List Char) : Prop where
  visible : ∃ c ∈ material, isBlank c = false
  named : stroke.material = String.ofList (trim material)
  x : IsNumeral stroke.position.x.toInt (trim x)
  y : IsNumeral stroke.position.y.toInt (trim y)

variable {text material x y : List Char} {stroke : Stroke}

theorem cut_iff : Cut text material x y ↔ ∃ coordinates,
    splitAtFirst? ['@'] text = some (material, coordinates) ∧
      splitAtFirst? [','] coordinates = some (x, y) := by
  simp only [splitAtFirst?_eq_some_iff]
  constructor
  · rintro ⟨rfl, noAt, noComma⟩
    exact ⟨_, ⟨noAt, rfl⟩, noComma, rfl⟩
  · rintro ⟨_, ⟨noAt, rfl⟩, noComma, rfl⟩
    exact ⟨rfl, noAt, noComma⟩

/-- Some character of a text is left when it is trimmed, unless all are blank. -/
theorem exists_visible_iff : (∃ c ∈ text, isBlank c = false) ↔ trim text ≠ [] := by
  rw [Ne, trim_eq_nil_iff]
  simp

/-- A text that is cut is read as the stroke that its parts ask for. -/
theorem Cut.read_eq_ok_iff (cut : Cut text material x y) :
    read text = .ok stroke ↔ stroke.Asked material x y := by
  obtain ⟨coordinates, first, second⟩ := cut_iff.mp cut
  simp only [read, first, second]
  constructor
  · intro done
    split at done
    · cases done
    · cases done
    · rename_i px py readX readY
      split at done
      · cases done
      rename_i nonblank
      cases done
      refine ⟨exists_visible_iff.mpr (by simpa using nonblank), rfl, ?_, ?_⟩
      · exact readInt32?_eq_some_iff.mp readX
      · exact readInt32?_eq_some_iff.mp readY
  · rintro ⟨visible, named, numeralX, numeralY⟩
    rw [readInt32?_eq_some_iff.mpr numeralX, readInt32?_eq_some_iff.mpr numeralY]
    have nonblank : (trim material).isEmpty = false := by
      simpa using exists_visible_iff.mp visible
    simp only [nonblank, Bool.false_eq_true, if_false, ← named]

/-- A text that is not cut is no stroke. -/
theorem exists_cut (done : read text = .ok stroke) : ∃ material x y, Cut text material x y := by
  unfold read at done
  split at done
  · cases done
  rename_i material coordinates first
  split at done
  · cases done
  rename_i x y second
  exact ⟨material, x, y, cut_iff.mpr ⟨coordinates, first, second⟩⟩

/-- What keeps a text from being a stroke. -/
inductive Flawed : List Char → Prop
  | noPosition {text : List Char} (without : '@' ∉ text) : Flawed text
  | noComma {material coordinates : List Char} (first : '@' ∉ material)
      (without : ',' ∉ coordinates) : Flawed (material ++ '@' :: coordinates)
  | secondComma {text material x y : List Char} (cut : Cut text material x y) (second : ',' ∈ y) :
      Flawed text
  | missing {text material x y : List Char} (cut : Cut text material x y)
      (blank : (∀ c ∈ material, isBlank c = true) ∨ (∀ c ∈ x, isBlank c = true) ∨
        ∀ c ∈ y, isBlank c = true) : Flawed text
  | outOfRange {text material x y : List Char} {n : Int} (cut : Cut text material x y)
      (far : n < -2147483648 ∨ 2147483648 ≤ n)
      (numeral : IsNumeral n (trim x) ∨ IsNumeral n (trim y)) : Flawed text

/-- The integer of a coordinate fits 32 bits. -/
theorem not_isNumeral_of_far {n : Int} {word : Int32} (far : n < -2147483648 ∨ 2147483648 ≤ n)
    (numeral : IsNumeral word.toInt text) : ¬ IsNumeral n text := by
  intro other
  have same := other.unique numeral
  have low := word.le_toInt
  have high := word.toInt_lt
  omega

theorem Flawed.read_ne_ok (flawed : Flawed text) (stroke : Stroke) : read text ≠ .ok stroke := by
  intro done
  cases flawed with
  | noPosition without =>
    obtain ⟨material, x, y, cut⟩ := exists_cut done
    rw [cut.whole] at without
    simp at without
  | noComma first without =>
    obtain ⟨material, x, y, cut⟩ := exists_cut done
    obtain ⟨coordinates, atSign, comma⟩ := cut_iff.mp cut
    rw [splitAtFirst?_eq_some_iff.mpr ⟨first, rfl⟩] at atSign
    cases atSign
    rw [splitAtFirst?_eq_none without] at comma
    cases comma
  | secondComma cut second =>
    have asked := cut.read_eq_ok_iff.mp done
    refine (padded_trim _).not_mem rfl (comma_notMem_numeral asked.y) second
  | missing cut blank =>
    have asked := cut.read_eq_ok_iff.mp done
    rcases blank with blank | blank | blank
    · exact exists_visible_iff.mp asked.visible (trim_eq_nil_iff.mpr blank)
    · exact asked.x.isRun.nonempty (trim_eq_nil_iff.mpr blank)
    · exact asked.y.isRun.nonempty (trim_eq_nil_iff.mpr blank)
  | outOfRange cut far numeral =>
    have asked := cut.read_eq_ok_iff.mp done
    rcases numeral with numeral | numeral
    · exact not_isNumeral_of_far far asked.x numeral
    · exact not_isNumeral_of_far far asked.y numeral

/-- A material and two numerals with blanks around them are read as the material without these
blanks and the integers, and every text that is read is of this form, cut at its first at sign
and the first comma after it. So a second comma, a part that is missing and an integer beyond
32 bits are refused. -/
theorem read_placement :
    (∀ {material material' x x' y y' : List Char} {position : Vec}, '@' ∉ material →
      (∃ c ∈ material, isBlank c = false) → IsNumeral position.x.toInt x →
      IsNumeral position.y.toInt y → Padded material material' → Padded x x' → Padded y y' →
      read (material' ++ '@' :: (x' ++ ',' :: y')) =
        .ok ⟨String.ofList (trim material), position⟩) ∧
    (∀ {text : List Char} {stroke : Stroke}, read text = .ok stroke →
      ∃ material x y, text = material ++ '@' :: (x ++ ',' :: y) ∧ '@' ∉ material ∧ ',' ∉ x ∧
        trim material ≠ [] ∧ stroke.material = String.ofList (trim material) ∧
        IsNumeral stroke.position.x.toInt (trim x) ∧ IsNumeral stroke.position.y.toInt (trim y)) ∧
    ∀ {text : List Char}, Flawed text → ∃ error, read text = .error error := by
  refine ⟨?_, ?_, ?_⟩
  · intro material material' x x' y y' position noAt visible numeralX numeralY padded paddedX
      paddedY
    have cut : Cut _ material' x' y' := ⟨rfl, padded.not_mem rfl noAt,
      paddedX.not_mem rfl (comma_notMem_numeral numeralX)⟩
    refine cut.read_eq_ok_iff.mpr ⟨?_, by rw [padded.trim_eq], ?_, ?_⟩
    · rw [exists_visible_iff, padded.trim_eq]
      exact exists_visible_iff.mp visible
    · rwa [paddedX.trim_numeral numeralX]
    · rwa [paddedY.trim_numeral numeralY]
  · intro text stroke done
    obtain ⟨material, x, y, cut⟩ := exists_cut done
    have asked := cut.read_eq_ok_iff.mp done
    exact ⟨material, x, y, cut.whole, cut.material, cut.x, exists_visible_iff.mp asked.visible,
      asked.named, asked.x, asked.y⟩
  · intro text flawed
    cases outcome : read text with
    | error error => exact ⟨error, rfl⟩
    | ok stroke => exact (flawed.read_ne_ok stroke outcome).elim

/-- A material with a comma and blanks within it, a plus sign and zeros, and the least integer. -/
theorem read_placement_wetSand :
    read "\u00a0Wet, Sand @ +007\t,-2147483648".toList =
        .ok ⟨"Wet, Sand", ⟨7, -2147483648⟩⟩ ∧
      (∃ material x y, "Sand@10, 4".toList = material ++ '@' :: (x ++ ',' :: y) ∧
        '@' ∉ material ∧ ',' ∉ x ∧ IsNumeral 10 (trim x) ∧ IsNumeral 4 (trim y)) ∧
      ∃ error, read "Sand@1,2,3".toList = .error error := by
  refine ⟨?_, ?_, ?_⟩
  · have blanks : Padded "Wet, Sand".toList "\u00a0Wet, Sand ".toList :=
      ⟨['\u00a0'], [' '], List.forall_mem_singleton.mpr (by decide +kernel),
        List.forall_mem_singleton.mpr (by decide +kernel), rfl⟩
    have blanksX : Padded "+007".toList " +007\t".toList :=
      ⟨[' '], ['\t'], List.forall_mem_singleton.mpr (by decide +kernel),
        List.forall_mem_singleton.mpr (by decide +kernel), rfl⟩
    have blanksY : Padded "-2147483648".toList "-2147483648".toList :=
      ⟨[], [], nofun, nofun, rfl⟩
    have named : "Wet, Sand" = String.ofList (trim "Wet, Sand".toList) := by decide +kernel
    rw [named]
    refine read_placement.1 (by decide +kernel) ⟨'W', by decide +kernel, rfl⟩ ?_ ?_ blanks blanksX
      blanksY
    · exact .inl ⟨by decide, "007".toList, ⟨2, rfl⟩, .inr rfl⟩
    · exact .inr ⟨by decide, "2147483648".toList, ⟨0, by decide +kernel⟩, rfl⟩
  · have done : read "Sand@10, 4".toList = .ok ⟨"Sand", ⟨10, 4⟩⟩ := by decide +kernel
    obtain ⟨material, x, y, whole, noAt, noComma, -, -, numeralX, numeralY⟩ :=
      read_placement.2.1 done
    exact ⟨material, x, y, whole, noAt, noComma, numeralX, numeralY⟩
  · have cut : Cut "Sand@1,2,3".toList "Sand".toList ['1'] "2,3".toList :=
      ⟨rfl, by decide +kernel, by decide⟩
    exact read_placement.2.2 (.secondComma cut (by decide +kernel))

end Stroke

end FallingSand.CommandLine
