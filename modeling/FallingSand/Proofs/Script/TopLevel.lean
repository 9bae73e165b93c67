import FallingSand.Proofs.Text.Trimming
import FallingSand.Script.Statement

/-!
# Commas outside brackets

The bounds of a clamp and the components of a color are texts with commas between them, and some of
the commas belong to a part: those of a property bracket or of a call. A text is cut at a comma
if as many brackets are opened before it as are closed, whatever their kinds and their order
(`CutAt`). The cuts are found by one scan that counts the depth of the brackets. It is negative
where more are closed than opened, and there no comma counts until the depth is zero again. A
counter of 32 bits shows the depth of every text that is not too long (`cutTopLevel_int32`).

What is between the cuts makes up the text, and parts that are balanced and keep their commas in
brackets are found again when they are written with commas between them (`splitTopLevel_cuts`).
-/

namespace FallingSand.Script

open FallingSand.Text

def isOpening (c : Char) : Bool := c = '(' || c = '['
def isClosing (c : Char) : Bool := c = ')' || c = ']'

/-- Whether at a place of a text there is a comma before which as many brackets are opened as are
closed. -/
def CutAt (text : List Char) (i : Nat) : Prop :=
  text[i]? = some ',' ∧ (text.take i).countP isOpening = (text.take i).countP isClosing

instance (text : List Char) (i : Nat) : Decidable (CutAt text i) :=
  inferInstanceAs (Decidable (_ ∧ _))

/-- The places at which a text is cut, in order. -/
def cuts (text : List Char) : List Nat := (List.range text.length).filter (CutAt text ·)

/-- The pieces of a text from the place `start` on that lie between some places. -/
def piecesFrom (text : List Char) (start : Nat) : List Nat → List (List Char)
  | [] => [text.drop start]
  | i :: places => (text.take i).drop start :: piecesFrom text (i + 1) places

/-- A part that can stand between commas: there are no blanks at its ends, it closes as many
brackets as it opens, in whichever order, and it is cut nowhere by itself. -/
structure IsPart (part : List Char) : Prop where
  trimmed : trim part = part
  balanced : part.countP isOpening = part.countP isClosing
  whole : cuts part = []

/-! ## Depths -/

/-- How many more brackets a text opens than it closes. -/
def depth (text : List Char) : Int := text.countP isOpening - text.countP isClosing

theorem depth_append (before after : List Char) :
    depth (before ++ after) = depth before + depth after := by
  simp only [depth, List.countP_append]
  omega

theorem depth_cons (c : Char) (rest : List Char) : depth (c :: rest) = depth [c] + depth rest :=
  depth_append [c] rest

theorem depth_eq_zero_iff {text : List Char} :
    depth text = 0 ↔ text.countP isOpening = text.countP isClosing := by
  rw [depth]
  omega

/-- A counter of 32 bits that wraps around shows the depth of a text that is not longer than such
a counter can count, as no character changes the depth by more than one. -/
theorem toInt_ofInt_depth {text : List Char} (short : text.length < 2147483648) :
    (Int32.ofInt (depth text)).toInt = depth text := by
  have opened : text.countP isOpening ≤ text.length := List.countP_le_length
  have closed : text.countP isClosing ≤ text.length := List.countP_le_length
  exact Int32.toInt_ofInt_of_le (by unfold depth; omega) (by unfold depth; omega)

section Counters

variable {κ : Type} [OfNat κ 0] [OfNat κ 1] [Add κ] [Sub κ] [DecidableEq κ]

/-- The scan goes on with what the counter shows behind the character, and cuts at a comma where
it shows zero. -/
theorem cutTopLevel_counted (counter : Int → κ) (up : ∀ n, counter (n + 1) = counter n + 1)
    (down : ∀ n, counter (n - 1) = counter n - 1) (level : Int) (piece : List Char) (c : Char)
    (rest : List Char) : cutTopLevel (counter level) piece (c :: rest) =
      if c = ',' ∧ counter level = 0 then piece.reverse :: cutTopLevel (counter level) [] rest
      else cutTopLevel (counter (level + depth [c])) (c :: piece) rest := by
  rw [cutTopLevel]
  by_cases opening : c = '(' ∨ c = '['
  · have deeper : depth [c] = 1 := by rcases opening with rfl | rfl <;> rfl
    have other : c ≠ ',' := by rcases opening with rfl | rfl <;> decide
    rw [if_pos (by simpa using opening), if_neg (fun cut => other cut.1), deeper, up]
  by_cases closing : c = ')' ∨ c = ']'
  · have higher : depth [c] = -1 := by rcases closing with rfl | rfl <;> rfl
    have other : c ≠ ',' := by rcases closing with rfl | rfl <;> decide
    rw [if_neg (by simpa using opening), if_pos (by simpa using closing),
      if_neg (fun cut => other cut.1), higher, ← Int.sub_eq_add_neg, down]
  have same : depth [c] = 0 := by
    simp only [not_or] at opening closing
    simp [depth, isOpening, isClosing, opening, closing]
  rw [if_neg (by simpa using opening), if_neg (by simpa using closing), same, Int.add_zero]
  simp only [Bool.and_eq_true, decide_eq_true_eq]

end Counters

theorem cutTopLevel_cons (level : Int) (piece : List Char) (c : Char) (rest : List Char) :
    cutTopLevel level piece (c :: rest) =
      if c = ',' ∧ level = 0 then piece.reverse :: cutTopLevel level [] rest
      else cutTopLevel (level + depth [c]) (c :: piece) rest :=
  cutTopLevel_counted id (fun _ => rfl) (fun _ => rfl) level piece c rest

/-- Where it does not wrap around, a counter of 32 bits finds the same pieces. -/
theorem cutTopLevel_int32 {before rest : List Char}
    (short : (before ++ rest).length < 2147483648) (piece : List Char) :
    cutTopLevel (Int32.ofInt (depth before)) piece rest =
      cutTopLevel (depth before) piece rest := by
  induction rest generalizing before piece with
  | nil => rfl
  | cons c rest ih =>
    have counted : (Int32.ofInt (depth before)).toInt = depth before :=
      toInt_ofInt_depth (by rw [List.length_append] at short; omega)
    have zero : Int32.ofInt (depth before) = 0 ↔ depth before = 0 := by
      rw [← Int32.toInt_inj, counted, Int32.toInt_zero]
    have behind (piece : List Char) :
        cutTopLevel (Int32.ofInt (depth before + depth [c])) piece rest =
          cutTopLevel (depth before + depth [c]) piece rest := by
      rw [← depth_append]
      exact ih (by simpa using short) piece
    rw [cutTopLevel_counted Int32.ofInt (fun n => Int32.ofInt_add n 1)
      (fun n => Int32.ofInt_sub n 1), cutTopLevel_cons, behind]
    simp only [zero]
    split
    · rename_i cut
      have level : depth before + depth [c] = depth before := by
        rw [cut.1]
        exact Int.add_zero _
      rw [← level, behind]
    · rfl

/-! ## Cuts -/

/-- The places at which a text is cut that begins at some depth. -/
def cutsAt (level : Int) (text : List Char) : List Nat :=
  (List.range text.length).filter fun i => text[i]? = some ',' ∧ level + depth (text.take i) = 0

theorem cuts_eq (text : List Char) : cuts text = cutsAt 0 text :=
  List.filter_congr fun i _ => decide_eq_decide.mpr <| by
    rw [CutAt, Int.zero_add, depth_eq_zero_iff]

/-- Behind a character the cuts are those of the rest at the depth that the character leads to. -/
theorem cutsAt_cons (level : Int) (c : Char) (rest : List Char) : cutsAt level (c :: rest) =
    (if c = ',' ∧ level = 0 then [0] else []) ++
      (cutsAt (level + depth [c]) rest).map (· + 1) := by
  have later : ((List.range rest.length).map Nat.succ).filter (fun i =>
        (c :: rest)[i]? = some ',' ∧ level + depth ((c :: rest).take i) = 0) =
      (cutsAt (level + depth [c]) rest).map (· + 1) := by
    rw [List.filter_map, cutsAt]
    refine congrArg _ (List.filter_congr fun i _ => ?_)
    rw [Function.comp_apply, List.getElem?_cons_succ, List.take_succ_cons, depth_cons,
      Int.add_assoc]
  have first : ((c :: rest)[0]? = some ',' ∧ level + depth ((c :: rest).take 0) = 0) ↔
      c = ',' ∧ level = 0 := by
    rw [List.getElem?_cons_zero, List.take_zero, Option.some_inj]
    simp [depth]
  rw [cutsAt, List.length_cons, List.range_succ_eq_map, List.filter_cons, later]
  simp only [first, decide_eq_true_eq]
  split <;> rfl

/-! ## Pieces -/

theorem piecesFrom_cons (c : Char) (rest : List Char) (start : Nat) (places : List Nat) :
    piecesFrom (c :: rest) (start + 1) (places.map (· + 1)) = piecesFrom rest start places := by
  induction places generalizing start with
  | nil => rfl
  | cons i places ih => rw [List.map_cons, piecesFrom, ih, piecesFrom]; rfl

/-- A character before all places belongs to the first piece. -/
theorem piecesFrom_zero_cons (c : Char) (rest : List Char) (places : List Nat) :
    piecesFrom (c :: rest) 0 (places.map (· + 1)) =
      (piecesFrom rest 0 places).modifyHead (c :: ·) := by
  cases places with
  | nil => rfl
  | cons i places =>
    rw [List.map_cons, piecesFrom, piecesFrom_cons]
    rfl

theorem length_piecesFrom (text : List Char) (start : Nat) (places : List Nat) :
    (piecesFrom text start places).length = places.length + 1 := by
  induction places generalizing start with
  | nil => rfl
  | cons i places ih => rw [piecesFrom, List.length_cons, ih, List.length_cons]

/-- The scan finds the pieces between the cuts. What is known of the first one stands before it. -/
theorem cutTopLevel_eq (level : Int) (piece text : List Char) : cutTopLevel level piece text =
    (piecesFrom text 0 (cutsAt level text)).modifyHead (piece.reverse ++ ·) := by
  induction text generalizing level piece with
  | nil => simp [cutTopLevel, cutsAt, piecesFrom]
  | cons c rest ih =>
    rw [cutTopLevel_cons, cutsAt_cons]
    by_cases cut : c = ',' ∧ level = 0
    · -- the piece ends here, and of the next one nothing is known
      obtain ⟨rfl, rfl⟩ := cut
      have onward : cutTopLevel (0 : Int) [] rest = piecesFrom rest 0 (cutsAt 0 rest) := by
        rw [ih]
        exact congrFun List.modifyHead_id _
      have level : (0 : Int) + depth [','] = 0 := rfl
      rw [if_pos ⟨rfl, rfl⟩, if_pos ⟨rfl, rfl⟩, onward, level, List.singleton_append, piecesFrom,
        piecesFrom_cons, List.modifyHead_cons]
      simp
    · rw [if_neg cut, if_neg cut, ih, List.nil_append, piecesFrom_zero_cons,
        List.modifyHead_modifyHead]
      simp [Function.comp_def]

theorem cutTopLevel_eq_pieces (text : List Char) :
    cutTopLevel (0 : Int) [] text = piecesFrom text 0 (cuts text) := by
  rw [cutTopLevel_eq, cuts_eq]
  exact congrFun List.modifyHead_id _

theorem cutTopLevel_ne_nil (level : Int) (piece text : List Char) :
    cutTopLevel level piece text ≠ [] := by
  induction text generalizing level piece with
  | nil => exact List.cons_ne_nil _ _
  | cons c rest ih =>
    rw [cutTopLevel_cons]
    split
    · exact List.cons_ne_nil _ _
    · exact ih _ _

/-- No character is lost but the commas that are cut at. -/
theorem intercalate_cutTopLevel (level : Int) (piece text : List Char) :
    [','].intercalate (cutTopLevel level piece text) = piece.reverse ++ text := by
  induction text generalizing level piece with
  | nil => rw [cutTopLevel, List.intercalate_singleton, List.append_nil]
  | cons c rest ih =>
    rw [cutTopLevel_cons]
    split
    · rename_i cut
      rw [List.intercalate_cons_of_ne_nil (cutTopLevel_ne_nil _ _ _), ih, cut.1,
        List.append_assoc]
      rfl
    · rw [ih, List.reverse_cons, List.append_assoc, List.singleton_append]

/-! ## Parts -/

/-- A run without a cut is passed at once. -/
theorem cutTopLevel_append {level : Int} {run : List Char} (whole : cutsAt level run = [])
    (piece rest : List Char) : cutTopLevel level piece (run ++ rest) =
      cutTopLevel (level + depth run) (run.reverse ++ piece) rest := by
  induction run generalizing level piece with
  | nil => simp [depth]
  | cons c run ih =>
    rw [cutsAt_cons, List.append_eq_nil_iff, List.map_eq_nil_iff] at whole
    have other : ¬(c = ',' ∧ level = 0) := fun cut => by simp [cut] at whole
    rw [List.cons_append, cutTopLevel_cons, if_neg other, ih whole.2, depth_cons c run,
      Int.add_assoc, List.reverse_cons, List.append_assoc, List.singleton_append]

/-- A part is passed at once, and behind it no bracket is open. -/
theorem IsPart.passed {part : List Char} (valid : IsPart part) (piece rest : List Char) :
    cutTopLevel (0 : Int) piece (part ++ rest) =
      cutTopLevel (0 : Int) (part.reverse ++ piece) rest := by
  have whole : cutsAt 0 part = [] := by rw [← cuts_eq, valid.whole]
  rw [cutTopLevel_append whole, depth_eq_zero_iff.mpr valid.balanced, Int.add_zero]

/-- Parts with a comma and a space between them are cut at these commas. The spaces stay in front
of the parts. -/
theorem cutTopLevel_intercalate {first : List Char} {more : List (List Char)}
    (parts : ∀ part ∈ first :: more, IsPart part) (piece : List Char) :
    cutTopLevel (0 : Int) piece ([',', ' '].intercalate (first :: more)) =
      (piece.reverse ++ first) :: more.map (' ' :: ·) := by
  have known (piece first : List Char) :
      (first.reverse ++ piece).reverse = piece.reverse ++ first := by
    rw [List.reverse_append, List.reverse_reverse]
  induction more generalizing first piece with
  | nil =>
    have last := (parts first List.mem_cons_self).passed piece []
    rw [List.append_nil] at last
    rw [List.intercalate_singleton, last, cutTopLevel, known]
    rfl
  | cons next more ih =>
    obtain ⟨valid, rest⟩ := List.forall_mem_cons.mp parts
    have space : (0 : Int) + depth [' '] = 0 := rfl
    rw [List.intercalate_cons_cons, List.append_assoc, valid.passed, List.cons_append,
      List.singleton_append, cutTopLevel_cons, if_pos ⟨rfl, rfl⟩, known, cutTopLevel_cons,
      if_neg (by decide), space, ih rest]
    rfl

theorem splitTopLevel_intercalate {parts : List (List Char)} (nonempty : parts ≠ [])
    (valid : ∀ part ∈ parts, IsPart part) :
    splitTopLevel ([',', ' '].intercalate parts) = parts := by
  cases parts with
  | nil => exact absurd rfl nonempty
  | cons first more =>
    rw [splitTopLevel, cutTopLevel_intercalate valid, List.map_cons, List.map_map]
    have spaced {part : List Char} (here : part ∈ first :: more) : trim (' ' :: part) = part := by
      have blank : ∀ c ∈ [' '], isBlank c = true := List.all_eq_true.mp rfl
      have same : trim ([' '] ++ (part ++ [])) = trim part := trim_append_blank blank (by simp)
      rw [List.append_nil] at same
      exact same.trans (valid part here).trimmed
    congr 1
    · exact (valid first List.mem_cons_self).trimmed
    · refine (List.map_congr_left fun part here => ?_).trans (List.map_id _)
      exact spaced (List.mem_cons_of_mem _ here)

/-- A text is cut at the commas outside brackets and nowhere else: there is one part more than
there are such commas, the parts are the trimmed pieces between them, and the pieces with commas
between them are the text. A counter of 32 bits finds the same parts unless the text is too long
for it. Parts whose commas are in brackets come back when they are written with commas and spaces
between them. -/
theorem splitTopLevel_cuts :
    (∀ text : List Char, (splitTopLevel text).length = (cuts text).length + 1 ∧
      splitTopLevel text = (piecesFrom text 0 (cuts text)).map trim ∧
      [','].intercalate (piecesFrom text 0 (cuts text)) = text ∧
      (text.length < 2147483648 →
        (cutTopLevel (0 : Int32) [] text).map trim = splitTopLevel text)) ∧
    ∀ parts : List (List Char), parts ≠ [] → (∀ part ∈ parts, IsPart part) →
      splitTopLevel ([',', ' '].intercalate parts) = parts := by
  refine ⟨fun text => ⟨?_, ?_, ?_, fun short => ?_⟩, fun parts => splitTopLevel_intercalate⟩
  · rw [splitTopLevel, cutTopLevel_eq_pieces, List.length_map, length_piecesFrom]
  · rw [splitTopLevel, cutTopLevel_eq_pieces]
  · rw [← cutTopLevel_eq_pieces]
    exact intercalate_cutTopLevel 0 [] text
  · rw [splitTopLevel]
    exact congrArg _ (@cutTopLevel_int32 [] text short [])

/-- Of the four commas of this text the second and the fourth are cut at: the bracket that is open
there makes up for the one that is closed without having been opened. -/
def loose : List Char := "a), [b - 0, 1], (é, 2".toList

/-- Parts with commas in brackets, nested ones among them, and an empty part. -/
def mixedParts : List (List Char) := ["max([é - 0, 1], 2)", "", "(ü, [k])"].map String.toList

theorem loose_cuts :
    splitTopLevel loose = ["a), [b - 0", "1], (é", "2"].map String.toList ∧
    [','].intercalate (piecesFrom loose 0 (cuts loose)) = loose ∧
    loose.length < 2147483648 ∧
    (cutTopLevel (0 : Int32) [] loose).map trim = splitTopLevel loose ∧ mixedParts ≠ [] ∧
    (∀ part ∈ mixedParts, IsPart part) ∧
    splitTopLevel "max([é - 0, 1], 2), , (ü, [k])".toList = mixedParts := by
  have fields : ∀ part ∈ mixedParts, trim part = part ∧
      part.countP isOpening = part.countP isClosing ∧ cuts part = [] := by decide +kernel
  have valid : ∀ part ∈ mixedParts, IsPart part := fun part member =>
    have ⟨trimmed, balanced, whole⟩ := fields part member
    ⟨trimmed, balanced, whole⟩
  have nonempty : mixedParts ≠ [] := List.cons_ne_nil _ _
  have short : loose.length < 2147483648 := by decide
  obtain ⟨-, pieces, together, counted⟩ := splitTopLevel_cuts.1 loose
  refine ⟨pieces.trans (by decide +kernel), together, short, counted short, nonempty, valid, ?_⟩
  exact splitTopLevel_cuts.2 mixedParts nonempty valid

end FallingSand.Script
