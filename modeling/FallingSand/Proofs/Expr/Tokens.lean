import FallingSand.Proofs.Script.Drafts
import FallingSand.Proofs.Text.Trimming

/-!
# The tokens of an expression

An expression keeps one slot for each property token of its text, in the order of the text
and however often a property is named (`slots_of_compile`), and one range for each distinct
random token, in the order in which they are first met (`randoms_of_compile`). The blanks
around a text, and the text between brackets, have no part in this.
-/

namespace FallingSand.Expr

open FallingSand.Text

/-! ## Brackets of a text -/

/-- What stands in a piece that is a bracket. -/
def Piece.inside? : Piece → Option (List Char)
  | .bracket inner => some inner
  | _ => none

/-- What stands in the brackets of a text, in order. -/
def brackets (text : List Char) : List (List Char) := (pieces text).filterMap Piece.inside?

/-- A bracket ends at the first mark that closes it. -/
theorem piecesInside_append {inner : List Char} (closed : ']' ∉ inner) (read rest : List Char) :
    piecesInside read (inner ++ ']' :: rest) =
      .bracket (read.reverse ++ inner) :: piecesOutside [] rest := by
  induction inner generalizing read with
  | nil => rw [List.nil_append, piecesInside, if_pos rfl, List.append_nil]
  | cons c others ih =>
    rw [List.mem_cons, not_or] at closed
    rw [List.cons_append, piecesInside, if_neg (Ne.symm closed.1), ih closed.2]
    simp

section Marks

/-! What is true of the brackets of a text is true of everything that the pieces say apart
from plain text, so also of whether a bracket is left open. -/

variable {α : Type} {f : Piece → Option α} (plain : ∀ text, f (.plain text) = none)

include plain

/-- Plain text that was read before says nothing. -/
theorem filterMap_outside (read text : List Char) :
    (piecesOutside read text).filterMap f = (pieces text).filterMap f := by
  induction text generalizing read with
  | nil => simp [pieces, piecesOutside, plain]
  | cons c rest ih =>
    unfold pieces piecesOutside
    split
    · simp only [List.filterMap_cons, plain]
    · rw [ih, ih]

/-- Text in which no bracket opens may stand before. -/
theorem filterMap_pieces_append_left {before : List Char} (unopened : '[' ∉ before)
    (text : List Char) : (pieces (before ++ text)).filterMap f = (pieces text).filterMap f := by
  induction before with
  | nil => rfl
  | cons c rest ih =>
    rw [List.mem_cons, not_or] at unopened
    rw [List.cons_append, ← ih unopened.2, pieces, piecesOutside,
      if_neg (Ne.symm unopened.1), filterMap_outside plain]

/-- Text in which no bracket opens or closes may stand after, be it in an open bracket. -/
theorem filterMap_pieces_append_right {after : List Char} (unopened : '[' ∉ after)
    (unclosed : ']' ∉ after) (text : List Char) :
    (pieces (text ++ after)).filterMap f = (pieces text).filterMap f := by
  suffices both : (∀ read, (piecesOutside read (text ++ after)).filterMap f =
      (piecesOutside read text).filterMap f) ∧
      ∀ read, (piecesInside read (text ++ after)).filterMap f =
        (piecesInside read text).filterMap f from both.1 []
  induction text with
  | nil =>
    refine ⟨fun read => ?_, fun read => ?_⟩
    · rw [List.nil_append, filterMap_outside plain, filterMap_outside plain]
      simpa using filterMap_pieces_append_left plain unopened []
    · rw [List.nil_append]
      induction after generalizing read with
      | nil => rfl
      | cons c rest ih =>
        rw [List.mem_cons, not_or] at unopened unclosed
        have inside : piecesInside read (c :: rest) = piecesInside (c :: read) rest := by
          rw [piecesInside, if_neg (Ne.symm unclosed.1)]
        rw [inside, ih unopened.2 unclosed.2]
        rfl
  | cons c rest ih =>
    refine ⟨fun read => ?_, fun read => ?_⟩
    · rw [List.cons_append]
      unfold piecesOutside
      split
      · simp only [List.filterMap_cons, ih.2]
      · exact ih.1 _
    · rw [List.cons_append]
      unfold piecesInside
      split
      · simp only [List.filterMap_cons, ih.1]
      · exact ih.2 _

/-- Two texts one after the other say what both say, unless the first ends in a bracket. -/
theorem filterMap_pieces_append {text : List Char} (complete : Piece.unclosed ∉ pieces text)
    (after : List Char) : (pieces (text ++ after)).filterMap f =
      (pieces text).filterMap f ++ (pieces after).filterMap f := by
  -- Along the first text the place may be outside or inside a bracket.
  suffices both : (∀ read, Piece.unclosed ∉ piecesOutside read text →
      (piecesOutside read (text ++ after)).filterMap f =
        (piecesOutside read text).filterMap f ++ (pieces after).filterMap f) ∧
      ∀ read, Piece.unclosed ∉ piecesInside read text →
        (piecesInside read (text ++ after)).filterMap f =
          (piecesInside read text).filterMap f ++ (pieces after).filterMap f from
    both.1 [] complete
  clear complete
  induction text with
  | nil =>
    refine ⟨fun read _ => ?_, fun read complete => absurd List.mem_cons_self complete⟩
    simp [piecesOutside, plain, filterMap_outside plain]
  | cons c rest ih =>
    refine ⟨fun read complete => ?_, fun read complete => ?_⟩
    · rw [List.cons_append]
      unfold piecesOutside at complete ⊢
      split
      · rename_i opens
        rw [if_pos opens, List.mem_cons, not_or] at complete
        simp only [List.filterMap_cons, plain, ih.2 [] complete.2]
      · rename_i other
        rw [if_neg other] at complete
        exact ih.1 _ complete
    · rw [List.cons_append]
      unfold piecesInside at complete ⊢
      split
      · rename_i close
        rw [if_pos close, List.mem_cons, not_or] at complete
        simp only [List.filterMap_cons, ih.1 [] complete.2]
        cases f (.bracket read.reverse) <;> rfl
      · rename_i close
        rw [if_neg close] at complete
        exact ih.2 _ complete

/-- The blanks around a text say nothing. -/
theorem filterMap_pieces_trim (text : List Char) :
    (pieces (trim text)).filterMap f = (pieces text).filterMap f := by
  have apart {blanks : List Char} (blank : ∀ c ∈ blanks, isBlank c = true) {c : Char}
      (visible : isBlank c = false) : c ∉ blanks := by
    intro member
    rw [blank c member] at visible
    cases visible
  obtain ⟨before, blankBefore, start⟩ := exists_trimStart text
  obtain ⟨after, blankAfter, stop⟩ := exists_trimEnd (trimStart text)
  calc (pieces (trim text)).filterMap f
      _ = (pieces (trimEnd (trimStart text) ++ after)).filterMap f :=
        (filterMap_pieces_append_right plain (apart blankAfter rfl) (apart blankAfter rfl) _).symm
      _ = (pieces (trimStart text)).filterMap f := by rw [← stop]
      _ = (pieces (before ++ trimStart text)).filterMap f :=
        (filterMap_pieces_append_left plain (apart blankBefore rfl) _).symm
      _ = (pieces text).filterMap f := by rw [← start]

end Marks

theorem brackets_append_left {before : List Char} (unopened : '[' ∉ before) (text : List Char) :
    brackets (before ++ text) = brackets text :=
  filterMap_pieces_append_left (fun _ => rfl) unopened text

theorem brackets_append {text : List Char} (complete : Piece.unclosed ∉ pieces text)
    (after : List Char) : brackets (text ++ after) = brackets text ++ brackets after :=
  filterMap_pieces_append (fun _ => rfl) complete after

theorem brackets_trim (text : List Char) : brackets (trim text) = brackets text :=
  filterMap_pieces_trim (fun _ => rfl) text

/-- A bracket and what follows it. -/
theorem brackets_bracket {inner : List Char} (closed : ']' ∉ inner) (rest : List Char) :
    brackets ('[' :: (inner ++ ']' :: rest)) = inner :: brackets rest := by
  rw [brackets, pieces, piecesOutside, if_pos rfl, piecesInside_append closed]
  rfl

/-- Trimming leaves a bracket open that was open, and no other. -/
theorem unclosed_mem_pieces_trim {text : List Char} :
    Piece.unclosed ∈ pieces (trim text) ↔ Piece.unclosed ∈ pieces text := by
  have found (text : List Char) : Piece.unclosed ∈ pieces text ↔
      () ∈ (pieces text).filterMap fun piece => if piece = .unclosed then some () else none := by
    simp
  rw [found, found, filterMap_pieces_trim]
  exact fun _ => rfl

/-! ## Tokens -/

/-- The property that the inside of a bracket writes, if it writes one. -/
def property? (inner : List Char) : Option PropertyRef :=
  match Token.read inner with
  | .ok (.property ref) => some ref
  | _ => none

/-- The range that the inside of a bracket writes, if it writes one, and the text that tells
it from others. -/
def random? (inner : List Char) : Option (List Char × RandomRange) :=
  match Token.read inner with
  | .ok (.random range) => some (trim inner, range)
  | _ => none

/-- The property tokens of a text, in order. -/
def propertyTokens (text : List Char) : List PropertyRef := (brackets text).filterMap property?

/-- The distinct random tokens of a text, in the order in which they first occur. -/
def randomTokens (text : List Char) : List (List Char × RandomRange) :=
  ((brackets text).filterMap random?).eraseDupsBy fun a b => a.1 == b.1

/-- Where a property token reads or writes. -/
def PropertyRef.slot (mode : Mode) (ref : PropertyRef) : Slot :=
  ⟨ref.name, mode.offset ref.coordinate⟩

/-- What is known of the random tokens after one more. -/
def noteRandom (known : List (List Char × RandomRange)) (token : List Char × RandomRange) :
    List (List Char × RandomRange) :=
  if known.any (token.1 == ·.1) then known else known ++ [token]

/-- Taking note of tokens one by one gives the distinct ones. -/
theorem foldl_noteRandom (tokens : List (List Char × RandomRange)) :
    tokens.foldl noteRandom [] = tokens.eraseDupsBy fun a b => a.1 == b.1 := by
  suffices all : ∀ known, tokens.foldl noteRandom known =
      List.eraseDupsBy.loop (fun a b => a.1 == b.1) tokens known.reverse from all []
  induction tokens with
  | nil => simp [List.eraseDupsBy.loop]
  | cons token rest ih =>
    intro known
    rw [List.foldl_cons, ih, List.eraseDupsBy.loop, List.any_reverse, noteRandom]
    cases known.any (token.1 == ·.1) with
    | true => rfl
    | false => simp

/-! ## Compiling -/

section Parts

variable {source : List Char} {mode : Mode} {parts parts' : Parts}

/-- What a piece adds to the slots and to the ranges. -/
theorem Parts.add_ok {piece : Piece} (h : parts.add source mode piece = .ok parts') :
    piece ≠ .unclosed ∧
    parts'.slots = parts.slots ++ (piece.inside?.bind property?).toList.map (·.slot mode) ∧
    parts'.randoms = (piece.inside?.bind random?).toList.foldl noteRandom parts.randoms := by
  unfold Parts.add at h
  cases piece with
  | plain text =>
    cases h
    exact ⟨nofun, (List.append_nil _).symm, rfl⟩
  | unclosed => cases h
  | bracket inner =>
    dsimp only at h
    refine ⟨nofun, ?_⟩
    simp only [Piece.inside?, Option.bind_some, property?, random?]
    split at h
    · rename_i token read
      rw [read]
      cases h
      cases token with
      | property ref => exact ⟨rfl, rfl⟩
      | random range =>
        -- A known text is one that is found among the texts so far.
        have same : (parts.randoms.findIdx? (·.1 = trim inner)).isSome =
            parts.randoms.any (trim inner == ·.1) := by
          rw [List.findIdx?_isSome]
          congr 1
          funext entry
          simp only [Bool.beq_eq_decide_eq, eq_comm]
        simp only [addToken, Option.toList_none, List.map_nil, List.append_nil,
          Option.toList_some, List.foldl_cons, List.foldl_nil, noteRandom, ← same]
        cases parts.randoms.findIdx? (·.1 = trim inner) <;> exact ⟨rfl, rfl⟩
    · cases h
    · cases h

theorem Parts.foldlM_ok {list : List Piece}
    (h : list.foldlM (Parts.add source mode) parts = .ok parts') :
    Piece.unclosed ∉ list ∧
    parts'.slots = parts.slots ++
      ((list.filterMap Piece.inside?).filterMap property?).map (·.slot mode) ∧
    parts'.randoms =
      ((list.filterMap Piece.inside?).filterMap random?).foldl noteRandom parts.randoms := by
  induction list generalizing parts with
  | nil =>
    cases h
    exact ⟨List.not_mem_nil, (List.append_nil _).symm, rfl⟩
  | cons piece rest ih =>
    rw [List.foldlM_cons] at h
    obtain ⟨next, added, h⟩ := Script.bind_eq_ok.mp h
    obtain ⟨closed, slots, randoms⟩ := Parts.add_ok added
    obtain ⟨others, laterSlots, laterRandoms⟩ := ih h
    refine ⟨by simp [Ne.symm closed, others], ?_, ?_⟩
    · rw [laterSlots, slots, List.append_assoc, ← List.map_append]
      cases inside : piece.inside? with
      | none => simp [inside]
      | some inner => cases found : property? inner <;> simp [inside, found]
    · rw [laterRandoms, randoms]
      cases inside : piece.inside? with
      | none => simp [inside]
      | some inner => cases found : random? inner <;> simp [inside, found]

/-- Every bracket that is taken holds a token. -/
theorem Parts.token_of_foldlM {list : List Piece}
    (h : list.foldlM (Parts.add source mode) parts = .ok parts') :
    ∀ inner ∈ list.filterMap Piece.inside?, ∃ token, Token.read inner = .ok token := by
  induction list generalizing parts with
  | nil => exact fun _ member => absurd member List.not_mem_nil
  | cons piece rest ih =>
    rw [List.foldlM_cons] at h
    obtain ⟨next, added, h⟩ := Script.bind_eq_ok.mp h
    intro inner member
    obtain ⟨piece', found, inside⟩ := List.mem_filterMap.mp member
    cases found with
    | tail _ later => exact ih h inner (List.mem_filterMap.mpr ⟨piece', later, inside⟩)
    | head =>
      cases piece with
      | plain | unclosed => cases inside
      | bracket =>
        cases inside
        unfold Parts.add at added
        dsimp only at added
        split at added
        · rename_i token read
          exact ⟨token, read⟩
        · cases added
        · cases added

end Parts

variable {mode : Mode} {text : List Char} {e : Expr}

/-- What compiling a text goes through. -/
theorem exists_ok_of_isSome {ε α : Type} {result : Except ε α}
    (found : result.toOption.isSome = true) : ∃ a, result = .ok a := by
  cases result with
  | error error => cases found
  | ok a => exact ⟨a, rfl⟩

theorem compile_ok (h : compile mode text = .ok e) : ∃ parts formula,
    (pieces (trim text)).foldlM (Parts.add (trim text) mode) {} = .ok parts ∧
    Formula.read parts.text = .ok formula ∧
    e = { source := trim text, formulaText := parts.text, code := formula.fold,
          slots := parts.slots, randoms := parts.randoms } := by
  unfold compile at h
  dsimp only at h
  split at h
  · cases h
  obtain ⟨parts, taken, h⟩ := Script.bind_eq_ok.mp h
  split at h
  · cases h
  rename_i formula read
  cases h
  exact ⟨parts, formula, taken, read, rfl⟩

/-- A text with something on it whose pieces can be taken, and which is then a formula,
compiles. -/
theorem compile_of_parts (visible : trim text ≠ []) {parts : Parts} {formula : Formula}
    (taken : (pieces (trim text)).foldlM (Parts.add (trim text) mode) {} = .ok parts)
    (read : Formula.read parts.text = .ok formula) : compile mode text =
      .ok { source := trim text, formulaText := parts.text, code := formula.fold,
            slots := parts.slots, randoms := parts.randoms } := by
  unfold compile
  dsimp only
  rw [if_neg (by simpa using visible)]
  refine Script.bind_eq_ok.mpr ⟨parts, taken, ?_⟩
  rw [read]
  rfl

theorem source_of_compile (h : compile mode text = .ok e) : e.source = trim text := by
  obtain ⟨parts, formula, -, -, rfl⟩ := compile_ok h
  rfl

/-- Every property token has a slot of its own. -/
theorem slots_of_compile (h : compile mode text = .ok e) :
    e.slots = (propertyTokens text).map (·.slot mode) := by
  obtain ⟨parts, formula, taken, -, rfl⟩ := compile_ok h
  rw [propertyTokens, ← brackets_trim]
  exact (Parts.foldlM_ok taken).2.1

/-- Every distinct random token has a range. -/
theorem randoms_of_compile (h : compile mode text = .ok e) : e.randoms = randomTokens text := by
  obtain ⟨parts, formula, taken, -, rfl⟩ := compile_ok h
  rw [randomTokens, ← brackets_trim, ← foldl_noteRandom]
  exact (Parts.foldlM_ok taken).2.2

/-- In every bracket of a text that compiles stands a token. -/
theorem token_of_compile (h : compile mode text = .ok e) {inner : List Char}
    (member : inner ∈ brackets text) : ∃ token, Token.read inner = .ok token := by
  obtain ⟨parts, formula, taken, -, -⟩ := compile_ok h
  rw [← brackets_trim] at member
  exact Parts.token_of_foldlM taken inner member

/-- No bracket of a text that compiles is left open. -/
theorem closed_of_compile (h : compile mode text = .ok e) : Piece.unclosed ∉ pieces text := by
  obtain ⟨parts, formula, taken, -, rfl⟩ := compile_ok h
  rw [← unclosed_mem_pieces_trim]
  exact (Parts.foldlM_ok taken).1

/-! ## A text without brackets -/

theorem pieces_plain {text : List Char} (unopened : '[' ∉ text) :
    pieces text = [.plain text] := by
  suffices all : ∀ read, piecesOutside read text = [.plain (read.reverse ++ text)] from all []
  induction text with
  | nil => exact fun read => by rw [piecesOutside, List.append_nil]
  | cons c rest ih =>
    intro read
    rw [List.mem_cons, not_or] at unopened
    rw [piecesOutside, if_neg (Ne.symm unopened.1), ih unopened.2, List.reverse_cons,
      List.append_assoc, List.singleton_append]

/-- A formula is an expression, and in every mode. -/
theorem compile_plain (visible : trim text ≠ []) (unopened : '[' ∉ trim text)
    (wellFormed : (Formula.read (trim text)).toOption.isSome = true) :
    ∃ e, compile mode text = .ok e := by
  have taken : (pieces (trim text)).foldlM (Parts.add (trim text) mode) {} =
      .ok { text := trim text } := by
    rw [pieces_plain unopened]
    rfl
  obtain ⟨formula, read⟩ := exists_ok_of_isSome wellFormed
  exact ⟨_, compile_of_parts visible taken read⟩

/-! ## A bracket by itself -/

theorem trim_bracket (inner : List Char) :
    trim ('[' :: (inner ++ [']'])) = '[' :: (inner ++ [']']) := by
  refine trim_eq_self (fun c first => ?_) fun c last => ?_
  · cases first
    rfl
  · rw [← List.cons_append, List.getLast?_concat] at last
    cases last
    rfl

section Bracket

variable {inner : List Char} (closed : ']' ∉ inner)

include closed

theorem pieces_bracket :
    pieces ('[' :: (inner ++ [']'])) = [.plain [], .bracket inner, .plain []] := by
  rw [pieces, piecesOutside, if_pos rfl, piecesInside_append closed]
  rfl

/-- A property in brackets is an expression. -/
theorem compile_bracket {ref : PropertyRef} (token : property? inner = some ref) :
    ∃ e, compile mode ('[' :: (inner ++ [']'])) = .ok e := by
  have read : Token.read inner = .ok (.property ref) := by
    unfold property? at token
    split at token
    · rename_i same
      cases token
      exact same
    · cases token
  have taken : (pieces (trim ('[' :: (inner ++ [']'])))).foldlM
      (Parts.add (trim ('[' :: (inner ++ [']']))) mode) {} =
        .ok { text := " v_0 ".toList, slots := [ref.slot mode] } := by
    rw [trim_bracket, pieces_bracket closed]
    simp only [List.foldlM_cons, List.foldlM_nil, Parts.add, read]
    rfl
  have wellFormed : (Formula.read " v_0 ".toList).toOption.isSome = true := by decide +kernel
  obtain ⟨formula, found⟩ := exists_ok_of_isSome wellFormed
  exact ⟨_, compile_of_parts (by rw [trim_bracket]; exact List.cons_ne_nil _ _) taken found⟩

/-- A bracket that compiles holds a property if no random token stands in it. -/
theorem property?_of_compile (plain : (trimStart inner).head? ≠ some '$')
    (h : compile mode ('[' :: (inner ++ [']'])) = .ok e) : ∃ ref, property? inner = some ref := by
  obtain ⟨parts, formula, taken, -, -⟩ := compile_ok h
  rw [trim_bracket, pieces_bracket closed] at taken
  obtain ⟨first, -, taken⟩ := Script.bind_eq_ok.mp taken
  obtain ⟨second, added, -⟩ := Script.bind_eq_ok.mp taken
  unfold Parts.add Token.read at added
  unfold property? Token.read
  dsimp only at added
  rw [if_neg plain] at added ⊢
  cases token : scanWhole? PropertyRef.scan inner with
  | some ref => exact ⟨ref, rfl⟩
  | none =>
    rw [token] at added
    cases added

/-- The only slot of a property in brackets is its own. -/
theorem slots_bracket {ref : PropertyRef} (token : property? inner = some ref)
    (h : compile mode ('[' :: (inner ++ [']'])) = .ok e) : e.slots = [ref.slot mode] := by
  have tokens : propertyTokens ('[' :: (inner ++ [']'])) = [ref] := by
    rw [propertyTokens, brackets_bracket closed, List.filterMap_cons_some token]
    rfl
  rw [slots_of_compile h, tokens, List.map_singleton]

end Bracket

end FallingSand.Expr
