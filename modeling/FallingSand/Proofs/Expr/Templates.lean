import FallingSand.Proofs.Expr.Tokens
import FallingSand.Proofs.Text.Scanning
import FallingSand.Proofs.Text.Splitting

/-!
# Templates

An expression is read as a formula once there is a variable in the place of each token. A
template is the text with the places left open: it can be filled with other variables than
`v_0`, `r_0` and so on, which compiling takes (`formulaText_of_compile`). A space stands on
either side of every place, so no name or number of the text around runs into a variable
(`Spaced`), and what the text begins with is seen before the places are filled.
-/

namespace FallingSand.Expr

open FallingSand.Text
open FallingSand.Text.Scanner (IsRun Ends ends_nil ends_cons takeWhile_exact dropWhile_exact)
open Reader (startsName continuesName isSpace)

/-! ## Variables and their names -/

/-- What a token stands for: the value of a property token, numbered in the order of the
text, or the draw of a distinct random token, numbered by its first occurrence. -/
inductive Variable where
  | property (n : Nat)
  | random (n : Nat)
  deriving DecidableEq, Repr

/-- The names that mean something in a formula by themselves. -/
def reserved : List String :=
  Function.all.map (·.name) ++ ["print", "log", "round", "min", "max", "e", "pi"]

/-- A name that is read as one where an operand stands: no number begins with it. -/
structure IsName (name : List Char) : Prop where
  starts : ∃ c rest, name = c :: rest ∧ startsName c = true
  continues : ∀ c ∈ name, continuesName c = true
  nan : dropLead? ['N', 'a', 'N'] name = none
  inf : dropLead? ['i', 'n', 'f'] name = none

/-- A name that is read as a variable wherever it stands between spaces. -/
structure IsVariable (name : List Char) : Prop extends IsName name where
  or : dropLead? ['o', 'r'] name = none
  and : dropLead? ['a', 'n', 'd'] name = none
  free : String.ofList name ∉ reserved

/-- A choice of names for variables. -/
structure Naming where
  name : Variable → List Char
  valid : ∀ v, IsVariable (name v)

/-! ## Filling -/

/-- A character of a text, or a place for a variable. -/
inductive Letter where
  | char (c : Char)
  | hole (v : Variable)
  deriving DecidableEq, Repr

/-- A text with places for variables. -/
abbrev Template := List Letter

/-- The text that a template gives with names in its places. -/
def fill (name : Variable → List Char) : Template → List Char
  | [] => []
  | .char c :: rest => c :: fill name rest
  | .hole v :: rest => name v ++ fill name rest

theorem fill_append (name : Variable → List Char) (t t' : Template) :
    fill name (t ++ t') = fill name t ++ fill name t' := by
  induction t with
  | nil => rfl
  | cons letter rest ih =>
    cases letter with
    | char c => exact congrArg (c :: ·) ih
    | hole v => rw [List.cons_append, fill, ih, fill, List.append_assoc]

theorem fill_chars (name : Variable → List Char) (text : List Char) :
    fill name (text.map .char) = text := by
  induction text with
  | nil => rfl
  | cons c rest ih => exact congrArg (c :: ·) ih

/-- A place for a variable with the spaces around it. -/
def place (v : Variable) : Template := [.char ' ', .hole v, .char ' ']

/-- The variable of a token that stands after `n` property tokens. -/
def variableOf (randoms : List (List Char × RandomRange)) (n : Nat) (inner : List Char) :
    Variable :=
  match property? inner with
  | some _ => .property n
  | none => .random (randoms.findIdx (·.1 = trim inner))

/-- The template of some pieces of a text that stand after `n` property tokens. -/
def templateOf (randoms : List (List Char × RandomRange)) : Nat → List Piece → Template
  | _, [] => []
  | n, .plain text :: rest => text.map .char ++ templateOf randoms n rest
  | n, .unclosed :: rest => templateOf randoms n rest
  | n, .bracket inner :: rest => place (variableOf randoms n inner) ++
    templateOf randoms (n + (property? inner).toList.length) rest

/-- A text with a place for each of its tokens. -/
def template (text : List Char) : Template := templateOf (randomTokens text) 0 (pieces text)

/-- The names that compiling gives to variables. -/
def ownName : Variable → List Char
  | .property n => 'v' :: '_' :: Nat.toDigits 10 n
  | .random n => 'r' :: '_' :: Nat.toDigits 10 n

/-- Known ranges keep their numbers when others are noted. -/
theorem prefix_foldl_noteRandom (known tokens : List (List Char × RandomRange)) :
    known <+: tokens.foldl noteRandom known := by
  induction tokens generalizing known with
  | nil => exact List.prefix_refl known
  | cons token rest ih =>
    refine List.IsPrefix.trans ?_ (ih _)
    unfold noteRandom
    split
    · exact List.prefix_refl known
    · exact List.prefix_append known [token]

section Parts

variable {source : List Char} {mode : Mode} {parts parts' : Parts}
  {randoms : List (List Char × RandomRange)}

/-- A token adds its variable to the text. -/
theorem Parts.text_addToken {inner : List Char} {token : Token}
    (read : Token.read inner = .ok token)
    (known : (parts.addToken mode inner token).randoms <+: randoms) :
    (parts.addToken mode inner token).text =
      parts.text ++ fill ownName (place (variableOf randoms parts.slots.length inner)) := by
  cases token with
  | property ref =>
    unfold variableOf property?
    rw [read]
    rfl
  | random range =>
    have number : randoms.findIdx (·.1 = trim inner) =
        (parts.randoms.findIdx? (·.1 = trim inner)).getD parts.randoms.length := by
      obtain ⟨more, rfl⟩ := known
      unfold addToken
      dsimp only
      cases found : parts.randoms.findIdx? (·.1 = trim inner) with
      | some n =>
        obtain ⟨inside, first⟩ := List.findIdx?_eq_some_iff_findIdx_eq.mp found
        rw [List.findIdx_append, if_pos (first.symm ▸ inside), first, Option.getD_some]
      | none =>
        have new := List.findIdx?_eq_none_iff_findIdx_eq.mp found
        rw [List.append_assoc, List.findIdx_append, new, if_neg (Nat.lt_irrefl _),
          List.singleton_append, List.findIdx_cons]
        simp
    unfold variableOf property?
    rw [read, number]
    unfold addToken
    dsimp only
    cases parts.randoms.findIdx? (·.1 = trim inner) <;> rfl

/-- What the pieces of a text add to the text of the formula. -/
theorem Parts.text_of_foldlM {list : List Piece}
    (h : list.foldlM (Parts.add source mode) parts = .ok parts')
    (known : parts'.randoms <+: randoms) :
    parts'.text = parts.text ++ fill ownName (templateOf randoms parts.slots.length list) := by
  induction list generalizing parts with
  | nil =>
    cases h
    exact (List.append_nil _).symm
  | cons piece rest ih =>
    rw [List.foldlM_cons] at h
    obtain ⟨next, added, h⟩ := Script.bind_eq_ok.mp h
    have later := ih h
    obtain ⟨-, -, grown⟩ := Parts.foldlM_ok h
    have before : next.randoms <+: randoms :=
      (grown ▸ prefix_foldl_noteRandom _ _ : next.randoms <+: parts'.randoms).trans known
    obtain ⟨-, slots, -⟩ := Parts.add_ok added
    have count := congrArg List.length slots
    rw [List.length_append, List.length_map] at count
    unfold Parts.add at added
    cases piece with
    | unclosed => cases added
    | plain text =>
      cases added
      rw [later, templateOf, fill_append, fill_chars, List.append_assoc]
    | bracket inner =>
      dsimp only at added
      split at added
      · rename_i token read
        cases added
        rw [later, Parts.text_addToken read before, count, templateOf, fill_append,
          List.append_assoc]
        rfl
      · cases added
      · cases added

end Parts

variable {mode : Mode} {text : List Char} {e : Expr}

/-- Compiling fills the places of a text with names of its own. -/
theorem formulaText_of_compile (h : compile mode text = .ok e) :
    e.formulaText = fill ownName (template (trim text)) := by
  obtain ⟨parts, formula, taken, -, rfl⟩ := compile_ok h
  obtain ⟨-, -, randoms⟩ := Parts.foldlM_ok taken
  have known : parts.randoms = randomTokens (trim text) := by
    rw [randoms, randomTokens, ← foldl_noteRandom]
    rfl
  exact Parts.text_of_foldlM taken (known ▸ List.prefix_refl _)

/-- The text of every random token is among those of the distinct ones. -/
theorem exists_mem_foldl_noteRandom {known tokens : List (List Char × RandomRange)}
    {token : List Char × RandomRange} (member : token ∈ tokens) :
    ∃ r ∈ tokens.foldl noteRandom known, r.1 = token.1 := by
  induction tokens generalizing known with
  | nil => exact absurd member List.not_mem_nil
  | cons first rest ih =>
    rw [List.foldl_cons]
    cases member with
    | tail _ later => exact ih later
    | head =>
      have noted : ∃ r ∈ noteRandom known token, r.1 = token.1 := by
        unfold noteRandom
        split
        · rename_i found
          obtain ⟨r, inside, same⟩ := List.any_eq_true.mp found
          exact ⟨r, inside, (eq_of_beq same).symm⟩
        · exact ⟨token, List.mem_append_right _ List.mem_cons_self, rfl⟩
      obtain ⟨r, inside, same⟩ := noted
      exact ⟨r, (prefix_foldl_noteRandom _ _).subset inside, same⟩

/-- A bracket that holds a token and no property holds one of the random tokens. -/
theorem exists_randomToken {inner : List Char} {token : Token} (member : inner ∈ brackets text)
    (read : Token.read inner = .ok token) (missing : property? inner = none) :
    ∃ r ∈ randomTokens text, r.1 = trim inner := by
  have found : ∃ range, random? inner = some (trim inner, range) := by
    unfold property? at missing
    unfold random?
    rw [read] at missing ⊢
    cases token with
    | property ref => cases missing
    | random range => exact ⟨range, rfl⟩
  obtain ⟨range, found⟩ := found
  rw [randomTokens, ← foldl_noteRandom]
  exact exists_mem_foldl_noteRandom (List.mem_filterMap.mpr ⟨inner, member, found⟩)

/-! ## Spaces around places -/

/-- Whether a template begins with no place. -/
def Template.plain : Template → Prop
  | .hole _ :: _ => False
  | _ => True

/-- Every place stands between spaces, or at the start, and is one for a variable of a kind. -/
inductive Spaced (V : Variable → Prop) : Template → Prop
  | nil : Spaced V []
  | char {c : Char} {t : Template} (next : c = ' ' ∨ t.plain) (spaced : Spaced V t) :
    Spaced V (.char c :: t)
  | hole {v : Variable} {t : Template} (known : V v) (spaced : Spaced V (.char ' ' :: t)) :
    Spaced V (.hole v :: .char ' ' :: t)

/-- The variables of so many property tokens and so many random tokens. -/
def Within (properties randoms : Nat) : Variable → Prop
  | .property n => n < properties
  | .random n => n < randoms

theorem spaced_append {V : Variable → Prop} (run : List Char) {t : Template} (plain : t.plain)
    (spaced : Spaced V t) :
    Template.plain (run.map .char ++ t) ∧ Spaced V (run.map .char ++ t) := by
  induction run with
  | nil => exact ⟨plain, spaced⟩
  | cons c rest ih => exact ⟨trivial, .char (.inr ih.1) ih.2⟩

theorem spaced_place {V : Variable → Prop} {v : Variable} (known : V v) {t : Template}
    (spaced : Spaced V t) : Template.plain (place v ++ t) ∧ Spaced V (place v ++ t) :=
  ⟨trivial, .char (.inl rfl) (.hole known (.char (.inl rfl) spaced))⟩

theorem spaced_templateOf {randoms : List (List Char × RandomRange)} {total n : Nat}
    {list : List Piece}
    (count : n + ((list.filterMap Piece.inside?).filterMap property?).length ≤ total)
    (tokens : ∀ inner ∈ list.filterMap Piece.inside?, property? inner = none →
      ∃ r ∈ randoms, r.1 = trim inner) :
    (templateOf randoms n list).plain ∧
      Spaced (Within total randoms.length) (templateOf randoms n list) := by
  induction list generalizing n with
  | nil => exact ⟨trivial, .nil⟩
  | cons piece rest ih =>
    cases piece with
    | plain text =>
      obtain ⟨plain, spaced⟩ := ih count tokens
      exact spaced_append text plain spaced
    | unclosed => exact ih count tokens
    | bracket inner =>
      have inside : Piece.inside? (.bracket inner) = some inner := rfl
      rw [List.filterMap_cons_some inside] at count tokens
      obtain ⟨first, others⟩ := List.forall_mem_cons.mp tokens
      rw [templateOf]
      refine spaced_place ?_ (ih ?_ others).2
      · unfold variableOf
        cases found : property? inner with
        | some ref =>
          rw [List.filterMap_cons_some found, List.length_cons] at count
          exact Nat.lt_of_lt_of_le (by omega) count
        | none =>
          obtain ⟨r, member, same⟩ := first found
          exact List.findIdx_lt_length_of_exists ⟨r, member, by simpa using same⟩
      · cases found : property? inner with
        | some ref =>
          rw [List.filterMap_cons_some found, List.length_cons] at count
          rw [Option.toList_some, List.length_singleton]
          omega
        | none =>
          rw [List.filterMap_cons_none found] at count
          exact count

/-- The places of a text that compiles are for the variables of its tokens. -/
theorem spaced_template (h : compile mode text = .ok e) :
    Spaced (Within (propertyTokens text).length (randomTokens text).length)
      (template (trim text)) := by
  rw [propertyTokens, randomTokens, ← brackets_trim]
  refine (spaced_templateOf (Nat.le_of_eq (Nat.zero_add _)) fun inner member missing => ?_).2
  rw [← brackets, brackets_trim] at member
  obtain ⟨token, read⟩ := token_of_compile h member
  exact exists_randomToken (brackets_trim text ▸ member) read missing

namespace Spaced

variable {V : Variable → Prop}

theorem tail {letter : Letter} {t : Template} (spaced : Spaced V (letter :: t)) : Spaced V t := by
  cases spaced with
  | char _ spaced => exact spaced
  | hole _ spaced => exact spaced

/-- What is left of a template is spaced as it was. -/
theorem suffix {before t : Template} (spaced : Spaced V (before ++ t)) : Spaced V t := by
  induction before with
  | nil => exact spaced
  | cons letter rest ih => exact ih spaced.tail

/-- No place follows a character that is no space. -/
theorem plain_tail {c : Char} {t : Template} (spaced : Spaced V (.char c :: t))
    (visible : c ≠ ' ') : t.plain := by
  cases spaced with
  | char next _ => exact next.resolve_left visible

end Spaced

/-! ## What filled templates begin with -/

section Names

variable {c : Char} {name : List Char}

theorem not_isDigit_of_startsName (h : startsName c = true) : c.isDigit = false := by
  have kinds : startsName c = (decide ('A'.val ≤ c.val ∧ c.val ≤ 'Z'.val) ||
      (decide ('a'.val ≤ c.val) && decide (c.val ≤ 'z'.val)) || c == '_') := rfl
  have digits : c.isDigit = (decide ('0'.val ≤ c.val) && decide (c.val ≤ '9'.val)) := rfl
  rw [kinds] at h
  rw [digits]
  have zero : '9'.val.toNat = 57 := rfl
  have upper : 'A'.val.toNat = 65 := rfl
  have lower : 'a'.val.toNat = 97 := rfl
  simp only [Bool.or_eq_true, Bool.and_eq_true, decide_eq_true_eq, beq_iff_eq,
    UInt32.le_iff_toNat_le] at h
  rw [Bool.and_eq_false_iff, decide_eq_false_iff_not, decide_eq_false_iff_not,
    UInt32.le_iff_toNat_le, UInt32.le_iff_toNat_le]
  rcases h with (h | h) | rfl
  · omega
  · omega
  · exact .inr (by decide)

theorem not_isSpace_of_startsName (h : startsName c = true) : isSpace c = false := by
  cases space : isSpace c with
  | false => rfl
  | true =>
    simp only [isSpace, Bool.or_eq_true, beq_iff_eq] at space
    rcases space with ((rfl | rfl) | rfl) | rfl <;> cases h

theorem startsName_ne (h : startsName c = true) {d : Char} (other : startsName d = false) :
    c ≠ d := by
  rintro rfl
  rw [h] at other
  cases other

end Names

/-- A mark of characters of one kind is not found across the end of a run of that kind. -/
theorem dropLead?_append {p : Char → Bool} {mark rest : List Char}
    (chars : ∀ c ∈ mark, p c = true) (stop : Ends p rest) (run : List Char) :
    dropLead? mark (run ++ rest) = (dropLead? mark run).map (· ++ rest) := by
  induction mark generalizing run with
  | nil => rfl
  | cons d mark ih =>
    obtain ⟨head, tail⟩ := List.forall_mem_cons.mp chars
    cases run with
    | nil =>
      cases rest with
      | nil => rfl
      | cons c rest =>
        have other : d ≠ c := by
          rintro rfl
          rw [stop d rfl] at head
          cases head
        exact if_neg other
    | cons c run =>
      rw [List.cons_append, dropLead?, dropLead?]
      split
      · exact ih tail run
      · rfl

/-- A template without the spaces it begins with. -/
def Template.skip : Template → Template
  | .char c :: rest => if isSpace c then Template.skip rest else .char c :: rest
  | t => t

section Filled

variable {V : Variable → Prop} {t : Template}

theorem suffix_skip (t : Template) : ∃ before, t = before ++ t.skip := by
  induction t with
  | nil => exact ⟨[], rfl⟩
  | cons letter rest ih =>
    cases letter with
    | hole v => exact ⟨[], rfl⟩
    | char c =>
      rw [Template.skip]
      split
      · obtain ⟨before, parts⟩ := ih
        exact ⟨.char c :: before, congrArg _ parts⟩
      · exact ⟨[], rfl⟩

theorem Spaced.skip (spaced : Spaced V t) : Spaced V t.skip := by
  obtain ⟨before, parts⟩ := suffix_skip t
  rw [parts] at spaced
  exact spaced.suffix

theorem length_skip_le (t : Template) : t.skip.length ≤ t.length := by
  obtain ⟨before, parts⟩ := suffix_skip t
  have := congrArg List.length parts
  rw [List.length_append] at this
  omega

/-- No name is empty, so filling makes no template shorter. -/
theorem length_le_fill (ν : Naming) (t : Template) : t.length ≤ (fill ν.name t).length := by
  induction t with
  | nil => exact Nat.le_refl 0
  | cons letter rest ih =>
    cases letter with
    | char c => exact Nat.succ_le_succ ih
    | hole v =>
      obtain ⟨c, others, same, -⟩ := (ν.valid v).starts
      rw [fill, same, List.length_append, List.length_cons, List.length_cons]
      omega

/-- Spaces are skipped up to a place or a character that is none. -/
theorem fill_skip (ν : Naming) (t : Template) :
    (fill ν.name t).dropWhile isSpace = fill ν.name t.skip := by
  induction t with
  | nil => rfl
  | cons letter rest ih =>
    cases letter with
    | char c =>
      rw [Template.skip, fill, List.dropWhile_cons]
      split
      · exact ih
      · rfl
    | hole v =>
      obtain ⟨c, others, same, starts⟩ := (ν.valid v).starts
      rw [Template.skip, fill, same, List.cons_append,
        List.dropWhile_cons_of_neg (by rw [not_isSpace_of_startsName starts]; decide)]
      nofun

theorem plain_or_hole (t : Template) : t.plain ∨ ∃ v rest, t = .hole v :: rest := by
  match t with
  | [] => exact .inl trivial
  | .char _ :: _ => exact .inl trivial
  | .hole v :: rest => exact .inr ⟨v, rest, rfl⟩

/-- A name in a place ends where the place does. -/
theorem spaced_hole {v : Variable} (spaced : Spaced V (.hole v :: t)) :
    V v ∧ ∀ name, Ends continuesName (fill name t) := by
  cases spaced with
  | hole known _ => exact ⟨known, fun _ => ends_cons rfl⟩

/-- Characters without a space among them at the start of a template are seen whatever fills
its places. -/
theorem exists_run {p : Char → Bool} (spaceless : p ' ' = false) (spaced : Spaced V t)
    (plain : t.plain) : ∃ (run : List Char) (rest : Template),
      t = run.map .char ++ rest ∧ (∀ c ∈ run, p c = true) ∧ ∀ name, Ends p (fill name rest) := by
  induction t with
  | nil => exact ⟨[], [], rfl, nofun, fun _ => ends_nil⟩
  | cons letter others ih =>
    cases letter with
    | hole v => cases plain
    | char c =>
      cases kind : p c with
      | false => exact ⟨[], .char c :: others, rfl, nofun, fun _ => ends_cons kind⟩
      | true =>
        have visible : c ≠ ' ' := by
          rintro rfl
          rw [spaceless] at kind
          cases kind
        obtain ⟨run, rest, parts, chars, stop⟩ := ih spaced.tail (spaced.plain_tail visible)
        exact ⟨c :: run, rest, congrArg _ parts, List.forall_mem_cons.mpr ⟨kind, chars⟩, stop⟩

/-- So is a mark without a space. -/
theorem dropLead?_fill {mark : List Char} (spaceless : ' ' ∉ mark) (spaced : Spaced V t)
    (plain : t.plain) : (∀ name, dropLead? mark (fill name t) = none) ∨
      ∃ rest, t = mark.map .char ++ rest ∧ rest.plain ∧
        ∀ name, dropLead? mark (fill name t) = some (fill name rest) := by
  induction mark generalizing t with
  | nil => exact .inr ⟨t, rfl, plain, fun _ => rfl⟩
  | cons d mark ih =>
    rw [List.mem_cons, not_or] at spaceless
    cases t with
    | nil => exact .inl fun _ => rfl
    | cons letter others =>
      cases letter with
      | hole v => cases plain
      | char c =>
        by_cases same : d = c
        · subst same
          have step (name : Variable → List Char) :
              dropLead? (d :: mark) (fill name (.char d :: others)) =
                dropLead? mark (fill name others) := if_pos rfl
          rcases ih spaceless.2 spaced.tail (spaced.plain_tail (Ne.symm spaceless.1)) with
            refused | ⟨rest, parts, plain, found⟩
          · exact .inl fun name => (step name).trans (refused name)
          · exact .inr ⟨rest, congrArg _ parts, plain, fun name => (step name).trans (found name)⟩
        · exact .inl fun name => if_neg same

/-- A template is cut at a character that no name holds where its own text has it first. -/
theorem splitAtFirst?_fill {mark : Char} (nameless : continuesName mark = false) (t : Template) :
    (∀ ν : Naming, splitAtFirst? [mark] (fill ν.name t) = none) ∨
      ∃ before after, t = before ++ .char mark :: after ∧
        ∀ ν : Naming, splitAtFirst? [mark] (fill ν.name t) =
          some (fill ν.name before, fill ν.name after) := by
  induction t with
  | nil => exact .inl fun _ => rfl
  | cons letter rest ih =>
    cases letter with
    | char c =>
      by_cases same : mark = c
      · subst same
        refine .inr ⟨[], rest, rfl, fun ν => ?_⟩
        have found : dropLead? [mark] (mark :: fill ν.name rest) = some (fill ν.name rest) :=
          if_pos rfl
        exact splitAtFirst?_here found
      · rcases ih with refused | ⟨before, after, parts, found⟩
        · refine .inl fun ν => ?_
          rw [fill, splitAtFirst?_cons_of_ne same, refused]
          rfl
        · refine .inr ⟨.char c :: before, after, congrArg _ parts, fun ν => ?_⟩
          rw [fill, splitAtFirst?_cons_of_ne same, found]
          rfl
    | hole v =>
      have without (ν : Naming) : mark ∉ ν.name v := by
        intro member
        rw [(ν.valid v).continues mark member] at nameless
        cases nameless
      rcases ih with refused | ⟨before, after, parts, found⟩
      · refine .inl fun ν => ?_
        rw [fill, splitAtFirst?_append (without ν), refused]
        rfl
      · refine .inr ⟨.hole v :: before, after, congrArg _ parts, fun ν => ?_⟩
        rw [fill, splitAtFirst?_append (without ν), found]
        rfl

end Filled

end FallingSand.Expr
