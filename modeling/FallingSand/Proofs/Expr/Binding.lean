import FallingSand.Proofs.Expr.Lookup
import FallingSand.Proofs.Expr.OwnNames
import FallingSand.Proofs.Expr.Parsing

/-!
# What the tokens of an expression stand for

The value of an expression is the value of its text with variables in the place of its tokens,
each bound to the value that the token finds or draws (`eval_as_bound`). Which variables are
taken makes no difference, as long as none of them is a name in the text already; those that
compiling takes are of this kind, unless a name in the text begins as they do (`own_fresh`).
-/

namespace FallingSand.Expr

open FallingSand.Text
open FallingSand.Random (WordSource SplitMix)
open Reader (startsName)

/-! ## Plain formulas -/

/-- The value of a text without tokens under an environment. -/
def plainValue (text : List Char) (env : Environment) : Except Fault Float := do
  (← Formula.read text).fold.eval env

/-- A name that stands for every token. -/
def blank : Naming := ⟨fun _ => ['_'], fun _ =>
  ⟨⟨⟨'_', [], rfl, rfl⟩, List.forall_mem_singleton.mpr rfl, rfl, rfl⟩, rfl, rfl, by decide⟩⟩

/-- The names in an expression outside its brackets, and the one that stands for tokens. -/
def outerNames (source : List Char) : List String :=
  match Formula.read (fill blank.name (template source)) with
  | .ok formula => formula.names
  | .error _ => []

/-- Whether different variables have different names, none of which an expression holds. -/
structure Naming.Fresh (ν : Naming) (source : List Char) : Prop where
  injective : ∀ v w, ν.name v = ν.name w → v = w
  outside : ∀ v, String.ofList (ν.name v) ∉ outerNames source

/-- The environment that binds the variables of the property tokens to some values in order, and
those of the random tokens to some draws. -/
def bindings (ν : Naming) (values draws : List Float) : Environment := fun name =>
  ((values.mapIdx fun n x => (String.ofList (ν.name (.property n)), x)) ++
    draws.mapIdx fun n x => (String.ofList (ν.name (.random n)), x)).lookup name

section Bindings

variable {f : Nat → String} {name : String} {list : List Float}

theorem lookup_mapIdx (injective : ∀ m n, f m = f n → m = n) (list : List Float) (n : Nat) :
    (list.mapIdx fun n x => (f n, x)).lookup (f n) = list[n]? := by
  induction list generalizing f n with
  | nil => rfl
  | cons x rest ih =>
    rw [List.mapIdx_cons]
    cases n with
    | zero => rw [List.lookup_cons_self, List.getElem?_cons_zero]
    | succ n =>
      have other : (f (n + 1) == f 0) = false :=
        beq_false_of_ne fun same => absurd (injective _ _ same) (Nat.succ_ne_zero n)
      rw [List.lookup_cons, other, List.getElem?_cons_succ]
      exact ih (fun m n same => Nat.succ.inj (injective _ _ same)) n

theorem lookup_mapIdx_eq_none (other : ∀ n, f n ≠ name) :
    (list.mapIdx fun n x => (f n, x)).lookup name = none := by
  refine List.lookup_eq_none_iff.mpr fun pair member => ?_
  obtain ⟨n, -, rfl⟩ := List.mem_mapIdx.mp member
  exact bne_iff_ne.mpr (other n).symm

/-- Every variable is bound to what it stands for. -/
theorem bindings_name {ν : Naming} (injective : ∀ v w, ν.name v = ν.name w → v = w)
    (values draws : List Float) (v : Variable) :
    bindings ν values draws (String.ofList (ν.name v)) = v.value? values draws := by
  have apart {v w : Variable} (same : String.ofList (ν.name v) = String.ofList (ν.name w)) :
      v = w := injective v w (String.ofList_injective same)
  unfold bindings
  rw [List.lookup_append]
  cases v with
  | property n =>
    have others (m : Nat) :
        String.ofList (ν.name (.random m)) ≠ String.ofList (ν.name (.property n)) :=
      fun same => by cases apart same
    rw [lookup_mapIdx_eq_none others, Option.or_none]
    exact lookup_mapIdx (fun m n same => Variable.property.inj (apart same)) values n
  | random n =>
    have others (m : Nat) :
        String.ofList (ν.name (.property m)) ≠ String.ofList (ν.name (.random n)) :=
      fun same => by cases apart same
    rw [lookup_mapIdx_eq_none others, Option.none_or]
    exact lookup_mapIdx (fun m n same => Variable.random.inj (apart same)) draws n

/-- No other name is bound. -/
theorem bindings_eq_none {ν : Naming} (other : ∀ v, String.ofList (ν.name v) ≠ name)
    (values draws : List Float) : bindings ν values draws name = none := by
  unfold bindings
  rw [List.lookup_append, lookup_mapIdx_eq_none fun n => other (.property n),
    lookup_mapIdx_eq_none fun n => other (.random n)]
  rfl

end Bindings

/-! ## Lengths -/

theorem size_append (text text' : List Char) : (String.ofList (text ++ text')).utf8ByteSize =
    (String.ofList text).utf8ByteSize + (String.ofList text').utf8ByteSize := by
  rw [String.ofList_append, String.utf8ByteSize_append]

theorem length_le_size (text : List Char) : text.length ≤ (String.ofList text).utf8ByteSize := by
  induction text with
  | nil => exact Nat.zero_le _
  | cons c rest ih =>
    have := c.utf8Size_pos
    rw [String.ofList_cons, String.utf8ByteSize_append, String.utf8ByteSize_singleton,
      List.length_cons]
    omega

/-- No name is shorter than the one that stands for every token. -/
theorem size_blank_le (ν : Naming) (t : Template) :
    (String.ofList (fill blank.name t)).utf8ByteSize ≤
      (String.ofList (fill ν.name t)).utf8ByteSize := by
  induction t with
  | nil => exact Nat.le_refl _
  | cons letter rest ih =>
    cases letter with
    | char c =>
      have split (name : Variable → List Char) :
          fill name (.char c :: rest) = [c] ++ fill name rest := rfl
      rw [split, split, size_append, size_append]
      omega
    | hole v =>
      have one : (String.ofList (blank.name v)).utf8ByteSize = 1 := rfl
      have positive : 1 ≤ (String.ofList (ν.name v)).utf8ByteSize := by
        obtain ⟨c, others, same, -⟩ := (ν.valid v).starts
        refine Nat.le_trans ?_ (length_le_size _)
        rw [same, List.length_cons]
        omega
      rw [fill, fill, size_append, size_append]
      omega

/-- Every bracket has a place in the template. -/
theorem length_brackets_le (randoms : List (List Char × RandomRange)) (n : Nat)
    (list : List Piece) :
    (list.filterMap Piece.inside?).length ≤ (templateOf randoms n list).length := by
  induction list generalizing n with
  | nil => exact Nat.zero_le _
  | cons piece rest ih =>
    cases piece with
    | plain text =>
      rw [templateOf, List.length_append]
      exact Nat.le_trans (ih n) (Nat.le_add_left _ _)
    | unclosed => exact ih n
    | bracket inner =>
      have later := ih (n + (property? inner).toList.length)
      rw [templateOf, List.length_append, List.filterMap_cons_some
        (rfl : Piece.inside? (.bracket inner) = some inner), List.length_cons]
      have : (place (variableOf randoms n inner)).length = 3 := rfl
      omega

theorem length_foldl_noteRandom_le (known tokens : List (List Char × RandomRange)) :
    (tokens.foldl noteRandom known).length ≤ known.length + tokens.length := by
  induction tokens generalizing known with
  | nil => exact Nat.le_refl _
  | cons token rest ih =>
    have step : (noteRandom known token).length ≤ known.length + 1 := by
      unfold noteRandom
      split
      · exact Nat.le_succ _
      · rw [List.length_append, List.length_singleton]
    have := ih (noteRandom known token)
    rw [List.foldl_cons, List.length_cons]
    omega

/-- An expression has fewer tokens than there are numbers for them. -/
theorem tokens_lt_of_fits {source : List Char} (fits : Fits (fill ownName (template source))) :
    (propertyTokens source).length < UInt64.size ∧ (randomTokens source).length < UInt64.size := by
  have places : (brackets source).length ≤ Reader.longest :=
    calc (brackets source).length
      _ ≤ (template source).length := length_brackets_le _ 0 (pieces source)
      _ ≤ (fill own.name (template source)).length := length_le_fill own _
      _ ≤ (String.ofList (fill own.name (template source))).utf8ByteSize := length_le_size _
      _ ≤ Reader.longest := fits
  have properties : (propertyTokens source).length ≤ (brackets source).length :=
    List.length_filterMap_le _ _
  have randoms : (randomTokens source).length ≤ (brackets source).length := by
    rw [randomTokens, ← foldl_noteRandom]
    refine Nat.le_trans (length_foldl_noteRandom_le [] _) ?_
    rw [List.length_nil, Nat.zero_add]
    exact List.length_filterMap_le _ _
  have few : Reader.longest < UInt64.size := by decide
  omega

/-! ## One value for all names -/

section Common

variable (common : Formula) (value : Variable → Float)

/-- What the texts of a formula stand for where places stand for variables. -/
def placeValues : Environment := fun text =>
  if text ∈ common.names then
    match text.toList with
    | '[' :: rest => some (value (.property rest.length))
    | ']' :: rest => some (value (.random rest.length))
    | _ => none
  else none

/-- The names that the texts of a formula are given. -/
def given (ν : Naming) (text : String) : String :=
  if text ∈ common.names then ν.subst text else ""

/-- The texts of a formula as faults say them. -/
def told (text : String) : String := if text ∈ common.names then text else ""

variable {V : Variable → Prop} {common value}

theorem placeValues_key {v : Variable} (member : key v ∈ common.names) :
    placeValues common value (key v) = some (value v) := by
  unfold placeValues
  rw [if_pos member]
  cases v <;> simp [key]

theorem placeValues_word {c : Char} (starts : startsName c = true) (rest : List Char) :
    placeValues common value (String.ofList (c :: rest)) = none := by
  unfold placeValues
  split
  · rw [String.toList_ofList]
    split
    · rename_i first
      cases first
      cases starts
    · rename_i first
      cases first
      cases starts
    · rfl
  · rfl

/-- Renaming nothing makes no difference. -/
theorem eval_rename_id (formula : Formula) (env : Environment) :
    (formula.rename id).fold.eval env = formula.fold.eval env := by
  rw [Formula.fold_rename, @Code.eval_rename id id env (fun _ _ => rfl), Function.comp_id]
  cases formula.fold.eval env with
  | ok x => rfl
  | error fault => cases fault <;> rfl

/-- The value of a formula that follows the names, under an environment that binds them and knows
no other name in it. -/
theorem eval_of_follows {formula : Formula} {ν : Naming} {env : Environment}
    (known : ∀ text ∈ common.names, Known V text)
    (same : formula.rename id = common.rename ν.subst)
    (bound : ∀ v, V v → env (String.ofList (ν.name v)) = some (value v))
    (free : ∀ c rest, startsName c = true → String.ofList (c :: rest) ∈ common.names →
      env (String.ofList (c :: rest)) = none) (empty : env "" = none) :
    formula.fold.eval env =
      (common.fold.eval (placeValues common value)).mapError (Fault.rename (told common)) := by
  have renamed : common.rename ν.subst = common.rename (given common ν) :=
    common.rename_congr fun text member => (if_pos member).symm
  have values : env ∘ given common ν = placeValues common value := by
    funext text
    rw [Function.comp_apply, given]
    by_cases member : text ∈ common.names
    · rw [if_pos member]
      cases known text member with
      | place kind => rw [subst_key, bound _ kind, placeValues_key member]
      | word starts => rw [subst_word ν _ starts, free _ _ starts member, placeValues_word starts]
    · rw [if_neg member, empty]
      exact (if_neg member).symm
  have labels : Labels env (given common ν) (told common) := by
    intro text missing
    rw [given] at missing ⊢
    rw [told]
    by_cases member : text ∈ common.names
    · rw [if_pos member] at missing ⊢
      rw [if_pos member]
      cases known text member with
      | place kind =>
        rw [subst_key, bound _ kind] at missing
        cases missing
      | word starts => exact subst_word ν _ starts
    · rw [if_neg member, if_neg member]
  rw [← eval_rename_id, same, renamed, Formula.fold_rename, Code.eval_rename labels, values]

end Common

/-! ## Expressions -/

section Compiled

variable {mode : Mode} {text : List Char} {e : Expr}

theorem propertyTokens_trim (text : List Char) :
    propertyTokens (trim text) = propertyTokens text := by
  rw [propertyTokens, brackets_trim, propertyTokens]

theorem randomTokens_trim (text : List Char) : randomTokens (trim text) = randomTokens text := by
  rw [randomTokens, brackets_trim, randomTokens]

/-- With all names that fit, the template of an expression is one formula but for the names, and
compiling takes it with the names of its own. -/
theorem formula_of_compile (h : compile mode text = .ok e) :
    ∃ formula : Naming → Formula,
      FollowsOne (Within (propertyTokens text).length (randomTokens text).length) formula ∧
      (∀ ν : Naming, Fits (fill ν.name (template (trim text))) →
        Formula.read (fill ν.name (template (trim text))) = .ok (formula ν)) ∧
      Fits (fill ownName (template (trim text))) ∧ e.code = (formula own).fold := by
  have filled := formulaText_of_compile h
  obtain ⟨parts, read, -, taken, rfl⟩ := compile_ok h
  dsimp only at filled
  rw [filled] at taken
  have fits : Fits (fill own.name (template (trim text))) := fits_of_read taken
  rcases read_fill (spaced_template h) with fails | ⟨formula, follows, gives⟩
  · obtain ⟨fault, failed⟩ := fails own
    exact nomatch failed.symm.trans taken
  · refine ⟨formula, follows, gives, fits, ?_⟩
    rw [← Except.ok.inj ((gives own fits).symm.trans taken)]

/-- A name of the formula that no token stands for is one outside the brackets. -/
theorem mem_outerNames {common : Formula} {source : List Char} {formula : Naming → Formula}
    (same : ∀ ν : Naming, (formula ν).rename id = common.rename ν.subst)
    (read : Formula.read (fill blank.name (template source)) = .ok (formula blank))
    {c : Char} {rest : List Char} (starts : startsName c = true)
    (member : String.ofList (c :: rest) ∈ common.names) :
    String.ofList (c :: rest) ∈ outerNames source := by
  have names : (formula blank).names = common.names.map blank.subst := by
    rw [← Formula.names_rename, ← same, Formula.names_rename, List.map_id]
  unfold outerNames
  rw [read]
  show _ ∈ (formula blank).names
  rw [names]
  exact List.mem_map.mpr ⟨_, member, subst_word blank rest starts⟩

/-- Under the values of its tokens the code of an expression has the value of the text with
variables that are bound to them. -/
theorem eval_code (h : compile mode text = .ok e)
    (clean : ∀ name ∈ outerNames (trim text), ¬LooksOwn name) {ν : Naming}
    (fresh : ν.Fresh (trim text)) (fits : Fits (fill ν.name (template (trim text))))
    {values draws : List Float} (everyValue : values.length = (propertyTokens text).length)
    (everyDraw : draws.length = (randomTokens text).length) :
    e.code.eval (environment values draws) =
      plainValue (fill ν.name (template (trim text))) (bindings ν values draws) := by
  obtain ⟨formula, ⟨common, known, same⟩, gives, ownFits, code⟩ := formula_of_compile h
  have outer := @mem_outerNames common (trim text) formula same
    (gives blank (Nat.le_trans (size_blank_le own _) ownFits))
  rw [← everyValue, ← everyDraw] at known
  obtain ⟨fewValues, fewDraws⟩ := tokens_lt_of_fits ownFits
  rw [propertyTokens_trim, ← everyValue] at fewValues
  rw [randomTokens_trim, ← everyDraw] at fewDraws
  have ownValue : (formula own).fold.eval (environment values draws) =
      (common.fold.eval (placeValues common (Variable.valueOr values draws))).mapError
        (Fault.rename (told common)) := by
    refine eval_of_follows known (same own) (fun v within => ?_) (fun c rest starts member => ?_) ?_
    · exact (environment_ownName values draws (within.mono fewValues.le fewDraws.le)).trans
        (value?_of_within within)
    · exact environment_eq_none values draws (clean _ (outer starts member))
    · exact environment_eq_none values draws (by decide)
  have freshValue : (formula ν).fold.eval (bindings ν values draws) =
      (common.fold.eval (placeValues common (Variable.valueOr values draws))).mapError
        (Fault.rename (told common)) := by
    refine eval_of_follows known (same ν) (fun v within => ?_) (fun c rest starts member => ?_) ?_
    · exact (bindings_name fresh.injective values draws v).trans (value?_of_within within)
    · exact bindings_eq_none (fun v named => fresh.outside v (named ▸ outer starts member)) _ _
    · refine bindings_eq_none (fun v empty => ?_) _ _
      obtain ⟨c, rest, name, -⟩ := (ν.valid v).starts
      rw [name] at empty
      exact nomatch String.ofList_injective empty
  rw [code, ownValue, plainValue, gives ν fits]
  exact freshValue.symm

end Compiled

/-! ## Evaluation -/

/-- What evaluating an expression gives at a slot that finds no value. -/
def refusal (source : List Char) (slot : Slot) :
    Lookup → Option (Except EvalError (Option Float))
  | .value _ => none
  | .outOfGrid => some (.ok none)
  | .missing => some (.error (.missingProperty slot.name source))
  | .inaccessible => some (.error (.inaccessible slot.offset source))

/-- The result of an evaluation that all slots have values for. -/
def outcome (source : List Char) : Except Fault Float → Except EvalError (Option Float)
  | .ok x => .ok (some x)
  | .error fault => .error (.formula source fault)

theorem slotValues_of_map {source : List Char} {lookup : String → Vec → Lookup}
    {slots : List Slot} {values : List Float}
    (found : slots.map (fun slot => lookup slot.name slot.offset) = values.map .value) :
    slotValues source lookup slots = .ok (some values) := by
  induction slots generalizing values with
  | nil =>
    cases values with
    | nil => rfl
    | cons _ _ => cases found
  | cons slot rest ih =>
    cases values with
    | nil => cases found
    | cons x values =>
      obtain ⟨first, others⟩ := List.cons.inj found
      unfold slotValues
      rw [show lookup slot.name slot.offset = .value x from first, ih others]
      rfl

/-- The first slot without a value decides. -/
theorem slotValues_append {source : List Char} {lookup : String → Vec → Lookup}
    {before after : List Slot} {slot : Slot}
    (found : ∀ earlier ∈ before, ∃ x, lookup earlier.name earlier.offset = .value x)
    {result : Except EvalError (Option Float)}
    (refused : refusal source slot (lookup slot.name slot.offset) = some result) :
    slotValues source lookup (before ++ slot :: after) = result.map fun _ => none := by
  induction before with
  | nil =>
    rw [List.nil_append]
    unfold slotValues
    cases outcome : lookup slot.name slot.offset with
    | value x =>
      rw [outcome] at refused
      cases refused
    | outOfGrid | missing | inaccessible =>
      rw [outcome] at refused
      cases refused
      rfl
  | cons earlier rest ih =>
    obtain ⟨⟨x, value⟩, others⟩ := List.forall_mem_cons.mp found
    rw [List.cons_append]
    unfold slotValues
    rw [value, ih others]
    cases result <;> rfl

variable {ρ : Type}

/-- Evaluation that is refused at a slot draws nothing. -/
theorem eval_of_refusal [WordSource ρ] {e : Expr} {lookup : String → Vec → Lookup}
    {before after : List Slot} {slot : Slot} (slots : e.slots = before ++ slot :: after)
    (found : ∀ earlier ∈ before, ∃ x, lookup earlier.name earlier.offset = .value x)
    {result : Except EvalError (Option Float)}
    (refused : refusal e.source slot (lookup slot.name slot.offset) = some result) (source : ρ) :
    (e.eval lookup).run source = (result, source) := by
  have values := @slotValues_append e.source lookup before after slot found result refused
  rw [← slots] at values
  unfold eval
  rw [values]
  cases result with
  | error error => rfl
  | ok found =>
    cases found with
    | none => rfl
    | some x =>
      cases outcome : lookup slot.name slot.offset <;> rw [outcome] at refused <;> cases refused

/-- The names that compiling gives are fresh for an expression in which no name begins as they
do. -/
theorem own_fresh {source : List Char} (clean : ∀ name ∈ outerNames source, ¬LooksOwn name) :
    own.Fresh source :=
  ⟨fun _ _ same => ownName_injective same, fun v member => clean _ member (looksOwn_ownName v)⟩

/-- Tokens stand for what they find and draw. If every property token finds a value, each random
token is drawn once, in the order of the first occurrences, and the value is that of the text with
fresh variables in the place of its tokens, bound to the values in order and to the draws.
Otherwise nothing is drawn, and the first token that finds no value decides. -/
theorem eval_as_bound {mode : Mode} {text : List Char} {e : Expr} (h : compile mode text = .ok e)
    (clean : ∀ name ∈ outerNames (trim text), ¬LooksOwn name) [WordSource ρ]
    (lookup : String → Vec → Lookup) (source : ρ) :
    (∀ values, ((propertyTokens text).map (·.slot mode)).map
        (fun slot => lookup slot.name slot.offset) = values.map .value →
      ∀ ν : Naming, ν.Fresh (trim text) → Fits (fill ν.name (template (trim text))) →
      (e.eval lookup).run source =
        let drawn := ((randomTokens text).mapM fun token => token.2.sample : StateM ρ _).run source
        (outcome (trim text) (plainValue (fill ν.name (template (trim text)))
          (bindings ν values drawn.1)), drawn.2)) ∧
    ∀ before slot after, (propertyTokens text).map (·.slot mode) = before ++ slot :: after →
      (∀ earlier ∈ before, ∃ x, lookup earlier.name earlier.offset = .value x) →
      ∀ result, refusal (trim text) slot (lookup slot.name slot.offset) = some result →
      (e.eval lookup).run source = (result, source) := by
  rw [← slots_of_compile h, ← source_of_compile h, ← randoms_of_compile h]
  constructor
  · intro values found ν fresh fits
    have count : values.length = (propertyTokens text).length := by
      have := congrArg List.length found
      rw [List.length_map, List.length_map, slots_of_compile h, List.length_map] at this
      exact this.symm
    have drawn : (e.draws.run source).1.length = (randomTokens text).length := by
      rw [← randoms_of_compile h]
      exact length_draws e source
    rw [source_of_compile h] at fresh fits ⊢
    rw [eval_of_values (slotValues_of_map found), eval_code h clean fresh fits count drawn,
      source_of_compile h]
    show _ = (outcome (trim text) (plainValue (fill ν.name (template (trim text)))
      (bindings ν values (e.draws.run source).1)), (e.draws.run source).2)
    cases plainValue (fill ν.name (template (trim text)))
      (bindings ν values (e.draws.run source).1) <;> rfl
  · intro before slot after slots found result refused
    exact eval_of_refusal slots found refused source

/-- A sum of a product with a property that is written twice and a product with a random token
that is written twice. -/
def flicker : List Char := "[heat] + [fuel] * [heat] - [$n'1'9'2] * [$n'1'9'2]".toList

/-- The properties are bound by position, and the random token to a single draw; without heat the
value is an error, and nothing is drawn. -/
theorem flicker_as_bound : ∃ e, compile .absolute flicker = .ok e ∧
    (e.eval fun name _ => .value (if name = "heat" then 2.0 else 3.0)).run (⟨7⟩ : SplitMix) =
      (let drawn := ((randomTokens flicker).mapM fun token => token.2.sample :
          StateM SplitMix _).run ⟨7⟩;
        (outcome flicker (plainValue " v_0  +  v_1  *  v_2  -  r_0  *  r_0 ".toList
          (bindings own [2.0, 3.0, 2.0] drawn.1)), drawn.2)) ∧
    (randomTokens flicker).map (fun token => String.ofList token.1) = ["$n'1'9'2"] ∧
    (e.eval fun _ _ => .missing).run (⟨7⟩ : SplitMix) =
      (.error (.missingProperty "heat" flicker), ⟨7⟩) := by
  have compiles : (compile .absolute flicker).toOption.isSome = true := by decide +kernel
  have tokens : propertyTokens flicker = [⟨"heat", none⟩, ⟨"fuel", none⟩, ⟨"heat", none⟩] := by
    decide +kernel
  have clean : ∀ name ∈ outerNames (trim flicker), ¬LooksOwn name := by decide +kernel
  have filled : fill own.name (template (trim flicker)) =
      " v_0  +  v_1  *  v_2  -  r_0  *  r_0 ".toList := by decide +kernel
  have trimmed : trim flicker = flicker := by decide +kernel
  obtain ⟨e, compiled⟩ := exists_ok_of_isSome compiles
  obtain ⟨values, -⟩ := eval_as_bound compiled clean
    (fun name _ => .value (if name = "heat" then 2.0 else 3.0)) (⟨7⟩ : SplitMix)
  obtain ⟨-, refused⟩ := eval_as_bound compiled clean (fun _ _ => .missing) (⟨7⟩ : SplitMix)
  refine ⟨e, compiled, ?_, by decide +kernel, ?_⟩
  · have value := values [2.0, 3.0, 2.0] (by rw [tokens]; rfl) own (own_fresh clean)
      (by rw [filled]; decide +kernel)
    rw [filled, trimmed] at value
    exact value
  · have refused := refused [] ⟨"heat", Vec.zero⟩ _ (by rw [tokens]; rfl) nofun _ rfl
    rw [trimmed] at refused
    exact refused

end FallingSand.Expr
