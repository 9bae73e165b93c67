import FallingSand.Proofs.Expr.Binding
import FallingSand.Proofs.Expr.Brackets

/-!
# Names outside brackets

Tokens become variables of the formula, which are names like any other. So a name outside the
brackets has no value, unless it is written like a variable of some token of the expression, be
it with zeros before the number (`environment_eq_some_iff`): such a name is given the value of the
token, and the sum of a token and the name has a value (`bare_name_undefined_iff`).
-/

namespace FallingSand.Expr

open FallingSand.Text
open FallingSand.Text.Scanner (IsRun Ends digitsValue dropWhile_of_ends
  not_isBlank_of_isNameChar)
open FallingSand.Number (readNatural? readNatural?_eq_some_iff isDigits_digitsValue)
open FallingSand.Random (WordSource SplitMix)
open Reader

/-! ## Names that are taken for variables -/

/-- Whether a name is written like that of a variable, but for zeros before the number. -/
def Resembles (name : List Char) : Variable → Prop
  | .property n => ∃ digits, IsRun Char.isDigit digits ∧ digitsValue digits = n ∧
    name = 'v' :: '_' :: digits
  | .random n => ∃ digits, IsRun Char.isDigit digits ∧ digitsValue digits = n ∧
    name = 'r' :: '_' :: digits

/-- A numeral in a name is one without a sign. -/
theorem isRun_of_readNatural? {text : List Char} (chars : ∀ c ∈ text, continuesName c = true)
    {limit n : Nat} (read : readNatural? limit text = some n) :
    IsRun Char.isDigit text ∧ digitsValue text = n := by
  obtain ⟨-, digits, valid, same | same⟩ := readNatural?_eq_some_iff.mp read
  · rw [same]
    exact ⟨valid.isRun, valid.digitsValue_eq⟩
  · have := chars '+' (by simp [same])
    cases this

/-- An environment has values for the names that are written like its variables, and those are
the values of the variables. -/
theorem environment_eq_some_iff {values draws : List Float} {name : List Char} {x : Float}
    (chars : ∀ c ∈ name, continuesName c = true) (fewValues : values.length ≤ UInt64.size)
    (fewDraws : draws.length ≤ UInt64.size) :
    environment values draws (String.ofList name) = some x ↔
      ∃ v, Resembles name v ∧ v.value? values draws = some x := by
  have number {list : List Float} {digits : List Char}
      (chars : ∀ c ∈ digits, continuesName c = true)
      (found : (readNatural? (UInt64.size - 1) digits).bind (list[·]?) = some x) :
      IsRun Char.isDigit digits ∧ list[digitsValue digits]? = some x := by
    obtain ⟨n, read, entry⟩ := Option.bind_eq_some_iff.mp found
    obtain ⟨valid, rfl⟩ := isRun_of_readNatural? chars read
    exact ⟨valid, entry⟩
  have entry {list : List Float} {digits : List Char} (valid : IsRun Char.isDigit digits)
      (few : list.length ≤ UInt64.size) (found : list[digitsValue digits]? = some x) :
      (readNatural? (UInt64.size - 1) digits).bind (list[·]?) = some x := by
    have inside := (List.getElem?_eq_some_iff.mp found).1
    rw [readNatural?_eq_some_iff.mpr ⟨by omega, _, isDigits_digitsValue valid, .inl rfl⟩,
      Option.bind_some, found]
  unfold environment
  rw [String.toList_ofList]
  constructor
  · intro found
    split at found
    · rename_i digits
      obtain ⟨-, -, chars⟩ := (List.forall_mem_cons.mp chars).imp_right List.forall_mem_cons.mp
      obtain ⟨valid, entry⟩ := number chars found
      exact ⟨.property _, ⟨digits, valid, rfl, rfl⟩, entry⟩
    · rename_i digits
      obtain ⟨-, -, chars⟩ := (List.forall_mem_cons.mp chars).imp_right List.forall_mem_cons.mp
      obtain ⟨valid, entry⟩ := number chars found
      exact ⟨.random _, ⟨digits, valid, rfl, rfl⟩, entry⟩
    · cases found
  · rintro ⟨v, resembles, value⟩
    cases v with
    | property n =>
      obtain ⟨digits, valid, rfl, rfl⟩ := resembles
      exact entry valid fewValues value
    | random n =>
      obtain ⟨digits, valid, rfl, rfl⟩ := resembles
      exact entry valid fewDraws value

/-! ## Reading a name -/

theorem dropWhile_isName {name rest : List Char} (valid : IsName name) :
    (name ++ rest).dropWhile isSpace = name ++ rest := by
  obtain ⟨c, others, rfl, starts⟩ := valid.starts
  exact List.dropWhile_cons_of_neg (by rw [not_isSpace_of_startsName starts]; decide)

/-- No number stands where a name does. -/
theorem number?_of_isName {text name rest : List Char} (valid : IsName name)
    (start : text.dropWhile isSpace = name ++ rest) (stop : Ends continuesName rest)
    (groups operands : Nat) : number? ⟨text, groups, operands⟩ =
      .ok (none, ⟨name ++ rest, groups, operands⟩) := by
  rw [number?_eq]
  show numberOf (scanNumber true true true false [] (text.dropWhile isSpace))
    ⟨text.dropWhile isSpace, groups, operands⟩ = _
  rw [start, scanNumber_of_isName valid stop]
  rfl

/-- A name is an operand, unless it is called. -/
theorem operand_of_isName (depth : Nat) {text name rest : List Char} (valid : IsName name)
    (start : text.dropWhile isSpace = name ++ rest) (stop : Ends continuesName rest)
    (bare : ∀ c ∈ (rest.dropWhile isSpace).head?, c ≠ '(') (groups operands : Nat) :
    operand (depth + 1) ⟨text, groups, operands⟩ =
      .ok (.name (String.ofList name), ⟨rest.dropWhile isSpace, groups, operands⟩) := by
  obtain ⟨c, others, same, starts⟩ := valid.starts
  have noSign : ∀ d ∈ (name ++ rest).head?, d ∉ ['+', '-', '!', '('] := by
    intro d member signs
    rw [same] at member
    cases member
    simp only [List.mem_cons, List.not_mem_nil, or_false] at signs
    rcases signs with rfl | rfl | rfl | rfl <;> cases starts
  have chars : ∀ d ∈ others, continuesName d = true :=
    (List.forall_mem_cons.mp (same ▸ valid.continues)).2
  calc operand (depth + 1) ⟨text, groups, operands⟩
    _ = (peek >>= operandAt depth) ⟨name ++ rest, groups, operands⟩ := by
      rw [operand_succ, bind_apply, number?_of_isName valid start stop]
      rfl
    _ = nameAt depth (name ++ rest) ⟨name ++ rest, groups, operands⟩ := by
      show operandAt depth ((name ++ rest).dropWhile isSpace)
        ⟨(name ++ rest).dropWhile isSpace, groups, operands⟩ = _
      rw [dropWhile_isName valid, operandAt_of_ne depth noSign]
    _ = (peek >>= named depth (String.ofList name)) ⟨rest, groups, operands⟩ := by
      have read : name? ⟨name ++ rest, groups, operands⟩ =
          .ok (some (String.ofList name), ⟨rest, groups, operands⟩) := by
        rw [name?_eq]
        show nameOf ((name ++ rest).dropWhile isSpace)
          ⟨(name ++ rest).dropWhile isSpace, groups, operands⟩ = _
        rw [dropWhile_isName valid, same, List.cons_append, nameOf_append starts chars stop]
        rfl
      rw [nameAt, bind_apply, read]
      rfl
    _ = .ok (.name (String.ofList name), ⟨rest.dropWhile isSpace, groups, operands⟩) := by
      show named depth (String.ofList name) (rest.dropWhile isSpace)
        ⟨rest.dropWhile isSpace, groups, operands⟩ = _
      rw [named_of_ne depth _ bare]
      rfl

/-- The sum of two names is read as a chain. -/
theorem read_sum {left right : List Char} (validLeft : IsName left) (validRight : IsName right)
    (fits : Fits (' ' :: (left ++ "  + ".toList ++ right))) :
    Formula.read (' ' :: (left ++ "  + ".toList ++ right)) =
      .ok (.chain (.name (String.ofList left)) [(.add, .name (String.ofList right))]) := by
  have spaces : (' ' :: (left ++ "  + ".toList ++ right)).dropWhile isSpace =
      left ++ ("  + ".toList ++ right) := by
    rw [List.dropWhile_cons_of_pos rfl, List.append_assoc, dropWhile_isName validLeft]
  have first : operand levels ⟨' ' :: (left ++ "  + ".toList ++ right), 0, 0⟩ =
      .ok (.name (String.ofList left), ⟨'+' :: ' ' :: right, 0, 0⟩) :=
    operand_of_isName 32 validLeft spaces (fun c member => by cases member; rfl)
      (fun c member => by cases member; decide) 0 0
  have second : operand levels ⟨' ' :: right, 0, 0⟩ =
      .ok (.name (String.ofList right), ⟨[], 0, 0⟩) := by
    have start : (' ' :: right).dropWhile isSpace = right ++ [] := by
      have := @dropWhile_isName right [] validRight
      rw [List.append_nil] at this ⊢
      rw [List.dropWhile_cons_of_pos rfl, this]
    exact operand_of_isName 32 validRight start nofun nofun 0 0
  have rest (fuel : Nat) : chainRest (operand levels) (fuel + 2) ⟨'+' :: ' ' :: right, 0, 0⟩ =
      .ok ([(.add, .name (String.ofList right))], ⟨[], 0, 0⟩) := by
    have plus : operator? ⟨'+' :: ' ' :: right, 0, 0⟩ = .ok (some .add, ⟨' ' :: right, 0, 0⟩) := rfl
    rw [chainRest, bind_apply, plus]
    show ((operand levels >>= fun next => do
      return (Op.add, next) :: (← chainRest (operand levels) (fuel + 1))) : Reader _)
        ⟨' ' :: right, 0, 0⟩ = _
    rw [bind_apply, second]
    rfl
  have chained : chain (operand levels) ⟨' ' :: (left ++ "  + ".toList ++ right), 0, 0⟩ =
      .ok (.chain (.name (String.ofList left)) [(.add, .name (String.ofList right))],
        ⟨[], 0, 0⟩) := by
    rw [chain, bind_apply, first]
    show ((chainRest (operand levels) (right.length + 2) >>= fun others =>
      pure (Formula.chain (.name (String.ofList left)) others)) : Reader _)
        ⟨'+' :: ' ' :: right, 0, 0⟩ = _
    rw [bind_apply, rest]
    rfl
  rw [read_of_fits fits, whole, bind_apply, chained]
  rfl

/-- What the sum of two numbers comes to in a formula. The constants in it come last, if their
sum counts as different from zero; here there are none. -/
def total (x y : Float) : Float := if unequal 0.0 0.0 then x + y + 0.0 else x + y

/-- The sum of a name that has a value and one that may have none. -/
theorem eval_sum {left : String} (right : String) {env : Environment} {x : Float}
    (found : env left = some x) :
    (Formula.chain (.name left) [(.add, .name right)]).fold.eval env =
      (env.value right).map (total x) := by
  have sum : (Code.add (.name left) (.name right)).eval env = (env.value right).map (x + ·) := by
    show (env.value left >>= fun x => env.value right >>= fun y => pure (x + y)) = _
    rw [Environment.value, found]
    cases env.value right <;> rfl
  have folded : (Formula.chain (.name left) [(.add, .name right)]).fold =
      Code.joinWith .add 0.0 0.0 [.name left, .name right] := rfl
  rw [folded, Code.joinWith]
  unfold total
  split
  · show ((Code.add (.name left) (.name right)).eval env >>= fun z => pure (z + 0.0)) = _
    rw [sum]
    cases env.value right <;> rfl
  · exact sum

/-! ## A name added to a token -/

section Sum

variable {inner name : List Char}

/-- A bracket with a name added to it. -/
def bracketPlus (inner name : List Char) : List Char := '[' :: (inner ++ "] + ".toList ++ name)

theorem trim_bracketPlus (valid : IsName name) (inner : List Char) :
    trim (bracketPlus inner name) = bracketPlus inner name := by
  have start : trimStart (bracketPlus inner name) = bracketPlus inner name :=
    trimStart_eq_self fun c first => by cases first; rfl
  obtain ⟨first, others, same, -⟩ := valid.starts
  rw [trim, start, bracketPlus, ← List.cons_append]
  exact trimEnd_append (same ▸ List.cons_ne_nil _ _) fun c member =>
    not_isBlank_of_isNameChar (valid.continues c member)

/-- The place of the token stands before the name. -/
theorem template_bracketPlus (valid : IsName name) (closed : ']' ∉ inner) :
    ∃ v, template (bracketPlus inner name) = place v ++ (" + ".toList ++ name).map .char := by
  have unopened : '[' ∉ " + ".toList ++ name := by
    rw [List.mem_append, not_or]
    refine ⟨by decide, fun member => ?_⟩
    have := valid.continues _ member
    cases this
  have parts : pieces (bracketPlus inner name) =
      [.plain [], .bracket inner, .plain (" + ".toList ++ name)] := by
    rw [bracketPlus, List.append_assoc, pieces, piecesOutside, if_pos rfl]
    exact congrArg _ ((piecesInside_append closed [] _).trans
      (congrArg _ (pieces_plain unopened)))
  refine ⟨variableOf (randomTokens (bracketPlus inner name)) 0 inner, ?_⟩
  rw [template, parts]
  show [] ++ (place _ ++ ((" + ".toList ++ name).map .char ++ [])) = _
  rw [List.append_nil]
  rfl

variable {mode : Mode} {e : Expr}

/-- A bracket that compiles with a name added to it gives the sum of its variable and the name. -/
theorem code_bracketPlus (valid : IsName name) (closed : ']' ∉ inner)
    (h : compile mode (bracketPlus inner name) = .ok e) :
    ∃ v, Within e.slots.length e.randoms.length v ∧
      e.code = (Formula.chain (.name (String.ofList (ownName v)))
        [(.add, .name (String.ofList name))]).fold := by
  obtain ⟨v, opened⟩ := template_bracketPlus valid closed
  have spaced := spaced_template h
  have filled := formulaText_of_compile h
  rw [trim_bracketPlus valid, opened] at spaced filled
  refine ⟨v, ?_, ?_⟩
  · have known := (spaced_hole spaced.tail).1
    rwa [slots_of_compile h, randoms_of_compile h, List.length_map]
  · obtain ⟨parts, formula, -, taken, rfl⟩ := compile_ok h
    have text : parts.text = ' ' :: (ownName v ++ "  + ".toList ++ name) := by
      rw [show parts.text = _ from filled, fill_append, fill_chars]
      show ' ' :: (ownName v ++ [' ']) ++ (" + ".toList ++ name) = _
      simp
    rw [text] at taken
    have read := read_sum (isVariable_ownName v).toIsName valid (fits_of_read taken)
    rw [← Except.ok.inj (read.symm.trans taken)]

theorem exists_slotValues {source : List Char} {lookup : String → Vec → Lookup} {slots : List Slot}
    (resolves : ∀ slot ∈ slots, ∃ x, lookup slot.name slot.offset = .value x) :
    ∃ values, values.length = slots.length ∧
      slotValues source lookup slots = .ok (some values) := by
  choose! value found using resolves
  refine ⟨slots.map value, List.length_map _, slotValues_of_map ?_⟩
  rw [List.map_map]
  exact List.map_congr_left found

variable {ρ : Type} [WordSource ρ]

/-- Once the token has a value, the name decides what the sum comes to. -/
theorem eval_bracketPlus (valid : IsName name) (closed : ']' ∉ inner)
    (h : compile mode (bracketPlus inner name) = .ok e) (lookup : String → Vec → Lookup)
    (resolves : ∀ slot ∈ e.slots, ∃ x, lookup slot.name slot.offset = .value x) (source : ρ) :
    ∃ (values : List Float) (token : Variable),
      slotValues e.source lookup e.slots = .ok (some values) ∧
      values.length = e.slots.length ∧ Within e.slots.length e.randoms.length token ∧
      (∀ x, environment values (e.draws.run source).1 (String.ofList name) = some x ↔
        ∃ v, Resembles name v ∧ v.value? values (e.draws.run source).1 = some x) ∧
      ((e.eval lookup).run source).1 = outcome e.source
        (((environment values (e.draws.run source).1).value (String.ofList name)).map
          (total (token.valueOr values (e.draws.run source).1))) := by
  obtain ⟨token, inside, code⟩ := code_bracketPlus valid closed h
  obtain ⟨values, everyValue, read⟩ := @exists_slotValues e.source lookup e.slots resolves
  have everyDraw : (e.draws.run source).1.length = e.randoms.length := length_draws e source
  -- Numbers of tokens fit the words in which the numbers of variables are read.
  have few : e.slots.length < UInt64.size ∧ e.randoms.length < UInt64.size := by
    obtain ⟨parts, formula, -, taken, rfl⟩ := compile_ok h
    have fits := fits_of_read taken
    rw [show parts.text = _ from formulaText_of_compile h] at fits
    have := tokens_lt_of_fits fits
    rwa [trim_bracketPlus valid, ← randoms_of_compile h, ← List.length_map,
      ← slots_of_compile h] at this
  refine ⟨values, token, read, everyValue, inside, fun x => ?_, ?_⟩
  · rw [← everyValue, ← everyDraw] at few
    exact environment_eq_some_iff valid.continues few.1.le few.2.le
  · have found : environment values (e.draws.run source).1 (String.ofList (ownName token)) =
        some (token.valueOr values (e.draws.run source).1) := by
      rw [environment_ownName _ _ (inside.mono few.1.le few.2.le)]
      rw [← everyValue, ← everyDraw] at inside
      exact value?_of_within inside
    rw [eval_of_values read, code, eval_sum _ found]
    cases (environment values (e.draws.run source).1).value (String.ofList name) <;> rfl

/-- A name that is added to a token is given the value of any token whose variable it is written
like. It is undefined if there is none. -/
theorem bare_name_undefined_iff (valid : IsName name) (closed : ']' ∉ inner)
    (h : compile mode (bracketPlus inner name) = .ok e) (lookup : String → Vec → Lookup)
    (resolves : ∀ slot ∈ e.slots, ∃ x, lookup slot.name slot.offset = .value x) (source : ρ) :
    (((e.eval lookup).run source).1 =
        .error (.formula e.source (.undefined (String.ofList name))) ↔
      ¬∃ v, Resembles name v ∧ Within e.slots.length e.randoms.length v) ∧
    ∀ v, Resembles name v → Within e.slots.length e.randoms.length v →
      ∃ (values : List Float) (token : Variable),
      slotValues e.source lookup e.slots = .ok (some values) ∧
      Within e.slots.length e.randoms.length token ∧
      ((e.eval lookup).run source).1 = .ok (some (total
        (token.valueOr values (e.draws.run source).1)
        (v.valueOr values (e.draws.run source).1))) := by
  obtain ⟨values, token, read, everyValue, inside, found, same⟩ :=
    eval_bracketPlus valid closed h lookup resolves source
  rw [← everyValue, ← length_draws e source] at inside ⊢
  have known {v : Variable} (resembles : Resembles name v)
      (within : Within values.length (e.draws.run source).1.length v) :
      environment values (e.draws.run source).1 (String.ofList name) =
        some (v.valueOr values (e.draws.run source).1) :=
    (found _).mpr ⟨v, resembles, value?_of_within within⟩
  rw [same, Environment.value]
  refine ⟨⟨?_, fun unknown => ?_⟩, fun v resembles within => ⟨values, token, read, inside, ?_⟩⟩
  · rintro failed ⟨v, resembles, within⟩
    rw [known resembles within] at failed
    cases failed
  · have missing : environment values (e.draws.run source).1 (String.ofList name) = none := by
      refine Option.eq_none_iff_forall_ne_some.mpr fun x value => unknown ?_
      obtain ⟨v, resembles, bound⟩ := (found x).mp value
      exact ⟨v, resembles, within_of_value? bound⟩
    rw [missing]
    rfl
  · rw [known resembles within]
    rfl

end Sum

/-- `hot` is undefined beside `[heat]`. -/
theorem hot_undefined : ∃ e, compile .absolute "[heat] + hot".toList = .ok e ∧
    ((e.eval fun _ _ => .value 5.0).run (⟨7⟩ : SplitMix)).1 =
      .error (.formula "[heat] + hot".toList (.undefined "hot")) := by
  have compiles : (compile .absolute "[heat] + hot".toList).toOption.isSome = true := by
    decide +kernel
  obtain ⟨e, compiled⟩ := exists_ok_of_isSome compiles
  have valid : IsName "hot".toList :=
    ⟨⟨'h', ['o', 't'], rfl, rfl⟩, List.all_eq_true.mp rfl, rfl, rfl⟩
  have written : compile .absolute (bracketPlus "heat".toList "hot".toList) = .ok e := compiled
  have source : e.source = "[heat] + hot".toList :=
    (source_of_compile compiled).trans (by decide +kernel)
  have decides := (bare_name_undefined_iff valid (by decide) written
    (fun _ _ => .value 5.0) (fun _ _ => ⟨5.0, rfl⟩) (⟨7⟩ : SplitMix)).1
  rw [source] at decides
  refine ⟨e, compiled, decides.mpr ?_⟩
  rintro ⟨v, resembles, -⟩
  cases v <;> obtain ⟨digits, -, -, same⟩ := resembles <;> cases same

/-- `v_0` is not: it reads the heat. -/
theorem v_0_reads_heat : ∃ e, compile .absolute "[heat] + v_0".toList = .ok e ∧
    ((e.eval fun _ _ => .value 5.0).run (⟨7⟩ : SplitMix)).1 = .ok (some (total 5.0 5.0)) := by
  have compiles : (compile .absolute "[heat] + v_0".toList).toOption.isSome = true := by
    decide +kernel
  have tokens : propertyTokens "[heat] + v_0".toList = [⟨"heat", none⟩] := by decide +kernel
  have drawless : (randomTokens "[heat] + v_0".toList).length = 0 := by decide +kernel
  obtain ⟨e, compiled⟩ := exists_ok_of_isSome compiles
  have valid : IsName "v_0".toList :=
    ⟨⟨'v', ['_', '0'], rfl, rfl⟩, List.all_eq_true.mp rfl, rfl, rfl⟩
  have written : compile .absolute (bracketPlus "heat".toList "v_0".toList) = .ok e := compiled
  have slots : e.slots = [⟨"heat", Vec.zero⟩] := by
    rw [slots_of_compile compiled, tokens]
    rfl
  obtain ⟨values, token, read, -, inside, found, same⟩ := eval_bracketPlus valid (by decide)
    written (fun _ _ => .value 5.0) (fun _ _ => ⟨5.0, rfl⟩) (⟨7⟩ : SplitMix)
  rw [slots] at read
  cases read
  have heat : token.valueOr [5.0] (e.draws.run (⟨7⟩ : SplitMix)).1 = 5.0 := by
    rw [slots, randoms_of_compile compiled, drawless] at inside
    cases token with
    | property n =>
      obtain rfl : n = 0 := Nat.lt_one_iff.mp inside
      rfl
    | random n => exact absurd inside (Nat.not_lt_zero n)
  have zero : Resembles "v_0".toList (.property 0) :=
    ⟨['0'], ⟨List.cons_ne_nil _ _, List.forall_mem_singleton.mpr rfl⟩, rfl, rfl⟩
  refine ⟨e, compiled, ?_⟩
  rw [same, heat, Environment.value, (found 5.0).mpr ⟨_, zero, rfl⟩]
  rfl

end FallingSand.Expr
