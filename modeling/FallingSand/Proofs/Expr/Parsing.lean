import FallingSand.Proofs.Expr.Reading
import FallingSand.Proofs.Expr.Renaming
import Mathlib.Tactic.Choose

/-!
# Formulas of filled templates

How a template is read does not depend on the names in its places: either it is a formula with
none of them, or it is one with all of them, and then always the same but for the names
(`read_fill`). The reader goes by recursion over the depth of nested operands, so this is shown
for an operand of some depth from what is known of those that lie deeper (`operand_succ_reads`).
-/

namespace FallingSand.Expr

open FallingSand.Text
open Reader

variable {α β : Type} {V : Variable → Prop} {t : Template}

/-! ## Formulas that follow the names -/

section Follows

variable {γ : Type}

/-- Whether results for all names are renamings of one thing, of which only the names of
variables depend on the choice. -/
def Follows (rename : (String → String) → α → α) (names : α → List String)
    (V : Variable → Prop) (a : Naming → α) : Prop :=
  ∃ common, (∀ text ∈ names common, Known V text) ∧
    ∀ ν, rename id (a ν) = rename ν.subst common

abbrev FollowsName := Follows (fun p (text : String) => p text) fun text => [text]

abbrev FollowsOne := Follows Formula.rename Formula.names

abbrev FollowsChain := Follows renameChain namesOfChain

abbrev FollowsAll := Follows renameAll namesOfAll

abbrev FollowsItems := Follows renameItems namesOfItems

variable {rename₁ : (String → String) → α → α} {names₁ : α → List String}
  {rename₂ : (String → String) → β → β} {names₂ : β → List String}
  {rename₃ : (String → String) → γ → γ} {names₃ : γ → List String}

/-- What is the same for all names and holds none of them. -/
theorem follows_const (value : α) (same : ∀ p, rename₁ p value = rename₁ id value)
    (nameless : names₁ value = []) : Follows rename₁ names₁ V fun _ => value :=
  ⟨value, by rw [nameless]; exact nofun, fun ν => (same ν.subst).symm⟩

theorem follows_name {text : String} (known : Known V text) :
    FollowsName V fun ν => ν.subst text :=
  ⟨text, List.forall_mem_singleton.mpr known, fun _ => rfl⟩

/-- What is built from one part follows the names if the part does. -/
theorem Follows.map {a : Naming → α} (h : Follows rename₁ names₁ V a) (node : α → β)
    (commutes : ∀ p a, rename₂ p (node a) = node (rename₁ p a))
    (texts : ∀ a, names₂ (node a) = names₁ a) : Follows rename₂ names₂ V fun ν => node (a ν) := by
  obtain ⟨common, known, same⟩ := h
  refine ⟨node common, by rwa [texts], fun ν => ?_⟩
  rw [commutes, same, commutes]

/-- What is built from two parts follows the names if both do. -/
theorem Follows.map₂ {a : Naming → α} {b : Naming → β} (left : Follows rename₁ names₁ V a)
    (right : Follows rename₂ names₂ V b) (node : α → β → γ)
    (commutes : ∀ p a b, rename₃ p (node a b) = node (rename₁ p a) (rename₂ p b))
    (texts : ∀ a b, names₃ (node a b) = names₁ a ++ names₂ b) :
    Follows rename₃ names₃ V fun ν => node (a ν) (b ν) := by
  obtain ⟨common, known, same⟩ := left
  obtain ⟨common', known', same'⟩ := right
  refine ⟨node common common', ?_, fun ν => ?_⟩
  · rw [texts]
    exact List.forall_mem_append.mpr ⟨known, known'⟩
  · rw [commutes, same, same', commutes]

/-- A thing to be printed with other names. -/
def renameItem (p : String → String) : String ⊕ Formula → String ⊕ Formula
  | .inl text => .inl (layoutMark text)
  | .inr formula => .inr (formula.rename p)

def namesOfItem : String ⊕ Formula → List String
  | .inl _ => []
  | .inr formula => formula.names

abbrev FollowsItem := Follows renameItem namesOfItem

/-- Of a text that is printed only the mark of a layout matters. -/
theorem follows_text {text : Naming → String} (shown : String)
    (mark : ∀ ν, layoutMark (text ν) = layoutMark shown) : FollowsItem V fun ν => .inl (text ν) :=
  ⟨.inl shown, nofun, fun ν => congrArg Sum.inl (mark ν)⟩

theorem FollowsItems.cons {item : Naming → String ⊕ Formula}
    {items : Naming → List (String ⊕ Formula)} (head : FollowsItem V item)
    (tail : FollowsItems V items) : FollowsItems V fun ν => item ν :: items ν :=
  Follows.map₂ head tail List.cons (fun _ item _ => by cases item <;> rfl)
    (fun item _ => by cases item <;> rfl)

end Follows

/-! ## Calls -/

section Calls

variable {p : String → String} {name : String}

/-- A name without a meaning of its own calls a function that is not known. -/
theorem callOf_of_free (free : name ∉ reserved) (arguments : List Formula) :
    callOf name arguments = .ok (.call name arguments) := by
  rw [reserved, List.mem_append, not_or] at free
  have unknown : Function.ofName? name = none := by
    refine List.find?_eq_none.mpr fun function member same => free.1 ?_
    exact List.mem_map.mpr ⟨function, member, eq_of_beq same⟩
  unfold callOf
  rw [unknown]
  dsimp only
  split
  case h_15 => rfl
  all_goals exact (free.2 (by decide)).elim

/-- Calling renamed arguments gives the renamed call, if the function keeps its name. -/
theorem callOf_rename (keeps : p name = name) (arguments : List Formula) :
    callOf name (renameAll p arguments) = (callOf name arguments).map (Formula.rename p) := by
  by_cases free : name ∉ reserved
  · rw [callOf_of_free free, callOf_of_free free, Except.map, Formula.rename, keeps]
  cases function : Function.ofName? name with
  | some function' =>
    unfold callOf
    rw [function]
    rcases arguments with _ | ⟨a, _ | ⟨b, rest⟩⟩ <;> rfl
  | none =>
    have named : name ∈ ["print", "log", "round", "min", "max", "e", "pi"] := by
      refine (List.mem_append.mp (not_not.mp free)).resolve_left fun member => ?_
      obtain ⟨function', member, same⟩ := List.mem_map.mp member
      exact List.find?_eq_none.mp function function' member (beq_of_eq same)
    simp only [List.mem_cons, List.not_mem_nil, or_false] at named
    unfold callOf
    rw [function]
    rcases named with rfl | named
    · exact congrArg (fun text => Except.ok (Formula.call text (renameAll p arguments))) keeps.symm
    · rcases named with rfl | rfl | rfl | rfl | rfl | rfl <;>
        rcases arguments with _ | ⟨a, _ | ⟨b, _ | ⟨c, rest⟩⟩⟩ <;> rfl

theorem names_callOf {arguments : List Formula} {formula : Formula}
    (called : callOf name arguments = .ok formula) :
    ∀ text ∈ formula.names, text = name ∨ text ∈ namesOfAll arguments := by
  unfold callOf at called
  split at called
  · split at called
    · cases called
      exact fun text member => .inr (List.mem_append_left _ member)
    · cases called
  · split at called
    all_goals cases called
    all_goals simp +contextual [Formula.names, namesOfAll]

theorem map_eq_ok {ε : Type} {result : Except ε α} {f : α → β} {b : β}
    (mapped : result.map f = .ok b) : ∃ a, result = .ok a ∧ f a = b := by
  cases result with
  | error error => cases mapped
  | ok a => exact ⟨a, rfl, Except.ok.inj mapped⟩

theorem map_eq_error {ε : Type} {result : Except ε α} {f : α → β} {error : ε}
    (mapped : result.map f = .error error) : result = .error error := by
  cases result with
  | error error => exact congrArg Except.error (Except.error.inj mapped)
  | ok a => cases mapped

/-- What a call is read as follows the names. -/
theorem callOf_reads {text : String} (known : Known V text) {arguments : Naming → List Formula}
    (follows : FollowsAll V arguments) :
    Reads t (fun ν => (callOf (ν.subst text) (arguments ν) : Reader Formula)) fun a rest =>
      FollowsOne V a ∧ rest = t := by
  cases known with
  | @place v kind =>
    have called (ν : Naming) : (callOf (ν.subst (key v)) (arguments ν) : Reader Formula) =
        pure (.call (ν.subst (key v)) (arguments ν)) := by
      rw [callOf_of_free (subst_key ν v ▸ (ν.valid v).free)]
      rfl
    refine .congr called (.of_pure ⟨?_, rfl⟩)
    exact (follows_name (.place kind)).map₂ follows Formula.call (fun _ _ _ => rfl)
      fun _ _ => rfl
  | @word c rest starts =>
    obtain ⟨common, texts, same⟩ := follows
    have step (ν : Naming) : (callOf (String.ofList (c :: rest)) (arguments ν)).map
        (Formula.rename id) =
        (callOf (String.ofList (c :: rest)) common).map (Formula.rename ν.subst) := by
      rw [← callOf_rename rfl, same, callOf_rename (subst_word ν rest starts)]
    have name (ν : Naming) : (callOf (ν.subst (String.ofList (c :: rest))) (arguments ν) :
        Reader Formula) = (callOf (String.ofList (c :: rest)) (arguments ν) : Reader Formula) := by
      rw [subst_word ν rest starts]
    refine .congr name ?_
    cases called : callOf (String.ofList (c :: rest)) common with
    | error fault =>
      have failed (ν : Naming) : callOf (String.ofList (c :: rest)) (arguments ν) = .error fault :=
        map_eq_error ((step ν).trans (by rw [called]; rfl))
      exact .congr (fun ν => by rw [failed]; rfl) (.of_throw fun _ => fault)
    | ok formula =>
      have gives (ν : Naming) : ∃ formula', callOf (String.ofList (c :: rest)) (arguments ν) =
          .ok formula' ∧ formula'.rename id = formula.rename ν.subst :=
        map_eq_ok ((step ν).trans (by rw [called]; rfl))
      choose results called' same' using gives
      refine .congr (fun ν => by rw [called']; rfl) (.of_pure ⟨⟨formula, ?_, same'⟩, rfl⟩)
      intro text member
      rcases names_callOf called text member with rfl | member
      · exact .word starts
      · exact texts text member

end Calls

/-! ## Chains and arguments -/

/-- Whether a reader gives results with a property from every template, leaves a shorter one
and treats all names alike. -/
def ReadsAs (V : Variable → Prop) (P : (Naming → α) → Prop) (r : Reader α) : Prop :=
  ∀ t, Spaced V t → Reads t (fun _ => r) fun a rest =>
    Spaced V rest ∧ P a ∧ rest.length < t.length

/-- What is left to do for something to be printed once spaces are skipped. -/
def itemOf (operand : Reader Formula) : List Char → Reader (String ⊕ Formula)
  | [] => throw (.unfinished "opening quote of string")
  | '"' :: rest =>
    match splitAtFirst? ['"'] rest with
    | none => throw (.unfinished "string")
    | some (text, after) => do
      goTo after
      return .inl (String.ofList text)
  | _ => do return .inr (← group operand)

theorem printItem_eq (operand : Reader Formula) : printItem operand = peek >>= itemOf operand := by
  unfold printItem
  congr 1

theorem itemOf_cons (operand : Reader Formula) {c : Char} (other : c ≠ '"') (rest : List Char) :
    itemOf operand (c :: rest) = do return .inr (← group operand) := by
  unfold itemOf
  split
  · contradiction
  · rename_i same
    exact absurd (List.cons.inj same).1 other
  · rfl

section Parts

variable {operand : Reader Formula} (reads : ReadsAs V (FollowsOne V) operand)

include reads

/-- Every operator takes a character, so there are operators for the fuel whatever the names. -/
theorem chainRest_reads (n : Nat) {t : Template} (spaced : Spaced V t) (short : t.length ≤ n)
    {fuel : Naming → Nat} (enough : ∀ ν, n ≤ fuel ν) :
    Reads t (fun ν => chainRest operand (fuel ν)) fun a rest =>
      Spaced V rest ∧ FollowsChain V a ∧ rest.length ≤ t.length := by
  have nothing : FollowsChain V fun _ => [] := follows_const [] (fun _ => rfl) rfl
  induction n generalizing t fuel with
  | zero =>
    obtain rfl : t = [] := List.length_eq_zero_iff.mp (Nat.le_zero.mp short)
    have still (fuel groups operands : Nat) :
        chainRest operand fuel ⟨[], groups, operands⟩ = .ok ([], ⟨[], groups, operands⟩) := by
      cases fuel <;> rfl
    exact fun groups operands => .inr ⟨fun _ => [], [], groups, operands,
      ⟨.nil, nothing, Nat.le_refl 0⟩, fun ν => still _ _ _⟩
  | succ n ih =>
    have step (ν : Naming) : chainRest operand (fuel ν) = operator? >>= fun op =>
        op.elim (pure []) fun op => do
          let next ← operand
          return (op, next) :: (← chainRest operand (fuel ν - 1)) := by
      obtain ⟨more, same⟩ := Nat.exists_eq_add_of_lt (enough ν)
      rw [same]
      refine congrArg (operator? >>= ·) (funext fun op => ?_)
      cases op <;> rfl
    refine .congr step ((operator?_reads spaced).of_bind ?_)
    rintro _ rest ⟨left, ⟨rfl, rfl⟩ | ⟨op, rfl, shorter⟩⟩
    · exact .of_pure ⟨left, nothing, length_skip_le t⟩
    refine (reads rest left).of_bind ?_
    rintro next rest' ⟨left', follows, shorter'⟩
    refine (ih left' (by omega) fun ν => Nat.le_sub_one_of_lt (enough ν)).of_bind ?_
    rintro others rest'' ⟨left'', follows', shorter''⟩
    refine .of_pure ⟨left'', ?_, by omega⟩
    exact follows.map₂ follows' (fun next others => (op, next) :: others)
      (fun _ _ _ => rfl) fun _ _ => rfl

theorem chain_reads : ReadsAs V (FollowsOne V) (chain operand) := by
  intro t spaced
  unfold chain
  refine (reads t spaced).of_bind ?_
  rintro first rest ⟨left, follows, shorter⟩
  refine .of_get (k := fun ν text => do
    let others ← chainRest operand text.length
    return Formula.chain (first ν) others) ?_
  refine (chainRest_reads reads rest.length left (Nat.le_refl _)
    fun ν => length_le_fill ν rest).of_bind ?_
  rintro others rest' ⟨left', follows', shorter'⟩
  refine .of_pure ⟨left', ?_, by omega⟩
  exact follows.map₂ follows' Formula.chain (fun _ _ _ => rfl) fun _ _ => rfl

theorem group_reads : ReadsAs V (FollowsOne V) (group operand) := by
  intro t spaced
  unfold group
  refine (chain_reads reads t spaced).of_bind ?_
  rintro formula rest done
  refine Reads.storeGroup.of_bind ?_
  rintro _ _ rfl
  exact .of_pure done

omit reads in
/-- No name asks for a layout. -/
theorem layoutMark_fill (ν : Naming) (t : Template) : layoutMark (String.ofList (fill ν.name t)) =
    layoutMark (String.ofList (fill (fun _ => []) t)) := by
  have same : (fill ν.name t).contains '%' = (fill (fun _ => []) t).contains '%' := by
    induction t with
    | nil => rfl
    | cons letter rest ih =>
      cases letter with
      | char c => rw [fill, fill, List.contains_cons, List.contains_cons, ih]
      | hole v =>
        have nameless : (ν.name v).contains '%' = false := by
          refine List.contains_eq_any_beq.trans (List.any_eq_false.mpr fun c member same => ?_)
          have := (ν.valid v).continues c member
          rw [← eq_of_beq same] at this
          cases this
        rw [fill, fill, List.contains_append, nameless, Bool.false_or, List.nil_append, ih]
  unfold layoutMark
  rw [String.toList_ofList, String.toList_ofList, same]

/-- A text between quotes may hold places; no more than its mark of a layout is kept. -/
theorem printItem_reads : ReadsAs V (FollowsItem V) (printItem operand) := by
  intro t spaced
  rw [printItem_eq]
  refine .of_peek ?_
  have left := spaced.skip
  have shorter := length_skip_le t
  have formula : Reads t.skip (fun _ => do return .inr (← group operand)) fun a rest =>
      Spaced V rest ∧ FollowsItem V a ∧ rest.length < t.length := by
    refine (group_reads reads _ left).of_bind ?_
    rintro a rest' ⟨spaced', follows, shorter'⟩
    refine .of_pure ⟨spaced', ?_, by omega⟩
    exact follows.map Sum.inr (fun _ _ => rfl) fun _ => rfl
  match skipped : t.skip with
  | [] => exact .of_throw fun _ => .unfinished "opening quote of string"
  | .hole v :: rest =>
    rw [skipped] at formula
    refine .congr (fun ν => ?_) formula
    obtain ⟨c, others, same, starts⟩ := (ν.valid v).starts
    rw [fill, same]
    exact itemOf_cons operand (startsName_ne starts rfl) _
  | .char c :: rest =>
    rw [skipped] at formula left shorter
    by_cases quote : c = '"'
    case neg => exact .congr (fun ν => itemOf_cons operand quote _) formula
    subst quote
    rcases splitAtFirst?_fill (rfl : continuesName '"' = false) rest with
      unclosed | ⟨before, after, rfl, found⟩
    · refine .congr (fun ν => ?_) (.of_throw fun _ => .unfinished "string")
      rw [fill, itemOf, unclosed]
    · have item (ν : Naming) :
          itemOf operand (fill ν.name (.char '"' :: (before ++ .char '"' :: after))) = do
            goTo (fill ν.name after)
            return .inl (String.ofList (fill ν.name before)) := by
        rw [fill, itemOf, found]
      refine .congr item (.of_goTo (.of_pure ⟨left.tail.suffix.tail,
        follows_text _ fun ν => layoutMark_fill ν before, ?_⟩))
      rw [List.length_cons, List.length_append, List.length_cons] at shorter
      omega

end Parts

/-- What is left to do for arguments once spaces are skipped, if `item` reads an argument and
those after it. -/
def argumentsAt (name : String) (item : Reader (List α)) (isFirst : Bool) :
    List Char → Reader (List α)
  | [] => throw (.unfinished name)
  | c :: rest =>
    if c = ')' then do goTo rest; return []
    else if isFirst then item
    else if c == ',' || c == ';' then do goTo rest; item
    else throw (.expected "',' or ';'")

theorem argumentsOf_succ (name : String) (argument : Reader α) (isFirst : Bool) (fuel : Nat) :
    argumentsOf name argument isFirst (fuel + 1) = peek >>= argumentsAt name (do
      let first ← argument
      return first :: (← argumentsOf name argument false fuel)) isFirst := by
  rw [argumentsOf]
  congr 1
  funext text
  unfold argumentsAt
  split
  · rfl
  · exact (if_pos rfl).symm
  · rename_i c rest other
    dsimp only
    rw [if_neg other]
    cases isFirst with
    | true => rfl
    | false =>
      by_cases separator : (c == ',' || c == ';') = true
      · simp only [separator]
        rfl
      · simp only [separator]
        rfl

section Arguments

variable {P : (Naming → α) → Prop} {L : (Naming → List α) → Prop} (nil : L fun _ => [])

include nil

/-- What arguments begin with is seen whatever fills the places, as a name is no mark. -/
theorem argumentsAt_reads (name : Naming → String) {item : Naming → Reader (List α)} {total : Nat}
    (reads : ∀ {rest}, Spaced V rest → rest.length ≤ total → Reads rest item fun a rest' =>
      Spaced V rest' ∧ L a ∧ rest'.length ≤ total)
    (isFirst : Bool) {t : Template} (spaced : Spaced V t) (short : t.length ≤ total) :
    Reads t (fun ν => argumentsAt (name ν) (item ν) isFirst (fill ν.name t)) fun a rest =>
      Spaced V rest ∧ L a ∧ rest.length ≤ total := by
  match t with
  | [] => exact .of_throw fun ν => .unfinished (name ν)
  | .hole v :: rest =>
    cases isFirst with
    | true =>
      refine .congr (fun ν => ?_) (reads spaced short)
      obtain ⟨c, others, same, starts⟩ := (ν.valid v).starts
      rw [fill, same, List.cons_append, argumentsAt, if_neg (startsName_ne starts rfl), if_pos rfl]
    | false =>
      refine .congr (fun ν => ?_) (.of_throw fun _ => .expected "',' or ';'")
      obtain ⟨c, others, same, starts⟩ := (ν.valid v).starts
      have comma : (c == ',') = false := beq_false_of_ne (startsName_ne starts rfl)
      have semicolon : (c == ';') = false := beq_false_of_ne (startsName_ne starts rfl)
      rw [fill, same, List.cons_append, argumentsAt, if_neg (startsName_ne starts rfl), comma,
        semicolon]
      rfl
  | .char c :: rest =>
    have short' : rest.length ≤ total := Nat.le_of_succ_le short
    by_cases close : c = ')'
    · refine .congr (fun ν => ?_) (.of_goTo (.of_pure ⟨spaced.tail, nil, short'⟩))
      rw [fill, argumentsAt, if_pos close]
    cases isFirst with
    | true =>
      refine .congr (fun ν => ?_) (reads spaced short)
      rw [fill, argumentsAt, if_neg close, if_pos rfl]
    | false =>
      by_cases separator : (c == ',' || c == ';') = true
      · refine .congr (fun ν => ?_) (.of_goTo (reads spaced.tail short'))
        rw [fill, argumentsAt, if_neg close, if_neg Bool.false_ne_true, if_pos separator]
      · refine .congr (fun ν => ?_) (.of_throw fun _ => .expected "',' or ';'")
        rw [fill, argumentsAt, if_neg close, if_neg Bool.false_ne_true, if_neg separator]

variable {argument : Reader α} (reads : ReadsAs V P argument)
  (cons : ∀ {a as}, P a → L as → L fun ν => a ν :: as ν)

include reads cons

/-- Every argument takes a character, so there are arguments for the fuel whatever the names. -/
theorem argumentsOf_reads (name : Naming → String) (n : Nat) {t : Template}
    (spaced : Spaced V t) (short : t.length < n) {fuel : Naming → Nat} (enough : ∀ ν, n ≤ fuel ν)
    (isFirst : Bool) :
    Reads t (fun ν => argumentsOf (name ν) argument isFirst (fuel ν)) fun a rest =>
      Spaced V rest ∧ L a ∧ rest.length ≤ t.length := by
  induction n generalizing t fuel isFirst with
  | zero => exact absurd short (Nat.not_lt_zero _)
  | succ n ih =>
    have item {rest : Template} (spaced' : Spaced V rest) (shorter : rest.length ≤ t.length) :
        Reads rest (fun ν => do
          let first ← argument
          return first :: (← argumentsOf (name ν) argument false (fuel ν - 1))) fun a rest' =>
            Spaced V rest' ∧ L a ∧ rest'.length ≤ t.length := by
      refine (reads rest spaced').of_bind ?_
      rintro first rest' ⟨left, holds, shorter'⟩
      refine (ih left (by omega) (fun ν => Nat.le_sub_one_of_lt (enough ν)) false).of_bind ?_
      rintro others rest'' ⟨left', holds', shorter''⟩
      exact .of_pure ⟨left', cons holds holds', by omega⟩
    have step (ν : Naming) : argumentsOf (name ν) argument isFirst (fuel ν) =
        peek >>= argumentsAt (name ν) (do
          let first ← argument
          return first :: (← argumentsOf (name ν) argument false (fuel ν - 1))) isFirst := by
      obtain ⟨more, same⟩ := Nat.exists_eq_add_of_lt (enough ν)
      rw [same]
      exact argumentsOf_succ _ _ _ _
    exact .congr step (.of_peek
      (argumentsAt_reads nil name item isFirst spaced.skip (length_skip_le t)))

theorem arguments_reads (name : Naming → String) (spaced : Spaced V t) :
    Reads t (fun ν => arguments (name ν) argument) fun a rest =>
      Spaced V rest ∧ L a ∧ rest.length ≤ t.length := by
  unfold arguments
  refine .of_get (k := fun ν text => argumentsOf (name ν) argument true (text.length + 1)) ?_
  exact argumentsOf_reads nil reads cons name (t.length + 1) spaced (Nat.lt_succ_self _)
    (fun ν => Nat.succ_le_succ (length_le_fill ν t)) true

end Arguments

/-! ## Operands -/

/-- An operand one level further down. -/
def deeperOperand : Nat → Reader Formula
  | 0 => throw .tooDeep
  | deeper + 1 => operand deeper

/-- What is left to do for a call, behind the name and the parenthesis. -/
def calling (depth : Nat) (name : String) : Reader Formula := do
  if name == "print" then
    return .print (← arguments name (printItem (deeperOperand depth)))
  else callOf name (← arguments name (group (operand depth)))

/-- What is left to do for an operand that begins with a name, once spaces are skipped. -/
def named (depth : Nat) (name : String) : List Char → Reader Formula
  | '(' :: rest => do goTo rest; calling depth name
  | _ => return .name name

/-- What is left to do for a formula in parentheses behind its last part. -/
def closing (inner : Formula) : List Char → Reader Formula
  | [] => throw (.unfinished "parentheses")
  | ')' :: rest => do goTo rest; return inner
  | _ => throw (.expected ")")

/-- What is left to do for an operand that is no number, once spaces are skipped. -/
def operandAt (depth : Nat) : List Char → Reader Formula
  | '+' :: rest => do
    goTo rest
    let value ← operand depth
    storeOperand
    return value
  | '-' :: rest => do
    goTo rest
    let value ← operand depth
    storeOperand
    return .negate value
  | '!' :: rest => do
    goTo rest
    let value ← operand depth
    storeOperand
    return .complement value
  | '(' :: rest => do
    goTo rest
    let inner ← group (operand depth)
    peek >>= closing inner
  | text => do
    match ← name? with
    | none => if text.isEmpty then throw (.unfinished "value") else throw .noValue
    | some name => peek >>= named depth name

theorem operand_succ (depth : Nat) : operand (depth + 1) = number? >>= fun number =>
    match number with
    | some value => pure (.number value)
    | _ => peek >>= operandAt depth := by
  -- The arguments of `print` are two levels down, so the levels are counted out.
  cases depth
  · delta operand operandAt named calling deeperOperand closing
    rfl
  · delta operand operandAt named calling deeperOperand closing
    rfl

/-- What is left to do for an operand that is no number, sign or parenthesis. -/
def nameAt (depth : Nat) (text : List Char) : Reader Formula := do
  match ← name? with
  | none => if text.isEmpty then throw (.unfinished "value") else throw .noValue
  | some name => peek >>= named depth name

theorem operandAt_of_ne (depth : Nat) {text : List Char}
    (plain : ∀ c ∈ text.head?, c ∉ ['+', '-', '!', '(']) :
    operandAt depth text = nameAt depth text := by
  unfold operandAt
  split
  · exact absurd (by decide) (plain _ rfl)
  · exact absurd (by decide) (plain _ rfl)
  · exact absurd (by decide) (plain _ rfl)
  · exact absurd (by decide) (plain _ rfl)
  · rfl

theorem named_of_ne (depth : Nat) (name : String) {text : List Char}
    (plain : ∀ c ∈ text.head?, c ≠ '(') : named depth name text = return .name name := by
  unfold named
  split
  · exact absurd rfl (plain _ rfl)
  · rfl

theorem closing_reads {inner : Naming → Formula} (follows : FollowsOne V inner)
    (spaced : Spaced V t) : Reads t (fun ν => peek >>= closing (inner ν)) fun a rest =>
      Spaced V rest ∧ FollowsOne V a ∧ rest.length ≤ t.length := by
  have other (inner : Formula) {c : Char} (unclosed : c ≠ ')') (text : List Char) :
      closing inner (c :: text) = throw (.expected ")") := by
    unfold closing
    split
    · contradiction
    · rename_i first
      exact absurd (List.cons.inj first).1 unclosed
    · rfl
  refine .of_peek ?_
  have left := spaced.skip
  have shorter := length_skip_le t
  match skipped : t.skip with
  | [] => exact .of_throw fun _ => .unfinished "parentheses"
  | .hole v :: rest =>
    refine .congr (fun ν => ?_) (.of_throw fun _ => .expected ")")
    obtain ⟨c, others, same, starts⟩ := (ν.valid v).starts
    rw [fill, same]
    exact other _ (startsName_ne starts rfl) _
  | .char c :: rest =>
    rw [skipped] at left shorter
    by_cases closes : c = ')'
    · subst closes
      exact .of_goTo (.of_pure ⟨left.tail, follows, Nat.le_of_succ_le shorter⟩)
    · exact .congr (fun ν => other _ closes _) (.of_throw fun _ => .expected ")")

section Operands

variable {depth : Nat} (reads : ∀ d ≤ depth, ReadsAs V (FollowsOne V) (operand d))

include reads

/-- A call is read alike for all names: only a name of the text itself can be one with a meaning
of its own. -/
theorem calling_reads {text : String} (known : Known V text) (spaced : Spaced V t) :
    Reads t (fun ν => calling depth (ν.subst text)) fun a rest =>
      Spaced V rest ∧ FollowsOne V a ∧ rest.length ≤ t.length := by
  have calls : Reads t (fun ν => do
      callOf (ν.subst text) (← arguments (ν.subst text) (group (operand depth)))) fun a rest =>
        Spaced V rest ∧ FollowsOne V a ∧ rest.length ≤ t.length := by
    refine (arguments_reads (L := FollowsAll V) (follows_const [] (fun _ => rfl) rfl)
      (group_reads (reads depth (Nat.le_refl _)))
      (fun head tail => head.map₂ tail List.cons (fun _ _ _ => rfl) fun _ _ => rfl)
      (fun ν => ν.subst text) spaced).of_bind ?_
    rintro arguments rest ⟨left, follows, shorter⟩
    refine (callOf_reads known follows).mono ?_
    rintro a _ ⟨follows', rfl⟩
    exact ⟨left, follows', shorter⟩
  have prints : Reads t (fun ν => do
      return .print (← arguments (ν.subst text) (printItem (deeperOperand depth)))) fun a rest =>
        Spaced V rest ∧ FollowsOne V a ∧ rest.length ≤ t.length := by
    have item : ReadsAs V (FollowsOne V) (deeperOperand depth) := by
      cases depth with
      | zero => exact fun t _ => .of_throw fun _ => .tooDeep
      | succ deeper => exact reads deeper (Nat.le_succ _)
    refine (arguments_reads (L := FollowsItems V) (follows_const [] (fun _ => rfl) rfl)
      (printItem_reads item) FollowsItems.cons (fun ν => ν.subst text) spaced).of_bind ?_
    rintro items rest ⟨left, follows, shorter⟩
    refine .of_pure ⟨left, ?_, shorter⟩
    exact follows.map Formula.print (fun _ _ => rfl) fun _ => rfl
  unfold calling
  cases known with
  | @place v kind =>
    refine .congr (fun ν => if_neg fun same => (ν.valid v).free ?_) calls
    rw [← subst_key, eq_of_beq same]
    decide
  | @word c others starts =>
    have keeps (ν : Naming) := subst_word ν others starts
    by_cases print : (String.ofList (c :: others) == "print") = true
    · refine .congr (fun ν => if_pos ?_) prints
      rw [keeps]
      exact print
    · refine .congr (fun ν => if_neg ?_) calls
      rw [keeps]
      exact print

theorem named_reads {text : String} (known : Known V text) (spaced : Spaced V t) :
    Reads t (fun ν => peek >>= named depth (ν.subst text)) fun a rest =>
      Spaced V rest ∧ FollowsOne V a ∧ rest.length ≤ t.length := by
  refine .of_peek ?_
  have left := spaced.skip
  have shorter := length_skip_le t
  have bare (plain : ∀ ν : Naming, ∀ c ∈ (fill ν.name t.skip).head?, c ≠ '(') :
      Reads t.skip (fun ν => named depth (ν.subst text) (fill ν.name t.skip)) fun a rest =>
        Spaced V rest ∧ FollowsOne V a ∧ rest.length ≤ t.length := by
    refine .congr (fun ν => named_of_ne depth _ (plain ν)) (.of_pure ⟨left, ?_, shorter⟩)
    exact (follows_name known).map Formula.name (fun _ _ => rfl) fun _ => rfl
  match skipped : t.skip with
  | [] =>
    rw [skipped] at bare
    exact bare fun _ _ member => nomatch member
  | .hole v :: rest =>
    rw [skipped] at bare
    refine bare fun ν c member => ?_
    obtain ⟨d, others, same, starts⟩ := (ν.valid v).starts
    rw [fill, same] at member
    cases member
    exact startsName_ne starts rfl
  | .char c :: rest =>
    rw [skipped] at bare left shorter
    rw [List.length_cons] at shorter
    by_cases opens : c = '('
    · subst opens
      refine .of_goTo ((calling_reads reads known left.tail).mono ?_)
      rintro a rest' ⟨left', follows, shorter'⟩
      exact ⟨left', follows, by omega⟩
    · refine bare fun ν d member => ?_
      cases member
      exact opens

theorem nameAt_reads (spaced : Spaced V t) (text : Naming → List Char) :
    Reads t (fun ν => nameAt depth (text ν)) fun a rest =>
      Spaced V rest ∧ FollowsOne V a ∧ rest.length < t.length := by
  unfold nameAt
  refine (name?_reads spaced).of_bind ?_
  rintro _ rest ⟨left, ⟨rfl, rfl⟩ | ⟨⟨name, known, rfl⟩, shorter⟩⟩
  · refine .congr (fun ν => ?_) (.of_throw fun ν =>
      if (text ν).isEmpty then .unfinished "value" else .noValue)
    dsimp only
    split <;> rfl
  · refine (named_reads reads known left).mono ?_
    rintro a rest' ⟨left', follows, shorter'⟩
    exact ⟨left', follows, by omega⟩

/-- An operand behind a sign. -/
theorem signed_reads (node : Formula → Formula)
    (commutes : ∀ p f, (node f).rename p = node (f.rename p))
    (texts : ∀ f, (node f).names = f.names) (spaced : Spaced V t) {total : Nat}
    (short : t.length < total) : Reads t (fun _ => do
      let value ← operand depth
      storeOperand
      return node value) fun a rest =>
        Spaced V rest ∧ FollowsOne V a ∧ rest.length < total := by
  refine (reads depth (Nat.le_refl _) t spaced).of_bind ?_
  rintro value rest ⟨spaced', follows, shorter⟩
  refine Reads.storeOperand.of_bind ?_
  rintro _ _ rfl
  exact .of_pure ⟨spaced', follows.map node commutes texts, shorter.trans short⟩

theorem operand_succ_reads : ReadsAs V (FollowsOne V) (operand (depth + 1)) := by
  intro t spaced
  rw [operand_succ]
  refine (number?_reads spaced).of_bind ?_
  rintro _ u ⟨left, ⟨rfl, rfl⟩ | ⟨x, rfl, shorter⟩⟩
  case inr =>
    exact .of_pure ⟨left, follows_const (Formula.number x) (fun _ => rfl) rfl, shorter⟩
  refine .of_peek ?_
  have left' := left.skip
  have shorter : t.skip.skip.length ≤ t.length :=
    Nat.le_trans (length_skip_le _) (length_skip_le t)
  have here := reads depth (Nat.le_refl _)
  have name (plain : ∀ ν : Naming, ∀ c ∈ (fill ν.name t.skip.skip).head?,
      c ∉ ['+', '-', '!', '(']) :
      Reads t.skip.skip (fun ν => operandAt depth (fill ν.name t.skip.skip)) fun a rest =>
        Spaced V rest ∧ FollowsOne V a ∧ rest.length < t.length := by
    refine .congr (fun ν => operandAt_of_ne depth (plain ν)) ?_
    refine (nameAt_reads reads left' _).mono ?_
    rintro a rest ⟨left'', follows, shorter'⟩
    exact ⟨left'', follows, by omega⟩
  match skipped : t.skip.skip with
  | [] =>
    rw [skipped] at name
    exact name fun _ _ member => nomatch member
  | .hole v :: rest =>
    rw [skipped] at name
    refine name fun ν c member signs => ?_
    obtain ⟨d, others, same, starts⟩ := (ν.valid v).starts
    rw [fill, same] at member
    cases member
    simp only [List.mem_cons, List.not_mem_nil, or_false] at signs
    rcases signs with rfl | rfl | rfl | rfl <;> cases starts
  | .char c :: rest =>
    rw [skipped] at name left' shorter
    rw [List.length_cons] at shorter
    by_cases signs : c ∈ ['+', '-', '!', '(']
    case neg =>
      refine name fun ν d member => ?_
      cases member
      exact signs
    simp only [List.mem_cons, List.not_mem_nil, or_false] at signs
    rcases signs with rfl | rfl | rfl | rfl
    · exact .of_goTo (signed_reads reads id (fun _ _ => rfl) (fun _ => rfl) left'.tail shorter)
    · exact .of_goTo (signed_reads reads .negate (fun _ _ => rfl) (fun _ => rfl) left'.tail shorter)
    · exact .of_goTo
        (signed_reads reads .complement (fun _ _ => rfl) (fun _ => rfl) left'.tail shorter)
    · refine .of_goTo ((group_reads here rest left'.tail).of_bind ?_)
      rintro inner rest' ⟨spaced', follows, shorter'⟩
      refine (closing_reads follows spaced').mono ?_
      rintro a rest'' ⟨spaced'', follows', shorter''⟩
      exact ⟨spaced'', follows', by omega⟩

end Operands

theorem operand_reads (depth : Nat) : ReadsAs V (FollowsOne V) (operand depth) := by
  induction depth using Nat.strongRecOn with
  | ind depth ih =>
    cases depth with
    | zero => exact fun t _ => .of_throw fun _ => .tooDeep
    | succ depth => exact operand_succ_reads fun d less => ih d (Nat.lt_succ_of_le less)

/-! ## Whole texts -/

/-- Whether a text is short enough for a formula. -/
def Fits (text : List Char) : Prop := (String.ofList text).utf8ByteSize ≤ longest

instance (text : List Char) : Decidable (Fits text) := Nat.decLe _ _

/-- A formula that is followed by nothing. -/
def whole : Reader Formula := do
  let formula ← chain (operand levels)
  match ← peek with
  | [] => storeGroup; return formula
  | rest => throw (.leftOver rest)

theorem read_of_fits {text : List Char} (fits : Fits text) :
    Formula.read text = (whole ⟨text, 0, 0⟩).map (·.1) :=
  if_neg (Nat.not_lt_of_le fits)

theorem fits_of_read {text : List Char} {formula : Formula} (h : Formula.read text = .ok formula) :
    Fits text := by
  by_cases long : longest < (String.ofList text).utf8ByteSize
  · rw [Formula.read, if_pos long] at h
    cases h
  · exact Nat.le_of_not_lt long

/-- With every choice of names a template is no formula, or with every choice it is one and the
same formula but for the names. -/
theorem read_fill (spaced : Spaced V t) :
    (∀ ν : Naming, ∃ fault, Formula.read (fill ν.name t) = .error fault) ∨
      ∃ formula, FollowsOne V formula ∧
        ∀ ν : Naming, Fits (fill ν.name t) → Formula.read (fill ν.name t) = .ok (formula ν) := by
  have reads : Reads t (fun _ => whole) fun a _ => FollowsOne V a := by
    refine (chain_reads (operand_reads levels) t spaced).of_bind ?_
    rintro formula rest ⟨left, follows, -⟩
    refine .of_peek ?_
    match rest.skip with
    | [] =>
      refine Reads.storeGroup.of_bind ?_
      rintro _ _ rfl
      exact .of_pure follows
    | .char c :: others => exact .of_throw fun ν => .leftOver (fill ν.name (.char c :: others))
    | .hole v :: others =>
      refine .congr (fun ν => ?_) (.of_throw fun ν => .leftOver (fill ν.name (.hole v :: others)))
      obtain ⟨c, name, same, -⟩ := (ν.valid v).starts
      rw [fill, same]
      rfl
  rcases reads 0 0 with fails | ⟨formula, rest, groups, operands, follows, gives⟩
  · refine .inl fun ν => ?_
    obtain ⟨fault, failed⟩ := fails ν
    by_cases fits : Fits (fill ν.name t)
    · exact ⟨fault, (read_of_fits fits).trans (congrArg _ failed)⟩
    · exact ⟨.tooLong, if_pos (Nat.lt_of_not_le fits)⟩
  · exact .inr ⟨formula, follows, fun ν fits =>
      (read_of_fits fits).trans (congrArg _ (gives ν))⟩

end FallingSand.Expr
