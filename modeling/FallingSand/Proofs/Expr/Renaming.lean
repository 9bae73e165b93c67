import FallingSand.Expr.Basic

/-!
# Renaming

The names of a formula can be renamed, before or after folding (`Formula.fold_rename`), and the
value is then that of the formula as it was, where each name stands for what its new name
stands for (`Code.eval_rename`). Of the texts that are printed only one thing has any
effect, whether a percent sign is in them, and a renaming keeps nothing else of them: so two
formulas that differ in such texts have one renaming.
-/

namespace FallingSand.Expr

variable (p : String → String)

/-- What matters of a text to be printed. -/
def layoutMark (text : String) : String := if text.toList.contains '%' then "%" else ""

/-! ## Renamed formulas -/

mutual

/-- A formula with other names. -/
def Formula.rename : Formula → Formula
  | .number value => .number value
  | .name text => .name (p text)
  | .negate operand => .negate operand.rename
  | .complement operand => .complement operand.rename
  | .chain first rest => .chain first.rename (renameChain rest)
  | .apply function argument => .apply function argument.rename
  | .log base argument => .log base.rename argument.rename
  | .round modulus argument => .round modulus.rename argument.rename
  | .min first rest => .min first.rename (renameAll rest)
  | .max first rest => .max first.rename (renameAll rest)
  | .call text arguments => .call (p text) (renameAll arguments)
  | .print items => .print (renameItems items)

def renameChain : List (Op × Formula) → List (Op × Formula)
  | [] => []
  | (op, operand) :: rest => (op, operand.rename) :: renameChain rest

def renameAll : List Formula → List Formula
  | [] => []
  | argument :: rest => argument.rename :: renameAll rest

def renameItems : List (String ⊕ Formula) → List (String ⊕ Formula)
  | [] => []
  | .inl text :: rest => .inl (layoutMark text) :: renameItems rest
  | .inr formula :: rest => .inr formula.rename :: renameItems rest

end

mutual

/-- Code with other names. -/
def Code.rename : Code → Code
  | .const value => .const value
  | .name text => .name (p text)
  | .negate a => .negate a.rename
  | .complement a => .complement a.rename
  | .invert a => .invert a.rename
  | .add a b => .add a.rename b.rename
  | .mul a b => .mul a.rename b.rename
  | .mod a b => .mod a.rename b.rename
  | .pow a b => .pow a.rename b.rename
  | .compare c a b => .compare c a.rename b.rename
  | .or a b => .or a.rename b.rename
  | .and a b => .and a.rename b.rename
  | .apply function a => .apply function a.rename
  | .log base a => .log base.rename a.rename
  | .round modulus a => .round modulus.rename a.rename
  | .min a b => .min a.rename b.rename
  | .max a b => .max a.rename b.rename
  | .call text arguments => .call (p text) (renameCodes arguments)
  | .print items => .print (renameItems p items)

def renameCodes : List Code → List Code
  | [] => []
  | argument :: rest => argument.rename :: renameCodes rest

end

theorem renameCodes_eq_map (arguments : List Code) :
    renameCodes p arguments = arguments.map (Code.rename p) := by
  induction arguments with
  | nil => rfl
  | cons argument rest ih => rw [renameCodes, ih, List.map_cons]

/-! ## The names of a formula -/

mutual

/-- The names in a formula, those of the functions it does not know included. -/
def Formula.names : Formula → List String
  | .number _ => []
  | .name text => [text]
  | .negate operand => operand.names
  | .complement operand => operand.names
  | .chain first rest => first.names ++ namesOfChain rest
  | .apply _ argument => argument.names
  | .log base argument => base.names ++ argument.names
  | .round modulus argument => modulus.names ++ argument.names
  | .min first rest => first.names ++ namesOfAll rest
  | .max first rest => first.names ++ namesOfAll rest
  | .call text arguments => text :: namesOfAll arguments
  | .print items => namesOfItems items

def namesOfChain : List (Op × Formula) → List String
  | [] => []
  | (_, operand) :: rest => operand.names ++ namesOfChain rest

def namesOfAll : List Formula → List String
  | [] => []
  | argument :: rest => argument.names ++ namesOfAll rest

def namesOfItems : List (String ⊕ Formula) → List String
  | [] => []
  | .inl _ :: rest => namesOfItems rest
  | .inr formula :: rest => formula.names ++ namesOfItems rest

end

section Names

variable {p} {q : String → String}

mutual

/-- A renaming matters for the names of a formula only. -/
theorem Formula.rename_congr : ∀ f : Formula, (∀ name ∈ f.names, p name = q name) →
    f.rename p = f.rename q
  | .number _, _ => rfl
  | .name text, same => congrArg Formula.name (same text List.mem_cons_self)
  | .negate operand, same => congrArg Formula.negate (operand.rename_congr same)
  | .complement operand, same => congrArg Formula.complement (operand.rename_congr same)
  | .chain first rest, same => by
    obtain ⟨left, right⟩ := List.forall_mem_append.mp same
    rw [Formula.rename, first.rename_congr left, renameChain_congr rest right, Formula.rename]
  | .apply function argument, same =>
    congrArg (Formula.apply function) (argument.rename_congr same)
  | .log base argument, same => by
    obtain ⟨left, right⟩ := List.forall_mem_append.mp same
    rw [Formula.rename, base.rename_congr left, argument.rename_congr right, Formula.rename]
  | .round modulus argument, same => by
    obtain ⟨left, right⟩ := List.forall_mem_append.mp same
    rw [Formula.rename, modulus.rename_congr left, argument.rename_congr right, Formula.rename]
  | .min first rest, same => by
    obtain ⟨left, right⟩ := List.forall_mem_append.mp same
    rw [Formula.rename, first.rename_congr left, renameAll_congr rest right, Formula.rename]
  | .max first rest, same => by
    obtain ⟨left, right⟩ := List.forall_mem_append.mp same
    rw [Formula.rename, first.rename_congr left, renameAll_congr rest right, Formula.rename]
  | .call text arguments, same => by
    obtain ⟨head, tail⟩ := List.forall_mem_cons.mp same
    rw [Formula.rename, head, renameAll_congr arguments tail, Formula.rename]
  | .print items, same => congrArg Formula.print (renameItems_congr items same)

theorem renameChain_congr : ∀ rest : List (Op × Formula),
    (∀ name ∈ namesOfChain rest, p name = q name) → renameChain p rest = renameChain q rest
  | [], _ => rfl
  | (op, operand) :: rest, same => by
    obtain ⟨left, right⟩ := List.forall_mem_append.mp same
    rw [renameChain, operand.rename_congr left, renameChain_congr rest right, renameChain]

theorem renameAll_congr : ∀ arguments : List Formula,
    (∀ name ∈ namesOfAll arguments, p name = q name) →
    renameAll p arguments = renameAll q arguments
  | [], _ => rfl
  | argument :: rest, same => by
    obtain ⟨left, right⟩ := List.forall_mem_append.mp same
    rw [renameAll, argument.rename_congr left, renameAll_congr rest right, renameAll]

theorem renameItems_congr : ∀ items : List (String ⊕ Formula),
    (∀ name ∈ namesOfItems items, p name = q name) → renameItems p items = renameItems q items
  | [], _ => rfl
  | .inl text :: rest, same => by
    rw [renameItems, renameItems_congr rest same, renameItems]
  | .inr formula :: rest, same => by
    obtain ⟨left, right⟩ := List.forall_mem_append.mp same
    rw [renameItems, formula.rename_congr left, renameItems_congr rest right, renameItems]

end

mutual

/-- The names of a renamed formula are its names, renamed. -/
theorem Formula.names_rename : ∀ f : Formula, (f.rename p).names = f.names.map p
  | .number _ => rfl
  | .name _ => rfl
  | .negate operand => operand.names_rename
  | .complement operand => operand.names_rename
  | .chain first rest => by
    rw [Formula.rename, Formula.names, first.names_rename, namesOfChain_rename rest,
      Formula.names, List.map_append]
  | .apply _ argument => argument.names_rename
  | .log base argument => by
    rw [Formula.rename, Formula.names, base.names_rename, argument.names_rename, Formula.names,
      List.map_append]
  | .round modulus argument => by
    rw [Formula.rename, Formula.names, modulus.names_rename, argument.names_rename, Formula.names,
      List.map_append]
  | .min first rest => by
    rw [Formula.rename, Formula.names, first.names_rename, namesOfAll_rename rest,
      Formula.names, List.map_append]
  | .max first rest => by
    rw [Formula.rename, Formula.names, first.names_rename, namesOfAll_rename rest,
      Formula.names, List.map_append]
  | .call text arguments => by
    rw [Formula.rename, Formula.names, namesOfAll_rename arguments, Formula.names, List.map_cons]
  | .print items => namesOfItems_rename items

theorem namesOfChain_rename : ∀ rest : List (Op × Formula),
    namesOfChain (renameChain p rest) = (namesOfChain rest).map p
  | [] => rfl
  | (op, operand) :: rest => by
    rw [renameChain, namesOfChain, operand.names_rename, namesOfChain_rename rest, namesOfChain,
      List.map_append]

theorem namesOfAll_rename : ∀ arguments : List Formula,
    namesOfAll (renameAll p arguments) = (namesOfAll arguments).map p
  | [] => rfl
  | argument :: rest => by
    rw [renameAll, namesOfAll, argument.names_rename, namesOfAll_rename rest, namesOfAll,
      List.map_append]

theorem namesOfItems_rename : ∀ items : List (String ⊕ Formula),
    namesOfItems (renameItems p items) = (namesOfItems items).map p
  | [] => rfl
  | .inl text :: rest => namesOfItems_rename rest
  | .inr formula :: rest => by
    rw [renameItems, namesOfItems, formula.names_rename, namesOfItems_rename rest, namesOfItems,
      List.map_append]

end

end Names

/-! ## Folding -/

namespace Code

@[simp] theorem const?_rename (a : Code) : (a.rename p).const? = a.const? := by
  cases a <;> rfl

theorem constants_map (parts : List Code) : constants (parts.map (rename p)) = constants parts := by
  rw [constants, List.filterMap_map]
  congr 1
  funext a
  exact const?_rename p a

theorem unknowns_map (parts : List Code) :
    unknowns (parts.map (rename p)) = (unknowns parts).map (rename p) := by
  rw [unknowns, List.filter_map]
  congr 2
  funext a
  exact congrArg Option.isNone (const?_rename p a)

theorem mkNegate_rename (a : Code) : mkNegate (a.rename p) = (mkNegate a).rename p := by
  cases a <;> rfl

theorem mkComplement_rename (a : Code) : mkComplement (a.rename p) = (mkComplement a).rename p := by
  cases a <;> rfl

theorem mkInvert_rename (a : Code) : mkInvert (a.rename p) = (mkInvert a).rename p := by
  cases a <;> rfl

theorem addends_rename (a : Code) : addends (a.rename p) = (addends a).map (rename p) := by
  fun_induction addends a with
  | case1 a b right left => rw [rename, addends, right, left, List.map_append]
  | case2 a other =>
    cases a
    case add a b => exact absurd rfl (other a b)
    all_goals rfl

theorem factors_rename (a : Code) : factors (a.rename p) = (factors a).map (rename p) := by
  fun_induction factors a with
  | case1 a b right left => rw [rename, factors, right, left, List.map_append]
  | case2 a other =>
    cases a
    case mul a b => exact absurd rfl (other a b)
    all_goals rfl

section Nodes

variable {p} {node : Code → Code → Code}
  (commutes : ∀ a b, node (a.rename p) (b.rename p) = (node a b).rename p)

include commutes

theorem foldl_node_map (first : Code) (rest : List Code) :
    (rest.map (rename p)).foldl node (first.rename p) = (rest.foldl node first).rename p := by
  induction rest generalizing first with
  | nil => rfl
  | cons next rest ih => rw [List.map_cons, List.foldl_cons, commutes, ih, List.foldl_cons]

theorem joinWith_map (unit constant : Float) (parts : List Code) :
    joinWith node unit constant (parts.map (rename p)) =
      (joinWith node unit constant parts).rename p := by
  cases parts with
  | nil => rfl
  | cons first rest =>
    rw [List.map_cons, joinWith, joinWith, foldl_node_map commutes]
    split
    · exact commutes _ (.const constant)
    · rfl

theorem extreme_map (better : Float → Float → Bool) (parts : List Code) :
    extreme node better (parts.map (rename p)) = (extreme node better parts).rename p := by
  unfold extreme
  rw [constants_map, unknowns_map]
  dsimp only
  cases unknowns parts with
  | nil => cases constants parts <;> rfl
  | cons first rest =>
    rw [List.map_cons]
    cases constants parts with
    | nil => exact foldl_node_map commutes first rest
    | cons x others =>
      dsimp only
      rw [foldl_node_map commutes]
      exact commutes _ (.const _)

theorem binary_rename (value : Float → Float → Float) (a b : Code) :
    binary node value (a.rename p) (b.rename p) = (binary node value a b).rename p := by
  have both (a b : Code) : binary node value a b =
      (a.const?.bind fun x => b.const?.map fun y => .const (value x y)).getD (node a b) := by
    cases a <;> cases b <;> rfl
  rw [both, both, const?_rename, const?_rename]
  cases a.const? with
  | none => exact commutes a b
  | some x =>
    cases b.const? with
    | none => exact commutes a b
    | some y => rfl

end Nodes

theorem sum_map (parts : List Code) : sum (parts.map (rename p)) = (sum parts).rename p := by
  rw [sum, constants_map, unknowns_map, @joinWith_map p add fun _ _ => rfl, sum]

theorem product_map (parts : List Code) :
    product (parts.map (rename p)) = (product parts).rename p := by
  rw [product, constants_map, unknowns_map, @joinWith_map p mul fun _ _ => rfl, product]

theorem powers_map (a : Code) (rest : List Code) :
    powers (a.rename p) (rest.map (rename p)) = (powers a rest).rename p := by
  have commutes (a b : Code) : pow (a.rename p) (b.rename p) = (pow a b).rename p := rfl
  induction rest generalizing a with
  | nil => rfl
  | cons b rest ih =>
    rw [List.map_cons, powers, powers, ih]
    exact binary_rename commutes _ a (powers b rest)

theorem anyOf_map (parts : List Code) : anyOf (parts.map (rename p)) = (anyOf parts).rename p := by
  have commutes (a b : Code) : or (a.rename p) (b.rename p) = (or a b).rename p := rfl
  induction parts with
  | nil => rfl
  | cons first rest ih =>
    rw [List.map_cons]
    cases first
    case const value =>
      rw [rename, anyOf, anyOf, ih]
      split <;> rfl
    all_goals exact foldl_node_map commutes _ rest

/-- A part that counts as false is the answer. Any other is taken on with what came before,
unless that is a constant. -/
theorem allOfAfter_cons (before part : Code) (rest : List Code) :
    allOfAfter before (part :: rest) =
      if part.const?.any (equal · 0.0) then part
      else if before.const?.isSome then allOfAfter part rest
      else allOfAfter (.and before part) rest := by
  cases part
  case const value =>
    show (if equal value 0.0 then _ else _) = if equal value 0.0 then _ else _
    split
    · rfl
    · cases before <;> rfl
  all_goals cases before <;> rfl

theorem allOfAfter_map (before : Code) (rest : List Code) :
    allOfAfter (before.rename p) (rest.map (rename p)) = (allOfAfter before rest).rename p := by
  induction rest generalizing before with
  | nil => rfl
  | cons part rest ih =>
    rw [List.map_cons, allOfAfter_cons, allOfAfter_cons, const?_rename, const?_rename]
    split
    · rfl
    split
    · exact ih part
    · exact ih (.and before part)

theorem allOf_map (first : Code) (rest : List Code) :
    allOf (first.rename p) (rest.map (rename p)) = (allOf first rest).rename p := by
  cases first
  case const value =>
    rw [rename, allOf, allOf]
    split
    · rfl
    · exact allOfAfter_map p (.const value) rest
  all_goals exact allOfAfter_map p _ rest

/-- The operators of a chain and its operands, each renamed. -/
def renameOperand (operand : Op × Code) : Op × Code := (operand.1, operand.2.rename p)

theorem joinChain_map (level : Level) (first : Code) (rest : List (Op × Code)) :
    joinChain level (first.rename p) (rest.map (renameOperand p)) =
      (joinChain level first rest).rename p := by
  have operands : (rest.map (renameOperand p)).map (·.2) = (rest.map (·.2)).map (rename p) := by
    rw [List.map_map, List.map_map]
    rfl
  have parts : first.rename p :: (rest.map (renameOperand p)).map (·.2) =
      (first :: rest.map (·.2)).map (rename p) := by rw [operands, List.map_cons]
  have foldl (next : Code → Op × Code → Code)
      (commutes : ∀ a operand, next (a.rename p) (renameOperand p operand) =
        (next a operand).rename p) :
      (rest.map (renameOperand p)).foldl next (first.rename p) =
        (rest.foldl next first).rename p := by
    clear operands parts
    induction rest generalizing first with
    | nil => rfl
    | cons operand rest ih => rw [List.map_cons, List.foldl_cons, commutes, ih, List.foldl_cons]
  have flat (split : Code → List Code)
      (commutes : ∀ a : Code, split (a.rename p) = (split a).map (rename p)) :
      ((first :: rest.map (·.2)).map (rename p)).flatMap split =
        ((first :: rest.map (·.2)).flatMap split).map (rename p) := by
    rw [List.flatMap_map, List.map_flatMap]
    exact congrArg (List.flatMap · _) (funext commutes)
  have turned (turn : Code → Code) (commutes : ∀ a : Code, turn (a.rename p) = (turn a).rename p) :
      first.rename p :: (rest.map (renameOperand p)).map (fun operand => turn operand.2) =
        (first :: rest.map fun operand => turn operand.2).map (rename p) := by
    rw [List.map_cons, List.map_map, List.map_map]
    exact congrArg _ (List.map_congr_left fun operand _ => commutes operand.2)
  cases level with
  | or => rw [joinChain, parts, anyOf_map, joinChain]
  | and => rw [joinChain, operands, allOf_map, joinChain]
  | compare =>
    refine foldl _ fun a operand => ?_
    obtain ⟨op, b⟩ := operand
    cases op with
    | compare c => exact @binary_rename p (Code.compare c) (fun _ _ => rfl) c.apply a b
    | _ => rfl
  | add => rw [joinChain, parts, flat addends (addends_rename p), sum_map, joinChain]
  | sub => rw [joinChain, turned mkNegate (mkNegate_rename p), sum_map, joinChain]
  | mul => rw [joinChain, parts, flat factors (factors_rename p), product_map, joinChain]
  | div => rw [joinChain, turned mkInvert (mkInvert_rename p), product_map, joinChain]
  | mod => exact foldl _ fun a operand =>
      @binary_rename p Code.mod (fun _ _ => rfl) Number.remainder a operand.2
  | pow => rw [joinChain, operands, powers_map, joinChain]

end Code

/-- A chain is cut at its operators, whatever the operands are. -/
theorem cutChain_map {α β : Type} (f : α → β) (cut : Op → Bool) (first : α)
    (rest : List (Op × α)) :
    cutChain cut (f first) (rest.map fun operand => (operand.1, f operand.2)) =
      (let (head, segments) := cutChain cut first rest
       ((f head.1, head.2.map fun operand => (operand.1, f operand.2)),
        segments.map fun segment => (segment.1, f segment.2.1,
          segment.2.2.map fun operand => (operand.1, f operand.2)))) := by
  induction rest generalizing first with
  | nil => rfl
  | cons operand rest ih =>
    obtain ⟨op, next⟩ := operand
    rw [List.map_cons, cutChain, cutChain, ih]
    dsimp only
    split <;> rfl

theorem reduceChain_map {α β : Type} {f : α → β} {join : Level → α → List (Op × α) → α}
    {join' : Level → β → List (Op × β) → β}
    (commutes : ∀ level first rest,
      join' level (f first) (rest.map fun operand => (operand.1, f operand.2)) =
        f (join level first rest))
    (levels : List Level) (first : α) (rest : List (Op × α)) :
    reduceChain join' levels (f first) (rest.map fun operand => (operand.1, f operand.2)) =
      f (reduceChain join levels first rest) := by
  induction levels generalizing first rest with
  | nil => rfl
  | cons level tighter ih =>
    rw [reduceChain, reduceChain, cutChain_map]
    obtain ⟨⟨head, tail⟩, segments⟩ := cutChain (fun op => op.level = level) first rest
    cases segments with
    | nil => exact ih head tail
    | cons segment others =>
      have reduced : ((segment :: others).map fun segment =>
          (segment.1, f segment.2.1, segment.2.2.map fun operand => (operand.1, f operand.2))).map
            (fun segment => (segment.1, reduceChain join' tighter segment.2.1 segment.2.2)) =
          ((segment :: others).map fun segment =>
            (segment.1, reduceChain join tighter segment.2.1 segment.2.2)).map
              fun operand => (operand.1, f operand.2) := by
        rw [List.map_map, List.map_map]
        exact List.map_congr_left fun part _ => congrArg _ (ih part.2.1 part.2.2)
      exact (congr (congrArg (join' level) (ih head tail)) reduced).trans (commutes level _ _)

mutual

/-- Folding sees no names. -/
theorem Formula.fold_rename : ∀ f : Formula, (f.rename p).fold = f.fold.rename p
  | .number _ => rfl
  | .name _ => rfl
  | .negate operand => by
    rw [Formula.rename, Formula.fold, Formula.fold_rename operand, Code.mkNegate_rename,
      Formula.fold]
  | .complement operand => by
    rw [Formula.rename, Formula.fold, Formula.fold_rename operand, Code.mkComplement_rename,
      Formula.fold]
  | .chain first rest => by
    rw [Formula.rename, Formula.fold, Formula.fold_rename first, foldChain_rename rest,
      Formula.fold]
    exact reduceChain_map (Code.joinChain_map p) Level.all first.fold (foldChain rest)
  | .apply function argument => by
    rw [Formula.rename, Formula.fold, Formula.fold_rename argument, Formula.fold]
    cases argument.fold <;> rfl
  | .log base argument => by
    rw [Formula.rename, Formula.fold, Formula.fold_rename base, Formula.fold_rename argument,
      Formula.fold]
    exact @Code.binary_rename p Code.log (fun _ _ => rfl) logarithm base.fold argument.fold
  | .round modulus argument => by
    rw [Formula.rename, Formula.fold, Formula.fold_rename modulus,
      Formula.fold_rename argument, Formula.fold]
    exact @Code.binary_rename p Code.round (fun _ _ => rfl) roundTo modulus.fold argument.fold
  | .min first rest => by
    rw [Formula.rename, Formula.fold, Formula.fold_rename first, foldAll_rename rest, Formula.fold]
    exact @Code.extreme_map p Code.min (fun _ _ => rfl) _ (first.fold :: foldAll rest)
  | .max first rest => by
    rw [Formula.rename, Formula.fold, Formula.fold_rename first, foldAll_rename rest, Formula.fold]
    exact @Code.extreme_map p Code.max (fun _ _ => rfl) _ (first.fold :: foldAll rest)
  | .call text arguments => by
    rw [Formula.rename, Formula.fold, foldAll_rename arguments, Formula.fold, Code.rename,
      renameCodes_eq_map]
  | .print _ => rfl

theorem foldChain_rename : ∀ rest : List (Op × Formula),
    foldChain (renameChain p rest) = (foldChain rest).map (Code.renameOperand p)
  | [] => rfl
  | (op, operand) :: rest => by
    rw [renameChain, foldChain, Formula.fold_rename operand, foldChain_rename rest, foldChain]
    rfl

theorem foldAll_rename : ∀ arguments : List Formula,
    foldAll (renameAll p arguments) = (foldAll arguments).map (Code.rename p)
  | [] => rfl
  | argument :: rest => by
    rw [renameAll, foldAll, Formula.fold_rename argument, foldAll_rename rest, foldAll]
    rfl

end

/-! ## Values -/

/-- A fault with another name. -/
def Fault.rename : Fault → Fault
  | .undefined name => .undefined (p name)
  | fault => fault

section Values

variable {p} {q : String → String} {env : Environment}

/-- Every name that a renaming leaves without a value is known to be that name, so a fault
can say it. -/
def Labels (env : Environment) (p q : String → String) : Prop :=
  ∀ name, env (p name) = none → p name = q name

theorem bind_mapError {α β : Type} {f : Fault → Fault} (x : Except Fault α)
    {k k' : α → Except Fault β} (next : ∀ a, k' a = (k a).mapError f) :
    (x.mapError f >>= k') = (x >>= k).mapError f := by
  cases x with
  | error fault => rfl
  | ok a => exact next a

theorem layoutMark_contains (text : String) :
    (layoutMark text).toList.contains '%' = text.toList.contains '%' := by
  unfold layoutMark
  split
  · rename_i marked
    rw [marked]
    rfl
  · rename_i unmarked
    rw [eq_false_of_ne_true unmarked]
    rfl

theorem checkLayout_rename (items : List (String ⊕ Formula)) :
    checkLayout (renameItems p items) = (checkLayout items).mapError (Fault.rename q) := by
  match items with
  | [] => rfl
  | .inr _ :: _ => rfl
  | .inl text :: _ =>
    rw [renameItems, checkLayout, checkLayout, layoutMark_contains]
    split <;> rfl

/-- Operands that are always both evaluated. -/
theorem both_rename {x y x' y' : Except Fault Float} {f : Fault → Fault}
    (left : x' = x.mapError f) (right : y' = y.mapError f) (join : Float → Float → Float) :
    (do let a ← x'; return join a (← y')) =
      (do let a ← x; return join a (← y) : Except Fault Float).mapError f := by
  rw [left, right]
  exact bind_mapError x fun _ => bind_mapError y fun _ => rfl

theorem value_rename (labels : Labels env p q) (name : String) :
    env.value (p name) = (Environment.value (env ∘ p) name).mapError (Fault.rename q) := by
  unfold Environment.value
  rw [Function.comp_apply]
  cases found : env (p name) with
  | some value => rfl
  | none => exact congrArg _ (congrArg _ (labels name found))

mutual

/-- The value of a renamed formula as it is written. -/
theorem Formula.value_rename (labels : Labels env p q) : ∀ f : Formula, (f.rename p).value env =
    (f.value (env ∘ p)).mapError (Fault.rename q)
  | .number _ => rfl
  | .name text => Expr.value_rename labels text
  | .negate operand => by
    rw [Formula.rename, Formula.value, Formula.value_rename labels operand, Formula.value]
    exact bind_mapError _ fun _ => rfl
  | .complement operand => by
    rw [Formula.rename, Formula.value, Formula.value_rename labels operand, Formula.value]
    exact bind_mapError _ fun _ => rfl
  | .chain first rest => by
    rw [Formula.rename, Formula.value, Formula.value_rename labels first, Formula.value]
    refine bind_mapError _ fun _ => ?_
    rw [chainValues_rename labels rest]
    exact bind_mapError _ fun _ => rfl
  | .apply function argument => by
    rw [Formula.rename, Formula.value, Formula.value_rename labels argument, Formula.value]
    exact bind_mapError _ fun _ => rfl
  | .log base argument => by
    rw [Formula.rename, Formula.value, Formula.value_rename labels base, Formula.value]
    refine bind_mapError _ fun _ => ?_
    rw [Formula.value_rename labels argument]
    exact bind_mapError _ fun _ => rfl
  | .round modulus argument => by
    rw [Formula.rename, Formula.value, Formula.value_rename labels modulus, Formula.value]
    refine bind_mapError _ fun _ => ?_
    rw [Formula.value_rename labels argument]
    exact bind_mapError _ fun _ => rfl
  | .min first rest => by
    rw [Formula.rename, Formula.value, Formula.value_rename labels first, Formula.value]
    refine bind_mapError _ fun _ => ?_
    rw [argumentValues_rename labels rest]
    exact bind_mapError _ fun _ => rfl
  | .max first rest => by
    rw [Formula.rename, Formula.value, Formula.value_rename labels first, Formula.value]
    refine bind_mapError _ fun _ => ?_
    rw [argumentValues_rename labels rest]
    exact bind_mapError _ fun _ => rfl
  | .call text arguments => by
    rw [Formula.rename, Formula.value, argumentValues_rename labels arguments, Formula.value]
    exact bind_mapError _ fun _ => Expr.value_rename labels text
  | .print items => by
    rw [Formula.rename, Formula.value, checkLayout_rename, Formula.value]
    exact bind_mapError _ fun _ => lastValue_rename labels items 0.0

theorem chainValues_rename (labels : Labels env p q) : ∀ rest : List (Op × Formula),
    chainValues env (renameChain p rest) = (chainValues (env ∘ p) rest).mapError (Fault.rename q)
  | [] => rfl
  | (op, operand) :: rest => by
    rw [renameChain, chainValues, Formula.value_rename labels operand, chainValues]
    refine bind_mapError _ fun _ => ?_
    rw [chainValues_rename labels rest]
    exact bind_mapError _ fun _ => rfl

theorem argumentValues_rename (labels : Labels env p q) : ∀ arguments : List Formula,
    argumentValues env (renameAll p arguments) =
      (argumentValues (env ∘ p) arguments).mapError (Fault.rename q)
  | [] => rfl
  | argument :: rest => by
    rw [renameAll, argumentValues, Formula.value_rename labels argument, argumentValues]
    refine bind_mapError _ fun _ => ?_
    rw [argumentValues_rename labels rest]
    exact bind_mapError _ fun _ => rfl

theorem lastValue_rename (labels : Labels env p q) :
    ∀ (items : List (String ⊕ Formula)) (last : Float), lastValue env last (renameItems p items) =
      (lastValue (env ∘ p) last items).mapError (Fault.rename q)
  | [], _ => rfl
  | .inl _ :: rest, last => by
    rw [renameItems, lastValue, lastValue_rename labels rest last, lastValue]
  | .inr formula :: rest, last => by
    rw [renameItems, lastValue, Formula.value_rename labels formula, lastValue]
    exact bind_mapError _ fun value => lastValue_rename labels rest value

end

mutual

/-- The value of renamed code is its value where names stand for what their new names stand
for. -/
theorem Code.eval_rename (labels : Labels env p q) : ∀ c : Code, (c.rename p).eval env =
    (c.eval (env ∘ p)).mapError (Fault.rename q)
  | .const _ => rfl
  | .name text => Expr.value_rename labels text
  | .negate a => by
    rw [Code.rename, Code.eval, Code.eval_rename labels a, Code.eval]
    exact bind_mapError _ fun _ => rfl
  | .complement a => by
    rw [Code.rename, Code.eval, Code.eval_rename labels a, Code.eval]
    exact bind_mapError _ fun _ => rfl
  | .invert a => by
    rw [Code.rename, Code.eval, Code.eval_rename labels a, Code.eval]
    exact bind_mapError _ fun _ => rfl
  | .add a b => both_rename (Code.eval_rename labels a) (Code.eval_rename labels b) (· + ·)
  | .mul a b => both_rename (Code.eval_rename labels a) (Code.eval_rename labels b) (· * ·)
  | .mod a b => both_rename (Code.eval_rename labels a) (Code.eval_rename labels b) Number.remainder
  | .pow a b => both_rename (Code.eval_rename labels a) (Code.eval_rename labels b) Float.pow
  | .compare c a b => both_rename (Code.eval_rename labels a) (Code.eval_rename labels b) c.apply
  | .or a b => by
    rw [Code.rename, Code.eval, Code.eval_rename labels a, Code.eval_rename labels b, Code.eval]
    refine bind_mapError _ fun _ => ?_
    split <;> rfl
  | .and a b => by
    rw [Code.rename, Code.eval, Code.eval_rename labels a, Code.eval_rename labels b, Code.eval]
    refine bind_mapError _ fun _ => ?_
    split <;> rfl
  | .apply function a => by
    rw [Code.rename, Code.eval, Code.eval_rename labels a, Code.eval]
    exact bind_mapError _ fun _ => rfl
  | .log base a => both_rename (Code.eval_rename labels base) (Code.eval_rename labels a) logarithm
  | .round modulus a =>
    both_rename (Code.eval_rename labels modulus) (Code.eval_rename labels a) roundTo
  | .min a b => both_rename (Code.eval_rename labels a) (Code.eval_rename labels b) smaller
  | .max a b => both_rename (Code.eval_rename labels a) (Code.eval_rename labels b) larger
  | .call text arguments => by
    rw [Code.rename, Code.eval, evalAll_rename labels arguments, Code.eval]
    exact bind_mapError _ fun _ => Expr.value_rename labels text
  | .print items => by
    rw [Code.rename, Code.eval, checkLayout_rename, Code.eval]
    exact bind_mapError _ fun _ => lastValue_rename labels items 0.0

theorem evalAll_rename (labels : Labels env p q) : ∀ arguments : List Code,
    evalAll env (renameCodes p arguments) = (evalAll (env ∘ p) arguments).mapError (Fault.rename q)
  | [] => rfl
  | argument :: rest => by
    rw [renameCodes, evalAll, Code.eval_rename labels argument, evalAll]
    exact bind_mapError _ fun _ => evalAll_rename labels rest

end

end Values

end FallingSand.Expr
