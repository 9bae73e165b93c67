import FallingSand.World.Atom

/-!
# Worlds

A world is the meaning of a script: its atom types, the defaults of properties
and the colors to be prepared. Types are found by number, name, alias or key.
Names are unique; of several types with one alias the first counts, and of
several with one key the last.

Numbers are 16 bits long and start again from zero after the last one. Whatever
is found by name is found through the number of the type.
-/

namespace FallingSand

/-- The name of the type that stands for an empty cell. -/
def emptyName : String := "Empty"

/-- The atom types of a script and what goes with them. -/
structure World where
  atoms : Array AtomType
  defaults : Properties
  preload : List ColorRange
  nonempty : 0 < atoms.size

namespace World

variable (world : World)

def atom? (id : AtomId) : Option AtomType := world.atoms[id.toNat]?

/-- The type that was declared first. -/
def first : AtomType :=
  have := world.nonempty
  world.atoms[0]

/-- The type with a number; the first one for a number without a type. -/
def atom (id : AtomId) : AtomType := (world.atom? id).getD world.first

/-- The number of the type with a name. -/
def idOfName? (name : String) : Option AtomId :=
  (world.atoms.find? (·.name == name)).map (·.id)

/-- The number of the first type with an alias. -/
def idOfAlias? (name : String) : Option AtomId :=
  (world.atoms.find? (·.aliasName == some name)).map (·.id)

/-- The number of the last type with a key. -/
def idOfKey? (key : Char) : Option AtomId :=
  (world.atoms.findRev? (·.key == some key)).map (·.id)

/-- The type with a name. -/
def atomByName? (name : String) : Option AtomType := (world.idOfName? name).map world.atom

/-- The first type with an alias. -/
def atomByAlias? (name : String) : Option AtomType := (world.idOfAlias? name).map world.atom

/-- The last type with a key. -/
def atomByKey? (key : Char) : Option AtomType := (world.idOfKey? key).map world.atom

/-- The number of the empty type: the one with its name, or else the first. -/
def empty : AtomId := (world.idOfName? emptyName).getD 0

/-- The type that a symbol of an effect pattern places: the first one with this
alias, or else the one with this name. -/
def placeable? (symbol : String) : Option AtomId :=
  (world.idOfAlias? symbol).or (world.idOfName? symbol)

/-! ## Properties -/

/-- The value of a property: that of the cell, or else that of its type, or else
the default. -/
def resolve? (live : Properties) (id : AtomId) (name : String) : Option Float32 :=
  (live.get? name).or
    (((world.atom? id).bind (·.constants.get? name)).or (world.defaults.get? name))

/-! ## Sets -/

/-- Whether a member of a set stands for a type. -/
def memberIs (member : SetMember) (candidate : AtomId) : Bool :=
  match member with
  | .atom name => world.idOfName? name == some candidate
  | .aliased name =>
    world.atoms.any fun other => other.aliasName == some name && other.id == candidate

/-- Whether a type belongs to a set of `owner`, if `owner` has the set. -/
def setContains? (owner : AtomType) (set : String) (candidate : AtomId) : Option Bool :=
  (owner.definitions.get? set).map fun members =>
    members.any fun member => world.memberIs member candidate

/-- Whether a type belongs to what a symbol means to `owner`: to the set of that
name, or where there is none, to the types with that alias. -/
def isMember (owner : AtomType) (symbol : String) (candidate : AtomId) : Bool :=
  match world.setContains? owner symbol candidate with
  | some contained => contained
  | none => ((world.atom? candidate).bind (·.aliasName)) == some symbol

/-- Whether a type does not belong to a set; to a set that is not there no type
belongs. -/
def isNotMember (owner : AtomType) (set : String) (candidate : AtomId) : Bool :=
  !(world.setContains? owner set candidate).getD false

/-- Whether a type is accepted by a symbol, which `~` negates. -/
def accepts (owner : AtomType) (symbol : String) (candidate : AtomId) : Bool :=
  match symbol.toList with
  | '~' :: set => world.isNotMember owner (String.ofList set) candidate
  | _ => world.isMember owner symbol candidate

/-! ## Rules and colors -/

/-- Every rule with the type that it belongs to. -/
def rules : List (AtomType × Rule) :=
  world.atoms.toList.flatMap fun atom => atom.allRules.map fun rule => (atom, rule)

def ruleCount : Nat :=
  world.atoms.foldl (fun count atom => count + atom.rules.size + atom.alwaysRules.size) 0

/-- The rule that reaches farthest, and the type that it belongs to; of several
the last one. -/
def farthest? : Option (AtomType × Rule) :=
  world.rules.foldl (fun best entry => match best with
    | none => some entry
    | some (atom, rule) => if entry.2.reach < rule.reach then some (atom, rule) else some entry)
    none

/-- The colors to be prepared. -/
def preloadColors : List Color := world.preload.flatMap ColorRange.colors

end World

/-- The world of some types, if there are any. -/
def World.build? (atoms : Array AtomType) (defaults : Properties) (preload : List ColorRange) :
    Option World :=
  if h : 0 < atoms.size then some ⟨atoms, defaults, preload, h⟩ else none

end FallingSand
