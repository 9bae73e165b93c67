import FallingSand.CommandLine.Stroke
import FallingSand.Config.Basic
import FallingSand.Text.Split

/-!
# Arguments of the command line

Arguments are read from left to right. An option takes the argument after it,
unless that looks like an option, or the text after `=`. What an option or the
script was given is looked at only when the next known argument comes, or the
end, so that an argument nobody knows is the first thing to be complained about.
-/

namespace FallingSand.CommandLine

structure Arguments where
  script : String
  /-- The path of a configuration file; without one the environment counts. -/
  config : Option String
  width : Option UInt32
  height : Option UInt32
  tileSize : Option UInt32
  workers : Option UInt64
  seed : Option UInt64
  delay : Option UInt64
  seconds : Float
  /-- What to place before the run, in order. -/
  strokes : List Stroke
  /-- The milliseconds between two reports. -/
  reportEvery : UInt64
  /-- Whether to print the grid at the end. -/
  dump : Bool
  /-- The path of an image of the grid at the end. -/
  png : Option String
  /-- Whether to do no more than compile the script. -/
  check : Bool

/-- Why arguments ask for nothing. -/
inductive UsageError where
  | help
  | unknownArgument (text : String)
  | missingScript
  | missingValue (name : String)
  | needlessValue (name : String)
  | badValue (name value : String)
  /-- What may be given once is given again. -/
  | repeated (name : String)
  deriving DecidableEq, Repr

def UsageError.message : UsageError → String
  | .help => "help is asked for"
  | .unknownArgument text => "unexpected argument '" ++ text ++ "' found"
  | .missingScript => "the script is missing"
  | .missingValue name => "a value is required for '" ++ name ++ "'"
  | .needlessValue name => "'" ++ name ++ "' takes no value"
  | .badValue name value => "invalid value '" ++ value ++ "' for '" ++ name ++ "'"
  | .repeated name => "'" ++ name ++ "' cannot be used multiple times"

/-- An argument that takes a value. -/
inductive Valued where
  | script | config | width | height | tileSize | workers | seed | delay | seconds | place
  | reportEvery | png
  deriving DecidableEq, Repr

def Valued.name : Valued → String
  | .script => "SCRIPT"
  | .config => "config"
  | .width => "width"
  | .height => "height"
  | .tileSize => "tile-size"
  | .workers => "workers"
  | .seed => "seed"
  | .delay => "update-delay-ns"
  | .seconds => "seconds"
  | .place => "place"
  | .reportEvery => "report-every-ms"
  | .png => "png"

def Valued.options : List Valued :=
  [.config, .width, .height, .tileSize, .workers, .seed, .delay, .seconds, .place, .reportEvery,
    .png]

/-- An argument that takes none. -/
inductive Flag where
  | dump | check | help
  deriving DecidableEq, Repr

def Flag.all : List Flag := [.dump, .check, .help]

def Flag.name : Flag → String
  | .dump => "dump"
  | .check => "check"
  | .help => "help"

/-- The arguments that are read so far. -/
structure Given where
  script : Option String := none
  config : Option String := none
  width : Option UInt32 := none
  height : Option UInt32 := none
  tileSize : Option UInt32 := none
  workers : Option UInt64 := none
  seed : Option UInt64 := none
  delay : Option UInt64 := none
  seconds : Option Float := none
  strokes : List Stroke := []
  reportEvery : Option UInt64 := none
  dump : Bool := false
  png : Option String := none
  check : Bool := false

namespace Given

/-- The value of an argument that may be given once. -/
def once {α : Type} (valued : Valued) (old : Option α) (read : String → Option α)
    (text : String) : Except UsageError (Option α) :=
  if old.isSome then .error (.repeated valued.name)
  else match read text with
    | some value => .ok (some value)
    | none => .error (.badValue valued.name text)

/-- The value of an argument that is a path. -/
def path (valued : Valued) (old : Option String) (text : String) :
    Except UsageError (Option String) :=
  if old.isSome then .error (.repeated valued.name)
  else if text.isEmpty then .error (.missingValue valued.name)
  else .ok (some text)

/-- Reads a number of 32 bits. It is read as an integer first, so that minus zero
is a number too. -/
def readWord32 (text : String) : Option UInt32 :=
  match text.toList with
  | '-' :: digits =>
    match digits.head? with
    | some '+' => none
    | _ => (Number.readNatural? 0 digits).map UInt32.ofNat
  | digits => (Number.readNatural? (UInt32.size - 1) digits).map UInt32.ofNat

def readWord64 (text : String) : Option UInt64 :=
  (Number.readNatural? (UInt64.size - 1) text.toList).map UInt64.ofNat

def set (g : Given) (valued : Valued) (text : String) : Except UsageError Given :=
  match valued with
  | .script => return { g with script := ← path valued g.script text }
  | .config => return { g with config := ← path valued g.config text }
  | .width => return { g with width := ← once valued g.width readWord32 text }
  | .height => return { g with height := ← once valued g.height readWord32 text }
  | .tileSize => return { g with tileSize := ← once valued g.tileSize readWord32 text }
  | .workers => return { g with workers := ← once valued g.workers readWord64 text }
  | .seed => return { g with seed := ← once valued g.seed readWord64 text }
  | .delay => return { g with delay := ← once valued g.delay readWord64 text }
  | .seconds =>
    return { g with seconds := ← once valued g.seconds (Number.readFloat? ·.toList) text }
  | .place =>
    match Stroke.read text.toList with
    | .ok stroke => .ok { g with strokes := g.strokes ++ [stroke] }
    | .error _ => .error (.badValue valued.name text)
  | .reportEvery =>
    return { g with reportEvery := ← once valued g.reportEvery readWord64 text }
  | .png => return { g with png := ← path valued g.png text }

def turnOn (g : Given) : Flag → Except UsageError Given
  | .help => .error .help
  | .dump => if g.dump then .error (.repeated Flag.dump.name) else .ok { g with dump := true }
  | .check => if g.check then .error (.repeated Flag.check.name) else .ok { g with check := true }

/-- An argument whose value is not looked at yet, or still to come. -/
structure Pending where
  valued : Valued
  text : Option String

/-- Looks at what a pending argument was given. -/
def settle (g : Given) : Option Pending → Except UsageError Given
  | none => .ok g
  | some ⟨valued, none⟩ => .error (.missingValue valued.name)
  | some ⟨valued, some text⟩ => g.set valued text

def hasScript (g : Given) (pending : Option Pending) : Bool :=
  g.script.isSome || pending.any (·.valued == .script)

/-- Takes an argument that is no option: the script. -/
def takePlain (g : Given) (pending : Option Pending) (text : String) :
    Except UsageError (Given × Option Pending) := do
  if g.hasScript pending then throw (.unknownArgument text)
  else return (← g.settle pending, some ⟨.script, some text⟩)

/-- Takes an argument that starts with two hyphens, without these: a name, and
maybe a value. -/
def takeLong (g : Given) (pending : Option Pending) (name : List Char)
    (value : Option (List Char)) : Except UsageError (Given × Option Pending) := do
  let name := String.ofList name
  match Valued.options.find? (·.name == name), Flag.all.find? (·.name == name) with
  | some valued, _ =>
    let g ← g.settle pending
    match value with
    | some text => return (← g.set valued (String.ofList text), none)
    | none => return (g, some ⟨valued, none⟩)
  | none, some flag =>
    if value.isSome then throw (.needlessValue name)
    else return (← (← g.settle pending).turnOn flag, none)
  | none, none => throw (.unknownArgument ("--" ++ name))

/-- Takes an argument before a double hyphen. -/
def take (g : Given) (pending : Option Pending) (text : String) :
    Except UsageError (Given × Option Pending) :=
  match text.toList with
  | '-' :: '-' :: long =>
    match Text.splitAtFirst? ['='] long with
    | some (name, value) => g.takeLong pending name (some value)
    | none => g.takeLong pending long none
  | '-' :: 'h' :: _ => do
    let g ← g.settle pending
    return (← g.turnOn .help, none)
  | '-' :: _ :: _ => .error (.unknownArgument text)
  | _ =>
    match pending with
    | some ⟨valued, none⟩ => .ok (g, some ⟨valued, some text⟩)
    | _ => g.takePlain pending text

/-- Takes all arguments. After a double hyphen, `plain` is true and no argument is
an option. -/
def takeAll (g : Given) (pending : Option Pending) (plain : Bool) :
    List String → Except UsageError Given
  | [] => g.settle pending
  | text :: rest => do
    if plain then
      let (g, pending) ← g.takePlain pending text
      takeAll g pending true rest
    else if text = "--" then takeAll g pending true rest
    else
      let (g, pending) ← g.take pending text
      takeAll g pending false rest

end Given

/-- What a list of arguments asks for. -/
def Arguments.read (texts : List String) : Except UsageError Arguments := do
  let g ← Given.takeAll {} none false texts
  match g.script with
  | none => throw .missingScript
  | some script =>
    return { script, config := g.config, width := g.width, height := g.height
             tileSize := g.tileSize, workers := g.workers, seed := g.seed, delay := g.delay
             seconds := g.seconds.getD 5.0, strokes := g.strokes
             reportEvery := g.reportEvery.getD 1000, dump := g.dump, png := g.png
             check := g.check }

/-- What is printed when help is asked for. -/
def helpText : String := "Run a Sandlang atom script headless

Usage: sandlang [OPTIONS] <SCRIPT>

Arguments:
  <SCRIPT>  Atom script to compile

Options:
      --config <CONFIG>
          TOML config file; SANDLANG_* environment variables are used otherwise
      --width <WIDTH>
          Grid width in cells
      --height <HEIGHT>
          Grid height in cells
      --tile-size <TILE_SIZE>
          Lock tile edge length
      --workers <WORKERS>
          Number of worker threads
      --seed <SEED>
          Seed for a reproducible run
      --update-delay-ns <UPDATE_DELAY_NS>
          Worker pause between ticks, in nanoseconds
      --seconds <SECONDS>
          How long to run, in seconds [default: 5]
      --place <PLACEMENTS>
          Place material before starting, as TYPE@X,Y (name, alias or key)
      --report-every-ms <REPORT_EVERY_MS>
          Population report interval in milliseconds [default: 1000]
      --dump
          Print the final grid as text
      --png <PNG>
          Write the final grid as an image
      --check
          Only compile the script and print a summary
  -h, --help
          Print help
"

/-- A configuration with the settings that the arguments give. -/
def Arguments.override (a : Arguments) (c : Config) : Config where
  width := a.width.getD c.width
  height := a.height.getD c.height
  tileSize := a.tileSize.getD c.tileSize
  workers := a.workers.getD c.workers
  delay := a.delay.getD c.delay
  seed := a.seed.or c.seed

end FallingSand.CommandLine
