import FallingSand.CommandLine.Arguments
import FallingSand.CommandLine.Trouble
import FallingSand.Config.Environment
import FallingSand.Config.File
import FallingSand.Files.Tree
import FallingSand.Report.ImageFile
import FallingSand.Report.Text
import FallingSand.Script.Compile
import FallingSand.Simulation.Placement

/-!
# Sessions

What the command line does, apart from the run itself. A session is prepared from
the arguments and from the texts that they name, then workers run on its
simulation, and what is there in the end is shown. An image of the end goes to a
file, which is opened before it shows whether the image fits its format.
-/

namespace FallingSand.CommandLine

open FallingSand.Random (ChaCha)

/-- What is outside: the environment, and the files by their paths. -/
structure Surroundings where
  environment : Config.Environment
  file : String → Except Files.Failure ByteArray

/-- The surroundings of a tree of files. -/
def Surroundings.ofTree (environment : Config.Environment) (tree : Files.Tree) : Surroundings where
  environment
  file path := tree.read (.ofString path)

/-- Why there is no configuration. -/
inductive ConfigError where
  /-- The file at a path gives none. -/
  | file (path : String) (error : Config.Error)
  /-- The environment gives none, or the arguments make it invalid. -/
  | setting (error : Config.Error)
  deriving DecidableEq, Repr

/-- The texts of an error and of its causes. -/
def ConfigError.chain : ConfigError → List String
  | .file path error => ("Failed to load config " ++ path) :: error.chain
  | .setting error => error.chain

/-- The configuration that the arguments ask for. -/
def Arguments.loadConfig (a : Arguments) (outside : Surroundings) :
    Except ConfigError Config := do
  let base ← match a.config with
    | some path => (Config.ofBytes (outside.file path)).mapError (.file path)
    | none => (Config.ofEnvironment outside.environment).mapError .setting
  (a.override base).validate.mapError fun flaw => .setting (.invalid flaw)

/-- A session before or after the run. -/
structure Session where
  simulation : Simulation
  /-- The random words for all that is not the run. -/
  source : ChaCha

namespace Session

/-- Why a session is not prepared. -/
inductive Error where
  | script (path : String) (error : Script.Error)
  | config (error : ConfigError)
  | simulation (error : Simulation.Error)
  | unknownMaterial (material : String)
  | action (error : Engine.Error)
  /-- The image of the end cannot be made. -/
  | image (path : String) (error : Engine.Error)
  /-- The image of the end cannot be written in the format of a file. -/
  | format (path : String) (fault : Image.Fault)
  /-- The file for the image of the end cannot be written. -/
  | unwritten (path : String) (failure : Files.Failure)
  deriving DecidableEq

def Error.trouble : Error → Trouble
  | .script path error => ⟨"Failed to compile " ++ path, error.chain⟩
  | .config error => .ofChain error.chain
  | .simulation error => .ofChain error.chain
  | .unknownMaterial material => ⟨"Unknown material " ++ Expr.ticked material, []⟩
  | .action error => .ofChain error.chain
  | .image path error => ⟨"Failed to write " ++ path, error.chain⟩
  | .format path fault => ⟨"Failed to write " ++ path, fault.chain⟩
  | .unwritten path failure => ⟨"Failed to write " ++ path, [failure.message]⟩

def world (a : Arguments) (outside : Surroundings) : Except Error World :=
  match Script.compileBytes (outside.file a.script) with
  | .ok compiled => .ok compiled.world
  | .error error => .error (.script a.script error)

def place (entry : Session × Selection) (stroke : Stroke) : Except Error (Session × Selection) :=
  let (session, selection) := entry
  match selection.choose session.simulation.world stroke.material with
  | (none, _) => .error (.unknownMaterial stroke.material)
  | (some id, selection) =>
    let placing := Simulation.place stroke.position id
    match placing.run.run ⟨session.simulation, session.source⟩ with
    | (.ok _, after) => .ok (⟨after.board, after.source⟩, selection)
    | (.error error, _) => .error (.action error)

/-- Prepares a session of a world. Without a seed, one that is taken from elsewhere
counts. -/
def prepare (a : Arguments) (outside : Surroundings) (world : World) (otherwise : UInt64) :
    Except Error Session := do
  let config ← (a.loadConfig outside).mapError .config
  let start := Simulation.start world config (config.stream otherwise config.workers)
  let simulation ← start.mapError .simulation
  let session : Session := ⟨simulation, config.stream otherwise (config.workers + 1)⟩
  let (session, _) ← a.strokes.foldlM place (session, Selection.initial world)
  return session

def printed (session : Session) (a : Arguments) : String :=
  if a.dump then Report.dump session.simulation.world session.simulation.snapshot else ""

/-- An image that is to be written. -/
structure Picture where
  path : String
  format : Image.Format
  image : Image
  deriving DecidableEq, Repr

/-- The image of the end, if one is asked for. -/
def picture? (session : Session) (a : Arguments) : Except Error (Option Picture) :=
  match a.png with
  | none => .ok none
  | some path =>
    let image := session.simulation.snapshot.image session.simulation.world
    match (image.run.run session.source).1, Image.Format.ofPath (.ofString path) with
    | .error error, _ => .error (.image path (.eval error))
    | .ok _, .error fault => .error (.format path fault)
    | .ok image, .ok format => .ok (some ⟨path, format, image⟩)

/-- Why a picture is not written, given why its file cannot be opened. -/
def Picture.error? (picture : Picture) (unopened : Option Files.Failure) : Option Error :=
  match unopened with
  | some failure => some (.unwritten picture.path failure)
  | none => (picture.image.fault? picture.format).map (.format picture.path)

end Session

/-- How the command line ends. -/
structure Exit where
  code : UInt8 := 0
  output : String := ""
  complaint : String := ""
  deriving DecidableEq, Repr

/-- The end after an error; what was printed before stays. -/
def Exit.ofError (error : Session.Error) (output : String) : Exit :=
  ⟨1, output, error.trouble.text⟩

def Exit.ofUsage : UsageError → Exit
  | .help => { output := helpText }
  | error => { code := 2, complaint := "error: " ++ error.message ++ "\n" }

/-- What there is to do. -/
inductive Plan where
  | stop (exit : Exit)
  /-- To let the workers run on a session. -/
  | run (arguments : Arguments) (session : Session)

/-- What there is to do for a list of arguments. -/
def plan (texts : List String) (outside : Surroundings) (otherwise : UInt64) : Plan :=
  match Arguments.read texts with
  | .error error => .stop (.ofUsage error)
  | .ok a =>
    match Session.world a outside with
    | .error error => .stop (.ofError error "")
    | .ok world =>
      if a.check then .stop { output := Report.summary world }
      else match Session.prepare a outside world otherwise with
        | .error error => .stop (.ofError error "")
        | .ok session => .run a session

/-- How a session ends after the run, and the image that is written then. A file
is opened by `openFile`, which says why it cannot be. -/
def Session.finish {m : Type → Type} [Monad m] (session : Session) (a : Arguments)
    (openFile : String → m (Option Files.Failure)) : m (Exit × Option Session.Picture) := do
  let output := session.printed a
  match session.picture? a with
  | .error error => return (.ofError error output, none)
  | .ok none => return ({ output }, none)
  | .ok (some picture) =>
    match picture.error? (← openFile picture.path) with
    | some error => return (.ofError error output, none)
    | none => return ({ output }, some picture)

end FallingSand.CommandLine
