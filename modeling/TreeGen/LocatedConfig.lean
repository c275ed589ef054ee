import TreeGen.Config
import TreeGen.Files
import TreeGen.Path

/-!
# Configuration files

A configuration belongs to a file, and the relative paths in it start at the directory of that file.
A file that does not exist stands for the default configuration; one that exists must be readable.
-/

namespace TreeGen

structure LocatedConfig where
  path : String
  config : Config
deriving DecidableEq, Repr

namespace LocatedConfig

variable {m : Type → Type} [Monad m] [ReadsFiles m]

def load (path : String) : m (Except InputError LocatedConfig) := do
  match ← ReadsFiles.readText? path with
  | none => return .error (.unreadable path)
  | some text => return (Config.read text).map (LocatedConfig.mk path)

def loadOrDefault (path : String) : m (Except InputError LocatedConfig) := do
  if ← ReadsFiles.fileExists path then load path
  else return .ok ⟨path, .default⟩

def baseDirectory (located : LocatedConfig) : String :=
  match Path.parent? located.path with
  | some parent => if parent = "" then "." else parent
  | none => "."

/-- A path of the configuration, seen from the working directory. -/
def resolve (located : LocatedConfig) (path : String) : String :=
  Path.join located.baseDirectory path

def inputPath (located : LocatedConfig) : String :=
  located.resolve located.config.settings.input

def templatesDirectory (located : LocatedConfig) : String :=
  located.resolve located.config.settings.templates

def outputPath (located : LocatedConfig) : String :=
  located.resolve located.config.settings.output

end LocatedConfig

end TreeGen
