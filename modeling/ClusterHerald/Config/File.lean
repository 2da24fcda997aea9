import ClusterHerald.Config.Environment
import ClusterHerald.Config.Kinds
import ClusterHerald.Text.Blank
import ClusterHerald.Yaml.Cursor

/-!
# Configuration files

A configuration is a YAML text in a file of a fixed name.  The environment says where the file is
and fills the gaps it leaves.
-/

namespace ClusterHerald

/-- What comes of reading a file. -/
inductive FileContent where
  | missing
  /-- There is something that cannot be read as text. -/
  | unreadable
  | text (text : String)
deriving Repr, DecidableEq

/-- Reads a tree of ignored fields from a YAML text. -/
def IgnoredFields.ofYaml? (text : String) : Option IgnoredFields :=
  Yaml.readText? Source.tree text

namespace Config

/-- Reads a configuration from a YAML text.  A blank text leaves everything as it is. -/
def ofYaml (text : String) : Except ConfigError Config :=
  if Text.isBlankText text then .ok initial
  else
    match Yaml.readText? ofSource text with
    | some c => .ok c
    | none => .error .malformed

/-- The configuration of a file.  A file that is missing leaves everything as it is. -/
def ofFile : FileContent → Except ConfigError Config
  | .missing => .ok initial
  | .unreadable => .error .unreadable
  | .text text => ofYaml text

/-- The name of the file. -/
def fileName : String := ".kubewatch.yaml"

/-- A file in a directory. -/
def inDirectory (directory name : String) : String :=
  if directory = "" || directory.endsWith "/" then directory ++ name
  else directory ++ "/" ++ name

/-- Where the file is: in the directory for configurations, else in the home directory, else in the
directory the program runs in. -/
def path (env : Environment) : String :=
  inDirectory ((env "KW_CONFIG").getD ((env "HOME").getD ".")) fileName

/-- The configuration of a file with its gaps filled, if nothing is wrong with it. -/
def load (content : FileContent) (env : Environment) : Except ConfigError Config := do
  let c := (← ofFile content).filled env
  c.check
  return c

end Config

end ClusterHerald
