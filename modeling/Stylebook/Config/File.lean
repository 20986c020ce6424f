import Stylebook.Config.Basic
import Stylebook.Loading.Basic
import Stylebook.Yaml.Document

/-! Configuration files: YAML documents whose top is a mapping. An empty document stands for an empty
    mapping. -/

namespace Stylebook
namespace Config

inductive FileError
  | missing (path : Path)
  | file (fault : Loading.FileFault) (path : Path)
  | encoding (e : Utf8.Error)
  | yaml (e : Yaml.Error)
  | notMapping
  | option (e : Error)
  deriving Repr

def FileError.message : FileError → Text
  | .missing path => "Configuration file '".text ++ path.toText ++ "' not found.".text
  | .file fault path => (Loading.Reason.file fault path.toText).message
  | .encoding e => e.message
  | .yaml e => e.message
  | .notMapping => "Top-level YAML structure must be a mapping.".text
  | .option e => e.message

/-- The entries at the top of a document. -/
def topEntries (v : Value) : Except FileError Entries :=
  if v.isEmpty then .ok []
  else
    match v.entries? with
    | some entries => .ok entries
    | none => .error .notMapping

/-- Reads a configuration from the text of a file. -/
def ofYaml (t : Text) : Except FileError Config := do
  let v ← (Yaml.parse t).mapError .yaml
  let entries ← topEntries v
  (ofEntries entries).mapError .option

/-- Whether a path leads to something. A name that is too long cannot even be asked for. -/
def checkExists (fs : Loading.Files) (path : Path) : Except FileError Unit :=
  if path.toText.contains '\x00' then .error (.missing path)
  else
    match fs.locate path with
    | .ok _ => .ok ()
    | .error .longName => .error (.file .longName path)
    | .error _ => .error (.missing path)

/-- Reads a configuration file, which has to exist. -/
def ofFile (fs : Loading.Files) (path : Path) : Except FileError Config := do
  checkExists fs path
  let bytes ← (fs.read path).mapError (.file · path)
  let text ← (Utf8.decodePieces [] bytes).mapError .encoding
  ofYaml (Text.unifyLineEnds text)

end Config
end Stylebook
