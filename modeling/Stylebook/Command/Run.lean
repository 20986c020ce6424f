import Stylebook.Command.Output
import Stylebook.Command.Request
import Stylebook.Config.File
import Stylebook.Sheet.Graph
import Stylebook.Showcase.Build
import Stylebook.Showcase.Export

/-! What the commands do to the files there are. A command that fails prints nothing and writes no file. -/

namespace Stylebook
namespace Command

open Loading (Files Failure World)

inductive Error
  | config (e : Config.FileError)
  | load (f : Failure)
  | graph (e : Sheet.GraphError)
  | address (e : Url.Error)
  | markup (e : Markup.Rejected)
  | write (e : WriteError)
  deriving Repr

def Error.message : Error → Text
  | .config e => e.message
  | .load f => f.message
  | .graph e => e.message
  | .address e => e.message
  | .markup e => e.message
  | .write e => e.message

/-- What a command leaves behind: its output, the files, and the fault that ended it. -/
structure Report where
  output : Text
  files : Files
  fault : Option Error
  deriving Repr

/-- The report of a command that has failed before anything was written. -/
def Report.failed (fs : Files) (e : Error) : Report := ⟨[], fs, some e⟩

/-- The report of a command that only prints. -/
def Report.ofOutput (fs : Files) (answer : Except Error Text) : Report :=
  match answer with
  | .ok t => ⟨t, fs, none⟩
  | .error e => .failed fs e

/-! ### Configuration -/

/-- The configuration that is used if it exists and no other one is named. -/
def defaultConfig : Path := Path.ofText "config/showcase.yaml".text

/-- The configuration file of a run. -/
def configPath? (fs : Files) (named : Option Path) : Option Path :=
  match named with
  | some p => some p
  | none => if fs.exists_ defaultConfig then some defaultConfig else none

def configOf (fs : Files) (named : Option Path) : Except Error Config :=
  match configPath? fs named with
  | some p => (Config.ofFile fs p).mapError .config
  | none => .ok {}

/-! ### Building -/

/-- More chains of imports than files of this size can make: every place in a chain is written in one of
    them, and read relative to another one. -/
def chainBound (fs : Files) : Nat :=
  let size := (fs.entries.map fun (place, bytes) => place.length + bytes.length + 1).foldl (· + ·) 0
  (size + 2) * (size + 2)

def sheetReader (fs : Files) (c : Config) : Sheet.Reader := ⟨Loading.load { files := fs } {}, c.tags⟩

/-- The items of a sheet and all that it imports. -/
def showcaseOf (fs : Files) (c : Config) (root : Text) : Except Error (List Showcase.Item) := do
  let graph ← ((sheetReader fs c).resolve (chainBound fs) root).mapError .graph
  let (items, _) ← (Showcase.build { config := c } {} (graph.comments.map (·.tags))).mapError .markup
  return items

/-- The showcase as a document, which ends with a line end. Files may be loaded side by side, which leaves it open in which
    order the branches of imports come in; this is the order of loads that end at once. -/
def documentOf (fs : Files) (root : Text) (config : Option Path) : Except Error Text := do
  let items ← showcaseOf fs (← configOf fs config) root
  return Showcase.toJson 2 items ++ ['\n']

/-- Prints the showcase, or writes it to a file and prints which. -/
def runBuild (fs : Files) (root : Text) (config output : Option Path) : Report :=
  match output with
  | none => .ofOutput fs (documentOf fs root config)
  | some path =>
    match documentOf fs root config with
    | .error e => .failed fs e
    | .ok document =>
      match write fs path document with
      | (fs, .error e) => .failed fs (.write e)
      | (fs, .ok place) => ⟨"wrote ".text ++ reportPath path place ++ ['\n'], fs, none⟩

/-! ### Listing tags -/

def importLine (i : Sheet.Import) : Text := "import ".text ++ i.url

def tagLine (t : Doc.Tag) : Text := Text.trimRight (['@'] ++ t.name ++ [' '] ++ t.content)

/-- A comment's number, and its tags. -/
def commentLines (c : Sheet.Comment) (n : Nat) : List Text :=
  ("# doc ".text ++ Text.decimal n) :: c.tags.map tagLine

def tagLines (is : List Sheet.Import) (cs : List Sheet.Comment) : List Text :=
  is.map importLine ++ (cs.zipIdx 1).flatMap fun (c, n) => commentLines c n

/-- The imports and the tags of a sheet, line by line. -/
def listingOf (fs : Files) (source : Text) (config : Option Path) : Except Error Text := do
  let c ← configOf fs config
  let content ← (Loading.load { files := fs } {} source).mapError .load
  let is ← (Sheet.imports content (some source)).mapError .address
  return (tagLines is (Sheet.comments c.tags content)).flatMap (· ++ ['\n'])

/-! ### Running -/

/-- Carries out what is asked for. -/
def run (fs : Files) : Request → Report
  | .build root config output _ => runBuild fs root config output
  | .tags source config => .ofOutput fs (listingOf fs source config)

/-- Carries out a command line. -/
def invoke (fs : Files) (env : Environment) (argv : List Text) : Except UsageError Report :=
  (parse env argv).map (run fs)

/-! ### Files in use -/

/-- The file of an address, unless it is one of the web. -/
def fileOf? (url : Text) : Option Path :=
  match Loading.route url with
  | (.http, _) => none
  | (.file, url) => (Loading.filePath {} url).toOption

/-- The sheets that are looked at for a request, as far as the known files lead. -/
def sheetPaths (fs : Files) (c : Config) : Request → List Path
  | .build root _ _ _ =>
    ((sheetReader fs c).explore (chainBound fs) [⟨root, []⟩]).filterMap fun v => fileOf? v.chain.url
  | .tags source _ => (fileOf? source).toList

/-- The paths that a request looks at, as far as the known files lead. -/
def pathsOf (fs : Files) (r : Request) : List Path :=
  let (config, output) := match r with
    | .build _ config output _ => (config, output)
    | .tags _ config => (config, none)
  let sheets := match configOf fs config with
    | .ok c => sheetPaths fs c r
    | .error _ => []
  config.getD defaultConfig :: output.toList ++ sheets

end Command
end Stylebook
