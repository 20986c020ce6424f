import Stylebook.Command.Run

/-! The program: it collects the files that a request looks at, carries it out, and writes what comes of it. -/

namespace Stylebook
namespace Main

open Loading (Files)

def shown (t : Text) : String := String.ofList t

/-- What is known after one more path has been looked at. -/
def look (files : Files) (path : Path) : IO Files := do
  try
    let bytes ← IO.FS.readBinFile (shown path.toText)
    return files.addFile path bytes.toList
  catch
    | .inappropriateType .. =>
      match files.locate path with
      | .error .notDirectory => return files
      | _ => return files.addDirectory path
    | _ => return files

/-- Looks at paths until the request needs no other one. -/
partial def collect (request : Command.Request) (files : Files) (seen : List Path) : IO Files := do
  let wanted := (Command.pathsOf files request).flatMap Path.leading
  let new := wanted.eraseDups.filter (!seen.contains ·)
  if new.isEmpty then return files
  collect request (← new.foldlM look files) (seen ++ new)

def environment : IO Command.Environment := do
  let names := ["INPUT_CONFIG", "INPUT_OUTPUT", "INPUT_ROOT", "INPUT_SOURCE", "INPUT_VERBOSE"]
  names.filterMapM fun name => do
    return (← IO.getEnv name).map fun value => (name.text, value.text)

/-- Writes the files that a report has changed. -/
def writeChanges (before after : Files) : IO Unit := do
  for (place, bytes) in after.entries do
    if before.bytes? place != some bytes then
      IO.FS.createDirAll (shown (Loading.placeText place.dropLast))
      IO.FS.writeBinFile (shown (Loading.placeText place)) ⟨bytes.toArray⟩

end Main
end Stylebook

open Stylebook Stylebook.Main

def main (args : List String) : IO UInt32 := do
  match Command.parse (← environment) (args.map String.text) with
  | .error e =>
    IO.eprintln (shown e.message)
    return 2
  | .ok request =>
    let files ← collect request { entries := [] } []
    let report := Command.run files request
    writeChanges files report.files
    IO.print (shown report.output)
    match report.fault with
    | none => return 0
    | some e =>
      IO.eprintln (shown e.message)
      return 1
