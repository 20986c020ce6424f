import Stylebook.Loading.Files
import Stylebook.Text.Quoted

/-! Writing a file together with the directories that lead to it. -/

namespace Stylebook
namespace Command

open Loading (Files Place FileFault)

inductive WriteFault
  | alreadyExists
  | missing
  | notDirectory
  | isDirectory
  | longName
  | nullByte
  deriving DecidableEq, Repr

structure WriteError where
  fault : WriteFault
  path : Path
  deriving DecidableEq, Repr

def WriteFault.message : WriteFault → Text
  | .alreadyExists => "[Errno 17] File exists".text
  | .missing => "[Errno 2] No such file or directory".text
  | .notDirectory => "[Errno 20] Not a directory".text
  | .isDirectory => "[Errno 21] Is a directory".text
  | .longName => "[Errno 36] File name too long".text
  | .nullByte => "embedded null byte".text

/-- The message names the path, unless the path cannot be passed on at all. -/
def WriteError.message (e : WriteError) : Text :=
  match e.fault with
  | .nullByte => e.fault.message
  | fault => fault.message ++ ": ".text ++ Text.quoted e.path.toText

def hasNull (p : Path) : Bool := p.toText.contains '\x00'

def ofFileFault : FileFault → WriteFault
  | .missing => .missing
  | .isDirectory => .isDirectory
  | .notDirectory => .notDirectory
  | .longName => .longName

/-- The directory at the end of some segments. -/
def directoryAt (fs : Files) (root : Text) (parts : List Text) : Except WriteFault Place :=
  match fs.locate ⟨root, parts⟩ with
  | .error f => .error (ofFileFault f)
  | .ok place => if (fs.bytes? place).isSome then .error .notDirectory else .ok place

def isDirectory (fs : Files) (root : Text) (parts : List Text) : Bool :=
  match directoryAt fs root parts with
  | .ok _ => true
  | .error _ => false

/-- Makes one directory in one that exists. The segments are given from the last to the first. -/
def makeDirectory (fs : Files) (root : Text) : List Text → Except WriteFault Files
  | [] => .error .alreadyExists
  | s :: above =>
    let path : Path := ⟨root, above.reverse ++ [s]⟩
    if hasNull path then .error .nullByte
    else if Loading.isLongPath path then .error .longName
    else do
      let place ← directoryAt fs root above.reverse
      if Loading.isLongName s then .error .longName
      else if s = "..".text || fs.exists_ path then .error .alreadyExists
      else .ok (fs.makeDirectory (place ++ [s]))

/-- Makes one directory unless it is there already. -/
def ensureDirectory (fs : Files) (root : Text) (segments : List Text) : Except WriteError Files :=
  match makeDirectory fs root segments with
  | .ok fs => .ok fs
  | .error f =>
    if isDirectory fs root segments.reverse then .ok fs else .error ⟨f, ⟨root, segments.reverse⟩⟩

/-- Makes a directory after those that lead to it, with the files afterwards: what has been made stays, also
    when a later step fails. The segments are given from the last to the first. -/
def makeDirectories (fs : Files) (root : Text) : List Text → Files × Option WriteError
  | [] =>
    match ensureDirectory fs root [] with
    | .ok fs => (fs, none)
    | .error e => (fs, some e)
  | s :: above =>
    let (fs, fault) :=
      match makeDirectory fs root (s :: above) with
      | .error .missing => makeDirectories fs root above
      | _ => (fs, none)
    match fault with
    | some e => (fs, some e)
    | none =>
      match ensureDirectory fs root (s :: above) with
      | .ok fs => (fs, none)
      | .error e => (fs, some e)

/-- Where a file can be written whose directories exist. -/
def writePlace (fs : Files) (path : Path) : Except WriteError Place :=
  if hasNull path then .error ⟨.nullByte, path⟩
  else
    match fs.locate path with
    | .ok place => if (fs.bytes? place).isSome then .ok place else .error ⟨.isDirectory, path⟩
    | .error .longName => .error ⟨.longName, path⟩
    | .error _ =>
      match path.parts.getLast?, directoryAt fs path.root path.parts.dropLast with
      | some s, .ok place => .ok (place ++ [s])
      | _, .error f => .error ⟨f, path⟩
      | none, .ok _ => .error ⟨.isDirectory, path⟩

/-- Writes a text to a file after making the directories that lead to it. The answer is the files afterwards
    and the place of the file. -/
def write (fs : Files) (path : Path) (t : Text) : Files × Except WriteError Place :=
  match makeDirectories fs path.root path.parent.parts.reverse with
  | (fs, some e) => (fs, .error e)
  | (fs, none) =>
    match writePlace fs path with
    | .error e => (fs, .error e)
    | .ok place => (fs.put place (Utf8.encode t), .ok place)

/-- How a written file is reported: by its place below the working directory, else as it was given. -/
def reportPath (path : Path) (place : Place) : Text :=
  if Loading.isBelow place then Loading.placeText place else path.toText

end Command
end Stylebook
