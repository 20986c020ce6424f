import Stylebook.Path
import Stylebook.Text.Utf8

/-! The files around a working directory, and what is found when a path is followed there. Outside of the
    working directory there are only the directories that lead to it. -/

namespace Stylebook
namespace Loading

/-- Where something lies, seen from the working directory: steps upward come first, and what is absolute
    begins with a slash. -/
abbrev Place := List Text

def rootPlace : Place := [['/']]

def isUpward (p : Place) : Bool := p.all (· == "..".text)

/-- The place one step upward. -/
def upward (p : Place) : Place :=
  if p == rootPlace then p else if isUpward p then p ++ ["..".text] else p.dropLast

/-- Whether a place lies below the working directory. -/
def isBelow (p : Place) : Bool := p.head? != some "..".text && p.head? != some ['/']

/-- The text of a place as a path. -/
def placeText (p : Place) : Text :=
  match p with
  | [] => ['.']
  | s :: rest => if s == ['/'] then s ++ Text.join ['/'] rest else Text.join ['/'] p

/-- Each file with its place, and directories that may be empty. -/
structure Files where
  entries : List (Place × Utf8.Bytes)
  directories : List Place := []
  deriving Repr

inductive FileFault
  | missing
  | isDirectory
  | notDirectory
  | longName
  deriving DecidableEq, Repr

/-- Whether a segment has more bytes than the name of a file may have. -/
def isLongName (s : Text) : Bool := 255 < (Utf8.encode s).length

/-- Whether the text of a path has more bytes than the system takes. -/
def isLongPath (p : Path) : Bool := 4096 ≤ (Utf8.encode p.toText).length

namespace Files

def bytes? (fs : Files) (p : Place) : Option Utf8.Bytes := fs.entries.lookup p

/-- Directories are those that lead to the working directory, those of the files, and those listed. -/
def hasDirectory (fs : Files) (p : Place) : Bool :=
  isUpward p || p == rootPlace || fs.directories.any (fun d => p.isPrefixOf d) ||
    fs.entries.any fun (e, _) => p.isPrefixOf e && p.length < e.length

/-- Follows segments one after the other: all but the last have to lead to directories. A name is looked up
    only in a directory that is there. -/
def follow (fs : Files) (place : Place) : List Text → Except FileFault Place
  | [] => .ok place
  | s :: rest =>
    if s = "..".text then fs.follow (upward place) rest
    else if isLongName s then .error .longName
    else
      let next := place ++ [s]
      if (fs.bytes? next).isSome then if rest.isEmpty then .ok next else .error .notDirectory
      else if fs.hasDirectory next then fs.follow next rest
      else .error .missing

/-- Where a path begins. -/
def start (p : Path) : Place := if p.isAbsolute then rootPlace else []

/-- Where a path leads, seen from the working directory. -/
def locate (fs : Files) (p : Path) : Except FileFault Place :=
  if isLongPath p then .error .longName else fs.follow (start p) p.parts

def exists_ (fs : Files) (p : Path) : Bool :=
  match fs.locate p with
  | .ok _ => true
  | .error _ => false

/-! ### Changing -/

/-- The files after a file has been written. -/
def put (fs : Files) (p : Place) (bytes : Utf8.Bytes) : Files :=
  { fs with entries := (p, bytes) :: fs.entries.filter (·.1 != p) }

/-- The files after a directory has been made. -/
def makeDirectory (fs : Files) (p : Place) : Files := { fs with directories := p :: fs.directories }

/-! ### Collecting -/

/-- The place that a path means if all that leads to it are directories. -/
def placeOf (p : Path) : Place :=
  p.parts.foldl (fun place s => if s = "..".text then upward place else place ++ [s]) (start p)

/-- The places of the directories that lead to a path. -/
def leadingPlaces (p : Path) : List Place :=
  (List.range p.parts.length).map fun n => placeOf { p with parts := p.parts.take n }

def addDirectory (fs : Files) (p : Path) : Files :=
  { fs with directories := placeOf p :: leadingPlaces p ++ fs.directories }

def addFile (fs : Files) (p : Path) (bytes : Utf8.Bytes) : Files :=
  { entries := (placeOf p, bytes) :: fs.entries, directories := leadingPlaces p ++ fs.directories }

/-! ### Reading -/

/-- The bytes of a file. -/
def read (fs : Files) (p : Path) : Except FileFault Utf8.Bytes :=
  match fs.locate p with
  | .error e => .error e
  | .ok place =>
    match fs.bytes? place with
    | some bs => .ok bs
    | none => .error .isDirectory

end Files
end Loading
end Stylebook
