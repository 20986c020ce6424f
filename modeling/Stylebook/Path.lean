import Stylebook.Text.Basic

/-! File paths: how they are written, joined and normalized. -/

namespace Stylebook

/-- A path is its root, which is empty for a relative path, and its segments, none of them empty or a
    single dot. -/
structure Path where
  root : Text
  parts : List Text
  deriving DecidableEq, Repr

namespace Path

/-- Exactly two slashes at the front are a root of their own. -/
def rootOf (t : Text) : Text :=
  match (t.takeWhile (· == '/')).length with
  | 0 => []
  | 2 => "//".text
  | _ => "/".text

def isPart (s : Text) : Bool := !(s.isEmpty || s == ['.'])

def ofText (t : Text) : Path := ⟨rootOf t, (Text.split (· == '/') t).filter isPart⟩

/-- The text of a path; the empty path is a dot. -/
def toText (p : Path) : Text :=
  if p.root.isEmpty && p.parts.isEmpty then ['.'] else p.root ++ Text.join ['/'] p.parts

def isAbsolute (p : Path) : Bool := !p.root.isEmpty

/-- A path seen from another one; an absolute path stays as it is. -/
def under (base p : Path) : Path := if p.isAbsolute then p else ⟨base.root, base.parts ++ p.parts⟩

/-- The path without its last segment. -/
def parent (p : Path) : Path := { p with parts := p.parts.dropLast }

/-- The paths that lead to a path, and the path itself. -/
def leading (p : Path) : List Path :=
  (List.range (p.parts.length + 1)).map fun n => { p with parts := p.parts.take n }

/-! ### Normal form -/

/-- Carries out the steps upward: each takes the segment before it away. A relative path keeps the steps
    that lead out of it, an absolute one drops them. `done` holds the segments in front, the latest
    first. -/
def carryOut (absolute : Bool) (done : List Text) : List Text → List Text
  | [] => done.reverse
  | s :: rest =>
    if s = "..".text then
      match done with
      | [] => carryOut absolute (if absolute then [] else [s]) rest
      | d :: ds => if d = "..".text then carryOut absolute (s :: d :: ds) rest else carryOut absolute ds rest
    else carryOut absolute (s :: done) rest

/-- The shortest text of a path without looking at the files. -/
def normalize (t : Text) : Text :=
  let p := ofText t
  toText { p with parts := carryOut p.isAbsolute [] p.parts }

end Path
end Stylebook
