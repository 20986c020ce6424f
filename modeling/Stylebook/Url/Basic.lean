import Stylebook.Url.Host

/-! Web addresses and their parts: splitting, putting together and resolving a relative address against
    a base. -/

namespace Stylebook

structure Url where
  scheme : Text
  host : Text
  path : Text
  params : Text
  query : Text
  fragment : Text
  deriving DecidableEq, Repr

namespace Url

/-! ### Schemes -/

/-- Schemes against which relative addresses can be resolved. -/
def relativeSchemes : List Text :=
  ["", "ftp", "http", "gopher", "nntp", "imap", "wais", "file", "https", "shttp", "mms", "prospero", "rtsp",
    "rtspu", "sftp", "svn", "svn+ssh", "ws", "wss"].map String.text

/-- Schemes whose addresses have a host. -/
def hostSchemes : List Text :=
  ["", "ftp", "http", "gopher", "nntp", "telnet", "imap", "wais", "file", "mms", "https", "shttp", "snews",
    "prospero", "rtsp", "rtspu", "rsync", "svn", "svn+ssh", "sftp", "nfs", "git", "git+ssh", "ws",
    "wss"].map String.text

/-- Schemes whose last path segment may end in parameters. -/
def paramSchemes : List Text :=
  ["", "ftp", "hdl", "prospero", "http", "imap", "https", "shttp", "rtsp", "rtspu", "sip", "sips", "mms",
    "sftp", "tel"].map String.text

def isSchemeChar (c : Char) : Bool :=
  Text.isLetter c || Text.isDigit c || c == '+' || c == '-' || c == '.'

/-- The scheme in lower case and what follows its colon. -/
def scheme? (t : Text) : Option (Text × Text) :=
  match t with
  | c :: _ =>
    if Text.isLetter c then
      match t.dropWhile isSchemeChar with
      | ':' :: r => some ((t.takeWhile isSchemeChar).map Char.toLower, r)
      | _ => none
    else none
  | [] => none

/-! ### Splitting -/

/-- Drops controls and spaces at the front, and tabs and line ends everywhere. -/
def clean (t : Text) : Text :=
  (t.dropWhile (·.toNat ≤ 32)).filter fun c => !(c == '\t' || c == '\r' || c == '\n')

/-- Splits at the first `c`, if there is one. -/
def splitAt (c : Char) (t : Text) : Text × Text := (t.takeWhile (· != c), (t.dropWhile (· != c)).drop 1)

/-- The characters that contain a dividing sign when they are written in compatible form. -/
def misleading : List Nat :=
  [0x2047, 0x2048, 0x2049, 0x2100, 0x2101, 0x2105, 0x2106, 0x2a74, 0xfe13, 0xfe16, 0xfe55, 0xfe56, 0xfe5f,
    0xfe6b, 0xff03, 0xff0f, 0xff1a, 0xff1f, 0xff20]

def checkHost (h : Text) : Except Error Unit :=
  if h.any fun c => misleading.contains c.toNat then .error (.host h) else .ok ()

def isHostChar (c : Char) : Bool := !(c == '/' || c == '?' || c == '#')

/-- The host behind two slashes and what follows it. -/
def takeHost (t : Text) : Except Error (Text × Text) :=
  match t with
  | '/' :: '/' :: r =>
    let h := r.takeWhile isHostChar
    if h.contains '[' != h.contains ']' then .error .brackets
    else if h.contains '[' then (checkBrackets h).map fun _ => (h, r.dropWhile isHostChar)
    else .ok (h, r.dropWhile isHostChar)
  | _ => .ok ([], t)

/-- Splits the parameters off a path: what follows the first semicolon of its last segment. -/
def splitParams (path : Text) : Text × Text :=
  let (front, last) := Text.cutAfterLast '/' path
  (front ++ (splitAt ';' last).1, (splitAt ';' last).2)

/-- The parts of an address; `inherited` is its scheme if it has none of its own. -/
def parse (inherited t : Text) : Except Error Url := do
  let t := clean t
  let (scheme, t) := (scheme? t).getD (inherited, t)
  let (h, t) ← takeHost t
  let (t, fragment) := splitAt '#' t
  let (path, query) := splitAt '?' t
  checkHost h
  let (path, params) := if paramSchemes.contains scheme then splitParams path else (path, [])
  return { scheme := scheme, host := h, path := path, params := params, query := query, fragment := fragment }

/-! ### Putting together -/

/-- The text of an address. A scheme with hosts gets two slashes even where the host is empty. -/
def toText (u : Url) : Text :=
  let path := if u.params.isEmpty then u.path else u.path ++ [';'] ++ u.params
  let path :=
    if !u.host.isEmpty || (!u.scheme.isEmpty && hostSchemes.contains u.scheme && path.take 2 != "//".text) then
      let path := if path.isEmpty || path.head? == some '/' then path else '/' :: path
      "//".text ++ u.host ++ path
    else path
  (if u.scheme.isEmpty then [] else u.scheme ++ [':']) ++ path ++
    (if u.query.isEmpty then [] else '?' :: u.query) ++
    (if u.fragment.isEmpty then [] else '#' :: u.fragment)

/-! ### Resolving -/

def segments (t : Text) : List Text := Text.split (· == '/') t

/-- Drops the empty segments, the first and the last one apart. -/
def dropInnerEmpty : List Text → List Text
  | [] => []
  | first :: rest =>
    first :: (rest.dropLast.filter (!·.isEmpty) ++ rest.getLast?.toList)

/-- Carries out the dot segments; `done` holds the segments in front, the latest first. Going up from the
    top stays there. -/
def carryOut (done : List Text) : List Text → List Text
  | [] => done.reverse
  | s :: rest =>
    if s = "..".text then carryOut done.tail rest
    else if s = ".".text then carryOut done rest
    else carryOut (s :: done) rest

/-- The path of a relative address in place of the last segment of the base path. -/
def mergePaths (base path : Text) : Text :=
  let all :=
    if path.head? == some '/' then segments path
    else
      let front := segments base
      let front := if front.getLast? == some [] then front else front.dropLast
      dropInnerEmpty (front ++ segments path)
  let kept := carryOut [] all
  let isDots := all.getLast? == some ".".text || all.getLast? == some "..".text
  let merged := Text.join ['/'] (if isDots then kept ++ [[]] else kept)
  if merged.isEmpty then ['/'] else merged

/-- Resolves an address against a base. An address of another scheme, or one whose scheme knows no relative
    addresses, stays as it is. -/
def join (base url : Text) : Except Error Text := do
  if base.isEmpty then return url
  if url.isEmpty then return base
  let b ← parse [] base
  let u ← parse b.scheme url
  if u.scheme ≠ b.scheme || !relativeSchemes.contains u.scheme then return url
  if !u.host.isEmpty then return u.toText
  if u.path.isEmpty && u.params.isEmpty then
    let query := if u.query.isEmpty then b.query else u.query
    return { u with host := b.host, path := b.path, params := b.params, query := query }.toText
  return { u with host := b.host, path := mergePaths b.path u.path }.toText

end Url
end Stylebook
