import Stylebook.Json.Reader
import Stylebook.Loading.Files
import Stylebook.Text.Case
import Stylebook.Url.Basic
import Stylebook.Url.Percent

/-! Loading text from files and over HTTP. What there is to load is given beforehand, so that loading is a
    function of it; the calls made to an HTTP session are part of the answer. -/

namespace Stylebook
namespace Loading

/-! ### Failures -/

/-- Why something could not be loaded. -/
inductive Reason
  | note (t : Text)
  | file (fault : FileFault) (path : Text)
  | encoding (e : Utf8.Error)
  | status (code : Nat) (reason url : Text)
  | unreachable (url : Text)
  | json (e : Json.Error)
  deriving DecidableEq, Repr

def FileFault.message : FileFault → Text
  | .missing => "[Errno 2] No such file or directory".text
  | .isDirectory => "[Errno 21] Is a directory".text
  | .notDirectory => "[Errno 20] Not a directory".text
  | .longName => "[Errno 36] File name too long".text

def Reason.message : Reason → Text
  | .note t => t
  | .file fault path => fault.message ++ ": ".text ++ Text.quoted path
  | .encoding e => e.message
  | .status code reason url =>
    Text.decimal code ++ (if code < 500 then " Client Error: " else " Server Error: ").text ++ reason ++
      " for url: ".text ++ url
  | .unreachable url => "no route to ".text ++ url
  | .json e => "invalid JSON: ".text ++ e.message

structure LoadError where
  url : Text
  reason : Reason
  deriving DecidableEq, Repr

def LoadError.message (e : LoadError) : Text :=
  "Error loading ".text ++ e.url ++ ": ".text ++ e.reason.message

/-- How loading fails: with a load error, or otherwise: with several load errors at once, with an address, a
    path, a number or a depth that cannot be used at all, or with the failure of a loader. -/
inductive Failure
  | load (e : LoadError)
  | group (es : List LoadError)
  | address (e : Url.Error)
  | nullByte
  | number (e : Numeral.Error)
  | depth (nest : Json.Nest)
  | crash (message : Text)
  deriving DecidableEq, Repr

def Failure.message : Failure → Text
  | .load e => e.message
  | .group es => (es.map LoadError.message).head?.getD []
  | .address e => e.message
  | .nullByte => "embedded null byte".text
  | .number e => e.message
  | .depth nest => nest.message
  | .crash message => message

/-! ### Sessions -/

/-- Retries of a session: how many in all, for reading and for connecting, the factor of the pause between
    them, and for which statuses and methods. -/
structure Retry where
  total : Nat
  read : Nat
  connect : Nat
  backoff : Binary64
  statuses : List Nat
  methods : List Text
  deriving DecidableEq, Repr

/-- The retries of a session that the loader makes for itself. -/
def retry : Retry :=
  { total := 5, read := 5, connect := 3, backoff := .finite false (Nat.pow 2 52) (-53),
    statuses := [500, 502, 503, 504], methods := ["GET".text, "HEAD".text] }

inductive Call
  | mount (scheme : Text) (retry : Retry)
  | get (url : Text) (timeout : Data)
  | close
  deriving Repr

structure Response where
  status : Nat := 200
  reason : Text := "OK".text
  text : Text := []
  deriving DecidableEq, Repr

/-! ### Loaders -/

inductive Encoding
  | utf8
  | latin
  deriving DecidableEq, Repr

/-- What there is to load. -/
structure World where
  files : Files
  http : List (Text × Response) := []
  deriving Repr

structure Options where
  /-- The directory from which relative paths are seen. -/
  baseDir : Option Path := none
  encoding : Encoding := .utf8
  timeout : Data := .float (.finite false (15 * Nat.pow 2 49) (-48))
  /-- The loader makes a session of its own for each request. -/
  ownSession : Bool := false
  deriving Repr

/-- The file that a path or a `file:` address means. -/
def filePath (o : Options) (url : Text) : Except Url.Error Path := do
  let path ←
    if (url.take 5).map Char.toLower = "file:".text then do
      let u ← Url.parse [] url
      pure (Path.ofText (Url.percentDecode u.path))
    else pure (Path.ofText url)
  return match o.baseDir with
    | some base => base.under path
    | none => path

/-- Reads a text file; every line end becomes a line feed. -/
def readFile (w : World) (o : Options) (url : Text) : Except Failure Text :=
  match filePath o url with
  | .error e => .error (.address e)
  | .ok path =>
    let shown := path.toText
    if shown.contains '\x00' then .error .nullByte
    else
      match w.files.read path with
      | .error fault => .error (.load ⟨url, .file fault shown⟩)
      | .ok bs =>
        match o.encoding with
        | .latin => .ok (Text.unifyLineEnds (Utf8.decodeLatin bs))
        | .utf8 =>
          match Utf8.decode bs with
          | .ok t => .ok (Text.unifyLineEnds t)
          | .error e => .error (.load ⟨url, .encoding e⟩)

/-- Gets a text over HTTP. Statuses from 400 to 599 are failures. -/
def request (w : World) (url : Text) : Except Failure Text :=
  match w.http.lookup url with
  | none => .error (.load ⟨url, .unreachable url⟩)
  | some r =>
    if 400 ≤ r.status ∧ r.status < 600 then .error (.load ⟨url, .status r.status r.reason url⟩)
    else .ok r.text

/-- The calls that a request makes. -/
def requestCalls (o : Options) (url : Text) : List Call :=
  let get := [.get url o.timeout]
  if o.ownSession then
    [.mount "https://".text retry, .mount "http://".text retry] ++ get ++ [.close]
  else get

inductive Transport
  | file
  | http
  deriving DecidableEq, Repr

/-- Whether an address is one of the web, with or without its scheme. -/
def isWeb (url : Text) : Bool :=
  let slashes (t : Text) : Bool := (Text.after? "//".text t).isSome
  slashes url ||
    match Text.afterAnyCase? "http".text url with
    | none => false
    | some r =>
      [some r, Text.afterAnyCase? ['s'] r].any fun r =>
        match r.bind (Text.after? [':']) with
        | some r => slashes r
        | none => false

/-- The transport of an address and the address it gets: one without a scheme becomes a secure one. -/
def route (url : Text) : Transport × Text :=
  if isWeb url then
    (.http, if (Text.after? "//".text url).isSome then "https:".text ++ url else url)
  else (.file, url)

/-- Loads a text by a transport, with the calls this makes. -/
def loadBy (w : World) (o : Options) (transport : Transport) (url : Text) : Except Failure Text × List Call :=
  match transport with
  | .file => (readFile w o url, [])
  | .http => (request w url, requestCalls o url)

/-- Loads a text by the transport that suits its address. -/
def load (w : World) (o : Options) (url : Text) : Except Failure Text :=
  let (transport, url) := route url
  (loadBy w o transport url).1

/-- Reads a loaded text as JSON. -/
def decodeJson (url : Text) (loaded : Except Failure Text) : Except Failure Data :=
  match loaded with
  | .error f => .error f
  | .ok t =>
    match Json.parse t with
    | .ok d => .ok d
    | .error ⟨.number e, _⟩ => .error (.number e)
    | .error ⟨.depth nest, _⟩ => .error (.depth nest)
    | .error e => .error (.load ⟨url, .json e⟩)

end Loading
end Stylebook
