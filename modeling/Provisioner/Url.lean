import Provisioner.Url.Host

/-!
# URLs

A `Url` has a scheme, usually a host with what stands around it, and a path of segments,
all in normal form: what needs it is percent-encoded, the host is in ASCII, the default
port of a scheme is left out, and the path has no dot segments.

* `Url.parse?` reads a URL.  Texts such as `mailto:x`, in which no path follows the
  scheme, are none.
* `Url.dropEmptyEnd` and `Url.extend` change the path by whole segments.
* `Url.render` writes a URL, and `Url.pathText` its path.
-/

namespace Provisioner

/-- A URL.  `authority?` is what stands between two slashes and the path. -/
structure Url where
  scheme : String
  authority? : Option String
  path : List String
  query? : Option String
  fragment? : Option String
deriving DecidableEq, Repr

namespace Url

/-! ## Schemes -/

/-- The scheme of local files. -/
def fileScheme : String := "file"

/-- The port that is left out for a scheme of the web. -/
def defaultPort? : String → Option Nat
  | "http" => some 80
  | "ws" => some 80
  | "https" => some 443
  | "wss" => some 443
  | "ftp" => some 21
  | _ => none

/-- Whether URLs of a scheme follow the rules of the web: they have a host, a backslash
counts as a slash, and the path is never empty. -/
def isSpecial (scheme : String) : Bool :=
  (defaultPort? scheme).isSome || scheme == fileScheme

/-- Whether a character is a slash for a scheme. -/
def isSlash (special : Bool) (c : Char) : Bool :=
  c == '/' || (special && c == '\\')

/-- Cuts a text behind its scheme and the colon; the scheme is in small letters. -/
def splitScheme? (cs : List Char) : Option (String × List Char) :=
  let isPart (c : Char) : Bool := c.isAlphanum || c == '+' || c == '-' || c == '.'
  match cs.head?, cs.dropWhile isPart with
  | some first, ':' :: rest =>
    if first.isAlpha then
      some (String.ofList ((cs.takeWhile isPart).map Char.toLower), rest)
    else none
  | _, _ => none

/-! ## Paths -/

/-- Whether a segment stands for its own place. -/
def isSingleDot (segment : List Char) : Bool :=
  let s := segment.map Char.toLower
  s == ['.'] || s == ['%', '2', 'e']

/-- Whether a segment stands for the place above. -/
def isDoubleDot (segment : List Char) : Bool :=
  let s := segment.map Char.toLower
  s == ['.', '.'] || s == ['%', '2', 'e', '.'] || s == ['.', '%', '2', 'e']
    || s == ['%', '2', 'e', '%', '2', 'e']

/-- Whether a segment names a drive: a letter and a colon or a bar. -/
def isDrive (segment : String) : Bool :=
  match segment.toList with
  | [c, mark] => c.isAlpha && (mark == ':' || mark == '|')
  | _ => false

/-- The place above; a drive has none. -/
def above (segments : List String) : List String :=
  match segments.getLast? with
  | some last => if isDrive last then segments else segments.dropLast
  | none => []

/-- Segments with one more that ends the path. -/
def finish (segments : List String) (last : List Char) : List String :=
  if isDoubleDot last then above segments ++ [""]
  else if isSingleDot last then segments ++ [""]
  else segments ++ [String.ofList last]

/-- Segments with one more that others follow. -/
def descend (segments : List String) (next : List Char) : List String :=
  if isDoubleDot next then above segments
  else if isSingleDot next then segments
  else segments ++ [String.ofList next]

/-- The segments of the parts of a path text. -/
def ofParts : List String → List (List Char) → List String
  | segments, [] => segments
  | segments, [last] => finish segments (Percent.encode Percent.path last)
  | segments, part :: next :: rest =>
    ofParts (descend segments (Percent.encode Percent.path part)) (next :: rest)

/-- The segments of a path text without its first slash. -/
def segmentsOf (special : Bool) (cs : List Char) : List String :=
  ofParts [] (Text.split (isSlash special) cs)

/-- Whether the first of the segments names a drive. -/
def startsWithDrive (segments : List String) : Bool :=
  segments.head?.any isDrive

/-- The segments with a colon in the name of the drive that they start with. -/
def markDrive (segments : List String) : List String :=
  match segments with
  | first :: rest =>
    if isDrive first then String.ofList (first.toList.take 1 ++ [':']) :: rest else segments
  | [] => []

/-- The path of a local file: empty segments at its beginning do not count. -/
def trimFilePath (segments : List String) : List String :=
  match segments.dropWhile (· == "") with
  | [] => [""]
  | rest => rest

/-- The segments of the text between the authority and the query. -/
def readPath (special : Bool) (cs : List Char) : List String :=
  match cs with
  | [] => if special then [""] else []
  | c :: rest => if isSlash special c then segmentsOf special rest else segmentsOf special cs

/-! ## Authorities -/

/-- The user name and the password before a host, with the `@` behind them. -/
def userText (info : List Char) : List Char :=
  let (name, password) := match Text.cut? ':' info with
    | some (name, password) => (name, password)
    | none => (info, [])
  let encode := Percent.encode Percent.userinfo
  if name.isEmpty && password.isEmpty then []
  else encode name ++ (if password.isEmpty then [] else ':' :: encode password) ++ ['@']

/-- Cuts an authority behind its last `@`. -/
def splitUser (cs : List Char) : List Char × List Char :=
  if cs.contains '@' then
    let host := (cs.reverse.takeWhile (· != '@')).reverse
    (cs.take (cs.length - host.length - 1), host)
  else ([], cs)

/-- Cuts a text before the colon of a port, which is not within brackets. -/
def splitPort : Bool → List Char → List Char × List Char
  | _, [] => ([], [])
  | inside, c :: rest =>
    if c = ':' ∧ !inside then ([], c :: rest)
    else
      let (host, port) := splitPort (c == '[' || (inside && c != ']')) rest
      (c :: host, port)

/-- The port with its colon, unless it is the one that is left out, and the rest of the
authority, which can only begin with a backslash. -/
def readPort? (scheme : String) (cs : List Char) : Option (List Char × List Char) :=
  match cs with
  | ':' :: cs =>
    let digits := cs.takeWhile Char.isDigit
    let rest := cs.dropWhile Char.isDigit
    let port := Json.digitsValue digits
    if 65535 < port ∨ !(rest.isEmpty || rest.head? == some '\\') then none
    else if digits.isEmpty ∨ some port = defaultPort? scheme then some ([], rest)
    else some (':' :: (toString port).toList, rest)
  | _ => some ([], cs)

/-- Reads what follows two slashes: the authority, and the text behind it. -/
def readAuthority? (scheme : String) (cs : List Char) : Option (String × List Char) := do
  let special := isSpecial scheme
  let isEnd (c : Char) : Bool := isSlash special c || c == '?' || c == '#'
  let whole := cs.takeWhile (!isEnd ·)
  let rest := cs.dropWhile (!isEnd ·)
  let (info, hostAndPort) := splitUser whole
  if whole == ['@'] ∧ !rest.isEmpty then none
  let user := userText info
  let (hostText, portText) := splitPort false hostAndPort
  let host ← if special then Host.ofWeb? hostText else Host.ofOther? hostText
  if host.isEmpty ∧ !(portText.isEmpty && user.isEmpty) then none
  let (port, left) ← readPort? scheme portText
  return (String.ofList (user ++ host ++ port), left ++ rest)

/-- Reads what follows the scheme of a local file: the host, and the path text. -/
def readFileAuthority? (cs : List Char) : Option (String × List Char) :=
  match cs with
  | a :: b :: rest =>
    if isSlash true a && isSlash true b then
      let isEnd (c : Char) : Bool := isSlash true c || c == '?' || c == '#'
      let host := rest.takeWhile (!isEnd ·)
      if host.isEmpty || isDrive (String.ofList host) then some ("", rest)
      else do
        let name := String.ofList (← Host.ofWeb? host)
        return (if name = "localhost" then "" else name, rest.dropWhile (!isEnd ·))
    else some ("", cs)
  | _ => some ("", cs)

/-! ## Whole URLs -/

/-- The characters of a text that count: none of the blanks and control characters around
it, and no tabs and line ends within. -/
def counted (text : String) : List Char :=
  let isEdge (c : Char) : Bool := c.toNat ≤ 0x20
  let cs := ((text.toList.dropWhile isEdge).reverse.dropWhile isEdge).reverse
  cs.filter fun c => !(c == '\t' || c == '\n' || c == '\r')

/-- A text without what begins at the first `mark`, and the text behind it. -/
def cutOff (mark : Char) (cs : List Char) : List Char × Option (List Char) :=
  match Text.cut? mark cs with
  | some (before, after) => (before, some after)
  | none => (cs, none)

/-- A URL from its parts; the tail is what follows the authority.  A local file on a drive
has no host. -/
def assemble (scheme : String) (authority? : Option String) (tail : List Char) : Url :=
  let special := isSpecial scheme
  let (tail, fragment?) := cutOff '#' tail
  let (path, query?) := cutOff '?' tail
  let segments := readPath special path
  let isFile := scheme == fileScheme
  { scheme := scheme
    authority? := if isFile && startsWithDrive segments then some "" else authority?
    path := if isFile then trimFilePath (markDrive segments) else segments
    query? := query?.map fun q => String.ofList (Percent.encode (Percent.query special) q)
    fragment? := fragment?.map fun f => String.ofList (Percent.encode Percent.fragment f) }

/-- Reads a URL. -/
def parse? (text : String) : Option Url := do
  let (scheme, rest) ← splitScheme? (counted text)
  if scheme = fileScheme then
    let (host, tail) ← readFileAuthority? rest
    return assemble scheme (some host) tail
  else if isSpecial scheme then
    let (authority, tail) ← readAuthority? scheme (rest.dropWhile (isSlash true))
    return assemble scheme (some authority) tail
  else
    match rest with
    | '/' :: '/' :: rest =>
      let (authority, tail) ← readAuthority? scheme rest
      return assemble scheme (some authority) tail
    | '/' :: _ => return assemble scheme none rest
    | _ => none

/-- The path as a text. -/
def pathText (u : Url) : String :=
  String.join (u.path.map ("/" ++ ·))

/-- The URL as a text.  Without an authority a path that begins with two slashes gets a
dot before them, so that they do not look like one. -/
def render (u : Url) : String :=
  u.scheme ++ ":"
    ++ (match u.authority?, u.path with
      | some a, _ => "//" ++ a
      | none, "" :: _ :: _ => "/."
      | none, _ => "")
    ++ u.pathText
    ++ (match u.query? with
      | some q => "?" ++ q
      | none => "")
    ++ (match u.fragment? with
      | some f => "#" ++ f
      | none => "")

/-- The URL without an empty segment at the end of its path. -/
def dropEmptyEnd (u : Url) : Url :=
  if 1 < u.path.length ∧ u.path.getLast? = some "" then { u with path := u.path.dropLast } else u

/-- The path below which segments are appended: one that consists of a slash alone is as
good as none. -/
def appendable (path : List String) : List String :=
  if path = [""] then [] else path

/-- A path with a segment appended.  Tabs and line ends are dropped from the segment and
what needs it is encoded, slashes and percent signs too. -/
def append (special : Bool) (path : List String) (segment : String) : List String :=
  let cs := segment.toList.filter fun c => !(c == '\t' || c == '\n' || c == '\r')
  finish (appendable path) (Percent.encode (Percent.segment special) cs)

/-- The URL with segments appended to its path; one or two dots alone are passed over. -/
def extend (u : Url) (segments : List String) : Url :=
  let special := isSpecial u.scheme
  let path := (segments.filter fun s => s != "." && s != "..").foldl (append special) u.path
  { u with path := if u.scheme = fileScheme then trimFilePath path else path }

end Url

end Provisioner
