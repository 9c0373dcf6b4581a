import ChoiceScript.Text.Lowercase
import ChoiceScript.Uri.Authority
import ChoiceScript.Uri.Path

/-! # Addresses

An address is parted into scheme, authority, path, query and fragment and put together again. The
normal form has scheme and authority in small letters and a normal path. Documents are known by
their normal address.
-/

namespace ChoiceScript

/-- The parts of an address. A part that is missing is empty. -/
structure Uri where
  scheme : Text
  authority : Text
  path : Text
  query : Text
  fragment : Text
  deriving DecidableEq, Repr

namespace Uri

/-- The schemes whose addresses have an authority, be it an empty one. -/
def authoritySchemes : List String := [
  "ftp", "http", "gopher", "nntp", "telnet", "imap", "wais", "file", "mms", "https", "shttp",
  "snews", "prospero", "rtsp", "rtspu", "rsync", "svn", "svn+ssh", "sftp", "nfs", "git",
  "git+ssh", "ws", "wss"]

def isSchemeChar (c : Char) : Bool := c.isAlphanum || ['+', '-', '.'].contains c

/-- Take the scheme off an address: what stands before the first colon, if it starts with a letter
and goes on as a scheme may. -/
def takeScheme (address : Text) : Text × Text :=
  let name := address.takeWhile (· ≠ ':')
  match name, address.drop name.length with
  | c :: _, _ :: rest =>
    if c.isAlpha && name.all isSchemeChar then (name.map Char.toLower, rest) else ([], address)
  | _, _ => ([], address)

def takeAuthority : Text → Except Fault (Text × Text)
  | '/' :: '/' :: rest => do
    let authority := rest.takeWhile fun c => !(['/', '?', '#'].contains c)
    checkAuthority authority
    return (authority, rest.drop authority.length)
  | rest => .ok ([], rest)

/-- Take off what follows the first occurrence of a mark. -/
def takeAfter (mark : Char) (text : Text) : Text × Text :=
  (text.takeWhile (· ≠ mark), (text.dropWhile (· ≠ mark)).drop 1)

/-- Drop what is no part of an address: blanks and control characters before it, and the tabs and
line breaks within it. -/
def stripped (address : Text) : Text :=
  (address.dropWhile (·.toNat ≤ 0x20)).filter fun c => !(['\t', '\n', '\r'].contains c)

def parse (address : Text) : Except Fault Uri := do
  let (scheme, afterScheme) := takeScheme (stripped address)
  let (authority, afterAuthority) ← takeAuthority afterScheme
  let (beforeFragment, fragment) := takeAfter '#' afterAuthority
  let (path, query) := takeAfter '?' beforeFragment
  return ⟨scheme, authority, path, query, fragment⟩

/-- Is the authority written, even when it is empty? -/
def showsAuthority (uri : Uri) : Bool :=
  uri.authority ≠ [] || authoritySchemes.contains (String.ofList uri.scheme) &&
    uri.path.take 2 ≠ ['/', '/']

/-- A mark and what follows it, unless that is empty. -/
def marked (mark : Char) : Text → Text
  | [] => []
  | text => mark :: text

def render (uri : Uri) : Text :=
  let path :=
    if uri.showsAuthority then
      let rooted := if uri.path ≠ [] && uri.path.head? ≠ some '/' then '/' :: uri.path else uri.path
      ['/', '/'] ++ uri.authority ++ rooted
    else uri.path
  let scheme := if uri.scheme ≠ [] then uri.scheme ++ [':'] else []
  scheme ++ path ++ marked '?' uri.query ++ marked '#' uri.fragment

/-- The normal form of a path in an address. An empty path stays empty, and a slash at the end is
kept. -/
def normalPath (path : Text) : Text :=
  let normal := if path = [] then [] else Path.normalize path
  if path.getLast? = some '/' && normal.getLast? ≠ some '/' then normal ++ ['/'] else normal

def normalize (address : String) : Except Fault String := do
  let uri ← parse address.toList
  return String.ofList (render { uri with
    authority := Text.lower uri.authority
    path := normalPath uri.path })

/-- The name of the file an address leads to, with its escapes replaced. -/
def fileName (address : String) : Except Fault String := do
  let uri ← parse address.toList
  return String.ofList (Path.lastName (Path.trimSlashes (Percent.decode uri.path)))

def isStartup (startupName address : String) : Except Fault Bool :=
  return (← fileName address) = startupName

/-- The address of a file with the given name beside the file of an address. -/
def sibling (address name : String) : Except Fault String := do
  let uri ← parse address.toList
  return String.ofList (render { uri with path := Path.within (Path.folder uri.path) name.toList })

/-- The address of a file of the local machine, by its path from the root. -/
def ofFilePath (path : Text) : String :=
  String.ofList (render ⟨"file".toList, [], Percent.encode path, [], []⟩)

end Uri

end ChoiceScript
