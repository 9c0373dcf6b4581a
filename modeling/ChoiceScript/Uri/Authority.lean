import ChoiceScript.Fault
import ChoiceScript.Uri.Percent

/-! # Authorities

The authority of an address names a host, perhaps with a user before an at sign in front of it and a
service after a colon behind it. Square brackets are kept for hosts that are colon numbers or in a
notation to come. A character that may be read as one of the marks that end an authority or part it
is refused.

A host may be written as a number. A dotted one has four decimal numbers for one byte each. A colon
one has eight groups of hexadecimal digits, of which the last two may be written as a dotted one and
one row of zero groups may be left out between two colons; it may name a zone after a percent sign.
-/

namespace ChoiceScript.Uri

/-- Is the text a decimal number of one byte, without a needless zero in front? -/
def isByteNumber (text : Text) : Bool :=
  text ≠ [] && text.all Char.isDigit && (text.head? ≠ some '0' || text.length = 1) &&
    text.foldl (fun n c => 10 * n + (c.toNat - '0'.toNat)) 0 < 256

def isDottedHost (host : Text) : Bool :=
  let parts := Text.splitOn '.' host
  parts.length = 4 && parts.all isByteNumber

def isHexDigit (c : Char) : Bool := (Percent.hexValue? c).isSome

/-- Is the text one group of a colon host? -/
def isGroup (text : Text) : Bool := text ≠ [] && text.length ≤ 4 && text.all isHexDigit

/-- The number of groups that are written, where the last two may be dotted if they end the host. -/
def groupCount? (endsHost : Bool) : List Text → Option Nat
  | [] => some 0
  | [last] =>
    if isGroup last then some 1
    else if endsHost && isDottedHost last then some 2
    else none
  | group :: rest => if isGroup group then (· + 1) <$> groupCount? endsHost rest else none

/-- Cut a text in two at its first pair of colons. -/
def cutAtGap? : Text → Option (Text × Text)
  | ':' :: ':' :: rest => some ([], rest)
  | c :: rest => (fun (before, after) => (c :: before, after)) <$> cutAtGap? rest
  | [] => none

def groupsBeside (text : Text) : List Text := if text = [] then [] else Text.splitOn ':' text

/-- Is the text eight groups, or fewer with a gap for the others? -/
def isGroups (text : Text) : Bool :=
  match cutAtGap? text with
  | none => groupCount? true (Text.splitOn ':' text) = some 8
  | some (before, after) =>
    match groupCount? false (groupsBeside before), groupCount? true (groupsBeside after) with
    | some m, some n => m + n < 8
    | _, _ => false

/-- Is what follows the groups a zone, or nothing at all? -/
def isZone : Text → Bool
  | [] => true
  | _ :: name => name ≠ [] && !name.contains '%'

def isColonHost (host : Text) : Bool :=
  isGroups (host.takeWhile (· ≠ '%')) && isZone (host.dropWhile (· ≠ '%'))

/-- Is the host in a notation to come: a `v`, a hexadecimal version, a dot and anything? -/
def isFutureHost : Text → Bool
  | 'v' :: rest =>
    let version := rest.takeWhile isHexDigit
    match rest.drop version.length with
    | '.' :: _ :: _ => version ≠ []
    | _ => false
  | _ => false

def afterUser (authority : Text) : Text := (authority.reverse.takeWhile (· ≠ '@')).reverse

/-- The host of an authority with brackets in it. Nothing stands before the brackets around a host,
and at most a service after them. -/
def bracketedHost (authority : Text) : Except Fault Text :=
  match afterUser authority with
  | '[' :: enclosed =>
    let host := enclosed.takeWhile (· ≠ ']')
    match enclosed.drop (host.length + 1) with
    | [] | ':' :: _ => .ok host
    | _ => .error .misplacedBracket
  | host =>
    if host.contains '[' then .error .misplacedBracket
    else .ok (host.takeWhile (· ≠ ':'))

def checkBracketedHost (host : Text) : Except Fault Unit :=
  if host.head? = some 'v' then
    if isFutureHost host then .ok () else .error .malformedFutureHost
  else if isDottedHost host then .error .bracketedDottedHost
  else if isColonHost host then .ok ()
  else .error (.notNumericHost (String.ofList host))

/-- Are the brackets of an authority a pair around a host that may stand in them? -/
def checkBrackets (authority : Text) : Except Fault Unit :=
  if authority.contains '[' != authority.contains ']' then .error .misplacedBracket
  else if authority.contains '[' then bracketedHost authority >>= checkBracketedHost
  else .ok ()

/-- The characters beyond ASCII whose compatibility form holds one of `/?#@:`. -/
def markLookalikes : List Nat := [
  0x2047, 0x2048, 0x2049, 0x2100, 0x2101, 0x2105, 0x2106, 0x2A74, 0xFE13, 0xFE16, 0xFE55, 0xFE56,
  0xFE5F, 0xFE6B, 0xFF03, 0xFF0F, 0xFF1A, 0xFF1F, 0xFF20]

/-- Is no character of the authority another spelling of a mark? -/
def checkSpelling (authority : Text) : Except Fault Unit :=
  if authority.any (markLookalikes.contains ·.toNat) then
    .error (.ambiguousAuthority (String.ofList authority))
  else .ok ()

/-- Check an authority: its brackets first, then its spelling. -/
def checkAuthority (authority : Text) : Except Fault Unit := do
  checkBrackets authority
  checkSpelling authority

end ChoiceScript.Uri
