import EditorInsight.Text.Percent
import EditorInsight.Text.Quoted

/-!
# Paths of document identifiers

A document is named by a path or by a `file://` identifier, whose path part is decoded. Tabs and line
ends are dropped from the identifier first; the authority ends at the first slash, question mark or
hash; what follows a hash, and then what follows a question mark, is cut off. Brackets in an
authority have to enclose its host, which then has to be an address.
-/

namespace EditorInsight.Uri

inductive Fault where
  | misplacedBracket
  | badFutureAddress
  | bracketedIpv4
  | notAnAddress (host : Text)
  | unsafeCharacter (authority : Text)
  deriving DecidableEq

def Fault.message : Fault → Text
  | misplacedBracket => "Invalid IPv6 URL"
  | badFutureAddress => "IPvFuture address is invalid"
  | bracketedIpv4 => "An IPv4 address cannot be in brackets"
  | notAnAddress host => Text.quote host ++ " does not appear to be an IPv4 or IPv6 address"
  | unsafeCharacter authority =>
    "netloc '" ++ authority ++ "' contains invalid characters under NFKC normalization"

def isOctet (t : Text) : Bool :=
  1 ≤ t.length && t.length ≤ 3 && t.all Char.isDigit && (t = ['0'] || t.head? ≠ some '0') &&
    t.foldl (fun n c => n * 10 + (c.toNat - '0'.toNat)) 0 ≤ 255

def isIpv4 (t : Text) : Bool :=
  let octets := Text.splitWhere (· == '.') t
  octets.length = 4 && octets.all isOctet

def isHextet (t : Text) : Bool :=
  1 ≤ t.length && t.length ≤ 4 && t.all fun c => (Text.hexDigit? c).isSome

/-- The groups of an address, an address of octets at the end counting as two. -/
def groups? (t : Text) : Option (List Text) :=
  let parts := Text.splitWhere (· == ':') t
  match parts.reverse with
  | last :: before =>
    if parts.length < 3 then none
    else if last.any (· == '.') then
      if isIpv4 last then some (before.reverse ++ [['0'], ['0']]) else none
    else some parts
  | [] => none

/-- Whether the groups make an address of eight, where an empty inner group stands for those left
out. -/
def areGroups (parts : List Text) : Bool :=
  let inner := (parts.drop 1).dropLast
  let gaps := inner.filter (·.isEmpty)
  let given := parts.filter fun p => !p.isEmpty
  if 9 < parts.length then false
  else match gaps.length with
    | 0 => parts.length = 8 && parts.all isHextet
    | 1 =>
      (parts.head? ≠ some [] || inner.head? = some []) &&
        (parts.getLast? ≠ some [] || inner.getLast? = some []) &&
        given.length < 8 && given.all isHextet
    | _ => false

/-- Whether the text is an address of groups, with an optional non-empty zone after a percent sign. -/
def isIpv6 (t : Text) : Bool :=
  let address := t.takeWhile (· != '%')
  let zoneOk := match t.dropWhile (· != '%') with
    | [] => true
    | _ :: zone => !zone.isEmpty && !zone.any (· == '%')
  zoneOk && (groups? address).any areGroups

/-- Whether the text is `v`, hexadecimal digits, a dot and at least one more character. -/
def isFutureAddress : Text → Bool
  | 'v' :: r =>
    let digits := r.takeWhile fun c => (Text.hexDigit? c).isSome
    match r.drop digits.length with
    | '.' :: rest => !digits.isEmpty && !rest.isEmpty
    | _ => false
  | _ => false

/-- Characters that become a delimiter when compatibility forms are unified. -/
def delimiterLike : List Nat :=
  [0x2047, 0x2048, 0x2049, 0x2100, 0x2101, 0x2105, 0x2106, 0x2A74, 0xFE13, 0xFE16, 0xFE55, 0xFE56,
    0xFE5F, 0xFE6B, 0xFF03, 0xFF0F, 0xFF1A, 0xFF1F, 0xFF20]

/-- The part of an authority that names a host and a port: what follows the last `@`. -/
def hostAndPort (authority : Text) : Text := (authority.reverse.takeWhile (· != '@')).reverse

/-- The host of an authority with brackets. Where the host itself has none, it ends at a colon;
otherwise the brackets stand around it, and only a colon may follow. -/
def bracketedHost (authority : Text) : Except Fault Text :=
  let place := hostAndPort authority
  match place.dropWhile (· != '[') with
  | [] => .ok (place.takeWhile (· != ':'))
  | _ :: inside =>
    let rest := (inside.dropWhile (· != ']')).drop 1
    if place.head? ≠ some '[' || (rest ≠ [] && rest.head? ≠ some ':') then .error .misplacedBracket
    else .ok (inside.takeWhile (· != ']'))

/-- Checks a host that has to be an address of groups or of a kind yet to come. -/
def checkHost (host : Text) : Except Fault Unit :=
  if host.head? = some 'v' then
    if isFutureAddress host then .ok () else .error .badFutureAddress
  else if isIpv4 host then .error .bracketedIpv4
  else if isIpv6 host then .ok ()
  else .error (.notAnAddress host)

/-- Checks what stands between the double slash and the path. -/
def checkAuthority (authority : Text) : Except Fault Unit := do
  let opens := authority.any (· == '[')
  let closes := authority.any (· == ']')
  if opens != closes then throw .misplacedBracket
  if opens then checkHost (← bracketedHost authority)
  if authority.any fun c => delimiterLike.contains c.toNat then throw (.unsafeCharacter authority)

def isEndOfAuthority (c : Char) : Bool := c == '/' || c == '?' || c == '#'

/-- The decoded path after `file://`. -/
def filePath (rest : Text) : Except Fault Text :=
  let rest := rest.filter fun c => c != '\t' && c != '\r' && c != '\n'
  let authority := rest.takeWhile fun c => !isEndOfAuthority c
  let path := (rest.dropWhile fun c => !isEndOfAuthority c).takeWhile (· != '#')
  match checkAuthority authority with
  | .error e => .error e
  | .ok () => .ok (Text.percentDecode (path.takeWhile (· != '?')))

/-- The path of a document identifier; one that is no `file://` identifier is a path already. -/
def path (uri : Text) : Except Fault Text :=
  match Text.after? "file://" uri with
  | some rest => filePath rest
  | none => .ok uri

end EditorInsight.Uri
