import ImageRegistry.Text.Percent
import ImageRegistry.Text.Split

/-! The hosts of locations: domain names, IPv4 addresses of up to four numbers, and IPv6
addresses in brackets. How names in other scripts are spelled in ASCII is given from outside. -/

namespace ImageRegistry

/-- Why a text is not a location. -/
inductive UrlFault where
  /-- There is no scheme. -/
  | relative
  | emptyHost
  | port
  | ipv6
  | ipv4
  | domainName
  | domainCharacter
  deriving DecidableEq, Repr

def UrlFault.message : UrlFault → String
  | relative => "relative URL without a base"
  | emptyHost => "empty host"
  | port => "invalid port number"
  | ipv6 => "invalid IPv6 address"
  | ipv4 => "invalid IPv4 address"
  | domainName => "invalid international domain name"
  | domainCharacter => "invalid domain character"

namespace Host

def hexValue? (c : Char) : Option Nat :=
  if c.toNat < 128 then Hex.digitValue? (UInt8.ofNat c.toNat) else none

def number (base : Nat) (cs : List Char) : Nat :=
  cs.foldl (fun n c => n * base + (hexValue? c).getD 0) 0

/-- Reads a number of an IPv4 address: hexadecimal after `0x`, octal after `0`, else decimal. -/
def ipv4Number? (cs : List Char) : Option Nat :=
  let inBase (base : Nat) (digits : List Char) : Option Nat :=
    if digits.all fun c => (hexValue? c).any (· < base) then some (number base digits) else none
  match cs with
  | [] => none
  | '0' :: 'x' :: rest => inBase 16 rest
  | '0' :: 'X' :: rest => inBase 16 rest
  | '0' :: c :: rest => inBase 8 (c :: rest)
  | cs => inBase 10 cs

/-- The labels of a domain name, without an empty one at the end. -/
def labels (domain : List Char) : List (List Char) :=
  let all := pieces '.' domain
  if all.getLast? = some [] then all.dropLast else all

/-- Whether a domain name can only be an IPv4 address, as its last label is a number. -/
def endsInNumber (domain : List Char) : Bool :=
  match (labels domain).getLast? with
  | none => false
  | some last => (!last.isEmpty && last.all Char.isDigit) || (ipv4Number? last).isSome

/-- Whether labels are an IPv4 address: the last number fills the places that are left. -/
def isIpv4 (parts : List (List Char)) : Bool :=
  match parts.mapM ipv4Number? with
  | none => false
  | some numbers =>
    match numbers.reverse with
    | [] => false
    | last :: others =>
      numbers.length ≤ 4 && last < 1 <<< (8 * (4 - others.length)) && others.all (· < 256)

/-- Whether a text is a group of an IPv6 address. -/
def isGroup (cs : List Char) : Bool :=
  !cs.isEmpty && cs.length ≤ 4 && cs.all fun c => (hexValue? c).isSome

/-- Whether a text is a decimal octet, without needless zeros. -/
def isDecimalOctet (cs : List Char) : Bool :=
  !cs.isEmpty && cs.all Char.isDigit && (cs.length == 1 || cs.head? != some '0') &&
    cs.length ≤ 3 && number 10 cs < 256

/-- Whether a text is four decimal octets. -/
def isDottedQuad (cs : List Char) : Bool :=
  let parts := pieces '.' cs
  parts.length == 4 && parts.all isDecimalOctet

/-- The number of groups that pieces between colons stand for; the last of an address may be
four decimal octets. -/
def groupCount? (mayEndDotted : Bool) : List (List Char) → Option Nat
  | [] => some 0
  | [last] =>
    if isGroup last then some 1
    else if mayEndDotted && isDottedQuad last then some 2
    else none
  | first :: rest =>
    if isGroup first then (groupCount? mayEndDotted rest).map (· + 1) else none

/-- The pieces between single colons; an empty text has none. -/
def colonPieces (cs : List Char) : List (List Char) := if cs.isEmpty then [] else pieces ':' cs

/-- A text cut at the first double colon. -/
def splitGap? : List Char → Option (List Char × List Char)
  | ':' :: ':' :: rest => some ([], rest)
  | c :: rest => (splitGap? rest).map fun (before, after) => (c :: before, after)
  | [] => none

/-- Whether a text is an IPv6 address: eight groups, or fewer with one gap. -/
def isIpv6 (cs : List Char) : Bool :=
  match splitGap? cs with
  | none => groupCount? true (colonPieces cs) == some 8
  | some (before, after) =>
    match groupCount? false (colonPieces before), groupCount? true (colonPieces after) with
    | some m, some n => m + n < 8
    | _, _ => false

/-- The characters that no domain name holds. -/
def isForbidden (c : Char) : Bool :=
  c.toNat ≤ 32 || c.toNat == 127 || "%#/:<>?@[\\]^|".toList.contains c

/-- The ASCII spelling of a plain name: the name itself, in lower case. A name with other
characters, or with a label that stands for some, is not plain. -/
def plainName? (s : String) : Option String :=
  let name := s.toList.map Char.toLower
  if name.all (·.toNat < 128) && !(pieces '.' name).any ("xn--".toList.isPrefixOf ·) then
    some (String.ofList name)
  else none

/-- Checks a host of a scheme whose hosts are domain names. -/
def check (toAscii : String → Option String) (cs : List Char) : Except UrlFault Unit :=
  match cs with
  | '[' :: rest =>
    if rest.getLast? = some ']' ∧ isIpv6 rest.dropLast then .ok () else .error .ipv6
  | _ =>
    match (Percent.decode (Octets.ofText (String.ofList cs))).toText?.bind toAscii with
    | none => .error .domainName
    | some name =>
      let domain := name.toList
      if domain.any isForbidden then .error .domainName
      else if domain.isEmpty then .error .emptyHost
      else if endsInNumber domain && !isIpv4 (labels domain) then .error .ipv4
      else .ok ()

def checkOpaque (cs : List Char) : Except UrlFault Unit :=
  match cs with
  | '[' :: rest =>
    if rest.getLast? = some ']' ∧ isIpv6 rest.dropLast then .ok () else .error .ipv6
  | _ =>
    if cs.any fun c => c = Char.ofNat 0 || "\t\n\r #/:<>?@[\\]^|".toList.contains c then
      .error .domainCharacter
    else .ok ()

end Host
end ImageRegistry
