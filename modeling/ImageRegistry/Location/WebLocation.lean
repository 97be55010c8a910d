import ImageRegistry.Location.Host
import ImageRegistry.Location.Url

/-! Absolute web locations, read over a spelling of domain names in ASCII. Control characters and
blanks around a location do not count, nor do tabs and line ends inside. -/

namespace ImageRegistry

namespace WebLocation

def significant (s : String) : List Char :=
  let isIdle (c : Char) : Bool := c.toNat ≤ 32
  (((s.toList.dropWhile isIdle).reverse.dropWhile isIdle).reverse).filter
    fun c => c != '\t' && c != '\n' && c != '\r'

def splitScheme? (cs : List Char) : Option (String × List Char) :=
  match splitFirst? ':' cs with
  | some (c :: name, rest) =>
    if c.isAlpha && name.all fun c => c.isAlphanum || c == '+' || c == '-' || c == '.' then
      some (String.ofList ((c :: name).map Char.toLower), rest)
    else none
  | _ => none

def domainSchemes : List String := ["http", "https", "ws", "wss", "ftp"]

def endsAuthority (isDomain : Bool) (c : Char) : Bool :=
  c == '/' || c == '?' || c == '#' || (isDomain && c == '\\')

/-- The host and port of an authority: they follow the last at sign. -/
def afterUserInfo (authority : List Char) : List Char :=
  ((splitLast? '@' authority).map Prod.snd).getD authority

/-- A host and what follows it: it ends before the first colon outside brackets. -/
def splitHost : (inBrackets : Bool) → List Char → List Char × List Char
  | _, [] => ([], [])
  | inBrackets, c :: cs =>
    if c = ':' ∧ inBrackets = false then ([], c :: cs)
    else
      let inside := if c = '[' then true else if c = ']' then false else inBrackets
      let (host, rest) := splitHost inside cs
      (c :: host, rest)

def maxPort : Nat := 65535

/-- Checks what follows a host: nothing, or a colon and a port, which a backslash may end. -/
def checkPort : List Char → Except UrlFault Unit
  | ':' :: port =>
    let digits := port.takeWhile (· != '\\')
    if digits.all Char.isDigit && Host.number 10 digits ≤ maxPort then .ok () else .error .port
  | _ => .ok ()

/-- Checks an authority of a scheme whose hosts are domain names. -/
def checkDomainAuthority (toAscii : String → Option String) (authority : List Char) :
    Except UrlFault Unit := do
  let (host, rest) := splitHost false (afterUserInfo authority)
  if host.isEmpty then throw .emptyHost
  Host.check toAscii host
  checkPort rest

/-- Whether an authority with an at sign has to name a host: if there is a user name or a
password, and if something follows where there could have been a user name. -/
def needsHost (authority after : List Char) : Bool :=
  match splitLast? '@' authority with
  | none | some ([':'], _) => false
  | some ([], _) => !after.isEmpty
  | some _ => true

/-- Checks the start of what follows the two slashes of another scheme. The authority may be
empty. -/
def checkOpaqueAuthority (cs : List Char) : Except UrlFault Unit := do
  let authority := cs.takeWhile fun c => !endsAuthority false c
  let after := cs.dropWhile fun c => !endsAuthority false c
  let (host, rest) := splitHost false (afterUserInfo authority)
  Host.checkOpaque host
  if host.isEmpty && (needsHost authority after || rest.head? == some ':') then throw .emptyHost
  checkPort rest

def isDrive : List Char → Bool
  | [letter, mark] => letter.isAlpha && (mark == ':' || mark == '|')
  | _ => false

def checkFile (toAscii : String → Option String) (cs : List Char) : Except UrlFault Unit :=
  let isSlash (c : Char) : Bool := c == '/' || c == '\\'
  match cs with
  | a :: b :: rest =>
    if isSlash a && isSlash b then
      let host := rest.takeWhile fun c => !endsAuthority true c
      if host.isEmpty || isDrive host then .ok () else Host.check toAscii host
    else .ok ()
  | _ => .ok ()

def checkRest (toAscii : String → Option String) (scheme : String) (cs : List Char) :
    Except UrlFault Unit :=
  if domainSchemes.contains scheme then
    checkDomainAuthority toAscii <|
      (cs.dropWhile fun c => c == '/' || c == '\\').takeWhile fun c => !endsAuthority true c
  else if scheme = "file" then checkFile toAscii cs
  else
    match cs with
    | '/' :: '/' :: rest => checkOpaqueAuthority rest
    | _ => .ok ()

def read (toAscii : String → Option String) (s : String) : Except UrlFault Url := do
  let some (scheme, rest) := splitScheme? (significant s) | throw .relative
  checkRest toAscii scheme rest
  return { scheme, hasFragment := rest.contains '#' }

end WebLocation

/-- Reads web locations, with names spelled in ASCII in some way. -/
def UrlReader.web (toAscii : String → Option String) : UrlReader where
  read s := (WebLocation.read toAscii s).mapError UrlFault.message

def UrlReader.plain : UrlReader := web Host.plainName?

end ImageRegistry
