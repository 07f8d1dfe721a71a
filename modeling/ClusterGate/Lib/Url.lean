/-
  ClusterGate.Lib.Url — what the URL standard's parser makes of a text without a base:
  its scheme, host and port, or failure.

  Blanks at the ends and tabs and newlines anywhere are dropped first. A special scheme
  (http, https, ...) takes its authority after any run of slashes and backslashes, up to
  a slash, backslash, question mark or hash; credentials end at the last at-sign, and a
  colon outside brackets starts the port. What a host text means (IDNA, IP literals) is
  a parameter. Past the authority nothing can fail, so the rest is kept as it stands.
-/

import ClusterGate.Lib.Text

namespace ClusterGate.Lib

/-- The host parser: the serialized host of a text, for special schemes or opaque. -/
abbrev HostParser := (special : Bool) → List Char → Option String

structure Url where
  scheme : String
  /-- Absent where the URL has no authority. -/
  host : Option String
  /-- Absent where it is the scheme's own. -/
  port : Option Nat
  /-- What follows the authority: path, query and fragment, unparsed. -/
  rest : List Char
  deriving DecidableEq

namespace Url

def isC0OrSpace (c : Char) : Bool := c.toNat ≤ 0x20

def isTabOrNewline (c : Char) : Bool := c = '\t' || c = '\n' || c = '\r'

/-- What the parser reads of a text. -/
def strip (cs : List Char) : List Char :=
  (((cs.dropWhile isC0OrSpace).reverse.dropWhile isC0OrSpace).reverse).filter fun c => !isTabOrNewline c

def isSchemeChar (c : Char) : Bool := c.isAlphanum || c = '+' || c = '-' || c = '.'

/-- The scheme in lower case, and what follows its colon. -/
def splitScheme (cs : List Char) : Option (String × List Char) :=
  match cs with
  | c :: _ =>
    if c.isAlpha then
      match cs.dropWhile isSchemeChar with
      | ':' :: rest => some (String.ofList ((cs.takeWhile isSchemeChar).map Char.toLower), rest)
      | _ => none
    else none
  | [] => none

/-- The default port of a special scheme other than file. -/
def defaultPort : String → Option Nat
  | "http" | "ws" => some 80
  | "https" | "wss" => some 443
  | "ftp" => some 21
  | _ => none

def isSlash (c : Char) : Bool := c = '/' || c = '\\'

/-- Where an authority ends. -/
def endsAuthority (special : Bool) (c : Char) : Bool :=
  c = '/' || c = '?' || c = '#' || (special && c = '\\')

/-- The host of an authority without its credentials, and the port's text if a colon
    outside brackets starts one. -/
def splitPort (inside : Bool) : List Char → List Char × Option (List Char)
  | [] => ([], none)
  | c :: cs =>
    if c = ':' ∧ inside = false then ([], some cs)
    else
      let r := splitPort (if c = '[' then true else if c = ']' then false else inside) cs
      (c :: r.1, r.2)

def digitsValue (ds : List Char) : Nat := ds.foldl (fun n d => 10 * n + (d.toNat - '0'.toNat)) 0

/-- The port of a text of digits, absent if it is empty or the scheme's own. -/
def parsePort (scheme : String) (ds : List Char) : Option (Option Nat) :=
  if ds = [] then some none
  else if ds.all Char.isDigit ∧ digitsValue ds ≤ 65535 then
    some (if defaultPort scheme = some (digitsValue ds) then none else some (digitsValue ds))
  else none

/-- What follows the last at-sign. -/
def afterCredentials (auth : List Char) : List Char := (auth.reverse.takeWhile (· ≠ '@')).reverse

/-- Host and port of an authority's text. -/
def parseAuthority (H : HostParser) (special : Bool) (scheme : String) (auth : List Char) :
    Option (String × Option Nat) :=
  let hp := afterCredentials auth
  let r := splitPort false hp
  if r.1 = [] ∧ (special = true ∨ '@' ∈ auth ∨ r.2.isSome) then none
  else (if r.1 = [] then some "" else H special r.1).bind fun host =>
    (parsePort scheme (r.2.getD [])).map fun port => (host, port)

def withAuthority (H : HostParser) (special : Bool) (scheme : String) (cs : List Char) : Option Url :=
  (parseAuthority H special scheme (cs.takeWhile fun c => !endsAuthority special c)).map fun hp =>
    ⟨scheme, some hp.1, hp.2, cs.dropWhile fun c => !endsAuthority special c⟩

def isDriveLetter : List Char → Bool
  | [c, d] => c.isAlpha && (d = ':' || d = '|')
  | _ => false

/-- A file URL: a host only after two slashes, and `localhost` is none. -/
def parseFile (H : HostParser) (cs : List Char) : Option Url :=
  match cs with
  | a :: b :: cs' =>
    if isSlash a && isSlash b then
      let host := cs'.takeWhile fun c => !endsAuthority true c
      let rest := cs'.dropWhile fun c => !endsAuthority true c
      if isDriveLetter host then some ⟨"file", some "", none, cs'⟩
      else if host = [] then some ⟨"file", some "", none, rest⟩
      else (H true host).map fun h => ⟨"file", some (if h = "localhost" then "" else h), none, rest⟩
    else some ⟨"file", some "", none, cs⟩
  | _ => some ⟨"file", some "", none, cs⟩

/-- `new URL(text)`, on the text's characters. -/
def parseChars (H : HostParser) (cs : List Char) : Option Url :=
  (splitScheme (strip cs)).bind fun r =>
    if r.1 = "file" then parseFile H r.2
    else if (defaultPort r.1).isSome then withAuthority H true r.1 (r.2.dropWhile isSlash)
    else match r.2 with
      | '/' :: '/' :: cs' => withAuthority H false r.1 cs'
      | cs' => some ⟨r.1, none, none, cs'⟩

def parse (H : HostParser) (text : String) : Option Url := parseChars H text.toList

end Url

end ClusterGate.Lib
