/-
  ClusterGate.Lib.UrlRecord — what the URL standard's parser makes of a text, read against
  a base or without one: the whole record, and its serialized parts.

  The base is a web URL's (`Base`). Against it a text without a scheme, or with the base's
  own and no two slashes, is relative: one slash starts a path on the base's host, two of
  either kind start an authority. A path is split at its slashes, for special schemes at
  backslashes too, its characters are percent-encoded and dot segments are taken out, spelt
  with `%2e` or not. Behind another scheme's colon a text without a slash is an opaque path,
  kept as it stands (`UrlPath.flat`).
-/

import ClusterGate.Lib.UrlJoin

namespace ClusterGate.Lib

namespace Url

/-! ## Percent encoding -/

def inC0Set (c : Char) : Bool := c.toNat < 0x20 || 0x7E < c.toNat

def inQuerySet (c : Char) : Bool := inC0Set c || c = ' ' || c = '"' || c = '#' || c = '<' || c = '>'

def inSpecialQuerySet (c : Char) : Bool := inQuerySet c || c = '\x27'

def inPathSet (c : Char) : Bool := inQuerySet c || c = '?' || c = '^' || c = '`' || c = '{' || c = '}'

def inUserinfoSet (c : Char) : Bool :=
  inPathSet c || c = '/' || c = ':' || c = ';' || c = '=' || c = '@' || c = '[' || c = '\\' || c = ']' || c = '|'

/-- `encodeURIComponent` keeps letters, digits and nine marks. -/
def inComponentSet (c : Char) : Bool :=
  !(c.isAlphanum || c = '-' || c = '_' || c = '.' || c = '!' || c = '~' || c = '*' || c = '\x27' || c = '(' || c = ')')

def hexUpper (n : Nat) : Char := if n < 10 then Char.ofNat (48 + n) else Char.ofNat (55 + n)

def percentEncodeChar (inSet : Char → Bool) (c : Char) : List Char :=
  if inSet c then (String.utf8EncodeChar c).flatMap fun b => ['%', hexUpper (b.toNat / 16), hexUpper (b.toNat % 16)]
  else [c]

def percentEncode (inSet : Char → Bool) (cs : List Char) : List Char := cs.flatMap (percentEncodeChar inSet)

def encodeURIComponent (s : String) : String := String.ofList (percentEncode inComponentSet s.toList)

example : encodeURIComponent "/é" = "%2F%C3%A9" := by decide

/-! ## Paths -/

def isSpecial (scheme : String) : Bool := scheme = "file" || (defaultPort scheme).isSome

def isSingleDot (s : List Char) : Bool := s.map Char.toLower ∈ [['.'], ['%', '2', 'e']]

def isDoubleDot (s : List Char) : Bool :=
  s.map Char.toLower ∈ [['.', '.'], ['.', '%', '2', 'e'], ['%', '2', 'e', '.'], ['%', '2', 'e', '%', '2', 'e']]

/-- A file's drive letter is never taken off its path. -/
def shorten (file : Bool) (path : List (List Char)) : List (List Char) :=
  match path with
  | [[c, ':']] => if file && c.isAlpha then path else []
  | _ => path.dropLast

def pushSegment (file : Bool) (path : List (List Char)) (s : List Char) : List (List Char) :=
  if file && path.isEmpty && isDriveLetter s then [s.take 1 ++ [':']] else path ++ [s]

/-- Path state, segment by segment: the last one, if it is a dot, leaves an empty one. -/
def walk (file : Bool) (path : List (List Char)) : List (List Char) → List (List Char)
  | [] => path
  | raw :: rest =>
    let s := percentEncode inPathSet raw
    let close (path : List (List Char)) := if rest.isEmpty then path ++ [[]] else path
    if isDoubleDot s then walk file (close (shorten file path)) rest
    else if isSingleDot s then walk file (close path) rest
    else walk file (pushSegment file path s) rest

def isSeparator (special : Bool) (c : Char) : Bool := c = '/' || (special && c = '\\')

def endsPath (c : Char) : Bool := c = '?' || c = '#'

def pathText (cs : List Char) : List Char := cs.takeWhile fun c => !endsPath c

def rawSegments (special : Bool) (cs : List Char) : List (List Char) := (pathText cs).splitOnP (isSeparator special)

/-- The path of a text behind an authority: nothing is a path only where it is not special. -/
def startPath (special file : Bool) (cs : List Char) : List (List Char) :=
  match pathText cs with
  | [] => if special then [[]] else []
  | c :: _ => walk file [] (rawSegments special (if isSeparator special c then cs.tail else cs))

def readQuery (special : Bool) (cs : List Char) : Option (List Char) :=
  match cs.dropWhile fun c => !endsPath c with
  | '?' :: q => some (percentEncode (if special then inSpecialQuerySet else inQuerySet) (q.takeWhile (· ≠ '#')))
  | _ => none

end Url

inductive UrlPath
  | flat (text : List Char)
  | segments (path : List (List Char))
  deriving DecidableEq

structure UrlRecord where
  scheme : String
  username : List Char := []
  password : List Char := []
  host : Option String
  port : Option Nat := none
  path : UrlPath
  query : Option (List Char)
  deriving DecidableEq

/-- A URL of a web scheme to read others against. -/
structure Base where
  scheme : String
  host : String
  port : Option Nat
  path : List (List Char)
  query : Option (List Char)
  web : (Url.defaultPort scheme).isSome = true

namespace UrlRecord

open Url

/-! ## The parser -/

/-- What stands before the last at-sign. -/
def credentials (auth : List Char) : List Char := ((auth.reverse.dropWhile (· ≠ '@')).drop 1).reverse

def readAuthority (H : HostParser) (scheme : String) (cs : List Char) : Option UrlRecord :=
  let auth := cs.takeWhile fun c => !endsAuthority (isSpecial scheme) c
  let rest := cs.dropWhile fun c => !endsAuthority (isSpecial scheme) c
  (parseAuthority H (isSpecial scheme) scheme auth).map fun hp =>
    { scheme := scheme
      username := percentEncode inUserinfoSet ((credentials auth).takeWhile (· ≠ ':'))
      password := percentEncode inUserinfoSet (((credentials auth).dropWhile (· ≠ ':')).drop 1)
      host := some hp.1
      port := hp.2
      path := .segments (startPath (isSpecial scheme) false rest)
      query := readQuery (isSpecial scheme) rest }

def onBase (b : Base) (path : List (List Char)) (query : Option (List Char)) : UrlRecord :=
  { scheme := b.scheme, host := some b.host, port := b.port, path := .segments path, query := query }

/-- Relative state. -/
def readRelative (H : HostParser) (b : Base) (cs : List Char) : Option UrlRecord :=
  match cs with
  | [] => some (onBase b b.path b.query)
  | c :: rest =>
    if isSlash c then
      if rest.head?.any isSlash then readAuthority H b.scheme (rest.dropWhile isSlash)
      else some (onBase b (walk false [] (rawSegments true rest)) (readQuery true rest))
    else if c = '?' then some (onBase b b.path (readQuery true cs))
    else if c = '#' then some (onBase b b.path b.query)
    else some (onBase b (walk false b.path.dropLast (rawSegments true cs)) (readQuery true cs))

/-- File state, for bases are no files. -/
def readFile (H : HostParser) (cs : List Char) : Option UrlRecord :=
  let file (host : String) (path : List (List Char)) : UrlRecord :=
    { scheme := "file", host := some host, path := .segments path, query := readQuery true cs }
  match cs with
  | a :: rest =>
    if isSlash a then
      match rest with
      | b :: cs' =>
        if isSlash b then
          let host := cs'.takeWhile fun c => !endsAuthority true c
          let rest := cs'.dropWhile fun c => !endsAuthority true c
          if isDriveLetter host then some (file "" (walk true [] (rawSegments true cs')))
          else if host = [] then some (file "" (startPath true true rest))
          else (H true host).map fun h => file (if h = "localhost" then "" else h) (startPath true true rest)
        else some (file "" (walk true [] (rawSegments true rest)))
      | [] => some (file "" (walk true [] (rawSegments true rest)))
    else some (file "" (walk true [] (rawSegments true cs)))
  | [] => some (file "" (walk true [] (rawSegments true cs)))

def readAbsolute (H : HostParser) (scheme : String) (cs : List Char) : Option UrlRecord :=
  if scheme = "file" then readFile H cs
  else if (defaultPort scheme).isSome then readAuthority H scheme (cs.dropWhile isSlash)
  else match cs with
    | '/' :: '/' :: cs' => readAuthority H scheme cs'
    | '/' :: cs' =>
      some { scheme := scheme, host := none, path := .segments (walk false [] (rawSegments false cs')),
             query := readQuery false cs' }
    | cs' =>
      some { scheme := scheme, host := none, path := .flat (percentEncode inC0Set (pathText cs')),
             query := readQuery false cs' }

/-- `new URL(text, base)`, on the text's characters. -/
def readChars (H : HostParser) (base : Option Base) (cs : List Char) : Option UrlRecord :=
  match splitScheme (strip cs), base with
  | none, none => none
  | none, some b => readRelative H b (strip cs)
  | some (scheme, rest), none => readAbsolute H scheme rest
  | some (scheme, rest), some b =>
    if b.scheme = scheme ∧ ¬['/', '/'] <+: rest then readRelative H b rest else readAbsolute H scheme rest

def read (H : HostParser) (base : Option Base) (text : String) : Option UrlRecord := readChars H base text.toList

/-! ## Serialized parts -/

def joinSegments (path : List (List Char)) : List Char := path.flatMap ('/' :: ·)

def pathname (u : UrlRecord) : List Char :=
  match u.path with
  | .flat text => text
  | .segments path => joinSegments path

def search (u : UrlRecord) : List Char :=
  match u.query with
  | none | some [] => []
  | some q => '?' :: q

def portText (port : Option Nat) : List Char :=
  match port with
  | none => []
  | some p => ':' :: (toString p).toList

def webOrigin (scheme host : String) (port : Option Nat) : String :=
  scheme ++ "://" ++ host ++ String.ofList (portText port)

/-- Opaque origins are `null`; a blob's is its inner URL's. -/
def origin (H : HostParser) (u : UrlRecord) : String :=
  if (defaultPort u.scheme).isSome then webOrigin u.scheme (u.host.getD "") u.port
  else if u.scheme = "blob" then
    match readChars H none u.pathname with
    | some v => if v.scheme = "http" ∨ v.scheme = "https" then webOrigin v.scheme (v.host.getD "") v.port else "null"
    | none => "null"
  else "null"

end UrlRecord

def Base.origin (b : Base) : String := UrlRecord.webOrigin b.scheme b.host b.port

end ClusterGate.Lib
