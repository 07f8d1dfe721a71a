/-
  ClusterGate.World — what the route code takes from outside its sources: the platform's
  host parser, DNS, regular expressions, ciphers and Unicode tables, and the deny list
  and cluster domain the process runs with.

  All of it is fixed over a run: DNS answers, the deny list in force and the keys do not
  change. What a request draws at random, and the time, is in `Draw`.
-/

import ClusterGate.Lib.Gcm
import ClusterGate.Lib.Url
import ClusterGate.Store.Column

namespace ClusterGate

open Lib

/-- A rule of the target deny list, with its reason. -/
inductive DenyRule
  | host (value reason : String)
  | suffix (value reason : String)
  | cidr (addr : String) (bits : Nat) (reason : String)
  deriving DecidableEq

structure World where
  hostParser : HostParser
  /-- `net.isIP`: 4, 6, or 0. -/
  isIP : String → Nat
  /-- `BlockList.check`: whether the subnet `addr/bits` holds an address. -/
  subnetHas : (addr : String) → (bits : Nat) → (ip : String) → Bool
  /-- A failed lookup answers nothing. -/
  resolve4 : String → List String
  resolve6 : String → List String
  lookup : String → List String
  denyList : List DenyRule
  clusterDomain : String
  /-- Whether a pattern compiles, passes the star-height detector and the search for
      nested quantifiers, and the timing check. -/
  regexAccepts : String → Bool
  /-- `new RegExp(pattern).test(text)`. -/
  regexTest : (pattern text : String) → Bool
  /-- `text.replace(new RegExp(pattern), by)`. -/
  regexReplace : (pattern text by_ : String) → String
  /-- `toLowerCase().normalize('NFKD')`. -/
  foldName : String → String
  base64 : String → String
  /-- AES-256-GCM under a key. -/
  gcm : (key : Base64.Bytes) → Gcm
  /-- `getKey()` -/
  secretKey : Base64.Bytes
  /-- SHA-256 in hexadecimal. -/
  sha256 : String → String
  /-- `Buffer.toString('utf8')` of bytes that are no UTF-8. -/
  lossyUtf8 : Base64.Bytes → String

def World.url (W : World) (text : String) : Option Url := Url.parse W.hostParser text

/-- A world that takes hosts as they stand, resolves nothing and forbids nothing. -/
def World.plain : World where
  hostParser _ cs := some (String.ofList cs)
  isIP _ := 0
  subnetHas _ _ _ := false
  resolve4 _ := []
  resolve6 _ := []
  lookup _ := []
  denyList := []
  clusterDomain := "cluster.local"
  regexAccepts _ := true
  regexTest _ _ := false
  regexReplace _ text _ := text
  foldName := Text.toLowerAscii
  base64 text := text
  gcm _ := Gcm.plain
  secretKey := []
  sha256 text := text
  lossyUtf8 _ := ""

/-- What one request draws: the time, the ids of the rows it creates, and the nonce of
    each secret it seals. -/
structure Draw where
  now : String
  routeId : String
  versionId : String
  rowId : String
  nonce : Column → Nonce

def Draw.plain : Draw := ⟨"now", "route", "version", "row", fun _ => Nonce.zero⟩

end ClusterGate
