/-
  ClusterGate.Target.Policy — which upstream URLs a route may point at
  (`lib/targetPolicy.ts`, `lib/targetDenylist.ts`, `validateTargetUrl` of
  `lib/security.ts`).

  A target passes three checks in order: its scheme and the cloud metadata endpoints,
  the deny list, and the organization's allowlist. `assertTargetAllowed` is the message
  of the first that refuses it.
  - `assertTargetAllowed_http`: what passes is an http or https URL.
-/

import ClusterGate.World

namespace ClusterGate

open Lib Lib.Text

/-! ## Addresses -/

/-- Lower-case, without IPv6 brackets, zone index and a trailing root dot. -/
def normalizeHost (host : String) : String :=
  let h := toLowerAscii (trim host)
  let h := if startsWith h "[" && endsWith h "]" then sliceEnd (slice h 1) 1 else h
  let h := if includes h ":" then (match indexOf h "%" with
    | some i => String.ofList (h.toList.take i)
    | none => h) else h
  if endsWith h "." then sliceEnd h 1 else h

/-- The four fields of `a.b.c.d`, each of one to three digits. -/
def dottedFields (s : String) : Option (List Nat) :=
  match (split s '.').mapM fun f => if f.toList.length ≤ 3 then digits? f else none with
  | some [a, b, c, d] => some [a, b, c, d]
  | _ => none

/-- The IPv4 address of two hextets of one to four digits. -/
def hextetsToIPv4 (s : String) : Option String :=
  match (split s ':').mapM fun f => if f.toList.length ≤ 4 then hex? f else none with
  | some [hi, lo] => some (toString (hi / 256) ++ "." ++ toString (hi % 256) ++ "." ++ toString (lo / 256) ++ "." ++
      toString (lo % 256))
  | _ => none

/-- The IPv4 address inside `::ffff:...`, dotted or in hextets. -/
def mappedIPv4 (a : String) : Option String :=
  if startsWith a "::ffff:" then
    let tail := slice a 7
    if (dottedFields tail).isSome then some tail else hextetsToIPv4 tail
  else none

def unmapIp (addr : String) : String :=
  let a := normalizeHost addr
  (mappedIPv4 a).getD a

/-- An IP or CIDR, as the base address and the number of fixed bits. -/
def parseCidr (W : World) (entry : String) : Option (String × Nat) :=
  match split entry '/' with
  | rawAddr :: rest =>
    let addr := unmapIp rawAddr
    let max := if W.isIP addr = 4 then 32 else 128
    if W.isIP addr = 0 then none
    else match rest with
      | [] => some (addr, max)
      | [raw] => ((digits? raw).filter (· ≤ max)).map fun n => (addr, n)
      | _ => none
  | [] => none

def ipInList (W : World) (list : String × Nat) (ip : String) : Bool :=
  let addr := unmapIp ip
  W.isIP addr ≠ 0 && W.subnetHas list.1 list.2 addr

/-! ## The deny list -/

/-- `DenyList.matchIp`. -/
def matchIp (W : World) (ip : String) : Option String :=
  W.denyList.findSome? fun
    | .cidr addr bits reason => if ipInList W (addr, bits) ip then some reason else none
    | _ => none

/-- `DenyList.matchHost`. -/
def matchHost (W : World) (host : String) : Option String :=
  let h := normalizeHost host
  (W.denyList.findSome? fun
    | .host value reason => if value = h then some reason else none
    | .suffix value reason => if endsWith h value then some reason else none
    | .cidr _ _ _ => none).or (if W.isIP (unmapIp h) = 0 then none else matchIp W h)

/-! ## Cloud metadata endpoints -/

def BLOCKED_HOSTNAMES : List String :=
  ["metadata.google.internal", "metadata.gke.internal", "169.254.169.254", "169.254.170.2"]

def isMetadataIpv4 (addr : String) : Bool :=
  addr = "100.100.100.200" ||
    (match (split addr '.').mapM toNumber? with
      | some [a, b, c, d] => a = 169 && b = 254 && 0 ≤ c && c ≤ 255 && 0 ≤ d && d ≤ 255
      | _ => false)

/-- `parseInt(text, 16)`: the longest run of hex digits in front. -/
def hexPrefix? (s : String) : Option Nat := hex? (String.ofList (s.toList.takeWhile fun c => (hexDigit? c).isSome))

def isMetadataIpv6 (addr : String) : Bool :=
  match mappedIPv4 addr with
  | some v4 => isMetadataIpv4 v4
  | none =>
    let head := (split addr ':').headD ""
    match hexPrefix? (if head = "" then "0" else head) with
    | some first => first / 64 % 1024 = 0xfe80 / 64 || first / 512 % 128 = 0xfc00 / 512
    | none => false

def isMetadataIp (ip : String) : Bool :=
  let addr := toLowerAscii ip
  let addr := if startsWith addr "[" && endsWith addr "]" then sliceEnd (slice addr 1) 1 else addr
  let addr := match indexOf addr "%" with
    | some i => String.ofList (addr.toList.take i)
    | none => addr
  if includes addr ":" then isMetadataIpv6 addr else isMetadataIpv4 addr

/-- `validateTargetUrl`: the message of what it refuses. -/
def validateTargetUrl (W : World) (targetUrl : String) : Option String :=
  match W.url targetUrl with
  | none => some "Invalid target URL format"
  | some parsed =>
    if parsed.scheme ≠ "http" ∧ parsed.scheme ≠ "https" then
      some ("Blocked URL scheme: " ++ parsed.scheme ++ ": — only http: and https: are allowed")
    else
      let hostname := toLowerAscii (parsed.host.getD "")
      if BLOCKED_HOSTNAMES.contains hostname || isMetadataIp hostname then
        some ("Blocked cloud metadata endpoint: " ++ hostname)
      else
        ((W.resolve4 hostname ++ W.resolve6 hostname).find? isMetadataIp).map fun addr =>
          "Target hostname " ++ hostname ++ " resolves to cloud metadata IP " ++ addr

/-! ## The organization's allowlist -/

structure OrgTargetPolicy where
  organizationName : String
  restrictTargets : Bool
  allowedTargetNamespaces : List String
  allowedTargetHosts : List String
  deriving DecidableEq

/-- The namespace of a Kubernetes service name, if the host is one. -/
def kubeNamespaceOf (host clusterDomain : String) : Option String :=
  let h := normalizeHost host
  let fqdnSuffix := ".svc." ++ normalizeHost clusterDomain
  let base :=
    if endsWith h fqdnSuffix then sliceEnd h fqdnSuffix.toList.length
    else if endsWith h ".svc" then sliceEnd h 4
    else ""
  let labels := split base '.'
  if base = "" ∨ labels.length < 2 ∨ "" ∈ labels then none else labels.getLast?

def hostEntryMatches (W : World) (entry host : String) (addresses : List String) : Bool :=
  let e := normalizeHost entry
  match parseCidr W e with
  | some cidr =>
    if W.isIP (unmapIp host) ≠ 0 then ipInList W cidr host
    else addresses ≠ [] && addresses.all (ipInList W cidr)
  | none => if startsWith e "*." then endsWith host (slice e 1) else host = e

def orgPolicyAllows (W : World) (policy : OrgTargetPolicy) (host : String) (addresses : List String) : Bool :=
  !policy.restrictTargets ||
    (let h := normalizeHost host
     (match kubeNamespaceOf h W.clusterDomain with
      | some ns => policy.allowedTargetNamespaces.contains ns
      | none => false) ||
     policy.allowedTargetHosts.any fun e => hostEntryMatches W e h addresses)

def lookupAll (W : World) (host : String) : List String := if W.isIP (unmapIp host) ≠ 0 then [host] else W.lookup host

/-- Why a target may not be used under a policy (none: it may). -/
def assertTargetAllowed (W : World) (targetUrl : String) (policy : Option OrgTargetPolicy) : Option String :=
  (validateTargetUrl W targetUrl).or
    (let host := normalizeHost (((W.url targetUrl).bind Url.host).getD "")
     let addresses := lookupAll W host
     ((matchHost W host).map fun reason => "Blocked target " ++ host ++ ": " ++ reason).or
      ((addresses.findSome? fun addr => (matchIp W addr).map fun reason =>
          "Blocked target " ++ host ++ ": resolves to " ++ addr ++ " (" ++ reason ++ ")").or
        (policy.bind fun p => if orgPolicyAllows W p host addresses then none else
          some ("Target " ++ host ++ " is not in the allowed targets of organization \"" ++ p.organizationName ++
            "\". Ask a system admin to add its namespace or host to the organization."))))

theorem assertTargetAllowed_http {W : World} {targetUrl : String} {policy : Option OrgTargetPolicy}
    (h : assertTargetAllowed W targetUrl policy = none) :
    ∃ u, W.url targetUrl = some u ∧ (u.scheme = "http" ∨ u.scheme = "https") := by
  simp only [assertTargetAllowed, Option.or_eq_none_iff] at h
  obtain ⟨h, -⟩ := h
  unfold validateTargetUrl at h
  split at h
  · cases h
  · rename_i u hu
    split at h
    · cases h
    · rename_i hs
      exact ⟨u, hu, by by_cases e : u.scheme = "http" <;> simp_all⟩

end ClusterGate
