import Tailcat.Json.Walk
import Tailcat.Keyfile.Format

/-!
# Reading key files

`tc_keyfile_parse` of `src/keyfile.c`. Unknown members are skipped, the keys must have the right labels,
and the public keys are compared with what the private key gives. The derivations of the public key and
of the disco key are parameters.

## Main definitions

* `parse`: `tc_keyfile_parse`.
-/

open Addr Json

namespace Keyfile

/-- Why a key file is refused: the code that is returned, and `g_err`. -/
structure Failure where
  code : Err
  text : List UInt8
  deriving DecidableEq, Repr

/-- `TC_ERR_INVAL`, with no text. -/
def invalid : Failure := ⟨.inval, []⟩

/-- `FAILF`, and `TC_ERR_INVAL`. -/
def failf (s : String) : Failure := ⟨.inval, ascii s⟩

/-! ## Keys -/

def hexval (c : UInt8) : Option UInt8 :=
  if 0x30 ≤ c && c ≤ 0x39 then some (c - 0x30)
  else if 0x61 ≤ c && c ≤ 0x66 then some (c - 0x61 + 10)
  else if 0x41 ≤ c && c ≤ 0x46 then some (c - 0x41 + 10)
  else none

def hexBytes : List UInt8 → Option (List UInt8)
  | hi :: lo :: rest =>
    match hexval hi, hexval lo, hexBytes rest with
    | some hi, some lo, some bytes => some ((hi <<< 4 ||| lo) :: bytes)
    | _, _, _ => none
  | [] => some []
  | [_] => none

def keyOf (bytes : List UInt8) : Key := Vector.ofFn fun i => bytes.getD i 0

def parsePrefixedKey (s : List UInt8) (label : String) : Except Failure Key :=
  let plen := (ascii label).length
  if s.take plen ≠ ascii label ∨ s[plen]? ≠ some 0x3a then
    .error ⟨.inval, ascii "expected a \"" ++ ascii label ++ ascii ":\" key, got \"" ++ s.take 32 ++
      ascii "\""⟩
  else
    let hex := s.drop (plen + 1)
    if hex.length ≠ 64 then
      .error ⟨.inval, ascii "\"" ++ ascii label ++ ascii ":\" key is not 64 hex digits"⟩
    else
      match hexBytes hex with
      | none => .error ⟨.inval, ascii "\"" ++ ascii label ++ ascii ":\" key is not hexadecimal"⟩
      | some bytes => .ok (keyOf bytes)

/-! ## Regions -/

/-- Reads a string into a field of `cap` bytes. -/
def readString (cap : ℕ) (r : Reader) : Except Failure (List UInt8 × Reader) :=
  match r.next with
  | .ok (.string s, r) =>
    match stringCopy s.bytes cap with
    | .ok text => .ok (text, r)
    | .error _ => .error invalid
  | _ => .error invalid

/-- `tc_json_skip_value`, with what has been read so far. -/
def skip {α : Type} (bad : Failure) (a : α) (r : Reader) : Except Failure (α × Reader) :=
  match r.skipValue with
  | .ok r => .ok (a, r)
  | .error _ => .error bad

def nodeMember (name : List UInt8) (node : Node) (r : Reader) : Except Failure (Node × Reader) :=
  let host := keyIs name (ascii "HostName")
  let v4 := keyIs name (ascii "IPv4")
  let v6 := keyIs name (ascii "IPv6")
  if !host && !v4 && !v6 then skip invalid node r
  else do
    let (text, r) ← readString (if host then dnsNameMax else ipStrMax) r
    let node :=
      if host then { node with hostname := text }
      else if v4 then { node with ipv4 := text }
      else { node with ipv6 := text }
    return (node, r)

/-- One node of `parse_nodes`. -/
def parseNode (nodes : List Node) (r : Reader) : Except Failure (List Node × Reader) :=
  if nodes.length ≥ maxNodes then .error ⟨.toomany, []⟩
  else do
    let (node, r) ← members invalid nodeMember Node.zero r
    return (nodes ++ [node], r)

def beginArray (r : Reader) : Except Failure Reader :=
  match r.next with
  | .ok (.arrayBegin, r) => .ok r
  | _ => .error invalid

def parseNodes (nodes : List Node) (r : Reader) : Except Failure (List Node × Reader) := do
  let r ← beginArray r
  items invalid parseNode nodes r

def regionMember (name : List UInt8) (reg : Region) (r : Reader) :
    Except Failure (Region × Reader) :=
  if keyIs name (ascii "Nodes") then
    match parseNodes reg.nodes r with
    | .ok (nodes, r) => .ok ({ reg with nodes := nodes }, r)
    | .error _ => .error invalid
  else if keyIs name (ascii "RegionID") then
    match r.next with
    -- A number that is no integer is reported as zero.
    | .ok (.number num, r) => .ok ({ reg with regionId := .ofInt (num.getD 0) }, r)
    | _ => .error invalid
  else skip invalid reg r

/-- One region of `parse_regions`. -/
def parseRegion (regions : List Region) (r : Reader) : Except Failure (List Region × Reader) :=
  if regions.length ≥ maxRegions then .error ⟨.toomany, []⟩
  else do
    let (reg, r) ← members invalid regionMember Region.zero r
    return (regions ++ [reg], r)

def parseRegions (regions : List Region) (r : Reader) : Except Failure (List Region × Reader) := do
  let r ← beginArray r
  items invalid parseRegion regions r

/-! ## The public section -/

/-- A key field of the public section. -/
def readKey (label : String) (r : Reader) : Except Failure (Key × Reader) :=
  match r.next with
  | .error _ => .error invalid
  | .ok (.string s, r) =>
    match stringCopy s.bytes 128 with
    | .error _ => .error (failf "a key field is too long")
    | .ok buf =>
      match parsePrefixedKey buf label with
      | .error e => .error e
      | .ok key => .ok (key, r)
  | .ok _ => .error (failf "a key field is not a string")

def publicMember (name : List UInt8) (ci : ConnInfo) (r : Reader) :
    Except Failure (ConnInfo × Reader) :=
  let isPub := keyIs name (ascii "ServerPublic")
  let isDisco := keyIs name (ascii "ServerDiscoPublic")
  let isPsk := keyIs name (ascii "PresharedKey")
  let isRegion := keyIs name (ascii "RegionID")
  let isNodes := keyIs name (ascii "Region")
  if isNodes then
    match parseRegions ci.regions r with
    | .ok (regions, r) => .ok ({ ci with regions := regions }, r)
    | .error _ => .error invalid
  else if !isPub && !isDisco && !isPsk && !isRegion then skip invalid ci r
  else if isRegion then
    match r.next with
    | .error _ => .error invalid
    | .ok (.number (some num), r) => .ok ({ ci with regionId := .ofInt num }, r)
    | .ok _ => .error (failf "RegionID is not a number")
  else if isPub then do
    let (key, r) ← readKey "nodekey" r
    return ({ ci with serverPublic := key }, r)
  else if isDisco then do
    let (key, r) ← readKey "discokey" r
    return ({ ci with serverDiscoPublic := some key }, r)
  else do
    let (key, r) ← readKey "psk" r
    return ({ ci with presharedKey := some key }, r)

def parsePublic : Update Failure ConnInfo := members invalid publicMember

/-! ## The file -/

/-- What has been read of a file: a key file, and `seen_public`. -/
structure Progress where
  k : Keyfile
  seenPublic : Bool

def fileMember (name : List UInt8) (p : Progress) (r : Reader) :
    Except Failure (Progress × Reader) :=
  if keyIs name (ascii "Private") then
    match r.next with
    | .ok (.string s, r) =>
      match stringCopy s.bytes 128 with
      | .error _ => .error (failf "Private is too long")
      | .ok buf =>
        match parsePrefixedKey buf "privkey" with
        | .error e => .error e
        | .ok key => .ok ({ p with k := { p.k with privateKey := key, hasPrivate := true } }, r)
    | _ => .error (failf "Private is not a string")
  else if keyIs name (ascii "Public") then
    match r.next with
    | .ok (.objectBegin, r) =>
      match parsePublic p.k.pub r with
      | .error e => .error e
      | .ok (pub, r) => .ok (⟨{ p.k with pub := pub }, true⟩, r)
    | _ => .error (failf "Public is not an object")
  else skip (failf "malformed JSON") p r

section Derivation

-- `tc_wg_identity_from_private` and `tc_disco_key_for_node`: the public key and the disco key of a
-- private key.
variable (publicKey discoKey : Key → Option Key)

/-- The public keys are compared with those that the private key gives. -/
def checkKeys (k : Keyfile) : Except Failure Keyfile :=
  match publicKey k.privateKey with
  | none => .error (failf "the private key is not usable")
  | some pub =>
    if pub ≠ k.pub.serverPublic then .error (failf "ServerPublic does not match Private")
    else
      match k.pub.serverDiscoPublic with
      | none => .ok k
      | some key =>
        match discoKey k.privateKey with
        | none => .error (failf "could not derive the disco key")
        | some disco =>
          if disco ≠ key then .error (failf "ServerDiscoPublic does not match Private") else .ok k

def Progress.zero : Progress := ⟨⟨Vector.replicate 32 0, false, ConnInfo.zero⟩, false⟩

def parse (json : List UInt8) : Except Failure Keyfile :=
  match (Reader.init json).next with
  | .ok (.objectBegin, r) =>
    match members (failf "malformed JSON") fileMember Progress.zero r with
    | .error e => .error e
    | .ok (p, _) =>
      if !p.k.hasPrivate then .error (failf "no Private key in the file")
      else if !p.seenPublic then .error (failf "no Public section in the file")
      else checkKeys publicKey discoKey p.k
  | _ => .error (failf "not a JSON object")

end Derivation

end Keyfile
