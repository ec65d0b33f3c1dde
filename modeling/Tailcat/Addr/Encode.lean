import Tailcat.Addr.Info
import Tailcat.Codec.Base64Url
import Tailcat.Codec.Cbor

/-!
# Writing addresses

The encoder of `src/addr.c`. An address is the text `tc` and the base64url form of a CBOR map. Zero
and empty fields are left out, and those that the reader can derive are dropped first.

## Main results

* `encode_eq_ok_iff`: an address is written where its CBOR and its text fit.
-/

namespace Addr

open Appending Cbor

def addrCborMax : ℕ := 16384

/-- `ADDR_PREFIX`. -/
def addrTag : List UInt8 := ascii "tc"

def keyByte (k : Char) : UInt8 := k.toNat.toUInt8

def pair (p : Prop) [Decidable p] : ℕ := if p then 1 else 0

/-! ## The encoder -/

def nodePairCount (n : Node) (name : List UInt8) : ℕ :=
  pair (name ≠ []) + pair (n.hostname ≠ []) + pair (n.certName ≠ []) + pair (n.ipv4 ≠ []) +
    pair (n.ipv6 ≠ []) + pair (n.stunPort ≠ 0) + pair (n.derpPort ≠ 0) + pair n.insecureForTests

section Writer

variable (cap : ℕ)

/-- A key and what `f` writes behind it, where the field is present. -/
def writeField (p : Prop) [Decidable p] (k : Char) (f : List UInt8 → Except Err (List UInt8))
    (out : List UInt8) : Except Err (List UInt8) :=
  if p then writeText cap [keyByte k] out >>= f else .ok out

def writeTextField (k : Char) (s : List UInt8) : List UInt8 → Except Err (List UInt8) :=
  writeField cap (s ≠ []) k (writeText cap s)

def encodeNode (n : Node) (out : List UInt8) : Except Err (List UInt8) := do
  let name := if n.hostname ≠ [] then [] else n.name
  let out ← writeMapHeader cap (nodePairCount n name) out
  let out ← writeTextField cap 'n' name out
  let out ← writeTextField cap 'h' n.hostname out
  let out ← writeTextField cap 't' n.certName out
  let out ← writeTextField cap '4' n.ipv4 out
  let out ← writeTextField cap '6' n.ipv6 out
  let out ← writeField cap (n.stunPort ≠ 0) 's' (writeInt cap n.stunPort.toInt64) out
  let out ← writeField cap (n.derpPort ≠ 0) 'd' (writeInt cap n.derpPort.toInt64) out
  writeField cap n.insecureForTests 'x' (writeBool cap true) out

def encodeRegion (reg : Region) (out : List UInt8) : Except Err (List UInt8) := do
  let out ← writeMapHeader cap (pair (reg.nodes ≠ [])) out
  writeField cap (reg.nodes ≠ []) 'N' (fun out => do
    let out ← writeArrayHeader cap reg.nodes.length out
    reg.nodes.foldlM (fun out n => encodeNode cap n out) out) out

/-- The map that `tc_addr_encode` writes. -/
def encodeInfo (ci : ConnInfo) (out : List UInt8) : Except Err (List UInt8) := do
  let pairs := 1 + pair ci.serverDiscoPublic.isSome + pair ci.presharedKey.isSome +
    pair (ci.regions ≠ []) + pair (ci.regionId ≠ 0)
  let out ← writeMapHeader cap pairs out
  let out ← writeField cap True 'p' (writeBytes cap ci.serverPublic.toList) out
  let out ← writeField cap ci.serverDiscoPublic.isSome 'k'
    (writeBytes cap (ci.serverDiscoPublic.getD (Vector.replicate 32 0)).toList) out
  let out ← writeField cap ci.presharedKey.isSome 'q'
    (writeBytes cap (ci.presharedKey.getD (Vector.replicate 32 0)).toList) out
  let out ← writeField cap (ci.regions ≠ []) 'r' (fun out => do
    let out ← writeArrayHeader cap ci.regions.length out
    ci.regions.foldlM (fun out reg => encodeRegion cap reg out) out) out
  writeField cap (ci.regionId ≠ 0) 'i' (writeInt cap ci.regionId) out

/-- `tc_addr_encode`, into a buffer of `cap` bytes. -/
def encode (ci : ConnInfo) : Except Err (List UInt8) :=
  if ci.regions.length > maxRegions then .error .toomany
  else do
    let cbor ← encodeInfo addrCborMax ci []
    let need := addrTag.length + Base64Url.encodedLen cbor.length
    if cap < need + 1 then .error .nospace
    else do
      let b64 ← Base64Url.encode (cap - addrTag.length) cbor
      .ok (addrTag ++ b64)

end Writer

/-! ## What it writes -/

def entry (p : Prop) [Decidable p] (k : Char) (value : List UInt8) : List UInt8 :=
  if p then text [keyByte k] ++ value else []

def Node.writtenName (n : Node) : List UInt8 := if n.hostname ≠ [] then [] else n.name

def node (n : Node) : List UInt8 :=
  head 5 (nodePairCount n n.writtenName) ++
    (entry (n.writtenName ≠ []) 'n' (text n.writtenName) ++
    (entry (n.hostname ≠ []) 'h' (text n.hostname) ++
    (entry (n.certName ≠ []) 't' (text n.certName) ++
    (entry (n.ipv4 ≠ []) '4' (text n.ipv4) ++
    (entry (n.ipv6 ≠ []) '6' (text n.ipv6) ++
    (entry (n.stunPort ≠ 0) 's' (int n.stunPort.toInt64) ++
    (entry (n.derpPort ≠ 0) 'd' (int n.derpPort.toInt64) ++
    entry n.insecureForTests 'x' (bool true))))))))

def region (reg : Region) : List UInt8 :=
  head 5 (pair (reg.nodes ≠ [])) ++
    entry (reg.nodes ≠ []) 'N' (head 4 reg.nodes.length ++ reg.nodes.flatMap node)

def info (ci : ConnInfo) : List UInt8 :=
  head 5 (1 + pair ci.serverDiscoPublic.isSome + pair ci.presharedKey.isSome +
      pair (ci.regions ≠ []) + pair (ci.regionId ≠ 0)) ++
    (entry True 'p' (bytes ci.serverPublic.toList) ++
    (entry ci.serverDiscoPublic.isSome 'k'
      (bytes (ci.serverDiscoPublic.getD (Vector.replicate 32 0)).toList) ++
    (entry ci.presharedKey.isSome 'q'
      (bytes (ci.presharedKey.getD (Vector.replicate 32 0)).toList) ++
    (entry (ci.regions ≠ []) 'r' (head 4 ci.regions.length ++ ci.regions.flatMap region) ++
    entry (ci.regionId ≠ 0) 'i' (int ci.regionId)))))

section

variable {cap : ℕ}

lemma puts_writeField {p : Prop} [Decidable p] (k : Char)
    {f : List UInt8 → Except Err (List UInt8)} {value : List UInt8}
    (h : Puts Err.nospace cap f value) :
    Puts Err.nospace cap (writeField cap p k f) (entry p k value) :=
  Puts.ite fun _ => (puts_writeText _).bind h

lemma puts_encodeNode (n : Node) : Puts Err.nospace cap (encodeNode cap n) (node n) :=
  (puts_writeHead _ _).bind <|
    (puts_writeField 'n' (puts_writeText _)).bind <|
    (puts_writeField 'h' (puts_writeText _)).bind <|
    (puts_writeField 't' (puts_writeText _)).bind <|
    (puts_writeField '4' (puts_writeText _)).bind <|
    (puts_writeField '6' (puts_writeText _)).bind <|
    (puts_writeField 's' (puts_writeInt _)).bind <|
    (puts_writeField 'd' (puts_writeInt _)).bind <|
    puts_writeField 'x' (puts_writeBool _)

lemma puts_encodeRegion (reg : Region) :
    Puts Err.nospace cap (encodeRegion cap reg) (region reg) :=
  (puts_writeHead _ _).bind <|
    puts_writeField 'N' ((puts_writeHead _ _).bind (Puts.foldlM puts_encodeNode _))

lemma puts_encodeInfo (ci : ConnInfo) : Puts Err.nospace cap (encodeInfo cap ci) (info ci) :=
  (puts_writeHead _ _).bind <|
    (puts_writeField 'p' (puts_writeBytes _)).bind <|
    (puts_writeField 'k' (puts_writeBytes _)).bind <|
    (puts_writeField 'q' (puts_writeBytes _)).bind <|
    (puts_writeField 'r' ((puts_writeHead _ _).bind (Puts.foldlM puts_encodeRegion _))).bind <|
    puts_writeField 'i' (puts_writeInt _)

/-- An address is written where it fits, and then it is the text of `info ci`. -/
theorem encode_eq_ok_iff {ci : ConnInfo} {out : List UInt8} :
    encode cap ci = .ok out ↔
      ci.regions.length ≤ maxRegions ∧ (info ci).length ≤ addrCborMax ∧
        2 + Base64Url.encodedLen (info ci).length < cap ∧
        out = addrTag ++ Base64Url.encodeLoop (info ci) := by
  unfold encode
  rw [puts_encodeInfo ci [] (Nat.zero_le _), put, List.nil_append, List.length_nil, Nat.sub_zero]
  by_cases hcount : ci.regions.length > maxRegions
  · rw [if_pos hcount]
    exact ⟨(fun h => by cases h), fun h => absurd h.1 (by omega)⟩
  rw [if_neg hcount]
  by_cases hlen : (info ci).length > addrCborMax
  · rw [if_pos hlen]
    exact ⟨(fun h => by cases h), fun h => absurd h.2.1 (by omega)⟩
  rw [if_neg hlen]
  change (if cap < 2 + Base64Url.encodedLen (info ci).length + 1 then _ else _) = _ ↔ _
  split_ifs
  · exact ⟨(fun h => by cases h), fun h => absurd h.2.2.1 (by omega)⟩
  -- the second check of the room, in the base64url encoder, says the same
  have hroom : ¬ cap - addrTag.length < Base64Url.encodedLen (info ci).length + 1 := by
    change ¬ cap - 2 < _
    omega
  rw [Base64Url.encode, if_neg hroom]
  constructor
  · intro h
    cases h
    exact ⟨by omega, by omega, by omega, rfl⟩
  · rintro ⟨-, -, -, rfl⟩
    rfl

end

end Addr
