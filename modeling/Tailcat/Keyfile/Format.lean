import Tailcat.Addr.Info
import Tailcat.Basic
import Tailcat.Library.Appending
import Tailcat.Library.Decimal

/-!
# Writing key files

`tc_keyfile_format` of `src/keyfile.c`: a saved identity is printed into a buffer, piece by piece and
with the strings of the nodes as they are.

## Main results

* `format`: `tc_keyfile_format`;
* `format_eq`: what is printed if the buffer is large enough.
-/

open Addr Appending List

structure Keyfile where
  privateKey : Key
  hasPrivate : Bool
  pub : ConnInfo

namespace Keyfile

def kHex : List UInt8 := ascii "0123456789abcdef"

def hexByte (b : UInt8) : List UInt8 :=
  [kHex.getD (b >>> 4).toNat 0, kHex.getD (b &&& 0x0f).toNat 0]

def keyFormatHex (cap : ℕ) (label : List UInt8) (key : Key) : Except Err (List UInt8) :=
  if cap < label.length + 1 + 64 + 1 then .error .nospace
  else .ok (label ++ 0x3a :: key.toList.flatMap hexByte)

/-- A key in one of the buffers of `tc_keyfile_format`. -/
def keyText (label : String) (key : Key) : Except Err (List UInt8) :=
  match keyFormatHex 96 (ascii label) key with
  | .error _ => .error .inval
  | .ok text => .ok text

/-- `snprintf` at the end of what has been printed. -/
def put (cap : ℕ) (s out : List UInt8) : Except Err (List UInt8) :=
  if s.length ≥ cap - out.length then .error .nospace else .ok (out ++ s)

def putIf (c : Prop) [Decidable c] (cap : ℕ) (s out : List UInt8) : Except Err (List UInt8) :=
  if c then put cap s out else .ok out

def formatNode (cap : ℕ) (out : List UInt8) (x : Node × ℕ) : Except Err (List UInt8) := do
  let (node, ni) := x
  let out ← put cap ((if ni = 0 then [] else ascii ",") ++
    (ascii "\n\t\t\t\t\t\x7b\n\t\t\t\t\t\t\"HostName\": \"" ++ (node.hostname ++ ascii "\""))) out
  let out ← putIf (node.ipv4 ≠ []) cap
    (ascii ",\n\t\t\t\t\t\t\"IPv4\": \"" ++ (node.ipv4 ++ ascii "\"")) out
  let out ← putIf (node.ipv6 ≠ []) cap
    (ascii ",\n\t\t\t\t\t\t\"IPv6\": \"" ++ (node.ipv6 ++ ascii "\"")) out
  put cap (ascii "\n\t\t\t\t\t\x7d") out

def formatRegion (cap : ℕ) (out : List UInt8) (x : Region × ℕ) : Except Err (List UInt8) := do
  let (reg, ri) := x
  let out ← put cap ((if ri = 0 then ascii ",\n\t\t\"Region\": [" else ascii ",") ++
    ascii "\n\t\t\t\x7b") out
  let out ← putIf (reg.regionId ≠ 0) cap
    (ascii "\n\t\t\t\t\"RegionID\": " ++ (Decimal.ofInt reg.regionId.toInt ++ ascii ",")) out
  let out ← put cap (ascii "\n\t\t\t\t\"Nodes\": [") out
  let out ← reg.nodes.zipIdx.foldlM (formatNode cap) out
  put cap (ascii "\n\t\t\t\t]\n\t\t\t\x7d") out

/-- What is printed for an optional key. -/
def formatKey (cap : ℕ) (before label : String) (key : Option Key) (out : List UInt8) :
    Except Err (List UInt8) :=
  match key with
  | none => .ok out
  | some key => do
    let text ← keyText label key
    put cap (ascii before ++ (text ++ ascii "\"")) out

/-- `tc_keyfile_format`, into a buffer of `cap` bytes. -/
def format (cap : ℕ) (k : Keyfile) : Except Err (List UInt8) := do
  let priv ← keyText "privkey" k.privateKey
  let pub ← keyText "nodekey" k.pub.serverPublic
  let out ← put cap (ascii "\x7b\n\t\"Private\": \"" ++ (priv ++
    (ascii "\",\n\t\"Public\": \x7b\n\t\t\"ServerPublic\": \"" ++ (pub ++ ascii "\"")))) []
  let out ← formatKey cap ",\n\t\t\"ServerDiscoPublic\": \"" "discokey" k.pub.serverDiscoPublic out
  let out ← formatKey cap ",\n\t\t\"PresharedKey\": \"" "psk" k.pub.presharedKey out
  let out ← putIf (k.pub.regionId ≠ 0) cap
    (ascii ",\n\t\t\"RegionID\": " ++ Decimal.ofInt k.pub.regionId.toInt) out
  let out ← k.pub.regions.zipIdx.foldlM (formatRegion cap) out
  let out ← putIf (k.pub.regions.length > 0) cap (ascii "\n\t\t]") out
  put cap (ascii "\n\t\x7d\n\x7d\n") out

/-! ## What is printed -/

def labelled (label : String) (key : Key) : List UInt8 :=
  ascii label ++ 0x3a :: key.toList.flatMap hexByte

/-- The text of a node, behind the comma. -/
def nodeText (node : Node) : List UInt8 :=
  (ascii "\n\t\t\t\t\t\x7b\n\t\t\t\t\t\t\"HostName\": \"" ++ (node.hostname ++ ascii "\"")) ++
    ((if node.ipv4 ≠ [] then ascii ",\n\t\t\t\t\t\t\"IPv4\": \"" ++ (node.ipv4 ++ ascii "\"") else []) ++
      ((if node.ipv6 ≠ [] then ascii ",\n\t\t\t\t\t\t\"IPv6\": \"" ++ (node.ipv6 ++ ascii "\"")
        else []) ++ ascii "\n\t\t\t\t\t\x7d"))

/-- Texts with one text before the first of them and another before each of the others. -/
def separated {α : Type} (first sep : List UInt8) (text : α → List UInt8) (l : List α) :
    List UInt8 :=
  l.zipIdx.flatMap fun x => (if x.2 = 0 then first else sep) ++ text x.1

/-- The text of a region, behind the comma. -/
def regionText (reg : Region) : List UInt8 :=
  ascii "\n\t\t\t\x7b" ++ ((if reg.regionId ≠ 0 then ascii "\n\t\t\t\t\"RegionID\": " ++
      (Decimal.ofInt reg.regionId.toInt ++ ascii ",") else []) ++
    (ascii "\n\t\t\t\t\"Nodes\": [" ++ (separated [] (ascii ",") nodeText reg.nodes ++
      ascii "\n\t\t\t\t]\n\t\t\t\x7d")))

def keyMember (before label : String) (key : Option Key) : List UInt8 :=
  match key with
  | none => []
  | some key => ascii before ++ (labelled label key ++ ascii "\"")

/-- What stands behind the public key. -/
def restText (pub : ConnInfo) : List UInt8 :=
  keyMember ",\n\t\t\"ServerDiscoPublic\": \"" "discokey" pub.serverDiscoPublic ++
    (keyMember ",\n\t\t\"PresharedKey\": \"" "psk" pub.presharedKey ++
      ((if pub.regionId ≠ 0 then ascii ",\n\t\t\"RegionID\": " ++ Decimal.ofInt pub.regionId.toInt
          else []) ++
        (separated (ascii ",\n\t\t\"Region\": [") (ascii ",") regionText pub.regions ++
          ((if pub.regions.length > 0 then ascii "\n\t\t]" else []) ++ ascii "\n\t\x7d\n\x7d\n"))))

def headText (k : Keyfile) : List UInt8 :=
  ascii "\x7b\n\t\"Private\": \"" ++ (labelled "privkey" k.privateKey ++
    (ascii "\",\n\t\"Public\": \x7b\n\t\t\"ServerPublic\": \"" ++
      (labelled "nodekey" k.pub.serverPublic ++ ascii "\"")))

def text (k : Keyfile) : List UInt8 :=
  headText k ++ restText k.pub

lemma length_labelled (label : String) (key : Key) :
    (labelled label key).length = (ascii label).length + 65 := by
  have hbytes : (key.toList.flatMap hexByte).length = 64 := by
    simp [hexByte]
  rw [labelled, length_append, length_cons, hbytes]

lemma keyText_eq {label : String} (h : (ascii label).length ≤ 30) (key : Key) :
    keyText label key = .ok (labelled label key) := by
  rw [keyText, keyFormatHex, if_neg (by omega)]
  rfl

lemma put_appends (cap : ℕ) (s : List UInt8) : Appends (put cap s) s := by
  intro out out' h
  unfold put at h
  split_ifs at h
  cases h
  rfl

lemma putIf_appends (c : Prop) [Decidable c] (cap : ℕ) (s : List UInt8) :
    Appends (putIf c cap s) (if c then s else []) := by
  unfold putIf
  split_ifs
  · exact put_appends cap _
  · exact .nothing

lemma formatNode_appends (cap : ℕ) (x : Node × ℕ) :
    Appends (fun out => formatNode cap out x)
      ((if x.2 = 0 then [] else ascii ",") ++ nodeText x.1) := by
  obtain ⟨node, ni⟩ := x
  rw [nodeText, ← append_assoc]
  exact (put_appends cap _).bind ((putIf_appends _ cap _).bind ((putIf_appends _ cap _).bind
    (put_appends cap _)))

lemma separated_appends {α : Type} {step : List UInt8 → α × ℕ → Except Err (List UInt8)}
    {first sep : List UInt8} {text : α → List UInt8}
    (h : ∀ x, Appends (fun out => step out x) ((if x.2 = 0 then first else sep) ++ text x.1))
    (l : List α) :
    Appends (fun out => l.zipIdx.foldlM step out) (separated first sep text l) :=
  Appends.foldlM fun x _ => h x

lemma separated_nil {α : Type} (first sep : List UInt8) (text : α → List UInt8) :
    separated first sep text [] = [] := rfl

lemma separated_cons {α : Type} (first sep : List UInt8) (text : α → List UInt8) (a : α)
    (l : List α) :
    separated first sep text (a :: l) = first ++ (text a ++ l.flatMap fun b => sep ++ text b) := by
  have hrest : ∀ (n : ℕ), (l.zipIdx (n + 1)).flatMap (fun x => (if x.2 = 0 then first else sep) ++
      text x.1) = l.flatMap fun b => sep ++ text b := by
    induction l with
    | nil => exact fun _ => rfl
    | cons b l ih =>
      intro n
      rw [zipIdx_cons, flatMap_cons, ih]
      rfl
  rw [separated, zipIdx_cons, flatMap_cons, hrest, append_assoc]
  rfl

lemma formatRegion_appends (cap : ℕ) (x : Region × ℕ) :
    Appends (fun out => formatRegion cap out x)
      ((if x.2 = 0 then ascii ",\n\t\t\"Region\": [" else ascii ",") ++ regionText x.1) := by
  obtain ⟨reg, ri⟩ := x
  dsimp only
  rw [regionText, ← append_assoc]
  exact (put_appends cap _).bind ((putIf_appends _ cap _).bind ((put_appends cap _).bind
    ((separated_appends (formatNode_appends cap) reg.nodes).bind (put_appends cap _))))

lemma formatKey_appends (cap : ℕ) (before : String) {label : String}
    (hlabel : (ascii label).length ≤ 30) (key : Option Key) :
    Appends (formatKey cap before label key) (keyMember before label key) := by
  cases key with
  | none => exact .nothing
  | some key =>
    intro out out' h
    rw [formatKey, keyText_eq hlabel] at h
    exact put_appends cap _ out out' h

/-- If the buffer is large enough, the text of the key file is printed. -/
theorem format_eq {cap : ℕ} {k : Keyfile} {out : List UInt8} (h : format cap k = .ok out) :
    out = text k := by
  have happends : Appends _ (text k) :=
    (put_appends cap _).bind ((formatKey_appends cap _ (by decide) _).bind
      ((formatKey_appends cap _ (by decide) _).bind ((putIf_appends _ cap _).bind
        ((separated_appends (formatRegion_appends cap) k.pub.regions).bind
          ((putIf_appends _ cap _).bind (put_appends cap _))))))
  unfold format at h
  exact happends [] out h

end Keyfile
