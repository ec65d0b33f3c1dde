import Tailcat.Addr.Encode
import Tailcat.Library.Decimal

/-!
# Reading addresses

The parser of `src/addr.c`. The three maps of an address (the whole, a region, a node) are read by one
loop over their pairs; unknown keys are skipped, and what the encoder drops is restored.

## Main results

* `fields_entry`: the loop reads a field that the encoder writes, and nothing where it writes none.
-/

namespace Addr

open Appending Cbor
open List hiding head

/-! ## The parser -/

/-- `read_key`: the key, or NUL where it is not one character. -/
def readKey (buf : List UInt8) : Except Err (Char × List UInt8) := do
  match ← read buf with
  | (.text data, buf) =>
    .ok (if data.length = 1 then Char.ofNat (data.getD 0 0).toNat else Char.ofNat 0, buf)
  | _ => .error .inval

def expectMap (buf : List UInt8) : Except Err (ℕ × List UInt8) := do
  match ← read buf with
  | (.map n, buf) => .ok (n, buf)
  | _ => .error .inval

def readPort (buf : List UInt8) : Except Err (Int32 × List UInt8) := do
  let (v, buf) ← readInt buf
  if v < -1 ∨ v > 65535 then .error .range else .ok (v.toInt32, buf)

abbrev Reader (α : Type) : Type := List UInt8 → Except Err (α × List UInt8)

variable {α σ : Type} {k : Char} {p : Prop} {pairs : ℕ}

/-- The loop over the pairs of a map, where `field` reads the value of a key. -/
def fields (field : Char → σ → Reader σ) : ℕ → σ → Reader σ
  | 0, x, buf => .ok (x, buf)
  | pairs + 1, x, buf => do
    let (k, buf) ← readKey buf
    let (x, buf) ← field k x buf
    fields field pairs x buf

def parseMap (field : Char → σ → Reader σ) (x : σ) (buf : List UInt8) :
    Except Err (σ × List UInt8) := do
  let (pairs, buf) ← expectMap buf
  fields field pairs x buf

/-- The loop over the elements of an array. -/
def items (parse : Reader α) : ℕ → Reader (List α)
  | 0, buf => .ok ([], buf)
  | n + 1, buf => do
    let (a, buf) ← parse buf
    let (l, buf) ← items parse n buf
    .ok (a :: l, buf)

/-- An array of at most `max` elements. -/
def parseArray (max : ℕ) (parse : Reader α) (buf : List UInt8) :
    Except Err (List α × List UInt8) := do
  match ← read buf with
  | (.array n, buf) => if n > max then .error .toomany else items parse n buf
  | _ => .error .inval

def into (set : α → σ) (parse : Reader α) (buf : List UInt8) : Except Err (σ × List UInt8) := do
  let (a, buf) ← parse buf
  .ok (set a, buf)

def skipped (x : σ) (buf : List UInt8) : Except Err (σ × List UInt8) := do
  let buf ← skip buf
  .ok (x, buf)

/-- The `switch` of `parse_node`. -/
def nodeField (k : Char) (n : Node) : Reader Node :=
  match k with
  | 'n' => into (fun s => { n with name := s }) (readText dnsNameMax)
  | 'i' => into (fun v => { n with regionId := v }) readInt
  | 'h' => into (fun s => { n with hostname := s }) (readText dnsNameMax)
  | 't' => into (fun s => { n with certName := s }) (readText dnsNameMax)
  | '4' => into (fun s => { n with ipv4 := s }) (readText ipStrMax)
  | '6' => into (fun s => { n with ipv6 := s }) (readText ipStrMax)
  | 's' => into (fun v => { n with stunPort := v }) readPort
  | 'd' => into (fun v => { n with derpPort := v }) readPort
  | 'x' => into (fun v => { n with insecureForTests := v }) readBool
  | _ => skipped n

def parseNode : Reader Node := parseMap nodeField Node.zero

/-- The `switch` of `parse_region`. -/
def regionField (k : Char) (reg : Region) : Reader Region :=
  match k with
  | 'i' => into (fun v => { reg with regionId := v }) readInt
  | 'c' => into (fun s => { reg with regionCode := s }) (readText regionCodeMax)
  | 'm' => into (fun s => { reg with regionName := s }) (readText regionNameMax)
  | 'N' => into (fun l => { reg with nodes := l }) (parseArray maxNodes parseNode)
  | _ => skipped reg

def parseRegion : Reader Region := parseMap regionField Region.zero

/-- The `switch` of `parse_into`; the truth value is `saw_server_public`. -/
def infoField (k : Char) (x : ConnInfo × Bool) : Reader (ConnInfo × Bool) :=
  match k with
  | 'p' => into (fun v => ({ x.1 with serverPublic := v }, true)) (readBytesExact 32)
  | 'k' => into (fun v => ({ x.1 with serverDiscoPublic := some v }, x.2)) (readBytesExact 32)
  | 'q' => into (fun v => ({ x.1 with presharedKey := some v }, x.2)) (readBytesExact 32)
  | 'i' => into (fun v => ({ x.1 with regionId := v }, x.2)) readInt
  | 'r' => into (fun l => ({ x.1 with regions := l }, x.2)) (parseArray maxRegions parseRegion)
  | _ => skipped x

/-- The inner loop of `restore_elided`. -/
def restoreNode (regionId : Int64) (n : Node) : Node :=
  { n with
    name := if n.name = [] then n.hostname else n.name
    regionId := if n.regionId = 0 then regionId else n.regionId }

/-- The outer loop of `restore_elided`. -/
def restoreRegion (ri : ℕ) (reg : Region) : Region :=
  let regionId := if reg.regionId = 0 then Int64.ofNat ri + 1 else reg.regionId
  { reg with
    regionId := regionId
    regionCode := if reg.regionCode = [] then Decimal.ofInt regionId.toInt else reg.regionCode
    nodes := reg.nodes.map (restoreNode regionId) }

def restoreElided (ci : ConnInfo) : ConnInfo :=
  { ci with regions := ci.regions.mapIdx restoreRegion }

def parseInto (restore : Bool) (addr : List UInt8) : Except Err ConnInfo :=
  if addr.length < addrTag.length ∨ addr.take addrTag.length ≠ addrTag then .error .inval
  else
    let b64 := addr.drop addrTag.length
    if Base64Url.decodedMax b64.length > addrCborMax then .error .toomany
    else do
      let cbor ← Base64Url.decode addrCborMax b64
      let ((ci, sawServerPublic), rest) ← parseMap infoField (ConnInfo.zero, false) cbor
      if ¬ sawServerPublic then .error .inval
      -- trailing bytes
      else if rest.length ≠ 0 then .error .inval
      else .ok (if restore then restoreElided ci else ci)

def parse : List UInt8 → Except Err ConnInfo := parseInto true

def parseRaw : List UInt8 → Except Err ConnInfo := parseInto false

/-! ## Reading fields back -/

lemma readKey_key (hk : k.toNat < 0x80) (rest : List UInt8) :
    readKey (text [keyByte k] ++ rest) = .ok (k, rest) := by
  have hbyte : (keyByte k).toNat = k.toNat := by
    change (UInt8.ofNat k.toNat).toNat = _
    rw [UInt8.toNat_ofNat']
    omega
  have hvalid : Utf8.valid [keyByte k] = true := by
    apply Utf8.valid_of_ascii
    intro b hb
    rw [mem_singleton.mp hb, hbyte]
    exact hk
  have hback : Char.ofNat (keyByte k).toNat = k := by rw [hbyte, Char.ofNat_toNat]
  rw [readKey, read_text hvalid (by simp)]
  change Except.ok (Char.ofNat (keyByte k).toNat, rest) = _
  rw [hback]

variable {field : Char → σ → Reader σ} {x x' : σ}

variable {β : Type} {parse : Reader α} {write : β → List UInt8} {l : List β}

/-- A field that is written is read, and one that is not changes nothing. -/
theorem fields_entry [Decidable p] {value : List UInt8} (set : α → σ) (a : α)
    (hread : p → ∀ rest, parse (value ++ rest) = .ok (a, rest)) (hskip : ¬ p → set a = x)
    (rest : List UInt8) (hk : k.toNat < 0x80 := by decide)
    (hfield : field k x = into set parse := by rfl) :
    fields field (pair p + pairs) x (entry p k value ++ rest) = fields field pairs (set a) rest := by
  unfold pair entry
  split_ifs with hp
  · rw [Nat.add_comm, fields, append_assoc, readKey_key hk]
    change (field k x (value ++ rest) >>= _) = _
    rw [hfield, into, hread hp rest]
    rfl
  · rw [Nat.zero_add, nil_append, hskip hp]

/-- A field that is written unless it has the value that it starts with. -/
theorem fields_entry_ne {a d : α} [Decidable (a ≠ d)] {value : List UInt8} (set : α → σ)
    (hread : ∀ rest, parse (value ++ rest) = .ok (a, rest)) (rest : List UInt8)
    (hk : k.toNat < 0x80 := by decide) (hfield : field k x = into set parse := by rfl)
    (hskip : set d = x := by rfl) :
    fields field (pair (a ≠ d) + pairs) x (entry (a ≠ d) k value ++ rest) =
      fields field pairs (set a) rest :=
  fields_entry set a (fun _ => hread) (fun h => by rw [not_not.mp h, hskip]) rest hk hfield

lemma pair_le_one (p : Prop) [Decidable p] : pair p ≤ 1 := by
  unfold pair
  split_ifs <;> decide

lemma two_mul_pair_le [Decidable p] (k : Char) (value : List UInt8) :
    2 * pair p ≤ (entry p k value).length := by
  unfold pair entry
  split_ifs
  · simp only [text, head]
    split_ifs <;> simp <;> omega
  · simp

lemma two_mul_pair_append_le [Decidable p] {value body : List UInt8}
    (h : 2 * pairs ≤ body.length) : 2 * (pair p + pairs) ≤ (entry p k value ++ body).length := by
  rw [Nat.mul_add, length_append]
  exact Nat.add_le_add (two_mul_pair_le k value) h

lemma parseMap_map {body rest : List UInt8} (hlen : 2 * pairs ≤ body.length)
    (h64 : pairs < 2 ^ 64) (h : fields field pairs x (body ++ rest) = .ok (x', rest)) :
    parseMap field x (head 5 pairs ++ body ++ rest) = .ok (x', rest) := by
  have hroom : 2 * pairs ≤ (body ++ rest).length := by
    rw [length_append]
    omega
  rw [parseMap, expectMap, append_assoc, read_map hroom h64]
  exact h

/-- Elements are read back one after the other. -/
theorem items_flatMap {back : β → α}
    (h : ∀ b ∈ l, ∀ rest, parse (write b ++ rest) = .ok (back b, rest))
    (rest : List UInt8) :
    items parse l.length (l.flatMap write ++ rest) = .ok (l.map back, rest) := by
  induction l with
  | nil => rfl
  | cons b l ih =>
    have hrest := ih fun c hc => h c (mem_cons_of_mem b hc)
    rw [length_cons, items, flatMap_cons, append_assoc, h b mem_cons_self]
    change (items parse l.length (l.flatMap write ++ rest) >>= _) = _
    rw [hrest]
    rfl

lemma length_le_flatMap (h : ∀ b ∈ l, 0 < (write b).length) : l.length ≤
    (l.flatMap write).length := by
  induction l with
  | nil => exact Nat.zero_le _
  | cons b l ih =>
    have hb := h b mem_cons_self
    have hl := ih fun c hc => h c (mem_cons_of_mem b hc)
    rw [flatMap_cons, length_append, length_cons]
    omega

lemma parseArray_array {max : ℕ} {back : β → α} (hmax : l.length ≤ max) (h64 : l.length < 2 ^ 64)
    (hpos : ∀ b ∈ l, 0 < (write b).length)
    (h : ∀ b ∈ l, ∀ rest, parse (write b ++ rest) = .ok (back b, rest)) (rest : List UInt8) :
    parseArray max parse (head 4 l.length ++ l.flatMap write ++ rest) = .ok (l.map back, rest) := by
  have hroom := length_le_flatMap hpos
  have hlen : l.length ≤ (l.flatMap write ++ rest).length := by
    rw [length_append]
    omega
  rw [parseArray, append_assoc, read_array hlen h64]
  change (if l.length > max then _ else items parse l.length _) = _
  rw [if_neg (by omega), items_flatMap h]

end Addr
