import Tailcat.Ssh.Conn

/-!
# The packet layer, byte by byte

`src/ssh/packet.c`. A packet is a length, a region (the length of the padding, the payload and the
padding) and, once there is a key, a tag. The stream cipher and the tag are parameters.
`read_version_line` is the same in `src/ssh/server.c` and `src/ssh/client.c`, and so is the part of
`recv_packet` that reads the bytes of one packet.

## Main results

* `decodeAll_encodeAll`: what was encoded is decoded under the same key and sequence number;
* `wp_readPacket_arrivalOf`: the packets of `Conn.readPacket` are those that are decoded here;
* `packets_accepted_exactly`: under a key nothing else is decoded, if it is not forged.

A sequence number has 32 bits in the source, and any value here: by `packetDecode_congr` only its low
32 bits matter.
-/

namespace Ssh

open Fields ByteOrder

/-- `TC_SSH_VERSION_MAX`. -/
def versionMax : ℕ := 255
/-- `TC_SSH_LENGTH_LEN`. -/
def lengthLen : ℕ := 4
/-- `TC_SSH_MAC_LEN`. -/
def macLen : ℕ := 16

/-! ## Version lines -/

/-- `tc_ssh_version_build`, for an array of `cap` bytes. -/
def versionBuild (cap : ℕ) (software : List UInt8) : Except Err (List UInt8) :=
  if software.any fun c => c < 0x21 || c > 0x7e || c = 0x2d then .error .inval
  else
    let line := ascii "SSH-2.0-" ++ software ++ [0x0d, 0x0a]
    if line.length ≥ cap then .error .nospace
    else if line.length > versionMax then .error .nospace
    else .ok line

def versionCheck (line : List UInt8) : Except Err Unit :=
  if line.length > versionMax then .error .inval
  else if line.getLast? = some 0x0d || line.getLast? = some 0x0a then .error .inval
  else
    let v2 := (ascii "SSH-2.0-").isPrefixOf line
    let v199 := (ascii "SSH-1.99-").isPrefixOf line
    if !v2 && !v199 then .error .inval
    else if line.length = if v2 then 8 else 9 then .error .inval
    else if line.any fun c => c < 0x20 || c > 0x7e then .error .inval
    else .ok ()

/-- The inner loop of `read_version_line`: the line that was read so far, and the rest of the stream.
At the end of the stream reading fails with `ends`. -/
def readLine (ends : Err) (cap : ℕ) (line : List UInt8) :
    List UInt8 → Except Err (List UInt8 × List UInt8)
  | [] => .error ends
  | ch :: rest =>
    if ch = 0x0a then .ok (line, rest)
    else if line.length + 1 ≥ cap then .error .toomany
    else readLine ends cap (line ++ [ch]) rest

/-- The end of line is `\r\n`. -/
def stripCr (line : List UInt8) : List UInt8 :=
  if line.getLast? = some 0x0d then line.dropLast else line

/-- `read_version_line`, for an array of `cap` bytes, with the number of lines that it still reads: the
version, and the rest of the stream. -/
def readVersionLine (ends : Err) (cap : ℕ) : ℕ → List UInt8 → Except Err (List UInt8 × List UInt8)
  | 0, _ => .error .toomany
  | lines + 1, input =>
    match readLine ends cap [] input with
    | .error e => .error e
    | .ok (line, rest) =>
      if (ascii "SSH-").isPrefixOf (stripCr line) then .ok (stripCr line, rest)
      else readVersionLine ends cap lines rest

/-! ## The cipher -/

/-- The primitives of the packet layer. -/
structure PacketSuite where
  /-- The bytes of the key stream of ChaCha20: the key, the nonce, the number of the first block and the
  index. -/
  chacha20 : Bytes32 → Vector UInt8 12 → ℕ → ℕ → UInt8
  /-- Poly1305: the key and the message. -/
  poly1305 : Bytes32 → List UInt8 → Vector UInt8 16

def seqNonce (seq : ℕ) : Vector UInt8 12 :=
  bytesAt 12 (List.replicate 8 0 ++ writeBE32 (.ofNat seq)) 0

/-- The half of the key that is for the payload and the tag: it comes first. -/
def CipherKey.k2 (key : CipherKey) : Bytes32 := bytesAt 32 key.toList 0
/-- The half of the key that is for the length. -/
def CipherKey.k1 (key : CipherKey) : Bytes32 := bytesAt 32 key.toList 32

namespace PacketSuite

variable (P : PacketSuite)

def crypt (key : Bytes32) (seq counter : ℕ) (data : List UInt8) : List UInt8 :=
  data.mapIdx fun i b => b ^^^ P.chacha20 key (seqNonce seq) counter i

def polyKey (key : CipherKey) (seq : ℕ) : Bytes32 :=
  bytesAt 32 (P.crypt key.k2 seq 0 (List.replicate 32 0)) 0

def xorLength (key : CipherKey) (seq : ℕ) (hdr : List UInt8) : List UInt8 := P.crypt key.k1 seq 0 hdr

def xorPayload (key : CipherKey) (seq : ℕ) (region : List UInt8) : List UInt8 :=
  P.crypt key.k2 seq 1 region

def tag (key : CipherKey) (seq : ℕ) (sealed : List UInt8) : List UInt8 :=
  (P.poly1305 (P.polyKey key seq) sealed).toList

end PacketSuite

/-! ## Packets -/

def regionOf (payload padding : List UInt8) : List UInt8 := .ofNat padding.length :: payload ++ padding

/-- The bytes that a region becomes under a cipher. -/
def sealRegion (P : PacketSuite) (c : Cipher) (region : List UInt8) : List UInt8 :=
  let hdr := writeBE32 (.ofNat region.length)
  match c.key with
  | none => hdr ++ region
  | some key =>
    let sealed := P.xorLength key c.seq hdr ++ P.xorPayload key c.seq region
    sealed ++ P.tag key c.seq sealed

/-- `tc_ssh_packet_encode`, with the random bytes that it asks for: the packet. If there is one, the
cipher goes on to the next sequence number. -/
def packetEncode (P : PacketSuite) (c : Cipher) (random : ℕ → Except Err (List UInt8))
    (payload : List UInt8) : Cipher × Except Err (List UInt8) :=
  if payload.length > maxPayload then (c, .error .toomany)
  else
    match random (paddingFor payload.length c.key.isSome) with
    | .error e => (c, .error e)
    | .ok padding =>
      ({ c with seq := c.seq + 1 }, .ok (sealRegion P c (regionOf payload padding)))

/-- `tc_ssh_packet_decode_length`: the length of the whole packet. -/
def packetDecodeLength (P : PacketSuite) (c : Cipher) (hdr : List UInt8) : Except Err ℕ :=
  let plain := match c.key with
    | none => hdr
    | some key => P.xorLength key c.seq hdr
  let region := (readBE32 plain 0).toNat
  match Conn.regionLength c.key.isSome region with
  | .error e => .error e
  | .ok () => .ok (lengthLen + region + if c.key.isSome then macLen else 0)

/-- The part of `tc_ssh_packet_decode` that checks the tag and decrypts: the region. -/
def openRegion (P : PacketSuite) (c : Cipher) (packet : List UInt8) : Except Err (List UInt8) :=
  match packetDecodeLength P c (packet.take lengthLen) with
  | .error e => .error e
  | .ok want =>
    if packet.length ≠ want then .error .inval
    else
      match c.key with
      | none => .ok (packet.drop lengthLen)
      | some key =>
        let sealed := packet.take (packet.length - macLen)
        if P.tag key c.seq sealed ≠ packet.drop (packet.length - macLen) then .error .inval
        else .ok (P.xorPayload key c.seq (sealed.drop lengthLen))

/-- `tc_ssh_packet_decode`: the payload. If there is one, the cipher goes on to the next sequence
number. -/
def packetDecode (P : PacketSuite) (c : Cipher) (packet : List UInt8) :
    Cipher × Except Err (List UInt8) :=
  match openRegion P c packet with
  | .error e => (c, .error e)
  | .ok region =>
    let pad := (region.getD 0 0).toNat
    if pad < minPadding || pad + 1 > region.length then (c, .error .inval)
    else ({ c with seq := c.seq + 1 }, .ok (slice region 1 (region.length - 1 - pad)))

variable {encrypted : Bool} {payload hdr region packet : List UInt8} {n : ℕ} {key : CipherKey}
  {c' : Cipher} {sent : List Padded} {e : Err}

section

variable (P : PacketSuite) {padding : List UInt8} {c : Cipher}

/-! ## Round trip -/

lemma PacketSuite.crypt_crypt (key : Bytes32) (seq counter : ℕ)
    (data : List UInt8) : P.crypt key seq counter (P.crypt key seq counter data) = data := by
  apply List.ext_getElem
  · simp [crypt]
  · intro i _ _
    simp only [crypt, List.getElem_mapIdx, UInt8.xor_assoc, UInt8.xor_self, UInt8.xor_zero]

@[simp]
lemma PacketSuite.length_crypt (key : Bytes32) (seq counter : ℕ)
    (data : List UInt8) : (P.crypt key seq counter data).length = data.length := by
  simp [crypt]

lemma paddingFor_bounds (n : ℕ) (encrypted : Bool) :
    minPadding ≤ paddingFor n encrypted ∧ paddingFor n encrypted ≤ 11 := by
  simp only [paddingFor, minPadding, block]
  generalize (if encrypted = true then 1 + n else 4 + 1 + n) = base
  by_cases h : 8 - base % 8 < 4 <;> simp only [h, if_true, if_false] <;> omega

lemma length_regionOf (payload padding : List UInt8) :
    (regionOf payload padding).length = 1 + payload.length + padding.length := by
  simp only [regionOf, List.length_cons, List.length_append]
  omega

lemma regionLength_regionOf (hlen : payload.length ≤ maxPayload)
    (hpad : padding.length = paddingFor payload.length encrypted) :
    Conn.regionLength encrypted (regionOf payload padding).length = .ok () := by
  have hbounds := paddingFor_bounds payload.length encrypted
  -- the padding fills the last block
  have haligned :
      (1 + payload.length + padding.length + if encrypted = true then 0 else 4) % block = 0 := by
    rw [hpad, paddingFor]
    simp only [block]
    cases encrypted <;> simp only [Bool.false_eq_true, if_true, if_false] <;> split <;> omega
  simp only [minPadding, maxPayload] at hbounds hlen ⊢ haligned
  rw [Conn.regionLength, length_regionOf, if_neg (by simpa [block] using haligned),
    if_neg (by simp only [minPadding]; omega), if_neg (by simp only [maxPayload, block]; omega)]

lemma readBE32_writeBE32_ofNat (h : n < 2 ^ 32) (rest : List UInt8) :
    (readBE32 (writeBE32 (.ofNat n) ++ rest) 0).toNat = n := by
  rw [readBE32_writeBE32]
  exact UInt32.toNat_ofNat_of_lt' h

lemma openRegion_tagged {body : List UInt8} (hkey : c.key = some key)
    (hhdr : hdr.length = lengthLen)
    (hlen : packetDecodeLength P c hdr = .ok (lengthLen + body.length + macLen)) :
    openRegion P c (hdr ++ body ++ P.tag key c.seq (hdr ++ body)) =
      .ok (P.xorPayload key c.seq body) := by
  have htag : (P.tag key c.seq (hdr ++ body)).length = macLen := by simp [PacketSuite.tag, macLen]
  generalize htagged : hdr ++ body ++ P.tag key c.seq (hdr ++ body) = packet
  have htotal : packet.length = lengthLen + body.length + macLen := by
    simp [← htagged, hhdr, htag, Nat.add_assoc]
  have hhead : packet.take lengthLen = hdr := by
    rw [← htagged, List.append_assoc, ← hhdr, List.take_left]
  have hsplit : packet.length - macLen = (hdr ++ body).length := by
    rw [htotal, Nat.add_sub_cancel, List.length_append, hhdr]
  have hsealed : packet.take (packet.length - macLen) = hdr ++ body := by
    rw [hsplit, ← htagged, List.take_left]
  have hrest : packet.drop (packet.length - macLen) = P.tag key c.seq (hdr ++ body) := by
    rw [hsplit, ← htagged, List.drop_left]
  unfold openRegion
  rw [hhead, hlen, hkey]
  dsimp only
  rw [if_neg (by simp [htotal]), hsealed, if_neg (by simp [hrest]), ← hhdr, List.drop_left]

lemma openRegion_sealRegion (c : Cipher)
    (h : Conn.regionLength c.key.isSome region.length = .ok ()) (hlen : region.length < 2 ^ 32) :
    openRegion P c (sealRegion P c region) = .ok region := by
  have hread := readBE32_writeBE32_ofNat hlen []
  rw [List.append_nil] at hread
  unfold sealRegion
  cases hkey : c.key with
  | none =>
    rw [hkey] at h
    have hhead : (writeBE32 (.ofNat region.length) ++ region).take lengthLen =
        writeBE32 (.ofNat region.length) := List.take_left' (length_writeBE32 _)
    unfold openRegion packetDecodeLength
    rw [hhead, hkey]
    dsimp only
    rw [hread, h]
    dsimp only
    rw [if_neg (by simp [lengthLen])]
    exact congrArg _ (List.drop_left' (length_writeBE32 _))
  | some key =>
    -- both parts come back
    have hbody : P.xorPayload key c.seq (P.xorPayload key c.seq region) = region :=
      P.crypt_crypt _ _ _ _
    have hhdr : P.xorLength key c.seq (P.xorLength key c.seq (writeBE32 (.ofNat region.length))) =
        writeBE32 (.ofNat region.length) := P.crypt_crypt _ _ _ _
    refine (openRegion_tagged P hkey (by simp [PacketSuite.xorLength, lengthLen]) ?_).trans
      (congrArg _ hbody)
    rw [hkey] at h
    unfold packetDecodeLength
    rw [hkey]
    dsimp only
    rw [hhdr, hread, h]
    simp [PacketSuite.xorPayload]

lemma slice_regionOf (payload padding : List UInt8) :
    slice (regionOf payload padding) 1 payload.length = payload :=
  slice_eq_of_split (a := [.ofNat padding.length]) rfl rfl rfl

lemma toNat_head_regionOf (h : padding.length ≤ 11) :
    ((regionOf payload padding).getD 0 0).toNat = padding.length := by
  have hlt : padding.length < 2 ^ 8 := by omega
  simpa [regionOf] using UInt8.toNat_ofNat_of_lt' hlt

lemma packetDecode_sealRegion (c : Cipher) (hlen : payload.length ≤ maxPayload)
    (hpad : padding.length = paddingFor payload.length c.key.isSome) :
    packetDecode P c (sealRegion P c (regionOf payload padding)) =
      ({ c with seq := c.seq + 1 }, .ok payload) := by
  have hbounds := paddingFor_bounds payload.length c.key.isSome
  rw [← hpad] at hbounds
  have hregion := length_regionOf payload padding
  have hopen := openRegion_sealRegion P c (regionLength_regionOf hlen hpad)
    (by simp only [maxPayload] at hlen; omega)
  have hpayload : (regionOf payload padding).length - 1 - padding.length = payload.length := by omega
  unfold packetDecode
  rw [hopen]
  dsimp only
  rw [toNat_head_regionOf hbounds.2, hpayload, slice_regionOf, if_neg]
  simp only [Bool.or_eq_true, decide_eq_true_eq]
  omega

/-- What was encoded is decoded under the same key and sequence number, which go on together. -/
theorem packetDecode_packetEncode {random : ℕ → Except Err (List UInt8)}
    (hrandom : ∀ n padding, random n = .ok padding → padding.length = n)
    (h : packetEncode P c random payload = (c', .ok packet)) :
    packetDecode P c packet = (c', .ok payload) := by
  unfold packetEncode at h
  split at h
  · cases h
  next hlen =>
  split at h
  · cases h
  next padding hpadding =>
  obtain ⟨rfl, hpacket⟩ := Prod.mk.inj h
  obtain rfl := Except.ok.inj hpacket
  exact packetDecode_sealRegion P c (by omega) (hrandom _ _ hpadding)

/-! ## Sequences of packets -/

/-- A payload that is to be sent, with the random bytes for its padding. -/
structure Padded where
  payload : List UInt8
  random : ℕ → Except Err (List UInt8)
  length_random : ∀ n padding, random n = .ok padding → padding.length = n

/-- Payloads are encoded one after the other, as long as all can be. -/
def encodeAll (P : PacketSuite) (c : Cipher) : List Padded → Except Err (List (List UInt8))
  | [] => .ok []
  | p :: rest =>
    match packetEncode P c p.random p.payload with
    | (_, .error e) => .error e
    | (c, .ok packet) => (encodeAll P c rest).map (packet :: ·)

/-- Packets are decoded one after the other, as long as all can be. -/
def decodeAll (P : PacketSuite) (c : Cipher) : List (List UInt8) → Except Err (List (List UInt8))
  | [] => .ok []
  | packet :: rest =>
    match packetDecode P c packet with
    | (_, .error e) => .error e
    | (c, .ok payload) => (decodeAll P c rest).map (payload :: ·)

/-- With the same key and sequence number at the start, every packet that was sent is decoded. -/
theorem decodeAll_encodeAll {packets : List (List UInt8)} (h : encodeAll P c sent = .ok packets) :
    decodeAll P c packets = .ok (sent.map Padded.payload) := by
  induction sent generalizing c packets with
  | nil =>
    obtain rfl := Except.ok.inj h
    rfl
  | cons p rest ih =>
    unfold encodeAll at h
    split at h
    · cases h
    next c' packet hpacket =>
    cases hrest : encodeAll P c' rest with
    | error e => simp [hrest, Except.map] at h
    | ok packets' =>
      simp only [hrest, Except.map, Except.ok.injEq] at h
      subst h
      rw [decodeAll, packetDecode_packetEncode P p.length_random hpacket]
      simp [ih hrest, Except.map]

end

/-! ## Arrivals -/

open Program Conn

lemma regionLength_ne_done (h : regionLength encrypted n = .error e) : e ≠ .done := by
  rintro rfl
  unfold regionLength at h
  split_ifs at h <;> cases h

variable {P : PacketSuite} {c : Cipher}

lemma of_packetDecodeLength {want : ℕ} (h : packetDecodeLength P c hdr = .ok want) :
    ∃ n, regionLength c.key.isSome n = .ok () ∧
      want = lengthLen + n + if c.key.isSome then macLen else 0 := by
  unfold packetDecodeLength at h
  dsimp only at h
  split at h
  · cases h
  next hlength => exact ⟨_, hlength, (Except.ok.inj h).symm⟩

lemma packetDecodeLength_ne_done (h : packetDecodeLength P c hdr = .error e) : e ≠ .done := by
  unfold packetDecodeLength at h
  dsimp only at h
  split at h
  next e' he' =>
    obtain rfl := Except.error.inj h
    exact regionLength_ne_done he'
  · cases h

lemma openRegion_ne_done (h : openRegion P c packet = .error e) : e ≠ .done := by
  unfold openRegion at h
  cases hlength : packetDecodeLength P c (packet.take lengthLen) with
  | error e' =>
    rw [hlength] at h
    obtain rfl := Except.error.inj h
    exact packetDecodeLength_ne_done hlength
  | ok want =>
    rintro rfl
    cases hkey : c.key with
    | none =>
      simp only [hlength, hkey] at h
      split_ifs at h
      cases h
    | some key =>
      simp only [hlength, hkey] at h
      split_ifs at h <;> cases h

/-- What the bytes of a packet are to a receiver with this cipher. -/
def arrivalOf (P : PacketSuite) (c : Cipher) (packet : List UInt8) : Arrival :=
  match h : openRegion P c packet with
  | .ok region => .region region
  | .error e => .failure ⟨e, openRegion_ne_done h⟩

lemma regionLength_of_openRegion (h : openRegion P c packet = .ok region) :
    regionLength c.key.isSome region.length = .ok () := by
  unfold openRegion at h
  cases hlength : packetDecodeLength P c (packet.take lengthLen) with
  | error e =>
    rw [hlength] at h
    cases h
  | ok want =>
    rw [hlength] at h
    obtain ⟨n, hn, rfl⟩ := of_packetDecodeLength hlength
    suffices hlen : region.length = n by rwa [hlen]
    cases hkey : c.key with
    | none =>
      simp only [hkey, Option.isSome_none, Bool.false_eq_true, if_false] at h
      split_ifs at h with htotal
      obtain rfl := Except.ok.inj h
      rw [List.length_drop]
      omega
    | some key =>
      simp only [hkey, Option.isSome_some, if_true] at h
      split_ifs at h with htotal htag
      obtain rfl := Except.ok.inj h
      simp only [PacketSuite.xorPayload, PacketSuite.length_crypt, List.length_drop, List.length_take]
      omega

lemma packetDecode_of_openRegion (h : openRegion P c packet = .ok region) :
    packetDecode P c packet =
      if (region.getD 0 0).toNat < minPadding || (region.getD 0 0).toNat + 1 > region.length then
        (c, .error .inval)
      else ({ c with seq := c.seq + 1 },
        .ok (slice region 1 (region.length - 1 - (region.getD 0 0).toNat))) := by
  rw [packetDecode, h]

/-- The packets that are received are those that are decoded. If that fails, the cipher stays as it
was. -/
theorem wp_readPacket_arrivalOf (P : PacketSuite) (inKex : Bool) {c : Conn} {rest : List Arrival}
    (h : c.arrivals = arrivalOf P c.inCipher packet :: rest) :
    wp (readPacket inKex)
      (fun n c' => c'.arrivals = rest ∧ ∃ payload, payload ≠ [] ∧ n = payload.length ∧
        c'.payload.take n = payload ∧ packetDecode P c.inCipher packet = (c'.inCipher, .ok payload))
      (fun e c' => c'.arrivals = rest ∧
        (c'.inCipher = c.inCipher ∧ packetDecode P c.inCipher packet = (c.inCipher, .error e) ∨
          e = .inval ∧ packetDecode P c.inCipher packet = (c'.inCipher, .ok []))) c := by
  unfold readPacket
  simp only [wp_bind, wp_get, wp_set]
  rw [h, arrivalOf]
  split
  · next hnil => cases hnil
  · next e rest' hcons =>
    obtain ⟨hhead, rfl⟩ := List.cons.inj hcons
    split at hhead
    · cases hhead
    next e' he' =>
    obtain rfl := Arrival.failure.inj hhead
    exact ⟨rfl, .inl ⟨rfl, by simp only [packetDecode, he']⟩⟩
  · next region rest' hcons =>
    obtain ⟨hhead, rfl⟩ := List.cons.inj hcons
    split at hhead
    · next region' hregion =>
      obtain rfl := Arrival.region.inj hhead
      rw [regionLength_of_openRegion hregion, wp_bind, wp_ofExcept_ok, wp_bind]
      have hdecode := packetDecode_of_openRegion hregion
      unfold decodeRegion
      rw [wp_bind, wp_modify]
      dsimp only
      split
      · next hbad => exact ⟨rfl, .inl ⟨rfl, by rw [hdecode, if_pos hbad]⟩⟩
      rename_i hgood
      rw [if_neg hgood] at hdecode
      rw [wp_bind, wp_modify, wp_pure]
      split
      · next hzero =>
        refine ⟨rfl, .inr ⟨rfl, ?_⟩⟩
        rw [hdecode, hzero]
        simp [slice]
      · next hne =>
        have hlen : (slice region' 1
            (region'.length - 1 - (region'.getD 0 0).toNat)).length =
            region'.length - 1 - (region'.getD 0 0).toNat := by
          simp only [slice, List.length_take, List.length_drop]
          omega
        refine ⟨rfl, _, ?_, hlen.symm, ?_, hdecode⟩
        · intro hnil
          rw [hnil] at hlen
          exact hne hlen.symm
        · exact List.take_left' hlen
    · cases hhead

/-- A suite whose key stream counts, and whose tags are sums. -/
def countingSuite : PacketSuite where
  chacha20 _ _ counter i := .ofNat (counter + i)
  poly1305 key text := .replicate 16 (text.sum + key.toList.sum)

theorem wp_readPacket_sealed :
    let c : Cipher := ⟨some (.replicate 64 3), 7⟩
    wp (readPacket false)
      (fun n c' => n = 2 ∧ c'.payload.take 2 = [94, 5] ∧ c'.inCipher = { c with seq := 8 })
      (fun _ _ => False)
      { Conn.init [arrivalOf countingSuite c
          (sealRegion countingSuite c (regionOf [94, 5] (.replicate 5 1)))] [] with
        inCipher := c } := by
  intro c
  have hdecode : packetDecode _ _ (sealRegion _ _ (regionOf [94, 5] (.replicate 5 1))) = _ :=
    packetDecode_sealRegion countingSuite c (by decide) (by decide)
  refine (wp_readPacket_arrivalOf countingSuite false rfl).mono ?_ ?_
  · rintro n c' ⟨-, payload, -, rfl, hpayload, h⟩
    obtain ⟨hcipher, hsame⟩ := Prod.mk.inj (hdecode.symm.trans h)
    obtain rfl := Except.ok.inj hsame
    exact ⟨rfl, hpayload, hcipher.symm⟩
  · rintro e c' ⟨-, ⟨-, h⟩ | ⟨-, h⟩⟩
    · cases (Prod.mk.inj (hdecode.symm.trans h)).2
    · cases (Prod.mk.inj (hdecode.symm.trans h)).2

/-! ## Exactly what was sent -/

/-- The bytes carry the tag of a text that is not that of `packet`. -/
def Forged (P : PacketSuite) (key : CipherKey) (seq : ℕ) (packet bytes : List UInt8) : Prop :=
  bytes.take (bytes.length - macLen) ≠ packet.take (packet.length - macLen) ∧
    P.tag key seq (bytes.take (bytes.length - macLen)) = bytes.drop (bytes.length - macLen)

lemma of_packetDecode (h : packetDecode P c packet = (c', .ok payload)) :
    ∃ region, openRegion P c packet = .ok region ∧
      payload.length + (region.getD 0 0).toNat + 1 = region.length := by
  unfold packetDecode at h
  split at h
  · cases h
  next region hregion =>
  dsimp only at h
  split at h
  · cases h
  next hpad =>
  obtain rfl := Except.ok.inj (Prod.mk.inj h).2
  simp only [Bool.or_eq_true, decide_eq_true_eq, not_or] at hpad
  refine ⟨region, hregion, ?_⟩
  rw [slice, List.length_take, List.length_drop]
  omega

lemma tag_of_openRegion (hkey : c.key = some key) (h : openRegion P c packet = .ok region) :
    P.tag key c.seq (packet.take (packet.length - macLen)) =
      packet.drop (packet.length - macLen) := by
  unfold openRegion at h
  rw [hkey] at h
  split at h
  · cases h
  dsimp only at h
  split_ifs at h with _ htag
  exact not_not.mp htag

/-- What is not the packet that was sent is decoded only if it is forged. -/
theorem forged_of_packetDecode {bytes payload' : List UInt8} {c'' : Cipher}
    (hkey : c.key = some key) (hsent : packetDecode P c packet = (c', .ok payload))
    (h : packetDecode P c bytes = (c'', .ok payload')) (hne : bytes ≠ packet) :
    Forged P key c.seq packet bytes := by
  obtain ⟨_, hopen, -⟩ := of_packetDecode hsent
  obtain ⟨_, hopen', -⟩ := of_packetDecode h
  have htag := tag_of_openRegion hkey hopen
  have htag' := tag_of_openRegion hkey hopen'
  refine ⟨fun hsame => hne ?_, htag'⟩
  rw [← List.take_append_drop (bytes.length - macLen) bytes, ← htag', hsame, htag,
    List.take_append_drop]

lemma packetDecode_cases (P : PacketSuite) (c : Cipher) (bytes : List UInt8) :
    (∃ e, packetDecode P c bytes = (c, .error e)) ∨
      ∃ payload, packetDecode P c bytes = ({ c with seq := c.seq + 1 }, .ok payload) := by
  unfold packetDecode
  split
  · exact .inl ⟨_, rfl⟩
  · dsimp only
    split
    · exact .inl ⟨_, rfl⟩
    · exact .inr ⟨_, rfl⟩

lemma length_sealRegion (h : regionLength c.key.isSome region.length = .ok ())
    (hlen : region.length < 2 ^ 32) :
    packetDecodeLength P c ((sealRegion P c region).take lengthLen) =
      .ok (sealRegion P c region).length := by
  have hopen := openRegion_sealRegion P c h hlen
  unfold openRegion at hopen
  split at hopen
  · cases hopen
  next want hwant =>
  split at hopen
  · cases hopen
  next htotal => rw [hwant, not_not.mp htotal]

/-- The payload is not too long, and there are random bytes. -/
def Padded.Sendable (p : Padded) : Prop :=
  p.payload.length ≤ maxPayload ∧ ∀ n, ∃ padding, p.random n = .ok padding

lemma Padded.Sendable.packetEncode {p : Padded} (h : p.Sendable) :
    ∃ packet, packetEncode P c p.random p.payload = ({ c with seq := c.seq + 1 }, .ok packet) ∧
      packetDecodeLength P c (packet.take lengthLen) = .ok packet.length ∧
      packetDecode P c packet = ({ c with seq := c.seq + 1 }, .ok p.payload) := by
  obtain ⟨hlen, hrandom⟩ := h
  obtain ⟨padding, hpadding⟩ := hrandom (paddingFor p.payload.length c.key.isSome)
  have hpad := p.length_random _ _ hpadding
  have hbounds := paddingFor_bounds p.payload.length c.key.isSome
  have hregion := length_regionOf p.payload padding
  refine ⟨sealRegion P c (regionOf p.payload padding), ?_,
    length_sealRegion (regionLength_regionOf hlen hpad) ?_, packetDecode_sealRegion P c hlen hpad⟩
  · rw [Ssh.packetEncode, if_neg (by omega), hpadding]
  · simp only [maxPayload] at hlen
    omega

lemma encodeAll_ok (h : ∀ p ∈ sent, p.Sendable) (c : Cipher) :
    ∃ packets, encodeAll P c sent = .ok packets ∧
      decodeAll P c packets = .ok (sent.map Padded.payload) := by
  suffices hok : ∃ packets, encodeAll P c sent = .ok packets by
    obtain ⟨packets, hpackets⟩ := hok
    exact ⟨packets, hpackets, decodeAll_encodeAll P hpackets⟩
  induction sent generalizing c with
  | nil => exact ⟨[], rfl⟩
  | cons p rest ih =>
    obtain ⟨packet, hencode, -⟩ := (h p List.mem_cons_self).packetEncode (P := P) (c := c)
    obtain ⟨packets, hrest⟩ :=
      ih (fun q hq => h q (List.mem_cons_of_mem p hq)) { c with seq := c.seq + 1 }
    exact ⟨packet :: packets, by simp [encodeAll, hencode, hrest, Except.map]⟩

lemma seqNonce_congr {seq seq' : ℕ} (h : seq % 2 ^ 32 = seq' % 2 ^ 32) :
    seqNonce seq = seqNonce seq' := by
  have hlow : UInt32.ofNat seq = UInt32.ofNat seq' := by
    rw [← UInt32.toNat_inj, UInt32.toNat_ofNat', UInt32.toNat_ofNat', h]
  rw [seqNonce, hlow, seqNonce]

/-- Of the sequence number, only the low 32 bits go into the packets. -/
lemma packetDecode_congr (P : PacketSuite) (key : Option CipherKey) {seq seq' : ℕ}
    (h : seq % 2 ^ 32 = seq' % 2 ^ 32) :
    packetDecodeLength P ⟨key, seq⟩ = packetDecodeLength P ⟨key, seq'⟩ ∧
      sealRegion P ⟨key, seq⟩ = sealRegion P ⟨key, seq'⟩ ∧
      openRegion P ⟨key, seq⟩ = openRegion P ⟨key, seq'⟩ := by
  have hcrypt (k : Bytes32) : P.crypt k seq = P.crypt k seq' := by
    funext counter data
    rw [PacketSuite.crypt, seqNonce_congr h, PacketSuite.crypt]
  have htag (k : CipherKey) : P.tag k seq = P.tag k seq' := by
    funext sealed
    rw [PacketSuite.tag, PacketSuite.polyKey, hcrypt, PacketSuite.tag, PacketSuite.polyKey]
  have hlength : packetDecodeLength P ⟨key, seq⟩ = packetDecodeLength P ⟨key, seq'⟩ := by
    funext hdr
    simp only [packetDecodeLength, PacketSuite.xorLength, hcrypt]
  refine ⟨hlength, ?_, ?_⟩
  · funext region
    simp only [sealRegion, PacketSuite.xorLength, PacketSuite.xorPayload, hcrypt, htag]
  · funext packet
    simp only [openRegion, hlength, PacketSuite.xorPayload, hcrypt, htag]

/-- Whatever is sent in the clear and then under a key, from any sequence number, is decoded. Each
packet is decoded to its payload, and under a key nothing else is that is not forged: it fails, and the
cipher stays as it was. The numbers wrap, and no length of a payload is negative. -/
theorem packets_accepted_exactly (P : PacketSuite) :
    (∀ (seq : ℕ) (key : CipherKey) (clear sealed : List Padded),
      (∀ p ∈ clear ++ sealed, p.Sendable) →
      ∃ packets packets', encodeAll P ⟨none, seq⟩ clear = .ok packets ∧
        decodeAll P ⟨none, seq⟩ packets = .ok (clear.map Padded.payload) ∧
        encodeAll P ⟨some key, seq + clear.length⟩ sealed = .ok packets' ∧
        decodeAll P ⟨some key, seq + clear.length⟩ packets' = .ok (sealed.map Padded.payload)) ∧
    (∀ (c : Cipher) (p : Padded), p.Sendable →
      ∃ packet, packetEncode P c p.random p.payload = ({ c with seq := c.seq + 1 }, .ok packet) ∧
        packetDecodeLength P c (packet.take lengthLen) = .ok packet.length ∧
        packetDecode P c packet = ({ c with seq := c.seq + 1 }, .ok p.payload) ∧
        ∀ key bytes, c.key = some key → bytes ≠ packet → ¬Forged P key c.seq packet bytes →
          ∃ e, packetDecode P c bytes = (c, .error e)) ∧
    (∀ (key : Option CipherKey) (seq seq' : ℕ), seq % 2 ^ 32 = seq' % 2 ^ 32 →
      packetDecodeLength P ⟨key, seq⟩ = packetDecodeLength P ⟨key, seq'⟩ ∧
      (∀ random payload, (packetEncode P ⟨key, seq⟩ random payload).2 =
        (packetEncode P ⟨key, seq'⟩ random payload).2) ∧
      ∀ bytes, (packetDecode P ⟨key, seq⟩ bytes).2 = (packetDecode P ⟨key, seq'⟩ bytes).2) ∧
    ∀ (c c' : Cipher) (bytes payload : List UInt8), packetDecode P c bytes = (c', .ok payload) →
      ∃ region, openRegion P c bytes = .ok region ∧
        payload.length + (region.getD 0 0).toNat + 1 = region.length := by
  refine ⟨fun seq key clear sealed h => ?_, fun c p hp => ?_, fun key seq seq' h => ?_,
    fun _ _ _ _ => of_packetDecode⟩
  · obtain ⟨packets, hclear⟩ :=
      encodeAll_ok (P := P) (fun p hp => h p (List.mem_append_left _ hp)) ⟨none, seq⟩
    obtain ⟨packets', hsealed⟩ := encodeAll_ok (P := P)
      (fun p hp => h p (List.mem_append_right _ hp)) ⟨some key, seq + clear.length⟩
    exact ⟨packets, packets', hclear.1, hclear.2, hsealed.1, hsealed.2⟩
  · obtain ⟨packet, hencode, hlength, hdecode⟩ := hp.packetEncode (P := P) (c := c)
    refine ⟨packet, hencode, hlength, hdecode, fun key bytes hkey hne hforged => ?_⟩
    refine (packetDecode_cases P c bytes).resolve_right ?_
    rintro ⟨payload, h⟩
    exact hforged (forged_of_packetDecode hkey hdecode h hne)
  · obtain ⟨hlength, hseal, hopen⟩ := packetDecode_congr P key h
    refine ⟨hlength, fun random payload => ?_, fun bytes => ?_⟩
    · unfold packetEncode
      rw [hseal]
      dsimp only
      split
      · rfl
      · split <;> rfl
    · unfold packetDecode
      rw [hopen]
      dsimp only
      split
      · rfl
      · split <;> rfl

end Ssh
