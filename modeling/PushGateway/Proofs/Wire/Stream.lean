import PushGateway.Wire.Decoding

namespace PushGateway

namespace Wire

theorem bind_ok {α β : Type} (a : α) (next : α → Except DecodeError β) : (.ok a >>= next) = next a := rfl

theorem takeBytes_append (part : Part) (bytes rest : Bytes) :
    takeBytes part bytes.length (bytes ++ rest) = .ok (bytes, rest) := by
  simp [takeBytes]

theorem takeWord16_append (part : Part) (word : UInt16) (rest : Bytes) :
    takeWord16 part (Bytes.ofWord16 word ++ rest) = .ok (word, rest) := by
  simp [takeWord16, Bytes.ofWord16]

theorem takeWord32_append (part : Part) (word : UInt32) (rest : Bytes) :
    takeWord32 part (Bytes.ofWord32 word ++ rest) = .ok (word, rest) := by
  simp [takeWord32, Bytes.ofWord32]

theorem toNat_ofNat_length {bytes : Bytes} (fits : bytes.length ≤ Bytes.fieldLimit) :
    (UInt16.ofNat bytes.length).toNat = bytes.length := by
  rw [UInt16.toNat_ofNat', Nat.mod_eq_of_lt]
  simp only [Bytes.fieldLimit] at fits
  omega

theorem takeCounted_append (part : Part) {bytes : Bytes} (fits : bytes.length ≤ Bytes.fieldLimit) (rest : Bytes) :
    takeCounted part (counted bytes ++ rest) = .ok (bytes, rest) := by
  rw [counted, List.append_assoc, takeCounted, takeWord16_append]
  simp only [toNat_ofNat_length fits]
  exact takeBytes_append part bytes rest

/-- Bytes behind their length can be told from what follows them. -/
theorem counted_append_inj {a b rest rest' : Bytes} (fits : a.length ≤ Bytes.fieldLimit)
    (fits' : b.length ≤ Bytes.fieldLimit) (same : counted a ++ rest = counted b ++ rest') :
    a = b ∧ rest = rest' := by
  have read := takeCounted_append .item fits rest
  rw [same, takeCounted_append .item fits' rest'] at read
  cases read
  exact ⟨rfl, rfl⟩

/-- An item that fits is taken in, whatever stands behind it. -/
theorem Items.read_item {items items' : Items} {code : UInt8} {body : Bytes}
    (fits : body.length ≤ Bytes.fieldLimit) (taken : items.put code body = .ok items') (rest : Bytes) :
    items.read (item code body ++ rest) = items'.read rest := by
  have need : (Bytes.word16 (UInt8.ofNat ((UInt16.ofNat body.length).toNat / 256))
      (UInt16.ofNat body.length).toUInt8).toNat = body.length := by
    rw [Bytes.word16_bytes, toNat_ofNat_length fits]
  rw [item, counted, Bytes.ofWord16]
  simp only [List.cons_append, List.nil_append]
  rw [Items.read]
  simp only [need, List.length_append, List.take_left, List.drop_left, taken]
  rw [if_neg (by omega)]

/-- The items of a notification that fits are read back. -/
theorem Items.read_frameBody (identifier expiry : UInt32) (priority : UInt8) {token payload : Bytes}
    (tokenFits : token.length ≤ Bytes.fieldLimit) (payloadFits : payload.length ≤ Bytes.fieldLimit) :
    Items.read {} (frameBody identifier expiry priority token payload) =
      .ok { token, payload, identifier, expiry, priority } := by
  have putToken (items : Items) : items.put ItemKind.token.code token = .ok { items with token } := rfl
  have putPayload (items : Items) : items.put ItemKind.payload.code payload = .ok { items with payload } := rfl
  have putIdentifier (items : Items) :
      items.put ItemKind.identifier.code (Bytes.ofWord32 identifier) = .ok { items with identifier } := by
    simp [put, Bytes.ofWord32]
  have putExpiry (items : Items) :
      items.put ItemKind.expiry.code (Bytes.ofWord32 expiry) = .ok { items with expiry } := by
    simp [put, Bytes.ofWord32]
  have putPriority (items : Items) : items.put ItemKind.priority.code [priority] = .ok { items with priority } := rfl
  rw [frameBody, ← List.append_nil (item ItemKind.priority.code [priority])]
  simp only [List.append_assoc]
  rw [read_item tokenFits (putToken _), read_item payloadFits (putPayload _),
    read_item (by simp [Bytes.fieldLimit]) (putIdentifier _), read_item (by simp [Bytes.fieldLimit]) (putExpiry _),
    read_item (by simp [Bytes.fieldLimit]) (putPriority _), Items.read]

theorem length_frameBody (identifier expiry : UInt32) (priority : UInt8) (token payload : Bytes) :
    (frameBody identifier expiry priority token payload).length = 24 + token.length + payload.length := by
  simp only [frameBody, item, List.length_append, List.length_cons, length_counted, Bytes.length_ofWord32,
    List.length_nil]
  omega

end Wire

namespace Notification

open Wire

/-- Encoding refuses only what does not fit into its field. The whole of a frame always fits. -/
theorem encode_eq_ok_iff {n : Notification} {bytes : Bytes} :
    n.encode = .ok bytes ↔
      n.token.length ≤ Bytes.fieldLimit ∧ n.payload.length ≤ Bytes.fieldLimit ∧ bytes = layout n := by
  unfold encode
  by_cases tokenFits : n.token.length ≤ Bytes.fieldLimit
  · by_cases payloadFits : n.payload.length ≤ Bytes.fieldLimit
    · rw [if_neg (by omega), if_neg (by omega)]
      have whole : ¬ 4294967296 ≤ Wire.frameLength n := by
        simp only [Wire.frameLength, Bytes.fieldLimit] at tokenFits payloadFits ⊢
        omega
      cases n.format <;> simp [tokenFits, payloadFits, whole, eq_comm]
    · rw [if_neg (by omega), if_pos (by omega)]
      simp [payloadFits]
  · rw [if_pos (by omega)]
    simp [tokenFits]

theorem decodeFramed_body {frame : Bytes} {items : Items} {word : UInt32} (length : word.toNat = frame.length)
    (read : Items.read {} frame = .ok items) (rest : Bytes) :
    decodeFramed (Bytes.ofWord32 word ++ frame ++ rest) = .ok (items.notification, rest) := by
  rw [decodeFramed, List.append_assoc, takeWord32_append, bind_ok]
  simp only [length]
  rw [takeBytes_append, bind_ok]
  simp only []
  rw [read]
  rfl

section
variable {token payload : Bytes} (tokenFits : token.length ≤ Bytes.fieldLimit)
  (payloadFits : payload.length ≤ Bytes.fieldLimit) (rest : Bytes)
include tokenFits payloadFits

theorem decodeLegacy_append :
    decodeLegacy (counted token ++ counted payload ++ rest) = .ok (⟨.legacy, token, payload⟩, rest) := by
  simp only [decodeLegacy, List.append_assoc, takeCounted_append _ tokenFits, takeCounted_append _ payloadFits,
    bind_ok]
  rfl

theorem decodeEnhanced_append (identifier expiry : UInt32) :
    decodeEnhanced (Bytes.ofWord32 identifier ++ Bytes.ofWord32 expiry ++ counted token ++ counted payload ++ rest) =
      .ok (⟨.enhanced identifier expiry, token, payload⟩, rest) := by
  simp only [decodeEnhanced, List.append_assoc, takeWord32_append, takeCounted_append _ tokenFits,
    takeCounted_append _ payloadFits, bind_ok]
  rfl

theorem decodeFramed_append (identifier expiry : UInt32) (priority : UInt8) :
    decodeFramed (Bytes.ofWord32 (UInt32.ofNat (frameBody identifier expiry priority token payload).length) ++
        frameBody identifier expiry priority token payload ++ rest) =
      .ok (⟨.framed identifier expiry priority, token, payload⟩, rest) := by
  refine decodeFramed_body ?_ (Items.read_frameBody identifier expiry priority tokenFits payloadFits) rest
  rw [UInt32.toNat_ofNat', length_frameBody]
  apply Nat.mod_eq_of_lt
  simp only [Bytes.fieldLimit] at tokenFits payloadFits
  omega

end

/-- Decoding gives back what was encoded, and leaves what stands behind it. -/
theorem decode_append {n : Notification} {bytes : Bytes} (encoded : n.encode = .ok bytes) (rest : Bytes) :
    decode (bytes ++ rest) = .ok (n, rest) := by
  obtain ⟨tokenFits, payloadFits, rfl⟩ := encode_eq_ok_iff.mp encoded
  obtain ⟨format, token, payload⟩ := n
  cases format with
  | legacy => exact decodeLegacy_append tokenFits payloadFits rest
  | enhanced identifier expiry => exact decodeEnhanced_append tokenFits payloadFits rest identifier expiry
  | framed identifier expiry priority =>
    exact decodeFramed_append tokenFits payloadFits rest identifier expiry priority

theorem decodeAll_of_decode {n : Notification} {bytes rest : Bytes} (read : decode bytes = .ok (n, rest)) :
    decodeAll bytes = ((n, rest) :: (decodeAll rest).1, (decodeAll rest).2) := by
  cases bytes with
  | nil => cases read
  | cons first more =>
    rw [decodeAll]
    split
    · rename_i failed
      rw [failed] at read
      cases read
    · rename_i succeeded
      rw [succeeded] at read
      cases read
      rfl

/-- The notifications that can be read one after the other from the front of `bytes`. -/
def readFrom (bytes : Bytes) : List Notification := (decodeAll bytes).1.map Prod.fst

theorem readFrom_of_encode {n : Notification} {bytes : Bytes} (encoded : n.encode = .ok bytes) :
    readFrom bytes = [n] := by
  have read := decode_append encoded []
  rw [List.append_nil] at read
  rw [readFrom, decodeAll_of_decode read, decodeAll]
  rfl

/-- A stream of whole notifications is read to its end without a problem, each piece by itself. -/
theorem decodeAll_flatten {pieces : List Bytes} (whole : ∀ bytes ∈ pieces, ∃ n : Notification, n.encode = .ok bytes) :
    readFrom pieces.flatten = pieces.flatMap readFrom ∧ (decodeAll pieces.flatten).2 = none := by
  induction pieces with
  | nil =>
    rw [List.flatten_nil, readFrom, decodeAll]
    exact ⟨rfl, rfl⟩
  | cons bytes pieces ih =>
    obtain ⟨n, encoded⟩ := whole bytes (List.mem_cons_self ..)
    obtain ⟨later, nothing⟩ := ih fun piece member => whole piece (List.mem_cons_of_mem _ member)
    have read := decodeAll_of_decode (decode_append encoded pieces.flatten)
    rw [readFrom] at later
    rw [List.flatten_cons, readFrom, read, List.flatMap_cons, readFrom_of_encode encoded, ← later]
    exact ⟨rfl, nothing⟩

theorem flatMap_readFrom {pieces : List Bytes} {ns : List Notification}
    (encoded : pieces.map .ok = ns.map encode) : pieces.flatMap readFrom = ns := by
  induction pieces generalizing ns with
  | nil => simpa [eq_comm] using encoded
  | cons bytes pieces ih =>
    cases ns with
    | nil => simp at encoded
    | cons n ns =>
      obtain ⟨first, others⟩ := List.cons.inj encoded
      rw [List.flatMap_cons, readFrom_of_encode first.symm, ih others, List.singleton_append]

end Notification
end PushGateway
