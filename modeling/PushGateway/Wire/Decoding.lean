import PushGateway.Wire.Encoding
import PushGateway.NetworkError

namespace PushGateway

/-- The parts of a notification for which bytes can run out. -/
inductive Wire.Part
  | command | token | payload | identifier | expiry | frameLength | frame | itemKind | itemLength | item
  deriving Repr, DecidableEq

def Wire.Part.name : Wire.Part → String
  | command => "command"
  | token => "device token"
  | payload => "payload"
  | identifier => "identifier"
  | expiry => "expiry"
  | frameLength => "frame length"
  | frame => "frame"
  | itemKind => "item id"
  | itemLength => "item length"
  | item => "item"

inductive DecodeError
  | truncated (part : Wire.Part) (need present : Nat)
  | wrongWidth (kind : Wire.ItemKind) (width length : Nat)
  | unknownCommand (command : UInt8)
  deriving Repr, DecidableEq

def DecodeError.message : DecodeError → String
  | truncated part need present => s!"truncated {part.name}: need {need} bytes, have {present}"
  | wrongWidth kind width length => s!"item {kind.code} must be {width} bytes, got {length}"
  | unknownCommand command => s!"unknown notification command {command}"

def DecodeError.toNetworkError (e : DecodeError) : NetworkError := .protocol e.message

namespace Wire

theorem bind_eq_ok {α β : Type} {first : Except DecodeError α} {next : α → Except DecodeError β} {b : β}
    (both : (first >>= next) = .ok b) : ∃ a, first = .ok a ∧ next a = .ok b := by
  cases first with
  | error => cases both
  | ok a => exact ⟨a, rfl, both⟩

/-- The first `need` bytes, and those after them. -/
def takeBytes (part : Part) (need : Nat) (bytes : Bytes) : Except DecodeError (Bytes × Bytes) :=
  if bytes.length < need then .error (.truncated part need bytes.length)
  else .ok (bytes.take need, bytes.drop need)

def takeWord16 (part : Part) : Bytes → Except DecodeError (UInt16 × Bytes)
  | a :: b :: rest => .ok (Bytes.word16 a b, rest)
  | bytes => .error (.truncated part 2 bytes.length)

def takeWord32 (part : Part) : Bytes → Except DecodeError (UInt32 × Bytes)
  | a :: b :: c :: d :: rest => .ok (Bytes.word32 a b c d, rest)
  | bytes => .error (.truncated part 4 bytes.length)

/-- Reads bytes behind their length. -/
def takeCounted (part : Part) (bytes : Bytes) : Except DecodeError (Bytes × Bytes) :=
  match takeWord16 part bytes with
  | .error problem => .error problem
  | .ok (length, rest) => takeBytes part length.toNat rest

theorem takeBytes_eq_ok {part : Part} {need : Nat} {bytes taken rest : Bytes}
    (read : takeBytes part need bytes = .ok (taken, rest)) : bytes = taken ++ rest ∧ taken.length = need := by
  unfold takeBytes at read
  split at read
  · cases read
  · cases read
    exact ⟨(List.take_append_drop ..).symm, by simp only [List.length_take]; omega⟩

theorem takeWord16_eq_ok {part : Part} {bytes rest : Bytes} {word : UInt16}
    (read : takeWord16 part bytes = .ok (word, rest)) : bytes = Bytes.ofWord16 word ++ rest := by
  unfold takeWord16 at read
  split at read
  · cases read
    rw [Bytes.ofWord16_word16]
    rfl
  · cases read

theorem takeWord32_eq_ok {part : Part} {bytes rest : Bytes} {word : UInt32}
    (read : takeWord32 part bytes = .ok (word, rest)) : bytes = Bytes.ofWord32 word ++ rest := by
  unfold takeWord32 at read
  split at read
  · cases read
    rw [Bytes.ofWord32_word32]
    rfl
  · cases read

theorem takeCounted_eq_ok {part : Part} {bytes taken rest : Bytes}
    (read : takeCounted part bytes = .ok (taken, rest)) :
    bytes = counted taken ++ rest ∧ taken.length ≤ Bytes.fieldLimit := by
  unfold takeCounted at read
  split at read
  · cases read
  · rename_i length after atLength
    obtain ⟨rfl, count⟩ := takeBytes_eq_ok read
    rw [takeWord16_eq_ok atLength, counted, count]
    have bound := length.toNat_lt
    exact ⟨by simp, by simp only [Bytes.fieldLimit]; omega⟩

/-- What the items of a frame have said so far. -/
structure Items where
  token : Bytes := []
  payload : Bytes := []
  identifier : UInt32 := 0
  expiry : UInt32 := 0
  priority : UInt8 := Notification.defaultPriority
  deriving Repr, DecidableEq, Inhabited

namespace Items

/-- Takes in one item. A later item of a kind replaces an earlier one, and kinds without a
meaning are passed over. -/
def put (items : Items) (code : UInt8) (body : Bytes) : Except DecodeError Items :=
  match ItemKind.ofCode? code, body with
  | some .token, _ => .ok { items with token := body }
  | some .payload, _ => .ok { items with payload := body }
  | some .identifier, [a, b, c, d] => .ok { items with identifier := Bytes.word32 a b c d }
  | some .identifier, _ => .error (.wrongWidth .identifier 4 body.length)
  | some .expiry, [a, b, c, d] => .ok { items with expiry := Bytes.word32 a b c d }
  | some .expiry, _ => .error (.wrongWidth .expiry 4 body.length)
  | some .priority, [priority] => .ok { items with priority }
  | some .priority, _ => .error (.wrongWidth .priority 1 body.length)
  | none, _ => .ok items

/-- Reads items until the frame is used up. -/
def read (items : Items) : Bytes → Except DecodeError Items
  | [] => .ok items
  | code :: a :: b :: rest =>
    let need := (Bytes.word16 a b).toNat
    if rest.length < need then .error (.truncated .item need rest.length)
    else
      match items.put code (rest.take need) with
      | .error problem => .error problem
      | .ok items => items.read (rest.drop need)
  | _ :: rest => .error (.truncated .itemLength 2 rest.length)
termination_by bytes => bytes.length
decreasing_by simp only [List.length_cons, List.length_drop]; omega

def notification (items : Items) : Notification :=
  ⟨.framed items.identifier items.expiry items.priority, items.token, items.payload⟩

end Items
end Wire

namespace Notification

open Wire

def decodeLegacy (bytes : Bytes) : Except DecodeError (Notification × Bytes) := do
  let (token, bytes) ← takeCounted .token bytes
  let (payload, bytes) ← takeCounted .payload bytes
  return (⟨.legacy, token, payload⟩, bytes)

def decodeEnhanced (bytes : Bytes) : Except DecodeError (Notification × Bytes) := do
  let (identifier, bytes) ← takeWord32 .identifier bytes
  let (expiry, bytes) ← takeWord32 .expiry bytes
  let (token, bytes) ← takeCounted .token bytes
  let (payload, bytes) ← takeCounted .payload bytes
  return (⟨.enhanced identifier expiry, token, payload⟩, bytes)

def decodeFramed (bytes : Bytes) : Except DecodeError (Notification × Bytes) := do
  let (length, bytes) ← takeWord32 .frameLength bytes
  let (frame, bytes) ← takeBytes .frame length.toNat bytes
  let items ← Items.read {} frame
  return (items.notification, bytes)

/-- Reads one notification from the front of `bytes`, and returns it with the bytes after it. -/
def decode : Bytes → Except DecodeError (Notification × Bytes)
  | [] => .error (.truncated .command 1 0)
  | command :: bytes =>
    if command = 0 then decodeLegacy bytes
    else if command = 1 then decodeEnhanced bytes
    else if command = 2 then decodeFramed bytes
    else .error (.unknownCommand command)

/-- The notification at the front of `bytes`, with how many of them it takes. -/
def decodeFront (bytes : Bytes) : Except NetworkError (Notification × Nat) :=
  match decode bytes with
  | .ok (n, rest) => .ok (n, bytes.length - rest.length)
  | .error problem => .error problem.toNetworkError

theorem decodeLegacy_eq_ok {bytes rest : Bytes} {n : Notification}
    (read : decodeLegacy bytes = .ok (n, rest)) :
    n.format = .legacy ∧ n.Fits ∧ bytes = counted n.token ++ counted n.payload ++ rest := by
  obtain ⟨⟨token, bytes₁⟩, first, read⟩ := bind_eq_ok read
  obtain ⟨⟨payload, bytes₂⟩, second, read⟩ := bind_eq_ok read
  cases read
  obtain ⟨atToken, tokenFits⟩ := takeCounted_eq_ok first
  obtain ⟨atPayload, payloadFits⟩ := takeCounted_eq_ok second
  refine ⟨rfl, ⟨tokenFits, payloadFits⟩, ?_⟩
  rw [atToken, atPayload]
  simp

theorem decodeEnhanced_eq_ok {bytes rest : Bytes} {n : Notification}
    (read : decodeEnhanced bytes = .ok (n, rest)) :
    ∃ identifier expiry, n.format = .enhanced identifier expiry ∧ n.Fits ∧
      bytes = Bytes.ofWord32 identifier ++ Bytes.ofWord32 expiry ++ counted n.token ++ counted n.payload ++
        rest := by
  obtain ⟨⟨identifier, bytes₁⟩, first, read⟩ := bind_eq_ok read
  obtain ⟨⟨expiry, bytes₂⟩, second, read⟩ := bind_eq_ok read
  obtain ⟨⟨token, bytes₃⟩, third, read⟩ := bind_eq_ok read
  obtain ⟨⟨payload, bytes₄⟩, fourth, read⟩ := bind_eq_ok read
  cases read
  obtain ⟨atToken, tokenFits⟩ := takeCounted_eq_ok third
  obtain ⟨atPayload, payloadFits⟩ := takeCounted_eq_ok fourth
  refine ⟨identifier, expiry, rfl, ⟨tokenFits, payloadFits⟩, ?_⟩
  rw [takeWord32_eq_ok first, takeWord32_eq_ok second, atToken, atPayload]
  simp

theorem decodeFramed_eq_ok {bytes rest : Bytes} {n : Notification}
    (read : decodeFramed bytes = .ok (n, rest)) :
    ∃ frame items, Items.read {} frame = .ok items ∧ n = items.notification ∧ frame.length < 4294967296 ∧
      bytes = Bytes.ofWord32 (UInt32.ofNat frame.length) ++ frame ++ rest := by
  obtain ⟨⟨length, bytes₁⟩, first, read⟩ := bind_eq_ok read
  obtain ⟨⟨frame, bytes₂⟩, second, read⟩ := bind_eq_ok read
  obtain ⟨items, third, read⟩ := bind_eq_ok read
  cases read
  obtain ⟨rfl, count⟩ := takeBytes_eq_ok second
  refine ⟨frame, items, third, rfl, count ▸ length.toNat_lt, ?_⟩
  rw [takeWord32_eq_ok first, count]
  simp

theorem decode_cases {data rest : Bytes} {n : Notification} (read : decode data = .ok (n, rest)) :
    ∃ bytes, (data = 0 :: bytes ∧ decodeLegacy bytes = .ok (n, rest)) ∨
      (data = 1 :: bytes ∧ decodeEnhanced bytes = .ok (n, rest)) ∨
      (data = 2 :: bytes ∧ decodeFramed bytes = .ok (n, rest)) := by
  unfold decode at read
  split at read
  · cases read
  · rename_i command bytes
    split at read
    · rename_i legacy
      exact ⟨bytes, .inl ⟨by rw [legacy], read⟩⟩
    split at read
    · rename_i enhanced
      exact ⟨bytes, .inr (.inl ⟨by rw [enhanced], read⟩)⟩
    split at read
    · rename_i framed
      exact ⟨bytes, .inr (.inr ⟨by rw [framed], read⟩)⟩
    · cases read

/-- A notification takes at least its command byte. -/
theorem length_lt_of_decode {bytes rest : Bytes} {n : Notification} (read : decode bytes = .ok (n, rest)) :
    rest.length < bytes.length := by
  obtain ⟨more, ⟨rfl, legacy⟩ | ⟨rfl, enhanced⟩ | ⟨rfl, framed⟩⟩ := decode_cases read
  · rw [(decodeLegacy_eq_ok legacy).2.2]
    simp only [List.length_cons, List.length_append]
    omega
  · obtain ⟨_, _, _, _, rfl⟩ := decodeEnhanced_eq_ok enhanced
    simp only [List.length_cons, List.length_append]
    omega
  · obtain ⟨_, _, _, _, _, rfl⟩ := decodeFramed_eq_ok framed
    simp only [List.length_cons, List.length_append]
    omega

/-- The notifications at the front of `bytes`, each with the bytes that follow it, up to the end or the
first that cannot be read. -/
def decodeAll (bytes : Bytes) : List (Notification × Bytes) × Option DecodeError :=
  match bytes with
  | [] => ([], none)
  | first :: more =>
    match _read : decode (first :: more) with
    | .error problem => ([], some problem)
    | .ok (n, rest) =>
      let (later, stop) := decodeAll rest
      ((n, rest) :: later, stop)
termination_by bytes.length
decreasing_by exact length_lt_of_decode _read

end Notification
end PushGateway
