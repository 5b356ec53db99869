import PushGateway.Proofs.Wire.Stream

namespace PushGateway.Notification

open Wire

/-- What is left of `bytes` behind the notifications that can be read from its front. -/
def unread (bytes : Bytes) : Bytes :=
  ((decodeAll bytes).1.getLast?.map Prod.snd).getD bytes

theorem Fits.encode {n : Notification} (fits : n.Fits) : n.encode = .ok (layout n) :=
  encode_eq_ok_iff.mpr ⟨fits.1, fits.2, rfl⟩

theorem exists_encodings {ns : List Notification} (fit : ∀ n ∈ ns, n.Fits) :
    ns.map encode = (ns.map layout).map .ok := by
  rw [List.map_map]
  exact List.map_congr_left fun n member => (fit n member).encode

theorem unread_of_decode {n : Notification} {bytes rest : Bytes} (read : decode bytes = .ok (n, rest)) :
    unread bytes = unread rest := by
  rw [unread, unread, decodeAll_of_decode read]
  cases later : (decodeAll rest).1 with
  | nil => rfl
  | cons next others =>
    rw [List.getLast?_cons_cons, List.getLast?_eq_some_getLast (List.cons_ne_nil next others)]
    rfl

/-- A stream of encodings is used up by reading it. -/
theorem unread_flatten {ns : List Notification} {pieces : List Bytes} (encoded : ns.map encode = pieces.map .ok) :
    unread pieces.flatten = [] := by
  induction pieces generalizing ns with
  | nil =>
    rw [List.flatten_nil, unread, decodeAll]
    rfl
  | cons bytes pieces ih =>
    cases ns with
    | nil => cases encoded
    | cons n ns =>
      obtain ⟨first, others⟩ := List.cons.inj encoded
      rw [List.flatten_cons, unread_of_decode (decode_append first pieces.flatten), ih others]

/-- Decoding undoes encoding. A notification that fits can be encoded, and with anything behind it its bytes
are read back as it, in full and no further. So from the encodings of any such notifications, laid end to
end, these are read back in their order, to the end and without a problem. -/
theorem encode_round_trip :
    (∀ n : Notification, n.Fits →
      ∃ bytes, n.encode = .ok bytes ∧ ∀ rest, decode (bytes ++ rest) = .ok (n, rest)) ∧
    ∀ ns : List Notification, (∀ n ∈ ns, n.Fits) →
      ∃ pieces : List Bytes, ns.map encode = pieces.map .ok ∧ readFrom pieces.flatten = ns ∧
        unread pieces.flatten = [] ∧ (decodeAll pieces.flatten).2 = none := by
  refine ⟨fun n fits => ⟨_, fits.encode, decode_append fits.encode⟩, fun ns fit => ?_⟩
  have encoded := exists_encodings fit
  have whole : ∀ bytes ∈ ns.map layout, ∃ n : Notification, n.encode = .ok bytes := by
    intro bytes member
    obtain ⟨n, inside, rfl⟩ := List.mem_map.mp member
    exact ⟨n, (fit n inside).encode⟩
  obtain ⟨all, nothing⟩ := decodeAll_flatten whole
  exact ⟨_, encoded, all.trans (flatMap_readFrom encoded.symm), unread_flatten encoded, nothing⟩

/-- The largest frame there is, followed by others that are short. -/
theorem round_trip_of_largest :
    let largest : Notification := ⟨.framed 7 0 10, List.replicate 65535 0, List.replicate 65535 1⟩
    let ns := [largest, legacy [] [123, 125], enhanced 256 1 [2, 0] []]
    (largest.Fits ∧ ∃ bytes, largest.encode = .ok bytes ∧ ∀ rest, decode (bytes ++ rest) = .ok (largest, rest)) ∧
      (∀ n ∈ ns, n.Fits) ∧
      ∃ pieces : List Bytes, ns.map encode = pieces.map .ok ∧ readFrom pieces.flatten = ns ∧
        unread pieces.flatten = [] ∧ (decodeAll pieces.flatten).2 = none := by
  intro largest ns
  have fits : largest.Fits := ⟨Nat.le_of_eq List.length_replicate, Nat.le_of_eq List.length_replicate⟩
  have fit : ∀ n ∈ ns, n.Fits := List.forall_mem_cons.mpr ⟨fits, by decide⟩
  exact ⟨⟨fits, encode_round_trip.1 largest fits⟩, fit, encode_round_trip.2 ns fit⟩

end PushGateway.Notification
