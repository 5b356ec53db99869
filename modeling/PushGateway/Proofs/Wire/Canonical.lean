import PushGateway.Proofs.Wire.RoundTrip

namespace PushGateway

namespace Wire

/-- One item as it stands in a frame, whether or not its code has a meaning. -/
structure RawItem where
  code : UInt8
  body : Bytes
  deriving Repr, DecidableEq

/-- The length of the content can be announced in 16 bits. -/
def RawItem.Fits (raw : RawItem) : Prop := raw.body.length ≤ Bytes.fieldLimit
  deriving Decidable

/-- The bytes of items, one after the other. -/
def laid (raws : List RawItem) : Bytes := raws.flatMap fun raw => item raw.code raw.body

theorem laid_cons (raw : RawItem) (raws : List RawItem) :
    laid (raw :: raws) = raw.code :: (counted raw.body ++ laid raws) := rfl

theorem laid_injective {raws others : List RawItem} (fit : ∀ raw ∈ raws, raw.Fits)
    (fit' : ∀ raw ∈ others, raw.Fits) (same : laid raws = laid others) : raws = others := by
  induction raws generalizing others with
  | nil =>
    cases others with
    | nil => rfl
    | cons => cases same
  | cons raw raws ih =>
    cases others with
    | nil => cases same
    | cons other others =>
      rw [laid_cons, laid_cons] at same
      obtain ⟨code, rest⟩ := List.cons.inj same
      obtain ⟨body, later⟩ := counted_append_inj (fit raw (List.mem_cons_self ..)) (fit' other (List.mem_cons_self ..)) rest
      have equal : raw = other := by
        cases raw
        cases code
        cases body
        rfl
      rw [equal, ih (fun raw member => fit raw (List.mem_cons_of_mem _ member))
        (fun raw member => fit' raw (List.mem_cons_of_mem _ member)) later]

namespace Items

/-- Takes in items one after the other. -/
def putAll (items : Items) (raws : List RawItem) : Except DecodeError Items :=
  raws.foldlM (fun items raw => items.put raw.code raw.body) items

theorem putAll_cons (items : Items) (raw : RawItem) (raws : List RawItem) :
    items.putAll (raw :: raws) = items.put raw.code raw.body >>= (·.putAll raws) := List.foldlM_cons

/-- A frame that can be read is made of items, and all of them are taken in. -/
theorem eq_laid_of_read {items items' : Items} {frame : Bytes} (read : items.read frame = .ok items') :
    ∃ raws, (∀ raw ∈ raws, raw.Fits) ∧ frame = laid raws ∧ items.putAll raws = .ok items' := by
  fun_induction Items.read items frame with
  | case1 items => exact ⟨[], nofun, rfl, read⟩
  | case2 => cases read
  | case3 => cases read
  | case4 items code a b rest need enough taken took ih =>
    obtain ⟨raws, fit, later, all⟩ := ih read
    have bound := (Bytes.word16 a b).toNat_lt
    have count : (rest.take need).length = need := List.length_take_of_le (by omega)
    refine ⟨⟨code, rest.take need⟩ :: raws, List.forall_mem_cons.mpr ⟨?_, fit⟩, ?_, ?_⟩
    · simp only [RawItem.Fits, count, Bytes.fieldLimit]
      omega
    · have word : Bytes.ofWord16 (UInt16.ofNat need) = [a, b] := by
        rw [UInt16.ofNat_toNat, Bytes.ofWord16_word16]
      rw [laid_cons, ← later, counted, count, word]
      simp
    · rw [putAll_cons, took]
      exact all
  | case5 => cases read

theorem put_fits {items items' : Items} {raw : RawItem} (fits : items.notification.Fits) (rawFits : raw.Fits)
    (took : items.put raw.code raw.body = .ok items') : items'.notification.Fits := by
  unfold put at took
  unfold Notification.Fits notification at fits ⊢
  split at took <;> cases took
  · exact ⟨rawFits, fits.2⟩
  · exact ⟨fits.1, rawFits⟩
  all_goals exact fits

theorem putAll_fits {items items' : Items} {raws : List RawItem} (fits : items.notification.Fits)
    (fit : ∀ raw ∈ raws, raw.Fits) (all : items.putAll raws = .ok items') : items'.notification.Fits := by
  induction raws generalizing items with
  | nil =>
    cases all
    exact fits
  | cons raw raws ih =>
    rw [putAll_cons] at all
    obtain ⟨next, took, later⟩ := bind_eq_ok all
    exact ih (put_fits fits (fit raw (List.mem_cons_self ..)) took)
      (fun raw member => fit raw (List.mem_cons_of_mem _ member)) later

theorem put_identifier {items items' : Items} {body : Bytes}
    (took : items.put ItemKind.identifier.code body = .ok items') :
    ∃ identifier, body = Bytes.ofWord32 identifier ∧ items' = { items with identifier } := by
  match body, took with
  | [a, b, c, d], took =>
    cases took
    exact ⟨_, (Bytes.ofWord32_word32 a b c d).symm, rfl⟩

theorem put_expiry {items items' : Items} {body : Bytes}
    (took : items.put ItemKind.expiry.code body = .ok items') :
    ∃ expiry, body = Bytes.ofWord32 expiry ∧ items' = { items with expiry } := by
  match body, took with
  | [a, b, c, d], took =>
    cases took
    exact ⟨_, (Bytes.ofWord32_word32 a b c d).symm, rfl⟩

theorem put_priority {items items' : Items} {body : Bytes}
    (took : items.put ItemKind.priority.code body = .ok items') :
    ∃ priority, body = [priority] ∧ items' = { items with priority } := by
  match body, took with
  | [priority], took =>
    cases took
    exact ⟨priority, rfl, rfl⟩

/-- The kinds of item in the order in which they are written. -/
def order : List UInt8 :=
  [ItemKind.token.code, ItemKind.payload.code, ItemKind.identifier.code, ItemKind.expiry.code,
    ItemKind.priority.code]

/-- The items by which a notification is written. -/
def written (items : Items) : List RawItem :=
  [⟨ItemKind.token.code, items.token⟩, ⟨ItemKind.payload.code, items.payload⟩,
    ⟨ItemKind.identifier.code, Bytes.ofWord32 items.identifier⟩,
    ⟨ItemKind.expiry.code, Bytes.ofWord32 items.expiry⟩, ⟨ItemKind.priority.code, [items.priority]⟩]

theorem written_fit {items : Items} (fits : items.notification.Fits) : ∀ raw ∈ items.written, raw.Fits := by
  simpa [written, RawItem.Fits, notification, Notification.Fits, Bytes.fieldLimit] using fits

/-- Items in the order in which they are written say no more than what is written of them. -/
theorem eq_written {raws : List RawItem} {items : Items} (all : putAll {} raws = .ok items)
    (codes : raws.map RawItem.code = order) : raws = items.written := by
  match raws, codes with
  | [⟨_, token⟩, ⟨_, payload⟩, ⟨_, identifier⟩, ⟨_, expiry⟩, ⟨_, priority⟩], codes =>
    cases codes
    rw [putAll_cons] at all
    obtain ⟨_, took, all⟩ := bind_eq_ok all
    cases took
    rw [putAll_cons] at all
    obtain ⟨_, took, all⟩ := bind_eq_ok all
    cases took
    rw [putAll_cons] at all
    obtain ⟨_, took, all⟩ := bind_eq_ok all
    obtain ⟨_, rfl, rfl⟩ := put_identifier took
    rw [putAll_cons] at all
    obtain ⟨_, took, all⟩ := bind_eq_ok all
    obtain ⟨_, rfl, rfl⟩ := put_expiry took
    rw [putAll_cons] at all
    obtain ⟨_, took, all⟩ := bind_eq_ok all
    obtain ⟨_, rfl, rfl⟩ := put_priority took
    cases all
    rfl

end Items

/-- Bytes of a framed notification with these items: the command, the length of the items, the items. -/
structure IsFrame (bytes : Bytes) (raws : List RawItem) : Prop where
  fit : ∀ raw ∈ raws, raw.Fits
  short : (laid raws).length < 4294967296
  eq : bytes = 2 :: (Bytes.ofWord32 (UInt32.ofNat (laid raws).length) ++ laid raws)

/-- The items of a frame can be told from its bytes. -/
theorem IsFrame.unique {bytes : Bytes} {raws others : List RawItem} (frame : IsFrame bytes raws)
    (other : IsFrame bytes others) : others = raws := by
  have same := other.eq.symm.trans frame.eq
  rw [Bytes.ofWord32, Bytes.ofWord32] at same
  simp only [List.cons_append, List.nil_append, List.cons.injEq, true_and] at same
  exact laid_injective other.fit frame.fit same.2.2.2.2

theorem layout_notification (items : Items) :
    layout items.notification =
      2 :: (Bytes.ofWord32 (UInt32.ofNat (laid items.written).length) ++ laid items.written) := by
  have body : frameBody items.identifier items.expiry items.priority items.token items.payload =
      laid items.written := by
    simp [frameBody, laid, Items.written]
  simp only [layout, Items.notification, body]
  rfl

end Wire

namespace Notification

open Wire

/-- The bytes of a notification that can be decoded are its own encoding, or a frame of items from which it
is put together. -/
theorem decode_eq_ok {data rest : Bytes} {n : Notification} (read : decode data = .ok (n, rest)) :
    ∃ taken, data = taken ++ rest ∧ taken.head? = some n.format.command ∧ 5 ≤ taken.length ∧ n.Fits ∧
      (n.format.command ≠ 2 ∧ taken = layout n ∨
        ∃ raws items, n = items.notification ∧ IsFrame taken raws ∧ Items.putAll {} raws = .ok items) := by
  obtain ⟨bytes, ⟨rfl, legacy⟩ | ⟨rfl, enhanced⟩ | ⟨rfl, framed⟩⟩ := decode_cases read
  · obtain ⟨format, fits, rfl⟩ := decodeLegacy_eq_ok legacy
    refine ⟨0 :: (counted n.token ++ counted n.payload), rfl, ?_, ?_, fits, .inl ⟨?_, ?_⟩⟩
    · rw [format]
      rfl
    · simp only [List.length_cons, List.length_append, length_counted]
      omega
    · rw [format]
      decide
    · rw [layout, format]
      rfl
  · obtain ⟨identifier, expiry, format, fits, rfl⟩ := decodeEnhanced_eq_ok enhanced
    refine ⟨1 :: (Bytes.ofWord32 identifier ++ Bytes.ofWord32 expiry ++ counted n.token ++ counted n.payload),
      rfl, ?_, ?_, fits, .inl ⟨?_, ?_⟩⟩
    · rw [format]
      rfl
    · simp only [List.length_cons, List.length_append, length_counted, Bytes.length_ofWord32]
      omega
    · rw [format, Format.command]
      decide
    · rw [layout, format]
      rfl
  · obtain ⟨frame, items, inside, rfl, short, rfl⟩ := decodeFramed_eq_ok framed
    obtain ⟨raws, fit, rfl, all⟩ := Items.eq_laid_of_read inside
    have empty : (({} : Items).notification).Fits := by decide
    refine ⟨2 :: (Bytes.ofWord32 (UInt32.ofNat (laid raws).length) ++ laid raws), rfl, rfl, ?_,
      Items.putAll_fits empty fit all, .inr ⟨raws, items, rfl, ⟨fit, short, rfl⟩, all⟩⟩
    simp only [List.length_cons, List.length_append, Bytes.length_ofWord32]
    omega

/-- Encoding undoes decoding, up to the form of a frame. What is taken to decode a notification begins with its
command and has at least five bytes; the notification can be encoded again, and from the encoding the same
is decoded. Of the first two formats the encoding is what was taken. What was taken of the third is a frame
whose items are certain, and the encoding is that frame just when they are the five that have a meaning,
once each and in the order in which they are written. -/
theorem decode_round_trip {data rest : Bytes} {n : Notification} (read : decode data = .ok (n, rest)) :
    ∃ taken bytes, data = taken ++ rest ∧ taken.head? = some n.format.command ∧ 5 ≤ taken.length ∧
      n.encode = .ok bytes ∧ (∀ more, decode (bytes ++ more) = .ok (n, more)) ∧
      (n.format.command = 0 ∨ n.format.command = 1 → bytes = taken) ∧
      (n.format.command = 2 → ∃ raws, IsFrame taken raws ∧ (∀ others, IsFrame taken others → others = raws) ∧
        (bytes = taken ↔ raws.map RawItem.code = Items.order)) := by
  obtain ⟨taken, split, head, long, fits, form⟩ := decode_eq_ok read
  have encoded := fits.encode
  refine ⟨taken, layout n, split, head, long, encoded, decode_append encoded, ?_, ?_⟩
  · intro plain
    rcases form with ⟨_, same⟩ | ⟨_, items, rfl, _⟩
    · exact same.symm
    · simp [Items.notification, Format.command] at plain
  · intro framed
    rcases form with ⟨other, _⟩ | ⟨raws, items, rfl, frame, all⟩
    · exact absurd framed other
    refine ⟨raws, frame, fun others other => frame.unique other, ?_⟩
    rw [layout_notification]
    constructor
    · intro same
      have length := congrArg List.length (same.trans frame.eq)
      simp only [List.length_cons, List.length_append, Bytes.length_ofWord32] at length
      have short : (laid items.written).length < 4294967296 := by
        have := frame.short
        omega
      rw [← frame.unique ⟨Items.written_fit fits, short, same.symm⟩]
      rfl
    · intro ordered
      rw [frame.eq, Items.eq_written all ordered]

/-- A frame in which an item has no meaning, one comes twice, and some are missing: what is decoded is written
in other bytes, from which the same is decoded. -/
theorem decode_round_trip_untidy :
    let raws : List RawItem := [⟨9, [5]⟩, ⟨2, [123]⟩, ⟨1, [1, 2]⟩, ⟨1, [3]⟩]
    let frame := 2 :: (Bytes.ofWord32 17 ++ laid raws)
    let n : Notification := ⟨.framed 0 0 10, [3], [123]⟩
    decode (frame ++ [255]) = .ok (n, [255]) ∧
      ∃ bytes, n.encode = .ok bytes ∧ bytes ≠ frame ∧ ∀ more, decode (bytes ++ more) = .ok (n, more) := by
  intro raws frame n
  have read : decode (frame ++ [255]) = .ok (n, [255]) := by cbv
  obtain ⟨taken, bytes, split, _, _, encoded, again, _, framed⟩ := decode_round_trip read
  obtain rfl : frame = taken := List.append_cancel_right split
  obtain ⟨items, _, certain, ordered⟩ := framed rfl
  have known : raws = items := certain raws ⟨by decide, by decide, rfl⟩
  refine ⟨read, bytes, encoded, fun same => ?_, again⟩
  exact absurd (known ▸ ordered.mp same) (by decide)

end Notification
end PushGateway
