import PushGateway.Feedback.Record
import PushGateway.Proofs.Feedback.Filling
import PushGateway.Proofs.Wire.Stream

namespace PushGateway.Feedback

open Wire

namespace Record

theorem encode_eq_ok_iff {record : Record} {piece : Bytes} :
    record.encode = .ok piece ↔
      record.token.length ≤ Bytes.fieldLimit ∧ piece = Bytes.ofWord32 record.timestamp ++ counted record.token := by
  unfold encode
  split
  · rename_i long
    simp only [reduceCtorEq, false_iff, not_and]
    omega
  · rename_i fits
    simp only [Except.ok.injEq, eq_comm, Nat.not_lt.mp fits, true_and]

theorem length_of_encode {record : Record} {piece : Bytes} (encoded : record.encode = .ok piece) :
    piece.length = 6 + record.token.length := by
  rw [(encode_eq_ok_iff.mp encoded).2]
  simp only [List.length_append, Bytes.length_ofWord32, length_counted]
  omega

/-- Where a record ends can be told from its bytes. -/
theorem encode_append_inj {record other : Record} {piece piece' rest rest' : Bytes}
    (encoded : record.encode = .ok piece) (encoded' : other.encode = .ok piece')
    (same : piece ++ rest = piece' ++ rest') : record = other ∧ piece = piece' ∧ rest = rest' := by
  obtain ⟨fits, rfl⟩ := encode_eq_ok_iff.mp encoded
  obtain ⟨fits', rfl⟩ := encode_eq_ok_iff.mp encoded'
  rw [List.append_assoc, List.append_assoc] at same
  have time := takeWord32_append .identifier record.timestamp (counted record.token ++ rest)
  rw [same, takeWord32_append] at time
  simp only [Except.ok.injEq, Prod.mk.injEq] at time
  obtain ⟨token, later⟩ := counted_append_inj fits fits' time.2.symm
  have equal : record = other := by
    cases record
    cases token
    cases time.1
    rfl
  exact ⟨equal, by rw [equal], later⟩

/-- A header announces the token behind it. -/
theorem announced {record : Record} {piece more : Bytes} {a b c d e f : UInt8}
    (encoded : record.encode = .ok piece) (begins : piece <+: a :: b :: c :: d :: e :: f :: more) :
    (Bytes.word16 e f).toNat ≤ more.length := by
  obtain ⟨rest, split⟩ := begins
  have long := congrArg List.length split
  obtain ⟨fits, rfl⟩ := encode_eq_ok_iff.mp encoded
  simp only [Bytes.ofWord32, counted, Bytes.ofWord16, List.cons_append, List.nil_append, List.cons.injEq] at split
  obtain ⟨_, _, _, _, rfl, rfl, rfl⟩ := split
  rw [Bytes.word16_bytes, toNat_ofNat_length fits, List.length_append]
  exact Nat.le_add_right ..

end Record

theorem exists_encodings {records : List Record} (fit : ∀ record ∈ records, record.token.length ≤ Bytes.fieldLimit) :
    ∃ pieces : List Bytes, records.map Record.encode = pieces.map .ok := by
  refine ⟨records.map fun record => Bytes.ofWord32 record.timestamp ++ counted record.token, ?_⟩
  rw [List.map_map]
  exact List.map_congr_left fun record member => Record.encode_eq_ok_iff.mpr ⟨fit record member, rfl⟩

/-- No whole record stands at the front. -/
def Incomplete (bytes : Bytes) : Prop :=
  ∀ (record : Record) (piece : Bytes), record.encode = .ok piece → ¬ piece <+: bytes

theorem incomplete_of_short {bytes : Bytes} (short : bytes.length < 6) : Incomplete bytes := by
  intro record piece encoded begins
  have := Record.length_of_encode encoded
  have := begins.length_le
  omega

/-- Of whole records with an incomplete one behind them, each list of records at the front is a part. -/
theorem prefix_of_incomplete {records others : List Record} {pieces pieces' : List Bytes} {tail : Bytes}
    (encoded : records.map Record.encode = pieces.map .ok) (encoded' : others.map Record.encode = pieces'.map .ok)
    (incomplete : Incomplete tail) (begins : pieces'.flatten <+: pieces.flatten ++ tail) :
    others <+: records ∧ pieces'.flatten <+: pieces.flatten := by
  induction others generalizing records pieces pieces' with
  | nil =>
    obtain rfl : pieces' = [] := by simpa using encoded'
    exact ⟨List.nil_prefix, List.nil_prefix⟩
  | cons other others ih =>
    obtain ⟨piece', pieces', rfl⟩ : ∃ piece' more, pieces' = piece' :: more :=
      List.exists_cons_of_ne_nil (by rintro rfl; cases encoded')
    obtain ⟨first', more'⟩ := List.cons.inj encoded'
    obtain ⟨rest, split⟩ := begins
    rw [List.flatten_cons, List.append_assoc] at split
    cases records with
    | nil =>
      obtain rfl : pieces = [] := by simpa [eq_comm] using encoded
      exact absurd ⟨_, split⟩ (incomplete other piece' first')
    | cons record records =>
      obtain ⟨piece, pieces, rfl⟩ : ∃ piece more, pieces = piece :: more :=
        List.exists_cons_of_ne_nil (by rintro rfl; cases encoded)
      obtain ⟨first, more⟩ := List.cons.inj encoded
      rw [List.flatten_cons, List.append_assoc] at split
      obtain ⟨rfl, rfl, later⟩ := Record.encode_append_inj first' first split
      obtain ⟨part, front⟩ := ih more more' ⟨rest, later⟩
      rw [List.flatten_cons, List.flatten_cons]
      exact ⟨(List.prefix_cons_inj other).mpr part, (List.prefix_append_right_inj piece').mpr front⟩

end PushGateway.Feedback
