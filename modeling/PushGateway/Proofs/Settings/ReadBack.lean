import PushGateway.Settings.Form
import PushGateway.Proofs.Json.Records

namespace PushGateway

open Json (Reader RecordShape Variant Solid)

namespace Json

theorem Reader.reads_word16 (n : UInt16) : Reader.word16.Reads (.natural n.toUInt64) n := by
  have reads := (Reader.reads_natural 65535 (n := n.toUInt64)
    (by have := n.toNat_lt; rw [UInt16.toNat_toUInt64]; omega)).map UInt16.ofNat
  rwa [UInt16.toNat_toUInt64, UInt16.ofNat_toNat] at reads

theorem Reader.reads_word32 (n : UInt32) : Reader.word32.Reads (.natural n.toUInt64) n := by
  have reads := (Reader.reads_natural 4294967295 (n := n.toUInt64)
    (by have := n.toNat_lt; rw [UInt32.toNat_toUInt64]; omega)).map UInt32.ofNat
  rwa [UInt32.toNat_toUInt64, UInt32.ofNat_toNat] at reads

theorem Reader.reads_word64 (n : UInt64) : Reader.word64.Reads (.natural n) n := by
  have reads := (Reader.reads_natural 18446744073709551615 (n := n)
    (by have := n.toNat_lt; omega)).map UInt64.ofNat
  rwa [UInt64.ofNat_toNat] at reads

theorem Reader.reads_option {α : Type} {inner : Reader α} {form : α → Json}
    (reads : ∀ value, inner.Reads (form value) value) (solid : ∀ value, Solid (form value)) :
    (value : Option α) → (Reader.optional inner).Reads (.option form value) value
  | none => Reader.reads_null inner
  | some value => (reads value).optional (solid value)

end Json

open Json.RecordShape.Fills (nil cons)

theorem Duration.ofParts?_parts (d : Duration) : Duration.ofParts? d.secs (UInt32.ofNat d.nanos.val) = some d := by
  have small : d.nanos.val % 4294967296 = d.nanos.val := Nat.mod_eq_of_lt (by omega)
  have below : d.nanos.val / 1000000000 = 0 := Nat.div_eq_of_lt d.nanos.isLt
  have rest : d.nanos.val % 1000000000 = d.nanos.val := Nat.mod_eq_of_lt d.nanos.isLt
  have fits := d.secs.toNat_lt
  simp only [ofParts?, UInt32.toNat_ofNat', Nat.reducePow, small, below, rest, Nat.add_zero]
  rw [if_pos fits, UInt64.ofNat_toNat]

theorem Duration.reads (d : Duration) : Duration.reader.Reads d.toJson d := by
  have nanos : UInt64.ofNat d.nanos.val = (UInt32.ofNat d.nanos.val).toUInt64 := by
    rw [← UInt64.toNat_inj]
    simp only [UInt64.toNat_ofNat', UInt32.toNat_toUInt64, UInt32.toNat_ofNat']
    omega
  rw [toJson, nanos]
  exact RecordShape.Fills.reads
    (cons rfl rfl ((Json.Reader.reads_word64 _).map _) <| cons rfl rfl ((Json.Reader.reads_word32 _).map _) nil)
    (by exact Duration.ofParts?_parts d)

theorem Proxy.reads (p : Proxy) : Proxy.reader.Reads p.toJson p := by
  cases p with
  | none => exact Variant.reads_plain rfl
  | http host port =>
    exact Variant.reads_holding rfl <| RecordShape.Fills.reads
      (cons rfl rfl ((Json.Reader.reads_text _).map _) <| cons rfl rfl ((Json.Reader.reads_word16 _).map _) nil) rfl
  | socks host port user password =>
    have optional := Json.Reader.reads_option Json.Reader.reads_text Json.solid_text
    exact Variant.reads_holding rfl <| RecordShape.Fills.reads
      (cons rfl rfl ((Json.Reader.reads_text _).map _) <| cons rfl rfl ((Json.Reader.reads_word16 _).map _) <|
        cons rfl rfl ((optional _).map _) <| cons rfl rfl ((optional _).map _) nil) rfl

theorem Endpoint.reads (e : Endpoint) : Endpoint.reader.Reads e.toJson e :=
  RecordShape.Fills.reads
    (cons rfl rfl ((Json.Reader.reads_text _).map _) <| cons rfl rfl ((Json.Reader.reads_word16 _).map _) <|
      cons rfl rfl (e.proxy.reads.map _) <| cons rfl rfl ((Json.Reader.reads_word64 _).map _) <|
      cons rfl rfl ((Json.Reader.reads_option Json.Reader.reads_word64 Json.solid_natural _).map _) nil) rfl

theorem Retry.reads (r : Retry) : Retry.reader.Reads r.toJson r :=
  RecordShape.Fills.reads
    (cons rfl rfl ((Json.Reader.reads_word32 _).map _) <| cons rfl rfl (r.delay.reads.map _) nil) rfl

theorem ReconnectRule.reads (r : ReconnectRule) : ReconnectRule.reader.Reads r.toJson r := by
  cases r with
  | never => exact Variant.reads_plain rfl
  | always => exact Variant.reads_plain rfl
  | afterSends uses => exact Variant.reads_holding rfl ((Json.Reader.reads_word32 _).map _)
  | afterDuration age => exact Variant.reads_holding rfl (age.reads.map _)

theorem Settings.reads (s : Settings) : Settings.reader.Reads s.toJson s :=
  RecordShape.Fills.reads
    (cons rfl rfl (s.gateway.reads.map _) <| cons rfl rfl (s.feedback.reads.map _) <|
      cons rfl rfl (s.retry.reads.map _) <| cons rfl rfl (s.reconnect.reads.map _) <|
      cons rfl rfl ((Json.Reader.reads_bool _).map _) nil) rfl

/-- Every value reads back from its text, and what has been read back has that same text again. -/
def Json.Survives {α : Type} (form : α → Json) (reader : Reader α) : Prop :=
  ∀ value, Json.readAs reader (form value).compact = .ok value ∧
    (Json.readAs reader (form value).compact).map (fun again => (form again).compact) = .ok (form value).compact

theorem Json.survives_of_reads {α : Type} {form : α → Json} {reader : Reader α}
    (reads : ∀ value, reader.Reads (form value) value) : Json.Survives form reader := by
  intro value
  have back := (reads value).readAs
  exact ⟨back, by rw [back]; rfl⟩

/-- Settings, and each of their parts, survive being written and read. -/
theorem Settings.survive_json :
    Json.Survives Settings.toJson Settings.reader ∧ Json.Survives Endpoint.toJson Endpoint.reader ∧
      Json.Survives Proxy.toJson Proxy.reader ∧ Json.Survives Retry.toJson Retry.reader ∧
      Json.Survives ReconnectRule.toJson ReconnectRule.reader :=
  ⟨Json.survives_of_reads Settings.reads, Json.survives_of_reads Endpoint.reads, Json.survives_of_reads Proxy.reads,
    Json.survives_of_reads Retry.reads, Json.survives_of_reads ReconnectRule.reads⟩

end PushGateway
