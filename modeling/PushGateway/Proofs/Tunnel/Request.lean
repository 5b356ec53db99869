import Mathlib.Data.List.Infix
import PushGateway.Proofs.Text.Ascii
import PushGateway.Proofs.Tunnel.Response

namespace PushGateway.Tunnel

def lineEnd : Bytes := [13, 10]

/-- How many lines end among these bytes. -/
def lineEnds : Bytes → Nat
  | [] => 0
  | b :: rest => lineEnds rest + if lineEnd <+: b :: rest then 1 else 0

/-- Bytes that are a header block: lines of which each ends with the first line end in it, and an empty line behind
them, which is the first one. -/
structure HeaderBlock (lines : List Bytes) (bytes : Bytes) : Prop where
  split : bytes = (lines ++ [[]]).flatMap (· ++ lineEnd)
  unbroken : ∀ line ∈ lines, ¬ lineEnd <:+: line
  ends : FirstEnds bytes bytes.length

/-- The first line of a request for a tunnel. -/
def requestLine (host : String) (port : UInt16) : String :=
  "CONNECT " ++ host ++ ":" ++ toString port ++ " HTTP/1.1"

/-- The lines of a request for a tunnel, where its host has no line ends. -/
def requestLines (host : String) (port : UInt16) : List String :=
  [requestLine host port, "Host: " ++ host ++ ":" ++ toString port, "Proxy-Connection: Keep-Alive"]

variable {lines : List Bytes} {bytes more : Bytes} {host : String} {port : UInt16}

theorem lineEnds_eq_zero : lineEnds bytes = 0 ↔ ¬ lineEnd <:+: bytes := by
  induction bytes with
  | nil => simp [lineEnds, lineEnd]
  | cons b rest ih =>
    rw [List.infix_cons_iff, lineEnds, Nat.add_eq_zero_iff, ih]
    by_cases here : lineEnd <+: b :: rest <;> simp [here]

/-- No line end comes about where bytes are put together, unless one half of it is on either side. -/
theorem lineEnds_append (apart : bytes.getLast? ≠ some 13 ∨ more.head? ≠ some 10) :
    lineEnds (bytes ++ more) = lineEnds bytes + lineEnds more := by
  induction bytes with
  | nil => simp [lineEnds]
  | cons b rest ih =>
    cases rest with
    | nil =>
      have across : ¬ lineEnd <+: b :: more := by
        rintro ⟨_, same⟩
        cases same
        rcases apart with last | first
        · exact last rfl
        · exact first rfl
      have alone : ¬ lineEnd <+: [b] := by simp [lineEnd]
      simp [lineEnds, across, alone]
    | cons c rest =>
      have here : lineEnd <+: b :: (c :: rest ++ more) ↔ lineEnd <+: b :: c :: rest := by simp [lineEnd]
      have later := ih (by simpa only [List.getLast?_cons_cons] using apart)
      simp only [List.cons_append] at here later ⊢
      rw [lineEnds, later, lineEnds.eq_2 b]
      simp only [here]
      omega

theorem lineEnds_line (line more : Bytes) :
    lineEnds ((line ++ lineEnd) ++ more) = lineEnds line + 1 + lineEnds more := by
  have ended : lineEnds (line ++ lineEnd) = lineEnds line + 1 := lineEnds_append (.inr (by decide))
  rw [lineEnds_append (.inl (by simp [lineEnd])), ended]

/-- Bytes that begin with a line end begin with an empty line. -/
theorem eq_nil_of_begins_lineEnd {line : Bytes} (unbroken : ¬ lineEnd <:+: line)
    (begins : lineEnd <+: line ++ (lineEnd ++ more)) : line = [] := by
  obtain ⟨_, same⟩ := begins
  match line with
  | [] => rfl
  | [b] => simp [lineEnd] at same
  | b :: c :: rest =>
    simp only [lineEnd, List.cons_append, List.nil_append, List.cons.injEq] at same
    obtain ⟨rfl, rfl, _⟩ := same
    exact absurd (List.prefix_append [13, 10] rest).isInfix unbroken

/-- Where no line but the last is empty, two line ends meet only at the end. -/
theorem nothing_behind {before after : Bytes} (solid : ∀ line ∈ lines, line ≠ [] ∧ ¬ lineEnd <:+: line)
    (split : (lines ++ [[]]).flatMap (· ++ lineEnd) = before ++ (lineEnd ++ (lineEnd ++ after))) : after = [] := by
  induction lines generalizing before with
  | nil =>
    have short := congrArg List.length split
    simp only [lineEnd, List.nil_append, List.flatMap_cons, List.flatMap_nil, List.length_append, List.length_cons,
      List.length_nil] at short
    omega
  | cons line later ih =>
    rw [List.forall_mem_cons] at solid
    rw [List.cons_append, List.flatMap_cons, List.append_assoc] at split
    -- An empty line right behind this one is the last.
    have meets (same : (later ++ [[]]).flatMap (· ++ lineEnd) = lineEnd ++ after) : after = [] := by
      cases later with
      | nil => exact (List.append_cancel_left same).symm
      | cons next _ =>
        rw [List.cons_append, List.flatMap_cons, List.append_assoc] at same
        have next := (List.forall_mem_cons.mp solid.2).1
        exact absurd (eq_nil_of_begins_lineEnd next.2 ⟨after, same.symm⟩) next.1
    rcases List.append_eq_append_iff.mp split with ⟨inside, rfl, same⟩ | ⟨inside, rfl, same⟩
    · match inside with
      | [] => exact meets (List.append_cancel_left same)
      | [b] => simp [lineEnd] at same
      | b :: c :: inside =>
        simp only [lineEnd, List.cons_append, List.nil_append, List.cons.injEq] at same
        exact ih solid.2 same.2.2
    · match inside with
      | [] => exact meets (List.append_cancel_left same.symm)
      | [b] => simp [lineEnd] at same
      | b :: c :: inside =>
        simp only [lineEnd, List.cons_append, List.nil_append, List.cons.injEq] at same
        obtain ⟨rfl, rfl, _⟩ := same
        exact absurd ⟨before, inside, by simp [lineEnd]⟩ solid.1.2

theorem headerBlock_of_lines (some : lines ≠ []) (solid : ∀ line ∈ lines, line ≠ [] ∧ ¬ lineEnd <:+: line)
    (split : bytes = (lines ++ [[]]).flatMap (· ++ lineEnd)) : HeaderBlock lines bytes := by
  refine ⟨split, fun line member => (solid line member).2, Nat.le_refl _, ?_, fun fewer less ends => ?_⟩
  · obtain rfl | ⟨earlier, last, rfl⟩ := List.eq_nil_or_concat' lines
    · exact absurd rfl some
    · refine ⟨earlier.flatMap (· ++ lineEnd) ++ last, ?_⟩
      rw [List.take_length, split]
      simp [lineEnd]
  · obtain ⟨before, same⟩ := ends
    have whole := List.take_append_drop fewer bytes
    rw [← same, split, List.append_assoc] at whole
    have nothing := nothing_behind solid whole.symm
    rw [← split, List.drop_eq_nil_iff] at nothing
    omega

theorem isDigit_of_mem_port {c : Char} (member : c ∈ (toString port).toList) : c.isDigit = true := by
  have text : toString port = String.ofList (Nat.toDigits 10 port.toNat) := Nat.repr_eq_ofList_toDigits
  rw [text, String.toList_ofList] at member
  exact Nat.isDigit_of_mem_toDigits (by decide) (by decide) member

theorem port_inj {port port' : UInt16} (same : toString port = toString port') : port = port' := by
  have text (port : UInt16) : (toString port).toList = Nat.toDigits 10 port.toNat := by
    rw [← String.toList_ofList (l := Nat.toDigits 10 port.toNat), ← Nat.repr_eq_ofList_toDigits]
    rfl
  have digits := congrArg (fun text => Nat.ofDigitChars 10 text.toList 0) same
  simp only [text, Nat.ofDigitChars_toDigits (b := 10) (by decide) (by decide)] at digits
  exact UInt16.toNat_inj.mp digits

/-- An address is split at its last colon. -/
theorem address_inj {host host' port port' : List Char} (plain : ':' ∉ port) (plain' : ':' ∉ port')
    (same : host ++ ':' :: port = host' ++ ':' :: port') : host = host' ∧ port = port' := by
  rcases List.append_eq_append_iff.mp same with ⟨between, rfl, rest⟩ | ⟨between, rfl, rest⟩
  · cases between with
    | nil => exact ⟨(List.append_nil host).symm, (List.cons.inj rest).2⟩
    | cons c between =>
      obtain ⟨rfl, rfl⟩ := List.cons.inj rest
      exact absurd (List.mem_append_right between List.mem_cons_self) plain
  · cases between with
    | nil => exact ⟨List.append_nil host', (List.cons.inj rest).2.symm⟩
    | cons c between =>
      obtain ⟨rfl, rfl⟩ := List.cons.inj rest
      exact absurd (List.mem_append_right between List.mem_cons_self) plain'

/-- The first line of a request gives back host and port. -/
theorem requestLine_inj {host' : String} {port' : UInt16} :
    requestLine host' port' = requestLine host port ↔ host' = host ∧ port' = port := by
  refine ⟨fun same => ?_, fun ⟨host, port⟩ => by rw [host, port]⟩
  have chars (host : String) (port : UInt16) : (requestLine host port).toList =
      "CONNECT ".toList ++ (host.toList ++ ':' :: (toString port).toList) ++ " HTTP/1.1".toList := by
    simp [requestLine, String.toList_append]
  have plain (port : UInt16) : ':' ∉ (toString port).toList := fun member =>
    absurd (isDigit_of_mem_port member) (by decide)
  have lists := congrArg String.toList same
  rw [chars, chars] at lists
  have address := List.append_cancel_left (List.append_cancel_right lists)
  obtain ⟨hosts, ports⟩ := address_inj (plain port') (plain port) address
  exact ⟨String.toList_inj.mp hosts, port_inj (String.toList_inj.mp ports)⟩

theorem lineEnds_of_not_mem (clear : 13 ∉ bytes) : lineEnds bytes = 0 :=
  lineEnds_eq_zero.mpr fun inside => clear (inside.subset List.mem_cons_self)

theorem not_mem_port : 13 ∉ Text.utf8 (toString port) := by
  rw [Text.utf8_eq_flatMap, List.mem_flatMap]
  rintro ⟨c, member, byte⟩
  have digit := isDigit_of_mem_port member
  simp only [Char.isDigit, Bool.and_eq_true, decide_eq_true_eq, UInt32.le_iff_toNat_le] at digit
  obtain ⟨lower, upper⟩ : 48 ≤ c.toNat ∧ c.toNat ≤ 57 := digit
  have small : c.toNat < 128 := by omega
  rw [Text.encodeChar_ascii small, List.mem_singleton] at byte
  have number := congrArg UInt8.toNat byte
  rw [UInt8.toNat_ofNat', show (13 : UInt8).toNat = 13 from rfl] at number
  omega

/-- The bytes of an address with something in front of it and behind it have the line ends of the host. -/
theorem lineEnds_address {front behind : String} (before : 13 ∉ Text.utf8 front) (after : 13 ∉ Text.utf8 behind) :
    lineEnds (Text.utf8 (front ++ host ++ ":" ++ toString port ++ behind)) = lineEnds (Text.utf8 host) := by
  have colon : Text.utf8 ":" = [58] := rfl
  have rest : 13 ∉ [58] ++ (Text.utf8 (toString port) ++ Text.utf8 behind) := by
    simp [not_mem_port, after]
  simp only [Text.utf8_append, List.append_assoc, colon]
  rw [lineEnds_append (.inl fun last => before (List.mem_of_getLast? last)), lineEnds_append (.inr (by simp)),
    lineEnds_of_not_mem before, lineEnds_of_not_mem rest, Nat.zero_add, Nat.add_zero]

theorem utf8_connectRequest (host : String) (port : UInt16) : Text.utf8 (connectRequest host port) =
    ((requestLines host port).map Text.utf8 ++ [[]]).flatMap (· ++ lineEnd) := by
  have first : Text.utf8 " HTTP/1.1\r\nHost: " = Text.utf8 " HTTP/1.1" ++ (lineEnd ++ Text.utf8 "Host: ") := rfl
  have second : Text.utf8 "\r\nProxy-Connection: Keep-Alive\r\n\r\n" =
      lineEnd ++ (Text.utf8 "Proxy-Connection: Keep-Alive" ++ (lineEnd ++ lineEnd)) := rfl
  have whole : connectRequest host port = "CONNECT " ++ host ++ ":" ++ toString port ++ " HTTP/1.1\r\nHost: " ++
    host ++ ":" ++ toString port ++ "\r\nProxy-Connection: Keep-Alive\r\n\r\n" := rfl
  simp only [whole, requestLines, requestLine, Text.utf8_append, first, second, List.map_cons, List.map_nil,
    List.cons_append, List.nil_append, List.flatMap_cons, List.flatMap_nil, List.append_assoc, List.append_nil]

theorem lineEnds_requestLine : lineEnds (Text.utf8 (requestLine host port)) = lineEnds (Text.utf8 host) :=
  @lineEnds_address host port "CONNECT " " HTTP/1.1" (by decide) (by decide)

theorem lineEnds_hostLine :
    lineEnds (Text.utf8 ("Host: " ++ host ++ ":" ++ toString port)) = lineEnds (Text.utf8 host) := by
  rw [← String.append_empty (s := "Host: " ++ host ++ ":" ++ toString port), lineEnds_address (by decide) (by decide)]

theorem lineEnds_lastLine : lineEnds (Text.utf8 "Proxy-Connection: Keep-Alive") = 0 := lineEnds_of_not_mem (by decide)

/-- Each line end in a host is sent twice. -/
theorem lineEnds_connectRequest (host : String) (port : UInt16) :
    lineEnds (Text.utf8 (connectRequest host port)) = 4 + 2 * lineEnds (Text.utf8 host) := by
  rw [utf8_connectRequest]
  simp only [requestLines, List.map_cons, List.map_nil, List.cons_append, List.nil_append, List.flatMap_cons,
    List.flatMap_nil, lineEnds_line, lineEnds_requestLine, lineEnds_hostLine, lineEnds_lastLine, List.append_nil]
  have last : lineEnds lineEnd = 1 := by decide
  omega

theorem lineEnds_of_unbroken (unbroken : ∀ line ∈ lines, ¬ lineEnd <:+: line) :
    lineEnds (lines.flatMap (· ++ lineEnd)) = lines.length := by
  induction lines with
  | nil => rfl
  | cons line later ih =>
    rw [List.forall_mem_cons] at unbroken
    rw [List.flatMap_cons, lineEnds_line, lineEnds_eq_zero.mpr unbroken.1, ih unbroken.2, List.length_cons]
    omega

theorem HeaderBlock.lineEnds_eq (block : HeaderBlock lines bytes) : lineEnds bytes = lines.length + 1 := by
  have unbroken : ∀ line ∈ lines ++ [[]], ¬ lineEnd <:+: line := by
    rw [List.forall_mem_append]
    exact ⟨block.unbroken, by simp [lineEnd]⟩
  rw [block.split, lineEnds_of_unbroken unbroken, List.length_append]
  rfl

/-- A request is one header block of three lines exactly if its host has no line end. -/
theorem headerBlock_connectRequest_iff :
    (∃ first second third, HeaderBlock [first, second, third] (Text.utf8 (connectRequest host port)) ∧
      ∀ host' port', first = Text.utf8 (requestLine host' port') ↔ host' = host ∧ port' = port) ↔
    ¬ lineEnd <:+: Text.utf8 host := by
  rw [← lineEnds_eq_zero]
  constructor
  · rintro ⟨first, second, third, block, _⟩
    have count := lineEnds_connectRequest host port
    rw [block.lineEnds_eq] at count
    simp only [List.length_cons, List.length_nil] at count
    omega
  · intro clear
    have solid : ∀ line ∈ (requestLines host port).map Text.utf8, line ≠ [] ∧ ¬ lineEnd <:+: line := by
      have some : Text.utf8 "CONNECT " ≠ [] ∧ Text.utf8 "Host: " ≠ [] ∧
        Text.utf8 "Proxy-Connection: Keep-Alive" ≠ [] := by decide
      simp only [requestLines, List.map_cons, List.map_nil, List.forall_mem_cons, ← lineEnds_eq_zero,
        lineEnds_requestLine, lineEnds_hostLine, lineEnds_lastLine, clear]
      simp [requestLine, Text.utf8_append, some]
    refine ⟨_, _, _, headerBlock_of_lines nofun solid (utf8_connectRequest host port), fun host' port' => ?_⟩
    rw [← requestLine_inj]
    exact ⟨fun same => (Text.utf8_inj same).symm, fun same => congrArg Text.utf8 same.symm⟩

/-- A peer that takes all receives the whole request, and nothing else. -/
theorem received_httpConnect {peer : Peer} (takes : peer.TakesAll) :
    ((httpConnect host port).against peer).2.received = peer.received ++ Text.utf8 (connectRequest host port) := by
  have taken := takes.writeAll (Text.utf8 (connectRequest host port))
  rcases written : peer.writeAll (Text.utf8 (connectRequest host port)) with ⟨cause | ⟨⟩, after⟩
  · rw [written] at taken
    cases taken
  rcases flushed : after.flush with ⟨cause | ⟨⟩, heard⟩
  · have run : (httpConnect host port).against peer = (.error (.stream .connectRequest cause), heard) := by
      simp only [Negotiation.against, httpConnect, Negotiation.run_bind, Negotiation.write, Negotiation.flush, written,
        flushed]
    have received := (Peer.exchanged_of_writeAll written).received
    unfold Peer.flush at flushed
    split at flushed <;> cases flushed
    rw [run, ← received]
  · have hears : peer.Hears (Text.utf8 (connectRequest host port)) heard := ⟨after, written, flushed⟩
    rw [httpConnect_of_hears hears]
    exact hears.received

end PushGateway.Tunnel
