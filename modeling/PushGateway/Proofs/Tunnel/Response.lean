import Mathlib.Logic.Function.Iterate
import PushGateway.Tunnel.Http
import PushGateway.Proofs.Tunnel.Exchange

namespace PushGateway

namespace Inbound

/-- The bytes that come before the stream first ends or a read first fails. -/
def opening : Inbound → Bytes
  | .bytes bytes :: later => bytes ++ opening later
  | _ => []

/-- The failure behind them, if it is not the end of the stream. -/
def halt : Inbound → Option IoError
  | .bytes _ :: later => halt later
  | .failure error _ :: _ => some error
  | _ => none

/-- What is left when it has been read from so often, one byte at a time. -/
def afterReads (count : Nat) : Inbound → Inbound := (fun inbound => (inbound.read 1).2)^[count]

/-- What one read of a byte comes to. -/
theorem read_one (inbound : Inbound) :
    (∃ b rest, inbound.read 1 = (.ok [b], rest) ∧ inbound.opening = b :: rest.opening ∧ rest.halt = inbound.halt ∧
      inbound.remaining = b :: rest.remaining) ∨
    ∃ rest, inbound.read 1 = (inbound.halt.elim (.ok []) .error, rest) ∧ inbound.opening = [] ∧
      inbound.remaining = rest.remaining := by
  induction inbound with
  | nil => exact .inr ⟨[], rfl, rfl, rfl⟩
  | cons arrival later ih =>
    cases arrival with
    | failure error closing => exact .inr ⟨later, rfl, rfl, rfl⟩
    | ending => exact .inr ⟨later, rfl, rfl, rfl⟩
    | bytes bytes =>
      match bytes with
      | [] => exact ih
      | [b] => exact .inl ⟨b, later, rfl, rfl, rfl, rfl⟩
      | b :: c :: more => exact .inl ⟨b, .bytes (c :: more) :: later, rfl, rfl, rfl, rfl⟩

theorem afterReads_succ (count : Nat) (inbound : Inbound) :
    inbound.afterReads (count + 1) = (inbound.read 1).2.afterReads count := Function.iterate_succ_apply ..

/-- Each read takes one byte, up to the first that brings none. -/
theorem remaining_afterReads {count : Nat} {inbound : Inbound} (within : count ≤ inbound.opening.length + 1) :
    inbound.remaining = inbound.opening.take count ++ (inbound.afterReads count).remaining := by
  induction count generalizing inbound with
  | zero => rfl
  | succ count ih =>
    rw [afterReads_succ]
    rcases inbound.read_one with ⟨b, rest, read, opens, _, left⟩ | ⟨rest, read, nothing, left⟩
    · rw [opens, List.length_cons] at within
      rw [read, opens, left, List.take_succ_cons, ih (by omega)]
      rfl
    · rw [nothing, List.length_nil] at within
      obtain rfl : count = 0 := by omega
      rw [read, nothing, left]
      rfl

end Inbound

namespace Peer

/-- The peer takes all of the bytes, and they are flushed. -/
def Hears (bytes : Bytes) (peer heard : Peer) : Prop :=
  ∃ after, peer.writeAll bytes = (.ok (), after) ∧ after.flush = (.ok (), heard)

theorem inbound_take (bytes : Bytes) (peer : Peer) : (peer.take bytes).2.inbound = peer.inbound := by
  unfold take
  split
  · rfl
  · simp only
    split <;> rfl

/-- Writing takes nothing from what the peer sends. -/
theorem inbound_writeAll (bytes : Bytes) (peer : Peer) : (peer.writeAll bytes).2.inbound = peer.inbound := by
  unfold writeAll
  split
  · exact inbound_take ..
  rename_i after error _
  simp only
  split
  · exact inbound_take ..
  have first := inbound_take (bytes.take (after - peer.received.length)) peer
  split
  · rename_i short
    rwa [short] at first
  · rename_i room
    rw [room] at first
    split
    · rw [inbound_take]
      exact first
    · exact first

theorem inbound_flush (peer : Peer) : peer.flush.2.inbound = peer.inbound := by
  unfold flush
  split <;> rfl

theorem Hears.received {bytes : Bytes} {peer heard : Peer} (hears : peer.Hears bytes heard) :
    heard.received = peer.received ++ bytes := by
  obtain ⟨after, written, flushed⟩ := hears
  obtain ⟨writeFailure, -, rfl⟩ := writeAll_ok written
  unfold flush at flushed
  split at flushed <;> cases flushed
  rfl

theorem Hears.inbound {bytes : Bytes} {peer heard : Peer} (hears : peer.Hears bytes heard) :
    heard.inbound = peer.inbound := by
  obtain ⟨after, written, flushed⟩ := hears
  rw [← inbound_writeAll bytes peer, written, ← after.inbound_flush, flushed]

end Peer

namespace Text

/-- The longest runs of characters that are not white space. -/
def words (text : List Char) : List (List Char) := (text.splitOnP isBlank).filter (!·.isEmpty)

theorem words_blank {c : Char} (blank : isBlank c = true) (text : List Char) : words (c :: text) = words text := by
  rw [words, List.splitOnP_cons_eq_if_modifyHead, if_pos blank]
  rfl

theorem words_dropWhile (text : List Char) : words (text.dropWhile isBlank) = words text := by
  induction text with
  | nil => rfl
  | cons c text ih =>
    rw [List.dropWhile_cons]
    split
    · rename_i blank
      rw [ih, words_blank blank]
    · rfl

theorem words_append {word rest : List Char} (some : word ≠ []) (solid : ∀ c ∈ word, isBlank c = false)
    (ends : ∀ c ∈ rest.head?, isBlank c = true) : words (word ++ rest) = word :: words rest := by
  cases rest with
  | nil =>
    rw [List.append_nil, words, List.splitOnP_eq_singleton solid]
    simp [some, words]
  | cons c rest =>
    have blank := ends c rfl
    rw [words_blank blank, words, List.splitOnP_append_cons_of_forall_mem solid c blank]
    simp [words, some]

theorem words_eq (text : List Char) :
    words text = if (firstWord text).1 = [] then [] else (firstWord text).1 :: words (firstWord text).2 := by
  rw [← words_dropWhile, firstWord]
  simp only
  have first := List.head?_dropWhile_not isBlank text
  generalize text.dropWhile isBlank = text at first ⊢
  have behind := List.head?_dropWhile_not (!isBlank ·) text
  split
  · rename_i none
    cases text with
    | nil => rfl
    | cons c text =>
      simp only [List.head?_cons] at first
      simp [first] at none
  · rename_i some
    have words := @words_append (text.takeWhile (!isBlank ·)) (text.dropWhile (!isBlank ·)) some
      (fun c member => by simpa using List.all_eq_true.mp List.all_takeWhile c member) fun c next => by
        rw [Option.mem_def.mp next] at behind
        simpa using behind
    rwa [List.takeWhile_append_dropWhile] at words

end Text

namespace Tunnel

/-- The first line of a response begins with a version 1 of the protocol. -/
def IsHttp (words : List (List Char)) : Prop :=
  ∃ version others, words = version :: others ∧ "HTTP/1.".toList <+: version

/-- It goes on with the code 200. -/
def Opens (words : List (List Char)) : Prop :=
  ∃ version others, words = version :: "200".toList :: others ∧ "HTTP/1.".toList <+: version

/-- What a response comes to that was read in full. -/
inductive Judged (response : Bytes) : Except TunnelError Unit → Prop
  | opened : Opens (Text.words (Text.firstLine (Text.lossy response))) → Judged response (.ok ())
  | malformed {line : List Char} : Text.firstLine (Text.lossy response) = line → ¬ IsHttp (Text.words line) →
      Judged response (.error (.malformedResponse (String.ofList line)))
  | refused {line : List Char} : Text.firstLine (Text.lossy response) = line → IsHttp (Text.words line) →
      ¬ Opens (Text.words line) → Judged response (.error (.refused (String.ofList line)))

theorem Opens.isHttp {words : List (List Char)} : Opens words → IsHttp words
  | ⟨version, others, split, begins⟩ => ⟨version, _ :: others, split, begins⟩

/-- Nothing but its first line makes a response open the tunnel. -/
theorem Judged.ok_iff {response : Bytes} {outcome : Except TunnelError Unit} (judged : Judged response outcome) :
    outcome = .ok () ↔ Opens (Text.words (Text.firstLine (Text.lossy response))) := by
  cases judged with
  | opened opens => exact iff_of_true rfl opens
  | malformed same other =>
    subst same
    exact iff_of_false nofun fun opens => other opens.isHttp
  | refused same _ closed =>
    subst same
    exact iff_of_false nofun closed

theorem judgeResponse_judged (response : Bytes) : Judged response (judgeResponse response) := by
  unfold judgeResponse
  generalize same : Text.firstLine (Text.lossy response) = line
  have first := Text.words_eq line
  rcases read : Text.firstWord line with ⟨version, rest⟩
  have second := Text.words_eq rest
  rcases readOn : Text.firstWord rest with ⟨code, behind⟩
  simp only [read] at first
  simp only [readOn] at second
  simp only [read, readOn]
  by_cases http : "HTTP/1.".toList <+: version
  · have some : version ≠ [] := by
      rintro rfl
      cases List.prefix_nil.mp http
    rw [if_neg some] at first
    have isHttp : IsHttp (Text.words line) := ⟨version, _, first, http⟩
    rw [if_neg (by rwa [Bool.not_eq_true', Bool.not_eq_false, List.isPrefixOf_iff_prefix])]
    by_cases accepted : code = "200".toList
    · rw [if_neg (not_not_intro accepted)]
      subst accepted
      rw [if_neg (by decide)] at second
      rw [second] at first
      exact .opened (same ▸ ⟨version, _, first, http⟩)
    · rw [if_pos accepted]
      refine .refused same isHttp ?_
      rintro ⟨_, others, split, _⟩
      rw [first, second] at split
      split at split
      · cases split
      · exact accepted (List.cons.inj (List.cons.inj split).2).1
  · rw [if_pos (by rwa [Bool.not_eq_true', ← Bool.not_eq_true, List.isPrefixOf_iff_prefix])]
    refine .malformed same ?_
    rintro ⟨other, others, split, begins⟩
    rw [first] at split
    split at split
    · cases split
    · exact http ((List.cons.inj split).1 ▸ begins)

/-- These bytes end with an empty line. -/
def EndsHeader (bytes : Bytes) : Prop := [13, 10, 13, 10] <:+ bytes

/-- The first empty line among these bytes ends behind so many of them. -/
structure FirstEnds (bytes : Bytes) (count : Nat) : Prop where
  within : count ≤ bytes.length
  ends : EndsHeader (bytes.take count)
  first : ∀ fewer < count, ¬ EndsHeader (bytes.take fewer)

theorem endsHeader_iff (newest : Bytes) : endsHeader newest = true ↔ EndsHeader newest.reverse := by
  have reversed : EndsHeader newest.reverse ↔ [10, 13, 10, 13] <+: newest :=
    @List.reverse_suffix _ [10, 13, 10, 13] newest
  rw [reversed]
  unfold endsHeader
  split
  · simp
  · rename_i other
    refine iff_of_false Bool.false_ne_true ?_
    rintro ⟨more, rfl⟩
    exact other more rfl

/-- All of the bytes are looked at already. -/
theorem unended_of_length {bytes : Bytes} {limit : Nat} (whole : bytes.length ≤ limit)
    (unended : ∀ count ≤ limit, ¬ EndsHeader (bytes.take count)) (count : Nat) : ¬ EndsHeader (bytes.take count) := by
  rcases Nat.le_total count limit with upTo | beyond
  · exact unended count upTo
  · have same : bytes.take count = bytes.take limit := by
      rw [List.take_of_length_le whole, List.take_of_length_le (Nat.le_trans whole beyond)]
    rw [same]
    exact unended limit (Nat.le_refl _)

theorem readHeader_of_nothing (left : Nat) (got : Bytes) {inbound : Inbound} (nothing : inbound.opening = []) :
    readHeader (left + 1) got inbound =
      (.error (inbound.halt.elim .responseCutShort (.stream .connectResponse)), inbound.afterReads 1) := by
  rcases inbound.read_one with ⟨b, rest, _, opens, _⟩ | ⟨rest, read, _, _⟩
  · rw [nothing] at opens
    cases opens
  · rw [Inbound.afterReads_succ, readHeader, read]
    cases inbound.halt <;> rfl

/-- What it comes to when a response is read of which `got` is there already, newest byte first. -/
theorem readHeader_cases (left : Nat) (got : Bytes) (inbound : Inbound)
    (unended : ∀ count ≤ got.length, ¬ EndsHeader ((got.reverse ++ inbound.opening).take count)) :
    let bytes := got.reverse ++ inbound.opening
    (∃ more ≤ left, FirstEnds bytes (got.length + more) ∧
      readHeader left got inbound = (.ok (bytes.take (got.length + more)), inbound.afterReads more)) ∨
    (left ≤ inbound.opening.length ∧ (∀ count ≤ got.length + left, ¬ EndsHeader (bytes.take count)) ∧
      readHeader left got inbound = (.error .responseTooLarge, inbound.afterReads left)) ∨
    (inbound.opening.length < left ∧ (∀ count, ¬ EndsHeader (bytes.take count)) ∧
      readHeader left got inbound =
        (.error (inbound.halt.elim .responseCutShort (.stream .connectResponse)),
          inbound.afterReads (inbound.opening.length + 1))) := by
  induction left generalizing got inbound with
  | zero => exact .inr (.inl ⟨Nat.zero_le _, unended, rfl⟩)
  | succ left ih =>
    rcases inbound.read_one with ⟨b, rest, read, opens, halts, _⟩ | ⟨_, _, nothing, _⟩
    · have grown : got.reverse ++ inbound.opening = (b :: got).reverse ++ rest.opening := by simp [opens]
      have length : inbound.opening.length = rest.opening.length + 1 := by rw [opens, List.length_cons]
      have next (count : Nat) : inbound.afterReads (count + 1) = rest.afterReads count := by
        rw [Inbound.afterReads_succ, read]
      have newest : ((b :: got).reverse ++ rest.opening).take (got.length + 1) = (b :: got).reverse :=
        List.take_left' (by simp)
      simp only [readHeader, read, grown, length, next] at unended ⊢
      by_cases ends : endsHeader (b :: got) = true
      · have now := (endsHeader_iff _).mp ends
        rw [← newest] at now
        refine .inl ⟨1, by omega, ⟨by simp, now, fun fewer less => unended fewer (by omega)⟩, ?_⟩
        rw [if_pos ends, newest, next 0]
        rfl
      · have still : ∀ count ≤ (b :: got).length, ¬ EndsHeader (((b :: got).reverse ++ rest.opening).take count) := by
          intro count upTo
          rw [List.length_cons] at upTo
          rcases Nat.lt_or_eq_of_le upTo with before | rfl
          · exact unended count (by omega)
          · rw [newest, ← endsHeader_iff]
            exact ends
        have count (more : Nat) : (b :: got).length + more = got.length + (more + 1) := by
          rw [List.length_cons]
          omega
        simp only [if_neg ends, ← halts]
        rcases ih (b :: got) rest still with ⟨more, within, first, found⟩ | ⟨enough, none, large⟩ | ⟨few, none, short⟩
        · rw [count] at first found
          exact .inl ⟨more + 1, by omega, first, by rw [found, next]⟩
        · rw [count] at none
          exact .inr (.inl ⟨by omega, none, large⟩)
        · exact .inr (.inr ⟨by omega, none, short⟩)
    · rw [nothing, List.append_nil] at unended ⊢
      refine .inr (.inr ⟨Nat.succ_pos left, unended_of_length (by simp) unended, ?_⟩)
      exact readHeader_of_nothing left got nothing

example : readHeader 8 [] [.bytes [13, 10, 13, 13], .bytes [10, 13, 10, 65]] =
    (.ok [13, 10, 13, 13, 10, 13, 10], [.bytes [65]]) := rfl

/-- What follows a request that has been heard. -/
theorem httpConnect_of_hears {host : String} {port : UInt16} {peer heard : Peer}
    (hears : peer.Hears (Text.utf8 (connectRequest host port)) heard) :
    let header := readHeader responseLimit [] peer.inbound
    (httpConnect host port).against peer = (header.1 >>= judgeResponse, { heard with inbound := header.2 }) := by
  have inbound := hears.inbound
  obtain ⟨after, written, flushed⟩ := hears
  simp only [Negotiation.against, httpConnect, Negotiation.run_bind, Negotiation.write, Negotiation.flush, written,
    flushed, inbound]
  rcases readHeader responseLimit [] peer.inbound with ⟨problem | response, rest⟩
  · rfl
  · simp only [bind, Except.bind]
    rcases judgeResponse response with _ | ⟨⟨⟩⟩ <;> rfl

/-- A request that has not been heard is an error at once. -/
theorem httpConnect_of_not_hears {host : String} {port : UInt16} {peer : Peer}
    (unheard : ¬ ∃ heard, peer.Hears (Text.utf8 (connectRequest host port)) heard) :
    ((httpConnect host port).against peer).2.inbound = peer.inbound ∧
      ∃ cause, ((httpConnect host port).against peer).1 = .error (.stream .connectRequest cause) := by
  have kept := Peer.inbound_writeAll (Text.utf8 (connectRequest host port)) peer
  simp only [Negotiation.against, httpConnect, Negotiation.run_bind, Negotiation.write, Negotiation.flush]
  rcases written : peer.writeAll (Text.utf8 (connectRequest host port)) with ⟨cause | ⟨⟩, after⟩
  · rw [written] at kept
    exact ⟨kept, cause, rfl⟩
  rw [written] at kept
  have flush := after.inbound_flush
  rcases flushed : after.flush with ⟨cause | ⟨⟩, heard⟩
  · rw [flushed] at flush
    simp only [flushed]
    exact ⟨flush.trans kept, cause, rfl⟩
  · exact absurd ⟨heard, after, written, flushed⟩ unheard

/-- A proxy that does not take the request is not listened to. Of any other one no byte is read but its first
`responseLimit` ones, up to the first empty line; the first line before it decides. -/
theorem httpConnect_response (host : String) (port : UInt16) (peer : Peer) :
    let request := Text.utf8 (connectRequest host port)
    let run := (httpConnect host port).against peer
    let bytes := peer.inbound.opening
    ((¬ ∃ heard, peer.Hears request heard) ∧ run.2.inbound = peer.inbound ∧
      ∃ cause, run.1 = .error (.stream .connectRequest cause)) ∨
    ((∃ heard, peer.Hears request heard) ∧ run.2.received = peer.received ++ request ∧
      ∃ reads ≤ responseLimit, run.2.inbound = peer.inbound.afterReads reads ∧
        peer.inbound.remaining = bytes.take reads ++ run.2.inbound.remaining ∧
        ((FirstEnds bytes reads ∧ Judged (bytes.take reads) run.1) ∨
          (reads = responseLimit ∧ reads ≤ bytes.length ∧
            (∀ count ≤ responseLimit, ¬ EndsHeader (bytes.take count)) ∧ run.1 = .error .responseTooLarge) ∨
          (reads = bytes.length + 1 ∧ (∀ count, ¬ EndsHeader (bytes.take count)) ∧
            run.1 = .error (peer.inbound.halt.elim .responseCutShort (.stream .connectResponse))))) := by
  intro request run bytes
  by_cases listens : ∃ heard, peer.Hears request heard
  case neg => exact .inl ⟨listens, httpConnect_of_not_hears listens⟩
  refine .inr ⟨listens, ?_⟩
  obtain ⟨heard, hears⟩ := listens
  have unended : ∀ count ≤ ([] : Bytes).length, ¬ EndsHeader ((([] : Bytes).reverse ++ bytes).take count) := by
    intro count upTo
    rw [Nat.le_zero.mp upTo]
    exact fun ends => absurd ends.length_le (by simp)
  have left (reads : Nat) (within : reads ≤ bytes.length + 1) :
      peer.inbound.remaining = bytes.take reads ++ (peer.inbound.afterReads reads).remaining :=
    Inbound.remaining_afterReads within
  simp only [run, httpConnect_of_hears hears, hears.received, true_and]
  rcases readHeader_cases responseLimit [] peer.inbound unended with
    ⟨reads, within, first, header⟩ | ⟨enough, none, header⟩ | ⟨few, none, header⟩
  · simp only [List.reverse_nil, List.nil_append, List.length_nil, Nat.zero_add] at first header
    rw [header]
    exact ⟨reads, within, rfl, left _ (Nat.le_succ_of_le first.within), .inl ⟨first, judgeResponse_judged _⟩⟩
  · simp only [List.reverse_nil, List.nil_append, List.length_nil, Nat.zero_add] at none
    simp only [header]
    exact ⟨responseLimit, Nat.le_refl _, rfl, left _ (Nat.le_succ_of_le enough), .inr (.inl ⟨rfl, enough, none, rfl⟩)⟩
  · rw [header]
    exact ⟨bytes.length + 1, few, rfl, left _ (Nat.le_refl _), .inr (.inr ⟨rfl, none, rfl⟩)⟩

end Tunnel
end PushGateway
