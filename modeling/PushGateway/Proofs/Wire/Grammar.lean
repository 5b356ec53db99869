import Mathlib.Logic.Relation
import PushGateway.Proofs.Wire.Canonical

namespace PushGateway

namespace Wire

/-- The number that bytes stand for, most significant first. -/
def number (bytes : Bytes) : Nat := bytes.foldl (fun sum byte => sum * 256 + byte.toNat) 0

theorem toNat_word16 (a b : UInt8) : (Bytes.word16 a b).toNat = number [a, b] := by
  have first := a.toNat_lt
  have second := b.toNat_lt
  simp only [Bytes.word16, number, UInt16.toNat_ofNat', List.foldl_cons, List.foldl_nil]
  omega

theorem toNat_word32 (a b c d : UInt8) : (Bytes.word32 a b c d).toNat = number [a, b, c, d] := by
  have first := a.toNat_lt
  have second := b.toNat_lt
  have third := c.toNat_lt
  have fourth := d.toNat_lt
  simp only [Bytes.word32, number, UInt32.toNat_ofNat', List.foldl_cons, List.foldl_nil]
  omega

theorem word32_eq (a b c d : UInt8) : Bytes.word32 a b c d = UInt32.ofNat (number [a, b, c, d]) := by
  rw [← toNat_word32, UInt32.ofNat_toNat]

/-- Bytes that are cut into items with nothing left over. An item is its code, the length of its content in two
bytes, and its content. -/
inductive Splits : Bytes → List RawItem → Prop
  | nil : Splits [] []
  | cons {raw : RawItem} {raws a b rest} : number [a, b] = raw.body.length → Splits rest raws →
      Splits (raw.code :: a :: b :: (raw.body ++ rest)) (raw :: raws)

/-- The bytes of a framed notification: the command, the length of the frame in four bytes, and a frame that is cut
into these items. -/
def Framed (taken : Bytes) (raws : List RawItem) : Prop :=
  ∃ header frame, taken = 2 :: (header ++ frame) ∧ header.length = 4 ∧ number header = frame.length ∧
    Splits frame raws

/-- Identifiers and times have four bytes, and a priority has one. -/
def RawItem.HasWidth (raw : RawItem) : Prop :=
  (raw.code = 3 ∨ raw.code = 4 → raw.body.length = 4) ∧ (raw.code = 5 → raw.body.length = 1)
  deriving Decidable

/-- The content of the last item with this code. -/
def lastBody (code : UInt8) (raws : List RawItem) : Option Bytes :=
  (raws.filter fun raw => raw.code = code).getLast?.map RawItem.body

/-- What items come to if the last one of each kind counts. -/
def combined (raws : List RawItem) : Notification where
  format := .framed ((lastBody 3 raws).elim 0 fun body => UInt32.ofNat (number body))
    ((lastBody 4 raws).elim 0 fun body => UInt32.ofNat (number body))
    ((lastBody 5 raws).elim 10 fun body => UInt8.ofNat (number body))
  token := (lastBody 1 raws).getD []
  payload := (lastBody 2 raws).getD []

/-- One way to change the items of a frame and not what they say: they change places, but none passes another
with the same code, or an item whose code has no meaning comes or goes. -/
inductive Rearranges : List RawItem → List RawItem → Prop
  | reorder {raws others} :
      (∀ code, raws.filter (fun raw => raw.code = code) = others.filter fun raw => raw.code = code) →
      Rearranges raws others
  | insert (before after) {raw : RawItem} : raw.code ∉ Items.order →
      Rearranges (before ++ after) (before ++ raw :: after)
  | remove (before after) {raw : RawItem} : raw.code ∉ Items.order →
      Rearranges (before ++ raw :: after) (before ++ after)

/-- The rounds in which items are read, with the number of those that were taken in, and how it ends. -/
inductive Items.Reading : Items → Bytes → Nat → Except DecodeError Items → Prop
  | done (items) : Reading items [] 0 (.ok items)
  | headless {items code rest} : rest.length < 2 →
      Reading items (code :: rest) 0 (.error (.truncated .itemLength 2 rest.length))
  | overrun {items code a b rest} : rest.length < number [a, b] →
      Reading items (code :: a :: b :: rest) 0 (.error (.truncated .item (number [a, b]) rest.length))
  | refused {items : Items} {raw : RawItem} {a b rest problem} : number [a, b] = raw.body.length →
      items.put raw.code raw.body = .error problem →
      Reading items (raw.code :: a :: b :: (raw.body ++ rest)) 0 (.error problem)
  | taken {items items' : Items} {raw : RawItem} {a b rest rounds result} : number [a, b] = raw.body.length →
      items.put raw.code raw.body = .ok items' → Reading items' rest rounds result →
      Reading items (raw.code :: a :: b :: (raw.body ++ rest)) (rounds + 1) result

section splits
variable {frame : Bytes} {raws others : List RawItem}

theorem splits_iff : Splits frame raws ↔ (∀ raw ∈ raws, raw.Fits) ∧ frame = laid raws := by
  constructor
  · intro splits
    induction splits with
    | nil => exact ⟨nofun, rfl⟩
    | @cons raw raws a b rest length _ ih =>
      obtain ⟨fit, later⟩ := ih
      rw [← toNat_word16] at length
      have bound := (Bytes.word16 a b).toNat_lt
      refine ⟨List.forall_mem_cons.mpr ⟨?_, fit⟩, ?_⟩
      · simp only [RawItem.Fits, Bytes.fieldLimit]
        omega
      · have word : Bytes.ofWord16 (UInt16.ofNat raw.body.length) = [a, b] := by
          rw [← length, UInt16.ofNat_toNat, Bytes.ofWord16_word16]
        rw [laid_cons, ← later, counted, word]
        simp
  · rintro ⟨fit, rfl⟩
    induction raws with
    | nil => exact .nil
    | cons raw raws ih =>
      obtain ⟨fits, later⟩ := List.forall_mem_cons.mp fit
      rw [laid_cons, counted, Bytes.ofWord16]
      refine .cons ?_ (ih later)
      rw [← toNat_word16, Bytes.word16_bytes, toNat_ofNat_length fits]

theorem Splits.unique (splits : Splits frame raws) (other : Splits frame others) : raws = others := by
  obtain ⟨fit, cut⟩ := splits_iff.mp splits
  obtain ⟨fit', cut'⟩ := splits_iff.mp other
  exact laid_injective fit fit' (cut.symm.trans cut')

/-- Items that change places keep what is said of each kind. -/
theorem Rearranges.same (rearranges : Relation.ReflTransGen Rearranges raws others) {code : UInt8}
    (known : code ∈ Items.order) :
    raws.filter (fun raw => raw.code = code) = others.filter fun raw => raw.code = code := by
  induction rearranges with
  | refl => rfl
  | tail _ step ih =>
    rw [ih]
    cases step with
    | reorder same => exact same code
    | @insert before after raw unknown =>
      have other : raw.code ≠ code := fun same => unknown (same ▸ known)
      simp [List.filter_append, other]
    | @remove before after raw unknown =>
      have other : raw.code ≠ code := fun same => unknown (same ▸ known)
      simp [List.filter_append, other]

section rearranged
variable (rearranges : Relation.ReflTransGen Rearranges raws others)
include rearranges

theorem combined_of_rearranges : combined others = combined raws := by
  have same {code : UInt8} (known : code ∈ Items.order) : lastBody code others = lastBody code raws := by
    rw [lastBody, lastBody, Rearranges.same rearranges known]
  rw [combined, combined, same (by decide), same (by decide), same (by decide), same (by decide), same (by decide)]

theorem hasWidth_of_rearranges (widths : ∀ raw ∈ raws, raw.HasWidth) : ∀ raw ∈ others, raw.HasWidth := by
  intro raw member
  by_cases known : raw.code ∈ Items.order
  · have inside : raw ∈ others.filter fun other => other.code = raw.code := by simp [member]
    rw [← Rearranges.same rearranges known, List.mem_filter] at inside
    exact widths raw inside.1
  · constructor
    · rintro (three | four)
      · exact absurd (three ▸ by decide) known
      · exact absurd (four ▸ by decide) known
    · intro five
      exact absurd (five ▸ by decide) known

end rearranged

end splits

theorem lastBody_nil (code : UInt8) : lastBody code [] = none := rfl

theorem lastBody_cons (code : UInt8) (raw : RawItem) (raws : List RawItem) :
    lastBody code (raw :: raws) =
      (lastBody code raws).or (if raw.code = code then some raw.body else none) := by
  by_cases same : raw.code = code
  · rw [lastBody, List.filter_cons_of_pos (by simpa using same), List.getLast?_cons, if_pos same, lastBody]
    cases (raws.filter fun raw => raw.code = code).getLast? <;> rfl
  · rw [lastBody, List.filter_cons_of_neg (by simpa using same), if_neg same, Option.or_none, lastBody]

namespace ItemKind

theorem ofCode?_eq_some_iff {code : UInt8} {kind : ItemKind} : ofCode? code = some kind ↔ code = kind.code := by
  constructor
  · intro found
    unfold ofCode? at found
    split at found <;> cases found <;> rfl
  · rintro rfl
    exact ofCode?_code kind

end ItemKind

namespace Items

/-- The items with those of `raws` behind them, if the last one of each kind counts. -/
def updated (items : Items) (raws : List RawItem) : Items where
  token := (lastBody 1 raws).getD items.token
  payload := (lastBody 2 raws).getD items.payload
  identifier := (lastBody 3 raws).elim items.identifier fun body => UInt32.ofNat (number body)
  expiry := (lastBody 4 raws).elim items.expiry fun body => UInt32.ofNat (number body)
  priority := (lastBody 5 raws).elim items.priority fun body => UInt8.ofNat (number body)

theorem updated_nil (items : Items) : items.updated [] = items := rfl

theorem updated_cons (items : Items) (raw : RawItem) (raws : List RawItem) :
    (items.updated [raw]).updated raws = items.updated (raw :: raws) := by
  have elim {α : Type} (first second : Option Bytes) (none : α) (some : Bytes → α) :
      (first.or second).elim none some = first.elim (second.elim none some) some := by
    cases first <;> rfl
  simp only [updated, lastBody_cons, lastBody_nil, Option.none_or, Option.getD_or, elim]

/-- An item is taken in just if its content has the length that goes with its code. -/
theorem put_cases (items : Items) (raw : RawItem) :
    (raw.HasWidth ∧ items.put raw.code raw.body = .ok (items.updated [raw])) ∨
      (¬ raw.HasWidth ∧ ∃ problem, items.put raw.code raw.body = .error problem) := by
  obtain ⟨code, body⟩ := raw
  cases found : ItemKind.ofCode? code with
  | none =>
    have other (kind : ItemKind) : code ≠ kind.code := by
      intro same
      rw [same, ItemKind.ofCode?_code] at found
      cases found
    have unknown : code ≠ 1 ∧ code ≠ 2 ∧ code ≠ 3 ∧ code ≠ 4 ∧ code ≠ 5 :=
      ⟨other .token, other .payload, other .identifier, other .expiry, other .priority⟩
    refine .inl ⟨by simp [RawItem.HasWidth, unknown], ?_⟩
    simp [put, found, updated, lastBody, unknown]
  | some kind =>
    obtain rfl := ItemKind.ofCode?_eq_some_iff.mp found
    cases kind with
    | token | payload => exact .inl ⟨by simp [RawItem.HasWidth, ItemKind.code], rfl⟩
    | identifier | expiry =>
      rcases body with _ | ⟨a, _ | ⟨b, _ | ⟨c, _ | ⟨d, _ | ⟨e, more⟩⟩⟩⟩⟩
      case cons.cons.cons.cons.nil =>
        refine .inl ⟨by simp [RawItem.HasWidth, ItemKind.code], ?_⟩
        simp only [put, ItemKind.ofCode?_code, word32_eq]
        simp [updated, lastBody, ItemKind.code]
      all_goals exact .inr ⟨by simp [RawItem.HasWidth, ItemKind.code], _, rfl⟩
    | priority =>
      rcases body with _ | ⟨byte, _ | ⟨next, more⟩⟩
      case cons.nil =>
        refine .inl ⟨by simp [RawItem.HasWidth, ItemKind.code], ?_⟩
        simp only [put, ItemKind.ofCode?_code]
        simp [updated, lastBody, ItemKind.code, number]
      all_goals exact .inr ⟨by simp [RawItem.HasWidth, ItemKind.code], _, rfl⟩

theorem putAll_eq_ok_iff {items items' : Items} {raws : List RawItem} :
    items.putAll raws = .ok items' ↔ (∀ raw ∈ raws, raw.HasWidth) ∧ items' = items.updated raws := by
  induction raws generalizing items with
  | nil =>
    rw [updated_nil]
    exact ⟨fun all => ⟨nofun, by cases all; rfl⟩, fun ⟨_, same⟩ => by rw [same]; rfl⟩
  | cons raw raws ih =>
    rw [putAll_cons, List.forall_mem_cons]
    rcases put_cases items raw with ⟨width, took⟩ | ⟨wrong, problem, refused⟩
    · rw [took, bind_ok, ih, updated_cons, and_assoc]
      exact (and_iff_right width).symm
    · rw [refused]
      exact iff_of_false nofun fun ⟨⟨width, _⟩, _⟩ => wrong width

theorem read_laid {items items' : Items} {raws : List RawItem} (fit : ∀ raw ∈ raws, raw.Fits)
    (all : items.putAll raws = .ok items') : items.read (laid raws) = .ok items' := by
  induction raws generalizing items with
  | nil =>
    cases all
    rw [laid, List.flatMap_nil, read]
  | cons raw raws ih =>
    obtain ⟨fits, later⟩ := List.forall_mem_cons.mp fit
    rw [putAll_cons] at all
    obtain ⟨next, took, all⟩ := bind_eq_ok all
    have first : laid (raw :: raws) = item raw.code raw.body ++ laid raws := rfl
    rw [first, read_item fits took, ih later all]

/-- The items of a frame are read just if it is cut into items whose contents have the lengths that go with their
codes. -/
theorem read_eq_ok_iff {items items' : Items} {frame : Bytes} :
    items.read frame = .ok items' ↔
      ∃ raws, Splits frame raws ∧ (∀ raw ∈ raws, raw.HasWidth) ∧ items' = items.updated raws := by
  constructor
  · intro read
    obtain ⟨raws, fit, cut, all⟩ := eq_laid_of_read read
    exact ⟨raws, splits_iff.mpr ⟨fit, cut⟩, putAll_eq_ok_iff.mp all⟩
  · rintro ⟨raws, splits, all⟩
    obtain ⟨fit, rfl⟩ := splits_iff.mp splits
    exact read_laid fit (putAll_eq_ok_iff.mpr all)

/-- Every reading of items comes to an end, after no more rounds than the frame has room for items. -/
theorem read_ends (items : Items) (frame : Bytes) :
    ∃ rounds, 3 * rounds ≤ frame.length ∧ Reading items frame rounds (items.read frame) := by
  fun_induction Items.read items frame with
  | case1 items => exact ⟨0, Nat.zero_le _, .done items⟩
  | case2 items code a b rest need short =>
    simp only [need, toNat_word16] at short ⊢
    exact ⟨0, Nat.zero_le _, .overrun short⟩
  | case3 items code a b rest need enough problem refused =>
    have length : number [a, b] = (rest.take need).length := by
      rw [List.length_take_of_le (by omega), ← toNat_word16]
    refine ⟨0, Nat.zero_le _, ?_⟩
    simpa using @Reading.refused items ⟨code, rest.take need⟩ a b (rest.drop need) problem length refused
  | case4 items code a b rest need enough next took ih =>
    have length : number [a, b] = (rest.take need).length := by
      rw [List.length_take_of_le (by omega), ← toNat_word16]
    obtain ⟨rounds, few, later⟩ := ih
    refine ⟨rounds + 1, ?_, ?_⟩
    · simp only [List.length_drop] at few
      simp only [List.length_cons]
      omega
    · have read := @Reading.taken items next ⟨code, rest.take need⟩ a b (rest.drop need) rounds _ length took later
      simpa using read
  | case5 items code rest other =>
    refine ⟨0, Nat.zero_le _, .headless ?_⟩
    rcases rest with _ | ⟨a, _ | ⟨b, more⟩⟩
    · decide
    · simp
    · exact absurd rfl (other a b more)

end Items
end Wire

namespace Notification

open Wire

section
variable {header frame rest : Bytes} {n : Notification}

/-- What is decoded of a frame, and whether anything is, can be told from the frame alone. -/
theorem decode_frame (four : header.length = 4) (length : number header = frame.length) (rest : Bytes) :
    decode (2 :: (header ++ frame ++ rest)) = (Items.read {} frame).map fun items => (items.notification, rest) := by
  match header, four with
  | [a, b, c, d], _ =>
    have framed : decode (2 :: ([a, b, c, d] ++ frame ++ rest)) = decodeFramed ([a, b, c, d] ++ frame ++ rest) := by
      simp [decode]
    have word : takeWord32 .frameLength ([a, b, c, d] ++ frame ++ rest) =
        .ok (Bytes.word32 a b c d, frame ++ rest) := rfl
    rw [framed, decodeFramed, word, bind_ok]
    simp only [toNat_word32, length]
    rw [takeBytes_append, bind_ok]
    cases Items.read {} frame <;> rfl

theorem decode_framed_iff {bytes : Bytes} :
    decode (2 :: bytes) = .ok (n, rest) ↔
      ∃ taken raws, 2 :: bytes = taken ++ rest ∧ Framed taken raws ∧ (∀ raw ∈ raws, raw.HasWidth) ∧
        n = combined raws := by
  constructor
  · intro read
    have framed : decodeFramed bytes = .ok (n, rest) := by
      rw [← read]
      simp [decode]
    obtain ⟨frame, items, inside, rfl, short, rfl⟩ := decodeFramed_eq_ok framed
    obtain ⟨raws, splits, widths, rfl⟩ := Items.read_eq_ok_iff.mp inside
    refine ⟨_, raws, rfl, ⟨_, frame, rfl, rfl, ?_, splits⟩, widths, rfl⟩
    rw [Bytes.ofWord32, ← toNat_word32, Bytes.word32_bytes, UInt32.toNat_ofNat', Nat.mod_eq_of_lt short]
  · rintro ⟨taken, raws, split, ⟨header, frame, rfl, four, length, splits⟩, widths, rfl⟩
    rw [split, List.cons_append, decode_frame four length, Items.read_eq_ok_iff.mpr ⟨raws, splits, widths, rfl⟩]
    rfl

/-- Only what is said of each kind of item matters. -/
theorem decode_of_rearranges {taken taken' : Bytes} {raws others : List RawItem} (framed : Framed taken raws)
    (framed' : Framed taken' others) (rearranges : Relation.ReflTransGen Rearranges raws others)
    (read : decode (taken ++ rest) = .ok (n, rest)) (rest' : Bytes) : decode (taken' ++ rest') = .ok (n, rest') := by
  obtain ⟨header, frame, rfl, four, length, splits⟩ := framed
  obtain ⟨header', frame', rfl, four', length', splits'⟩ := framed'
  rw [List.cons_append, decode_frame four length] at read
  rw [List.cons_append, decode_frame four' length']
  cases inside : Items.read {} frame with
  | error problem =>
    rw [inside] at read
    cases read
  | ok items =>
    rw [inside] at read
    cases read
    obtain ⟨known, cut, widths, rfl⟩ := Items.read_eq_ok_iff.mp inside
    obtain rfl := cut.unique splits
    have widths' := hasWidth_of_rearranges rearranges widths
    rw [Items.read_eq_ok_iff.mpr ⟨others, splits', widths', rfl⟩]
    exact congrArg (fun n => Except.ok (n, rest')) (combined_of_rearranges rearranges)

end

/-- Framed notifications are decoded just if they are of the grammar: the command, the length of the frame in four
bytes, and a frame that is cut into items with nothing left over, of which each has the length that goes with its
code. These bytes are taken and no more, and of each kind the last item counts. No byte behind the frame has any
influence, not even on a refusal. Nothing changes if items change places without passing one with the same code, or
if items without a meaning come or go. The items are read in no more rounds than there is room for them. -/
theorem decode_framed_grammar :
    (∀ (bytes rest : Bytes) (n : Notification), decode (2 :: bytes) = .ok (n, rest) ↔
      ∃ taken raws, 2 :: bytes = taken ++ rest ∧ Framed taken raws ∧ (∀ raw ∈ raws, raw.HasWidth) ∧
        n = combined raws) ∧
    (∀ header frame rest : Bytes, header.length = 4 → number header = frame.length →
      decode (2 :: (header ++ frame ++ rest)) =
        (Items.read {} frame).map fun items => (items.notification, rest)) ∧
    (∀ (taken taken' : Bytes) (raws others : List RawItem), Framed taken raws → Framed taken' others →
      Relation.ReflTransGen Rearranges raws others → ∀ (n : Notification) (rest : Bytes),
        decode (taken ++ rest) = .ok (n, rest) → ∀ rest', decode (taken' ++ rest') = .ok (n, rest')) ∧
    ∀ (items : Items) (frame : Bytes), ∃ rounds, 3 * rounds ≤ frame.length ∧
      Items.Reading items frame rounds (items.read frame) := by
  refine ⟨fun _ _ _ => decode_framed_iff, fun _ _ rest four length => decode_frame four length rest, ?_, ?_⟩
  · intro taken taken' raws others framed framed' rearranges n rest read rest'
    exact decode_of_rearranges framed framed' rearranges read rest'
  · exact Items.read_ends

/-- An identifier comes twice. The payload may go before it, and an item without a meaning may stand between. -/
theorem decode_framed_grammar_untidy :
    let frame : Bytes := [3, 0, 4, 0, 0, 0, 7, 1, 0, 1, 170, 3, 0, 4, 0, 0, 1, 0, 2, 0, 2, 123, 125]
    let frame' : Bytes := [2, 0, 2, 123, 125, 3, 0, 4, 0, 0, 0, 7, 9, 0, 1, 5, 1, 0, 1, 170, 3, 0, 4, 0, 0, 1, 0]
    let n : Notification := ⟨.framed 256 0 10, [170], [123, 125]⟩
    decode (2 :: ([0, 0, 0, 23] ++ frame)) = .ok (n, []) ∧
      ∀ rest, decode (2 :: ([0, 0, 0, 27] ++ frame') ++ rest) = .ok (n, rest) := by
  intro frame frame' n
  have splits : Splits frame [⟨3, [0, 0, 0, 7]⟩, ⟨1, [170]⟩, ⟨3, [0, 0, 1, 0]⟩, ⟨2, [123, 125]⟩] :=
    splits_iff.mpr ⟨by decide, rfl⟩
  have splits' : Splits frame' [⟨2, [123, 125]⟩, ⟨3, [0, 0, 0, 7]⟩, ⟨9, [5]⟩, ⟨1, [170]⟩, ⟨3, [0, 0, 1, 0]⟩] :=
    splits_iff.mpr ⟨by decide, rfl⟩
  have moved : Rearranges [⟨3, [0, 0, 0, 7]⟩, ⟨1, [170]⟩, ⟨3, [0, 0, 1, 0]⟩, ⟨2, [123, 125]⟩]
      [⟨2, [123, 125]⟩, ⟨3, [0, 0, 0, 7]⟩, ⟨1, [170]⟩, ⟨3, [0, 0, 1, 0]⟩] := by
    refine .reorder fun code => ?_
    by_cases payload : (2 : UInt8) = code
    · subst payload
      rfl
    · simp [List.filter_cons, payload]
  have added := Rearranges.insert [⟨2, [123, 125]⟩, ⟨3, [0, 0, 0, 7]⟩] [⟨1, [170]⟩, ⟨3, [0, 0, 1, 0]⟩]
    (show (⟨9, [5]⟩ : RawItem).code ∉ Items.order by decide)
  have read : decode (2 :: ([0, 0, 0, 23] ++ frame)) = .ok (n, []) := by cbv
  obtain ⟨_, _, sameMeaning, _⟩ := decode_framed_grammar
  refine ⟨read, sameMeaning _ _ _ _ ⟨[0, 0, 0, 23], frame, rfl, rfl, rfl, splits⟩
    ⟨[0, 0, 0, 27], frame', rfl, rfl, rfl, splits'⟩ (.tail (.single moved) added) n [] ?_⟩
  rwa [List.append_nil]

end Notification
end PushGateway
