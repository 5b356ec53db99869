import PushGateway.Proofs.Feedback.Reading

namespace PushGateway

/-- The same answer in states that are the same for their readers. -/
inductive Alike {α σ : Type} (Same : σ → σ → Prop) : α × σ → α × σ → Prop
  | answers {answer : α} {s s' : σ} : Same s s' → Alike Same (answer, s) (answer, s')

theorem Alike.map {α β σ : Type} {Same : σ → σ → Prop} {run run' : α × σ} (alike : Alike Same run run')
    (f : α → β) : Alike Same (f run.1, run.2) (f run'.1, run'.2) := by
  cases alike with
  | answers left => exact .answers left

namespace Inbound

/-- The same arrivals, with interrupted reads put in anywhere between them. Pieces without bytes may be left out. -/
inductive Interrupted : Inbound → Inbound → Prop
  | nil : Interrupted [] []
  | keep (arrival : Arrival) {later later' : Inbound} :
      Interrupted later later' → Interrupted (arrival :: later) (arrival :: later')
  | insert {inbound inbound' : Inbound} {error : IoError} :
      error.kind = .interrupted → Interrupted inbound inbound' →
      Interrupted inbound (.failure error false :: inbound')
  | pass {later later' : Inbound} : Interrupted later later' → Interrupted (.bytes [] :: later) later'

variable {inbound inbound' : Inbound}

theorem read_empty {limit : Nat} (positive : 0 < limit) (later : Inbound) :
    read limit (.bytes [] :: later) = read limit later := by
  simp only [read, if_neg (Nat.pos_iff_ne_zero.mp positive)]

theorem fill_empty {want : Nat} (positive : 0 < want) (later : Inbound) :
    fill want (.bytes [] :: later) = fill want later := by
  rw [fill_bytes (Nat.pos_iff_ne_zero.mp positive) (show ([] : Bytes).length ≤ want from Nat.zero_le want)]
  rcases fill want later with ⟨_ | _, _⟩ <;> rfl

namespace Interrupted

variable (same : Interrupted inbound inbound')
include same

theorem remaining : inbound'.remaining = inbound.remaining := by
  induction same with
  | nil => rfl
  | keep arrival _ ih => cases arrival <;> simp only [Inbound.remaining, ih]
  | insert _ _ ih => exact ih
  | pass _ ih => exact ih

/-- One read meets an interruption that was put in, after which all is still to come, or it is the same read. -/
theorem read {limit : Nat} (positive : 0 < limit) :
    (∃ error rest, inbound'.read limit = (.error error, rest) ∧ error.kind = .interrupted ∧
      inbound'.closing = false ∧ Interrupted inbound rest) ∨
    (Alike Interrupted (inbound.read limit) (inbound'.read limit) ∧ inbound'.closing = inbound.closing) := by
  have some : limit ≠ 0 := by omega
  induction same with
  | nil => exact .inr ⟨.answers .nil, rfl⟩
  | @insert inbound inbound' error kind same _ =>
    refine .inl ⟨error, inbound', ?_, kind, rfl, same⟩
    simp only [Inbound.read, if_neg some]
  | @pass later later' same ih =>
    rw [read_empty positive]
    rcases ih with ⟨error, rest, answer, kind, opens, left⟩ | alike
    · exact .inl ⟨error, rest, answer, kind, opens, .pass left⟩
    · exact .inr alike
  | @keep arrival later later' same ih =>
    cases arrival with
    | failure error closing =>
      simp only [Inbound.read, if_neg some]
      exact .inr ⟨.answers same, rfl⟩
    | ending =>
      simp only [Inbound.read, if_neg some]
      exact .inr ⟨.answers same, rfl⟩
    | bytes bytes =>
      cases bytes with
      | nil =>
        rw [read_empty positive, read_empty positive]
        rcases ih with ⟨error, rest, answer, kind, opens, left⟩ | alike
        · exact .inl ⟨error, rest, answer, kind, opens, .pass left⟩
        · exact .inr alike
      | cons first more =>
        refine .inr ⟨?_, rfl⟩
        simp only [Inbound.read, if_neg some]
        split
        · exact .answers (.keep _ same)
        · exact .answers same

/-- Whoever fills a buffer does not notice an interruption. -/
theorem fill (want : Nat) : Alike Interrupted (inbound.fill want) (inbound'.fill want) := by
  induction same generalizing want with
  | nil => exact .answers .nil
  | @insert inbound inbound' error kind same ih =>
    rcases Nat.eq_zero_or_pos want with rfl | positive
    · rw [fill_zero, fill_zero]
      exact .answers (.insert kind same)
    · have again : Inbound.fill want (.failure error false :: inbound') = inbound'.fill want := by
        simp only [Inbound.fill, if_neg (Nat.pos_iff_ne_zero.mp positive), if_pos kind]
      rw [again]
      exact ih want
  | @pass later later' same ih =>
    rcases Nat.eq_zero_or_pos want with rfl | positive
    · rw [fill_zero, fill_zero]
      exact .answers (.pass same)
    · rw [fill_empty positive]
      exact ih want
  | @keep arrival later later' same ih =>
    rcases Nat.eq_zero_or_pos want with rfl | positive
    · rw [fill_zero, fill_zero]
      exact .answers (.keep arrival same)
    have some : want ≠ 0 := by omega
    cases arrival with
    | failure error closing =>
      simp only [Inbound.fill, if_neg some]
      split
      · exact ih want
      · exact .answers same
    | ending =>
      simp only [Inbound.fill, if_neg some]
      exact .answers same
    | bytes bytes =>
      by_cases longer : want < bytes.length
      · simp only [Inbound.fill, if_neg some, if_pos longer]
        exact .answers (.keep _ same)
      · rw [fill_bytes some (by omega), fill_bytes some (by omega)]
        exact (ih (want - bytes.length)).map fun answer => answer.map (bytes ++ ·)

theorem readExactly (want : Nat) : Alike Interrupted (inbound.readExactly want) (inbound'.readExactly want) := by
  have alike := same.fill want
  unfold Inbound.readExactly
  generalize inbound.fill want = run, inbound'.fill want = run' at alike ⊢
  cases alike with
  | @answers answer rest rest' left =>
    cases answer with
    | error error => exact .answers left
    | ok bytes =>
      by_cases few : bytes.length < want
      · simp only [if_pos few]
        exact .answers left
      · simp only [if_neg few]
        exact .answers left

end Interrupted
end Inbound

namespace Feedback

open Inbound

theorem exists_six {bytes : Bytes} (six : bytes.length = 6) : ∃ a b c d e f, bytes = [a, b, c, d, e, f] := by
  rcases bytes with _ | ⟨a, _ | ⟨b, _ | ⟨c, _ | ⟨d, _ | ⟨e, _ | ⟨f, _ | ⟨g, more⟩⟩⟩⟩⟩⟩⟩ <;> simp at six ⊢

theorem Record.read_interrupted {inbound inbound' : Inbound} (same : inbound.Interrupted inbound') :
    Alike Inbound.Interrupted (read inbound) (read inbound') := by
  have header := same.fill 6
  rcases begun : inbound.fill 6 with ⟨answer, rest⟩
  rcases begun' : inbound'.fill 6 with ⟨answer', rest'⟩
  rw [begun, begun'] at header
  cases header with
  | answers left =>
    cases answer with
    | error error =>
      simp only [read, begun, begun']
      exact .answers left
    | ok bytes =>
      rcases Nat.lt_or_eq_of_le (remaining_of_fill begun).2 with short | whole
      · rw [read_of_short begun short, read_of_short begun' short]
        exact .answers left
      obtain ⟨a, b, c, d, e, f, rfl⟩ := exists_six whole
      have token := left.fill (Bytes.word16 e f).toNat
      simp only [read, begun, begun']
      generalize rest.fill (Bytes.word16 e f).toNat = run, rest'.fill (Bytes.word16 e f).toNat = run' at token ⊢
      cases token with
      | @answers answer last last' left =>
        cases answer with
        | error error => exact .answers left
        | ok token =>
          by_cases few : token.length < (Bytes.word16 e f).toNat
          · simp only [if_pos few]
            exact .answers left
          · simp only [if_neg few]
            exact .answers left

namespace Reader

/-- The same reader, of a stream with interruptions. -/
structure Interrupted (reader reader' : Reader) : Prop where
  finished : reader'.finished = reader.finished
  inbound : reader.inbound.Interrupted reader'.inbound

variable {reader reader' : Reader}

theorem Interrupted.next (same : reader.Interrupted reader') :
    reader'.next.1 = reader.next.1 ∧ reader.next.2.Interrupted reader'.next.2 := by
  by_cases finished : reader.finished
  · rw [next_of_finished finished, next_of_finished (same.finished.trans finished)]
    exact ⟨rfl, same⟩
  have alike := Record.read_interrupted same.inbound
  simp only [Reader.next, same.finished, if_neg finished]
  generalize Record.read reader.inbound = run, Record.read reader'.inbound = run' at alike ⊢
  cases alike with
  | @answers answer rest rest' left =>
    rcases answer with error | _ | record
    · exact ⟨rfl, rfl, left⟩
    · exact ⟨rfl, rfl, left⟩
    · exact ⟨rfl, rfl, left⟩

theorem Interrupted.after (same : reader.Interrupted reader') (calls : Nat) :
    (reader.after calls).Interrupted (reader'.after calls) := by
  induction calls generalizing reader reader' with
  | zero => exact same
  | succ calls ih => exact ih same.next.2

end Reader
end Feedback

end PushGateway
