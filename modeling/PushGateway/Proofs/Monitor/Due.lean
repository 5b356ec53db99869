import PushGateway.Proofs.Monitor.Reports

namespace PushGateway.Monitor

/-- The bytes that reads have brought. -/
def brought : List (Except IoError Bytes) → Bytes
  | [] => []
  | .ok bytes :: later => bytes ++ brought later
  | .error _ :: later => brought later

/-- Whether a read is the last one and, if so, whether it has failed. -/
def stops : Except IoError Bytes → Option Bool
  | .ok [] => some false
  | .ok _ => none
  | .error error => if error.isTransient then none else some true

def stopped (answers : List (Except IoError Bytes)) : Option Bool := answers.getLast?.bind stops

/-- The errors whose frames come first, and what stands behind them. -/
def split : Bytes → List (UInt8 × UInt32) × Bytes
  | first :: code :: a :: b :: c :: d :: rest =>
    if first = Rejection.command then ((code, Bytes.word32 a b c d) :: (split rest).1, (split rest).2)
    else ([], first :: code :: a :: b :: c :: d :: rest)
  | bytes => ([], bytes)

/-- What a monitor has to tell after these reads, if its connection stays open. -/
def due (answers : List (Except IoError Bytes)) : List Rejection :=
  let (errors, tail) := split (brought answers)
  errors.map rejection ++
    if Rejection.frameLength ≤ tail.length then [.unexplained]
    else (stopped answers).elim [] fun failed => closing true failed errors.length tail

section due
variable {answers : List (Except IoError Bytes)} {errors : List (UInt8 × UInt32)} {tail : Bytes}

theorem brought_append (answers more : List (Except IoError Bytes)) :
    brought (answers ++ more) = brought answers ++ brought more := by
  induction answers with
  | nil => rfl
  | cons answer answers ih =>
    cases answer with
    | ok bytes => simp [brought, ih]
    | error error => simpa [brought] using ih

theorem stopped_append (answers : List (Except IoError Bytes)) (answer : Except IoError Bytes) :
    stopped (answers ++ [answer]) = stops answer := by
  simp [stopped]

theorem frames_append (errors more : List (UInt8 × UInt32)) :
    frames (errors ++ more) = frames errors ++ frames more :=
  List.flatMap_append

theorem split_frames (ends : tail.length < Rejection.frameLength ∨ tail.head? ≠ some Rejection.command) :
    split (frames errors ++ tail) = (errors, tail) := by
  induction errors with
  | nil =>
    rw [frames, List.flatMap_nil, List.nil_append]
    unfold split
    split
    · rcases ends with short | other
      · simp only [List.length_cons, Rejection.frameLength] at short
        omega
      · rw [if_neg (by simpa using other)]
    · rfl
  | cons error errors ih =>
    obtain ⟨code, identifier⟩ := error
    have first : frames ((code, identifier) :: errors) = Rejection.frame code identifier ++ frames errors := rfl
    rw [first, List.append_assoc, Rejection.frame, Bytes.ofWord32]
    simp [split, ih]

theorem due_of_partial (split : brought answers = frames errors ++ tail)
    (short : tail.length < Rejection.frameLength) :
    due answers =
      errors.map rejection ++ (stopped answers).elim [] fun failed => closing true failed errors.length tail := by
  rw [due, split, split_frames (.inl short)]
  simp only [if_neg (Nat.not_le_of_lt short)]

theorem due_of_malformed (split : brought answers = frames errors ++ tail)
    (whole : Rejection.frameLength ≤ tail.length) (other : tail.head? ≠ some Rejection.command) :
    due answers = errors.map rejection ++ [.unexplained] := by
  rw [due, split, split_frames (.inr other)]
  simp only [if_pos whole]

end due

/-- All that the end of a stream gives rise to is told on the word of the monitor alone. -/
theorem verdict_synthetic {failed : Bool} {filled : Bytes} {reported : Nat} {last : Rejection}
    (told : verdict failed filled reported = some last) : last.identifier = none := by
  unfold verdict at told
  split at told
  · cases told
    rfl
  · split at told
    · split at told <;> cases told
      rfl
    · cases told
      unfold Rejection.ofPartialFrame
      split
      · split <;> rfl
      · rfl

/-- Where a monitor stands that has read these answers and has told of these errors. -/
inductive Tracks (answers : List (Except IoError Bytes)) : List Rejection → Monitor → Prop
  | reading {errors : List (UInt8 × UInt32)} {filled} :
      stopped answers = none → filled.length < Rejection.frameLength → brought answers = frames errors ++ filled →
      Tracks answers (errors.map rejection) (reading filled errors.length)
  | reporting {errors : List (UInt8 × UInt32)} {error} :
      stopped answers = none → brought answers = frames (errors ++ [error]) →
      Tracks answers (errors.map rejection) (reporting (rejection error) errors.length)
  | ended {errors : List (UInt8 × UInt32)} {failed filled} :
      stopped answers = some failed → filled.length < Rejection.frameLength → brought answers = frames errors ++ filled →
      Tracks answers (errors.map rejection) (ended failed filled errors.length)
  | concluding {errors : List (UInt8 × UInt32)} {last} :
      due answers = errors.map rejection ++ last.toList → (∀ r ∈ last, r.identifier = none) →
      Tracks answers (errors.map rejection) (concluding last)
  /-- If the connection was closed when it ended, something is missing. -/
  | past {errors : List (UInt8 × UInt32)} {last missing m} :
      due answers = errors.map rejection ++ (last ++ missing) → (last ++ missing).length ≤ 1 →
      (∀ r ∈ last, r.identifier = none) → m = leaving ∨ m = gone → Tracks answers (errors.map rejection ++ last) m

namespace Tracks

variable {answers : List (Except IoError Bytes)} {told : List Rejection}

theorem start : Tracks [] [] start := @Tracks.reading [] [] [] rfl (by decide) rfl

theorem afterRead {filled : Bytes} {reported : Nat} {answer : Except IoError Bytes}
    (tracks : Tracks answers told (.reading filled reported))
    (within : ∀ bytes, answer = .ok bytes → bytes.length ≤ Rejection.frameLength - filled.length) :
    Tracks (answers ++ [answer]) told (Monitor.afterRead filled reported answer) := by
  cases tracks with
  | past _ _ _ ends => rcases ends with ends | ends <;> cases ends
  | @reading errors _ _ short split =>
    match answer with
    | .error error =>
      have same : brought (answers ++ [.error error]) = frames errors ++ filled := by
        rw [brought_append, split]
        exact List.append_nil _
      by_cases transient : error.isTransient = true
      · rw [Monitor.afterRead, if_pos transient]
        exact .reading (by rw [stopped_append, stops, if_pos transient]) short same
      · rw [Monitor.afterRead, if_neg transient]
        exact .ended (by rw [stopped_append, stops, if_neg transient]) short same
    | .ok bytes =>
      have grown : brought (answers ++ [.ok bytes]) = frames errors ++ (filled ++ bytes) := by
        rw [brought_append, split, List.append_assoc]
        simp [brought]
      by_cases nothing : bytes = []
      · subst nothing
        rw [List.append_nil] at grown
        exact .ended (by rw [stopped_append, stops]) short grown
      have goes : stopped (answers ++ [.ok bytes]) = none := by
        rw [stopped_append]
        cases bytes <;> first | exact absurd rfl nothing | rfl
      have fits := within bytes rfl
      by_cases still : (filled ++ bytes).length < Rejection.frameLength
      · rw [afterRead_of_partial nothing still]
        exact .reading goes still grown
      have whole : (filled ++ bytes).length = Rejection.frameLength := by
        rw [List.length_append] at still ⊢
        omega
      rcases Rejection.ofFrame?_cases whole with ⟨code, identifier, frame, decoded⟩ | ⟨other, problem, decoded⟩
      · rw [afterRead_of_frame nothing whole decoded]
        refine @Tracks.reporting _ errors (code, identifier) goes ?_
        rw [grown, frames_append, frame]
        simp [frames]
      · rw [afterRead_of_malformed nothing whole decoded]
        refine .concluding (due_of_malformed grown (Nat.le_of_eq whole.symm) other) ?_
        rintro r ⟨⟩
        rfl

theorem reported {r : Rejection} {count : Nat} (tracks : Tracks answers told (.reporting r count)) :
    Tracks answers (told ++ [r]) (.reading [] (count + 1)) := by
  cases tracks with
  | past _ _ _ ends => rcases ends with ends | ends <;> cases ends
  | @reporting errors error goes split =>
    have reading := @Tracks.reading answers (errors ++ [error]) [] goes (by decide) (by rw [split, List.append_nil])
    rwa [List.map_append, List.length_append] at reading

theorem checked {failed : Bool} {filled : Bytes} {count : Nat}
    (tracks : Tracks answers told (.ended failed filled count)) (isOpen : Bool) :
    Tracks answers told (if isOpen then .concluding (verdict failed filled count) else .leaving) := by
  cases tracks with
  | past _ _ _ ends => rcases ends with ends | ends <;> cases ends
  | @ended errors _ _ stops short split =>
    have due := due_of_partial split short
    rw [stops, Option.elim_some, ← toList_verdict] at due
    cases isOpen with
    | true => exact .concluding due fun r told => verdict_synthetic told
    | false =>
      rw [← List.append_nil (errors.map rejection)]
      exact .past due (by cases verdict failed filled errors.length <;> simp) nofun (.inl rfl)

theorem concluded {last : Option Rejection} (tracks : Tracks answers told (.concluding last)) :
    Tracks answers (told ++ last.toList) .leaving := by
  cases tracks with
  | past _ _ _ ends => rcases ends with ends | ends <;> cases ends
  | @concluding errors _ due synthetic =>
    exact @Tracks.past _ errors last.toList [] _ (by rw [due, List.append_nil]) (by cases last <;> simp)
      (fun r member => synthetic r (Option.mem_toList.mp member)) (.inl rfl)

theorem left (tracks : Tracks answers told .leaving) : Tracks answers told .gone := by
  cases tracks with
  | past due few synthetic => exact .past due few synthetic (.inr rfl)

/-- All that is told can be seen from the reads, and no more than one thing is missing; what was not decoded from a
frame is told last. -/
theorem sound {m : Monitor} (tracks : Tracks answers told m) :
    told <+: due answers ∧ (due answers).length ≤ told.length + 1 ∧
      ∃ (errors : List (UInt8 × UInt32)) (last : List Rejection),
        told = errors.map rejection ++ last ∧ last.length ≤ 1 ∧ ∀ r ∈ last, r.identifier = none := by
  have plain (errors : List (UInt8 × UInt32)) : ∃ (errors' : List (UInt8 × UInt32)) (last : List Rejection),
      errors.map rejection = errors'.map rejection ++ last ∧ last.length ≤ 1 ∧ ∀ r ∈ last, r.identifier = none :=
    ⟨errors, [], by simp, by simp, nofun⟩
  cases tracks with
  | @reading errors filled goes short split =>
    have due := due_of_partial split short
    rw [goes, Option.elim_none, List.append_nil] at due
    exact ⟨due ▸ List.prefix_rfl, by simp [due], plain errors⟩
  | @reporting errors error goes split =>
    rw [← List.append_nil (frames (errors ++ [error]))] at split
    have due := due_of_partial split (by decide)
    rw [goes, Option.elim_none, List.append_nil, List.map_append] at due
    exact ⟨due ▸ List.prefix_append .., by simp [due], plain errors⟩
  | @ended errors failed filled stops short split =>
    have due := due_of_partial split short
    rw [stops, Option.elim_some, ← toList_verdict] at due
    refine ⟨due ▸ List.prefix_append .., ?_, plain errors⟩
    rw [due]
    cases verdict failed filled errors.length <;> simp
  | @concluding errors last due =>
    refine ⟨due ▸ List.prefix_append .., ?_, plain errors⟩
    rw [due]
    cases last <;> simp
  | @past errors last missing _ due few synthetic =>
    rw [List.length_append] at few
    refine ⟨⟨missing, by rw [due, List.append_assoc]⟩, ?_, errors, last, rfl, by omega, synthetic⟩
    rw [due, List.length_append, List.length_append, List.length_append]
    omega

end Tracks
end PushGateway.Monitor
