import PushGateway.Proofs.Delivery.Moves

namespace PushGateway

open Journal

/-- One for what succeeded, none for what failed. -/
def Client.whenOk {α : Type} (one : α) : Except NetworkError Unit → List α
  | .ok () => [one]
  | .error _ => []

/-- What an acquire leaves in the journal, and what it comes to. Before it stand the connection that is held and
the number which the next connection gets, behind it that number alone: the connection that is held then is the one
which is handed out. -/
inductive Acquires (endpoint : Endpoint) : Option Nat → Nat → List Entry → Except NetworkError Nat → Nat → Prop
  | kept (conn next : Nat) : Acquires endpoint (some conn) next [] (.ok conn) next
  | made (held : Option Nat) (next : Nat) :
      Acquires endpoint held next (held.toList.map .shutDown ++ [.connected endpoint next]) (.ok next) (next + 1)
  | refused (held : Option Nat) (next : Nat) (error : NetworkError) :
      Acquires endpoint held next (held.toList.map .shutDown ++ [.refused endpoint error]) (.error error) next
  /-- No monitor could be started for the connection that was made. -/
  | unwatched (held : Option Nat) (next : Nat) (error : IoError) :
      Acquires endpoint held next (held.toList.map .shutDown ++ [.connected endpoint next, .shutDown next])
        (.error (.connectionFailed s!"cannot start error monitor: {error.text}")) (next + 1)

/-- What an attempt to write `bytes` leaves in the journal, and what it comes to. It succeeds if a connection is
acquired and the bytes are written to it. If it fails, no connection is held any more. -/
inductive Tried (endpoint : Endpoint) (bytes : Bytes) :
    Option Nat → Nat → List Entry → Except NetworkError Unit → Option Nat → Nat → Prop
  | unacquired {held next entries error next'} : Acquires endpoint held next entries (.error error) next' →
      Tried endpoint bytes held next entries (.error error) none next'
  | broke {held next entries conn next'} (error : IoError) : Acquires endpoint held next entries (.ok conn) next' →
      Tried endpoint bytes held next (entries ++ [.writeFailed conn bytes error, .shutDown conn])
        (.error (.ofWrite error)) none next'
  | wrote {held next entries conn next'} : Acquires endpoint held next entries (.ok conn) next' →
      Tried endpoint bytes held next (entries ++ [.wrote conn bytes]) (.ok ()) (some conn) next'

/-- Attempts one after the other, what they leave in the journal and what they come to. None follows one that
succeeded, and the third and all later ones begin after a delay. -/
inductive Tries (endpoint : Endpoint) (bytes : Bytes) (delay : Duration) (held : Option Nat) (next : Nat) :
    List Entry → List (Except NetworkError Unit) → Option Nat → Nat → Prop
  | nothing : Tries endpoint bytes delay held next [] [] held next
  | more {entries step result held₁ next₁ held₂ next₂} {errors : List NetworkError} :
      Tries endpoint bytes delay held next entries (errors.map .error) held₁ next₁ →
      Tried endpoint bytes held₁ next₁ step result held₂ next₂ →
      Tries endpoint bytes delay held next
        (entries ++ ((if errors.length < 2 then [] else [.slept delay]) ++ step)) (errors.map .error ++ [result])
        held₂ next₂

variable {endpoint : Endpoint} {bytes : Bytes} {delay : Duration} {held held' : Option Nat} {next next' : Nat}
  {entries : List Entry}

theorem Moves.shuts (endpoint : Endpoint) (held : Option Nat) (next : Nat) :
    Moves endpoint held next (held.toList.map .shutDown) none next := by
  cases held with
  | none => exact .nothing
  | some conn => exact (Move.shut conn next).moves

namespace Acquires

variable {answer : Except NetworkError Nat}

theorem moves (acquires : Acquires endpoint held next entries answer next') :
    Moves endpoint held next entries answer.toOption next' := by
  cases acquires with
  | kept => exact .nothing
  | made => exact (Moves.shuts endpoint held next).more (.made next)
  | refused error => exact (Moves.shuts endpoint held next).more (.refused _ next)
  | unwatched error => exact (Moves.shuts endpoint held next).more (.unwatched next)

/-- What does not look at connections that are made or shut down sees nothing of an acquire. -/
theorem unseen (acquires : Acquires endpoint held next entries answer next') {α : Type} {f : Entry → Option α}
    (shut : ∀ conn, f (.shutDown conn) = none) (made : ∀ conn, f (.connected endpoint conn) = none)
    (refused : ∀ error, f (.refused endpoint error) = none) : entries.filterMap f = [] := by
  have shuts : (held.toList.map Entry.shutDown).filterMap f = [] := by cases held <;> simp [shut]
  cases acquires with
  | kept => rfl
  | made | refused | unwatched => simp [shuts, shut, made, refused]

theorem successes_eq_nil (acquires : Acquires endpoint held next entries answer next') : successes entries = [] :=
  acquires.unseen (fun _ => rfl) (fun _ => rfl) fun _ => rfl

theorem pauses_eq_nil (acquires : Acquires endpoint held next entries answer next') : pauses entries = [] :=
  acquires.unseen (fun _ => rfl) (fun _ => rfl) fun _ => rfl

theorem writes_eq_nil (acquires : Acquires endpoint held next entries answer next') (conn : Nat) :
    writes conn entries = [] :=
  acquires.unseen (fun _ => rfl) (fun _ => rfl) fun _ => rfl

end Acquires

namespace Tried

variable {result : Except NetworkError Unit}

theorem successes_eq (tried : Tried endpoint bytes held next entries result held' next') :
    successes entries = Client.whenOk bytes result := by
  cases tried with
  | unacquired acquires => exact acquires.successes_eq_nil
  | broke error acquires => simp [acquires.successes_eq_nil, Client.whenOk]
  | wrote acquires => simp [acquires.successes_eq_nil, Client.whenOk]

theorem pauses_eq (tried : Tried endpoint bytes held next entries result held' next') : pauses entries = [] := by
  cases tried with
  | unacquired acquires => exact acquires.pauses_eq_nil
  | broke error acquires => simp [acquires.pauses_eq_nil]
  | wrote acquires => simp [acquires.pauses_eq_nil]

theorem writes_only (tried : Tried endpoint bytes held next entries result held' next') (conn : Nat) :
    ∀ write ∈ writes conn entries, write.1 = bytes := by
  cases tried with
  | unacquired acquires => simp [acquires.writes_eq_nil]
  | @broke _ other _ error acquires =>
    intro write member
    obtain ⟨-, rfl⟩ : other = conn ∧ (bytes, some error) = write := by
      simpa [acquires.writes_eq_nil] using member
    rfl
  | @wrote _ other _ acquires =>
    intro write member
    obtain ⟨-, rfl⟩ : other = conn ∧ (bytes, none) = write := by simpa [acquires.writes_eq_nil] using member
    rfl

end Tried

/-- What does not look at pauses sees nothing of the one before an attempt. -/
theorem filterMap_pause {α : Type} {f : Entry → Option α} (unseen : f (.slept delay) = none) (made : Nat) :
    (if made < 2 then [] else [.slept delay]).filterMap f = [] := by
  split
  · rfl
  · simp [unseen]

/-- One attempt more than `made` means one pause more, except before the second. -/
theorem replicate_pause (delay : Duration) (made : Nat) :
    List.replicate (made - 2) delay ++ pauses (if made < 2 then [] else [.slept delay]) =
      List.replicate (made + 1 - 2) delay := by
  by_cases early : made < 2
  · have none : made - 2 = 0 ∧ made + 1 - 2 = 0 := by omega
    simp [early, none.1, none.2]
  · have one : made + 1 - 2 = made - 2 + 1 := by omega
    simp [early, one, List.replicate_succ']

namespace Tries

variable {tries : List (Except NetworkError Unit)}

theorem successes_eq (all : Tries endpoint bytes delay held next entries tries held' next') :
    successes entries = tries.flatMap (Client.whenOk bytes) := by
  induction all with
  | nothing => rfl
  | @more entries step result held₁ next₁ held₂ next₂ errors before last ih =>
    have waits : successes (if errors.length < 2 then [] else [.slept delay]) = [] := filterMap_pause rfl _
    rw [successes_append, successes_append, ih, waits, last.successes_eq, List.nil_append, List.flatMap_append,
      List.flatMap_singleton]

theorem pauses_eq (all : Tries endpoint bytes delay held next entries tries held' next') :
    pauses entries = List.replicate (tries.length - 2) delay := by
  induction all with
  | nothing => rfl
  | @more entries step result held₁ next₁ held₂ next₂ errors before last ih =>
    rw [pauses_append, pauses_append, ih, last.pauses_eq, List.append_nil, List.length_map, replicate_pause,
      List.length_append, List.length_map, List.length_singleton]

/-- Nothing else is written, whether that succeeds or not. -/
theorem writes_only (all : Tries endpoint bytes delay held next entries tries held' next') (conn : Nat) :
    ∀ write ∈ writes conn entries, write.1 = bytes := by
  induction all with
  | nothing => nofun
  | @more entries step result held₁ next₁ held₂ next₂ errors before last ih =>
    have waits : writes conn (if errors.length < 2 then [] else [.slept delay]) = [] := filterMap_pause rfl _
    intro write member
    rw [writes_append, writes_append, waits, List.nil_append] at member
    rcases List.mem_append.mp member with earlier | now
    · exact ih write earlier
    · exact last.writes_only conn write now

end Tries
end PushGateway
