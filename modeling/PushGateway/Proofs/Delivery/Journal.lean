import PushGateway.Delivery.World
import PushGateway.Wire.Encoding

namespace PushGateway

namespace Entry

/-- The connection that was made. -/
@[simp] def made? : Entry → Option Nat
  | connected _ conn => some conn
  | _ => none

/-- The connection that was shut down. -/
@[simp] def shut? : Entry → Option Nat
  | shutDown conn => some conn
  | _ => none

/-- The bytes of a write to this connection, with its failure if it failed. -/
@[simp] def write? (conn : Nat) : Entry → Option (Bytes × Option IoError)
  | wrote c bytes => if c = conn then some (bytes, none) else none
  | writeFailed c bytes error => if c = conn then some (bytes, some error) else none
  | _ => none

/-- The bytes of a write to this connection that succeeded. -/
@[simp] def written? (conn : Nat) : Entry → Option Bytes
  | wrote c bytes => if c = conn then some bytes else none
  | _ => none

/-- The bytes of a write that succeeded, on whichever connection. -/
@[simp] def success? : Entry → Option Bytes
  | wrote _ bytes => some bytes
  | _ => none

@[simp] def pause? : Entry → Option Duration
  | slept d => some d
  | _ => none

@[simp] def told? : Entry → Option Event
  | told event => some event
  | _ => none

/-- Whether a lock was taken or given back. -/
@[simp] def isLocking : Entry → Bool
  | locked _ | unlocked _ => true
  | _ => false

end Entry

namespace Journal

/-- The connections that were made, oldest first. -/
def made (entries : List Entry) : List Nat := entries.filterMap Entry.made?

/-- The connections that were shut down, in the order in which that happened. -/
def shut (entries : List Entry) : List Nat := entries.filterMap Entry.shut?

/-- The writes to one connection. -/
def writes (conn : Nat) (entries : List Entry) : List (Bytes × Option IoError) :=
  entries.filterMap (Entry.write? conn)

/-- What was written to one connection by writes that succeeded. -/
def written (conn : Nat) (entries : List Entry) : List Bytes := entries.filterMap (Entry.written? conn)

/-- What was written by writes that succeeded, on whichever connections. -/
def successes (entries : List Entry) : List Bytes := entries.filterMap Entry.success?

def pauses (entries : List Entry) : List Duration := entries.filterMap Entry.pause?

/-- What listeners were told. -/
def told (entries : List Entry) : List Event := entries.filterMap Entry.told?

/-- What was done under a lock, where `holding` says whether it is held at the beginning. -/
def under (lock : Lock) (holding : Bool) : List Entry → List Entry
  | [] => []
  | .locked other :: later => under lock (other == lock) later
  | .unlocked _ :: later => under lock false later
  | entry :: later => if holding then entry :: under lock holding later else under lock holding later

/-- Writes that succeeded, each of one whole notification. -/
def Clean (writes : List (Bytes × Option IoError)) : Prop :=
  ∀ write ∈ writes, write.2 = none ∧ ∃ n : Notification, n.encode = .ok write.1

/-- Writes of whole notifications that succeeded, and behind them at most one write more, which failed. -/
def Regular (writes : List (Bytes × Option IoError)) : Prop :=
  ∃ sent broken, writes = sent ++ broken ∧ Clean sent ∧ broken.length ≤ 1 ∧ ∀ write ∈ broken, write.2 ≠ none

theorem Clean.regular {writes : List (Bytes × Option IoError)} (clean : Clean writes) : Regular writes :=
  ⟨writes, [], by simp, clean, by simp, by simp⟩

section lists
variable (a b : List Entry) (entry : Entry)

theorem filterMap_cons_toList {α β : Type} (f : α → Option β) (x : α) (xs : List α) :
    (x :: xs).filterMap f = (f x).toList ++ xs.filterMap f := by
  cases found : f x <;> simp [found]

@[simp] theorem made_nil : made [] = [] := rfl
@[simp] theorem shut_nil : shut [] = [] := rfl
@[simp] theorem writes_nil (conn : Nat) : writes conn [] = [] := rfl
@[simp] theorem written_nil (conn : Nat) : written conn [] = [] := rfl
@[simp] theorem successes_nil : successes [] = [] := rfl
@[simp] theorem pauses_nil : pauses [] = [] := rfl
@[simp] theorem told_nil : told [] = [] := rfl

@[simp] theorem made_cons : made (entry :: a) = entry.made?.toList ++ made a := filterMap_cons_toList ..
@[simp] theorem shut_cons : shut (entry :: a) = entry.shut?.toList ++ shut a := filterMap_cons_toList ..
@[simp] theorem writes_cons (conn : Nat) :
    writes conn (entry :: a) = (entry.write? conn).toList ++ writes conn a := filterMap_cons_toList ..
@[simp] theorem written_cons (conn : Nat) :
    written conn (entry :: a) = (entry.written? conn).toList ++ written conn a := filterMap_cons_toList ..
@[simp] theorem successes_cons : successes (entry :: a) = entry.success?.toList ++ successes a :=
  filterMap_cons_toList ..
@[simp] theorem pauses_cons : pauses (entry :: a) = entry.pause?.toList ++ pauses a := filterMap_cons_toList ..
@[simp] theorem told_cons : told (entry :: a) = entry.told?.toList ++ told a := filterMap_cons_toList ..

@[simp] theorem made_append : made (a ++ b) = made a ++ made b := List.filterMap_append
@[simp] theorem shut_append : shut (a ++ b) = shut a ++ shut b := List.filterMap_append
@[simp] theorem writes_append (conn : Nat) : writes conn (a ++ b) = writes conn a ++ writes conn b :=
  List.filterMap_append
@[simp] theorem written_append (conn : Nat) : written conn (a ++ b) = written conn a ++ written conn b :=
  List.filterMap_append
@[simp] theorem successes_append : successes (a ++ b) = successes a ++ successes b := List.filterMap_append
@[simp] theorem pauses_append : pauses (a ++ b) = pauses a ++ pauses b := List.filterMap_append
@[simp] theorem told_append : told (a ++ b) = told a ++ told b := List.filterMap_append

end lists

@[simp] theorem told_map_told (events : List Event) : told (events.map .told) = events := by
  induction events with
  | nil => rfl
  | cons event events ih => simp [ih]

@[simp] theorem successes_map_told (events : List Event) : successes (events.map .told) = [] := by
  induction events with
  | nil => rfl
  | cons event events ih => simp [ih]

@[simp] theorem writes_map_told (conn : Nat) (events : List Event) : writes conn (events.map .told) = [] := by
  induction events with
  | nil => rfl
  | cons event events ih => simp [ih]

@[simp] theorem shut_map_shutDown (conns : List Nat) : shut (conns.map .shutDown) = conns := by
  induction conns with
  | nil => rfl
  | cons conn conns ih => simp [ih]

@[simp] theorem made_map_shutDown (conns : List Nat) : made (conns.map .shutDown) = [] := by
  induction conns with
  | nil => rfl
  | cons conn conns ih => simp [ih]

theorem mem_writes_of_written {conn : Nat} {entries : List Entry} {bytes : Bytes}
    (member : bytes ∈ written conn entries) : (bytes, none) ∈ writes conn entries := by
  obtain ⟨entry, inside, found⟩ := List.mem_filterMap.mp member
  refine List.mem_filterMap.mpr ⟨entry, inside, ?_⟩
  cases entry <;> simp_all

theorem written_eq_nil {conn : Nat} {entries : List Entry} (unused : writes conn entries = []) :
    written conn entries = [] := by
  rw [List.eq_nil_iff_forall_not_mem]
  intro bytes member
  simpa [unused] using mem_writes_of_written member

theorem Regular.written_whole {conn : Nat} {entries : List Entry} {bytes : Bytes}
    (regular : Regular (writes conn entries)) (member : bytes ∈ written conn entries) :
    ∃ n : Notification, n.encode = .ok bytes := by
  obtain ⟨sent, broken, all, clean, _, failed⟩ := regular
  have write := mem_writes_of_written member
  rw [all, List.mem_append] at write
  rcases write with inside | behind
  · exact (clean _ inside).2
  · exact absurd rfl (failed _ behind)

/-- Which writes succeeded can be seen from the writes. -/
theorem written_congr {conn : Nat} {a b : List Entry} (same : writes conn a = writes conn b) :
    written conn a = written conn b := by
  have seen : ∀ entries, written conn entries =
      (writes conn entries).filterMap fun write => if write.2 = none then some write.1 else none := by
    intro entries
    rw [written, writes, List.filterMap_filterMap]
    congr 1
    funext entry
    cases entry <;> simp <;> split <;> rfl
  rw [seen, seen, same]

/-- What is done under a lock stands between taking it and giving it back. -/
def locked (lock : Lock) (entries : List Entry) : List Entry := .locked lock :: entries ++ [.unlocked lock]

@[simp] theorem writes_locked (conn : Nat) (lock : Lock) (entries : List Entry) :
    writes conn (locked lock entries) = writes conn entries := by
  simp [locked]

@[simp] theorem successes_locked (lock : Lock) (entries : List Entry) :
    successes (locked lock entries) = successes entries := by
  simp [locked]

theorem under_locked (lock other : Lock) (holding : Bool) {entries : List Entry}
    (plain : ∀ entry ∈ entries, entry.isLocking = false) (later : List Entry) :
    under lock holding (locked other entries ++ later) =
      (if other = lock then entries else []) ++ under lock false later := by
  have inside : ∀ holding, under lock holding (entries ++ .unlocked other :: later) =
      (if holding then entries else []) ++ under lock false later := by
    intro holding
    induction entries with
    | nil => cases holding <;> rfl
    | cons entry entries ih =>
      have rest := ih fun entry member => plain entry (List.mem_cons_of_mem _ member)
      have first := plain entry (List.mem_cons_self ..)
      cases entry <;> simp at first <;> simp [under, rest] <;> split <;> rfl
  simp only [locked, List.cons_append, List.append_assoc, List.nil_append, under, inside, beq_iff_eq]

theorem under_append_locked (lock other : Lock) (entries later before : List Entry) :
    under lock false (before ++ (locked other entries ++ later)) =
      under lock false before ++ under lock false (locked other entries ++ later) := by
  have general : ∀ holding, under lock holding (before ++ (locked other entries ++ later)) =
      under lock holding before ++ under lock false (locked other entries ++ later) := by
    induction before with
    | nil => exact fun _ => rfl
    | cons entry before ih =>
      intro holding
      cases entry <;> simp [under, ih] <;> split <;> rfl
  exact general false

/-- What a connection check does is not done under the client's lock. -/
theorem under_client_check {entries later : List Entry} (plain : ∀ entry ∈ entries, entry.isLocking = false)
    (plainLater : ∀ entry ∈ later, entry.isLocking = false) (before : List Entry) :
    under .client false (before ++ (locked .client [] ++ (locked .check entries ++ locked .check later))) =
      under .client false before := by
  have nothing : ∀ entry ∈ ([] : List Entry), entry.isLocking = false := by simp
  have last := under_locked .client .check false plainLater []
  rw [List.append_nil] at last
  rw [under_append_locked, under_locked _ _ _ nothing, under_locked _ _ _ plain, last]
  simp [under]

theorem under_map_told (lock : Lock) (events : List Event) : under lock false (events.map .told) = [] := by
  induction events with
  | nil => rfl
  | cons event events ih => simpa [under] using ih

end Journal
end PushGateway
