namespace PushGateway

/-- An integer that fits in 64 bits, with or without a sign. -/
structure Whole where
  val : Int
  lower : -9223372036854775808 ≤ val := by omega
  upper : val < 18446744073709551616 := by omega
  deriving DecidableEq

namespace Whole

def ofInt? (n : Int) : Option Whole :=
  if bounds : -9223372036854775808 ≤ n ∧ n < 18446744073709551616 then some ⟨n, bounds.1, bounds.2⟩ else none

def ofUInt64 (n : UInt64) : Whole :=
  ⟨n.toNat, by omega, by have := n.toNat_lt; omega⟩

def ofInt32 (n : Int32) : Whole :=
  ⟨n.toInt, by have := n.le_toInt; omega, by have := n.toInt_lt; omega⟩

instance : Inhabited Whole := ⟨⟨0, by decide, by decide⟩⟩

end Whole

/-- A value of the data format in which payloads and settings are written. -/
inductive Json
  | null
  | bool (value : Bool)
  | whole (value : Whole)
  | float (value : Float)
  | text (value : String)
  | list (items : List Json)
  /-- Named members, in the order in which they are written. -/
  | record (members : List (String × Json))
  deriving Inhabited

namespace Json

def natural (n : UInt64) : Json := whole (.ofUInt64 n)

/-- Members whose names increase, so that no name occurs twice. -/
abbrev Members := List (String × Json)

/-- Puts a member in its place by name; one of the same name is replaced. -/
def insert (name : String) (value : Json) : Members → Members
  | [] => [(name, value)]
  | (other, old) :: later =>
    if name < other then (name, value) :: (other, old) :: later
    else if name = other then (name, value) :: later
    else (other, old) :: insert name value later

def find? (name : String) : Members → Option Json
  | [] => none
  | (other, value) :: later => if other = name then some value else find? name later

def member? (name : String) : Json → Option Json
  | record members => find? name members
  | _ => none

end Json
end PushGateway
