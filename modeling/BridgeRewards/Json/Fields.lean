import BridgeRewards.Address
import BridgeRewards.Calendar.Instant
import BridgeRewards.Hash32
import BridgeRewards.Json.Basic
import BridgeRewards.Rate

/-!
# Reading records from documents

A record is an object whose members are found by name; members without a field are ignored, and
a field that is written twice is refused.  A record may also be an array that gives its fields in
order.  A required field has to be there, an optional one may be absent or null, and a defaulted
one may be absent.  Every reader answers `none` for a document that it refuses.
-/

set_option autoImplicit false

namespace BridgeRewards.Json

variable {α : Type}

/-! ## Plain values -/

/-- A string. -/
def asString? : Json → Option String
  | .string s => some s
  | _ => none

/-- The name of one of several constants: a string, or the key of an object whose only member
is null. -/
def asConstant? : Json → Option String
  | .string name => some name
  | .object [(name, .null)] => some name
  | _ => none

/-- A truth value. -/
def asBool? : Json → Option Bool
  | .bool b => some b
  | _ => none

/-- A natural number below a bound, written without a point or an exponent. -/
def asNatural? (bound : Nat) : Json → Option Nat
  | .integer (.ofNat n) => if n < bound then some n else none
  | _ => none

/-- A natural number of 64 bits. -/
def asNat64? : Json → Option Nat := asNatural? Text.bound64

/-- A natural number of 32 bits. -/
def asNat32? : Json → Option Nat := asNatural? Text.bound32

/-- An array whose items are all read the same way. -/
def asList? (read : Json → Option α) : Json → Option (List α)
  | .array items => items.mapM read
  | _ => none

/-- The members of an object whose values are all read the same way. -/
def asMap? (read : Json → Option α) : Json → Option (List (String × α))
  | .object members => members.mapM fun (key, value) => (read value).map (key, ·)
  | _ => none

/-- An address in any of its written forms. -/
def asAddress? (json : Json) : Option Address := json.asString?.bind Address.ofText?

/-- A hash of 32 bytes. -/
def asHash? (json : Json) : Option Hash32 := json.asString?.bind Hash32.ofText?

/-- An instant in the lenient form. -/
def asInstant? (json : Json) : Option Instant := json.asString?.bind Instant.ofText?

/-- A day of the calendar. -/
def asDate? (json : Json) : Option Date := json.asString?.bind Date.ofText?

/-- A rate, as a string or as a number; of two equally near forms of a number the larger counts. -/
def asRate? : Json → Option Rate
  | .string s => Rate.ofText? s
  | .integer n => Rate.ofInt? n
  | .real negative magnitude =>
    let (digits, power) := magnitude.shortest .up
    Rate.ofReal? negative digits power
  | _ => none

/-! ## Records -/

/-- The fields of a record: named ones from an object, or ones in order from an array. -/
structure Fields where
  named : List (String × Json)
  /-- Whether the record was written as an array. -/
  ordered : Bool

/-- Whether some key of a list stands twice. -/
def hasRepeats : List String → Bool
  | [] => false
  | key :: rest => rest.contains key || hasRepeats rest

/-- The fields of a record with the given field names. -/
def asFields? (names : List String) : Json → Option Fields
  | .object members =>
    let known := members.filter fun m => names.contains m.1
    if hasRepeats (known.map (·.1)) then none else some ⟨known, false⟩
  | .array items => if items.length ≤ names.length then some ⟨names.zip items, true⟩ else none
  | _ => none

/-- The fields of a record that has to be an object. -/
def asNamedFields? (names : List String) : Json → Option Fields
  | .object members => asFields? names (.object members)
  | _ => none

namespace Fields

/-- What is written for a field, if anything is. -/
def find? (fields : Fields) (name : String) : Option Json :=
  (fields.named.find? (·.1 == name)).map (·.2)

/-- A field that has to be there. -/
def required (fields : Fields) (name : String) (read : Json → Option α) : Option α :=
  (fields.find? name).bind read

/-- A field that may be null and, in an object, absent. -/
def optional (fields : Fields) (name : String) (read : Json → Option α) : Option (Option α) :=
  match fields.find? name with
  | none => if fields.ordered then none else some none
  | some .null => some none
  | some json => (read json).map some

/-- A field that may be null or absent. -/
def omissible (fields : Fields) (name : String) (read : Json → Option α) : Option (Option α) :=
  match fields.find? name with
  | none => some none
  | some .null => some none
  | some json => (read json).map some

/-- A field with a value to take when it is absent. -/
def defaulted (fields : Fields) (name : String) (value : α) (read : Json → Option α) : Option α :=
  match fields.find? name with
  | none => some value
  | some json => read json

end Fields

end BridgeRewards.Json
