import BridgeRewards.Double

/-!
# Documents

A document is a JSON value.  Integers that fit 64 bits are kept apart from the other numbers,
which are held to double precision.  The members of an object stay in the order in
which they were written, and a key may be written twice; `sorted` is the form in which a key
stands once, with its last value, and keys are in order.  A value may be well formed and still
beyond what can be held; such a value is `unreadable`, and a document that has none is readable.
-/

set_option autoImplicit false

namespace BridgeRewards

/-- A JSON value. -/
inductive Json where
  | null
  | bool (value : Bool)
  | integer (value : Int)
  /-- A number with a sign and a magnitude of double precision. -/
  | real (negative : Bool) (magnitude : Double)
  | string (value : String)
  | array (items : List Json)
  | object (members : List (String × Json))
  /-- A number that is too large, a string with half of a surrogate pair, or a value that is
  nested too deep. -/
  | unreadable
  deriving Inhabited

namespace Json

/-- The members of an object with one of them put in its place by key; a member with the same
key is replaced. -/
def putMember (key : String) (value : Json) : List (String × Json) → List (String × Json)
  | [] => [(key, value)]
  | (k, v) :: rest =>
    match compare key k with
    | .lt => (key, value) :: (k, v) :: rest
    | .eq => (key, value) :: rest
    | .gt => (k, v) :: putMember key value rest

mutual
/-- The document with the members of every object in order of their keys, each key once with its
last value. -/
def sorted : Json → Json
  | .array items => .array (sortedItems items)
  | .object members => .object (sortedMembers members)
  | value => value

/-- Every document of a list in sorted form. -/
def sortedItems : List Json → List Json
  | [] => []
  | item :: rest => sorted item :: sortedItems rest

/-- The members in sorted form; a later member wins over an earlier one of the same key. -/
def sortedMembers : List (String × Json) → List (String × Json)
  | [] => []
  | (key, value) :: rest =>
    let later := sortedMembers rest
    if later.any (·.1 == key) then later else putMember key (sorted value) later
end

mutual
/-- Whether two documents are the same, written order of members included. -/
def same : Json → Json → Bool
  | .null, .null => true
  | .bool a, .bool b => a == b
  | .integer a, .integer b => a == b
  | .real s x, .real s' x' => s == s' && decide (x = x')
  | .string a, .string b => a == b
  | .array a, .array b => sameItems a b
  | .object a, .object b => sameMembers a b
  | .unreadable, .unreadable => true
  | _, _ => false

/-- Whether two lists of documents are the same. -/
def sameItems : List Json → List Json → Bool
  | [], [] => true
  | a :: as, b :: bs => same a b && sameItems as bs
  | _, _ => false

/-- Whether two lists of members are the same. -/
def sameMembers : List (String × Json) → List (String × Json) → Bool
  | [], [] => true
  | (k, a) :: as, (k', b) :: bs => k == k' && same a b && sameMembers as bs
  | _, _ => false
end

instance : BEq Json := ⟨same⟩

mutual
/-- Whether every part of a document can be held. -/
def isReadable : Json → Bool
  | .array items => areItemsReadable items
  | .object members => areMembersReadable members
  | .unreadable => false
  | _ => true

/-- Whether every document of a list is readable. -/
def areItemsReadable : List Json → Bool
  | [] => true
  | item :: rest => isReadable item && areItemsReadable rest

/-- Whether the values of all members are readable. -/
def areMembersReadable : List (String × Json) → Bool
  | [] => true
  | (_, value) :: rest => isReadable value && areMembersReadable rest
end

/-- The member of an object with a given key, the first if it is written twice. -/
def member? (json : Json) (key : String) : Option Json :=
  match json with
  | .object members => (members.find? (·.1 == key)).map (·.2)
  | _ => none

/-- A natural number as a document. -/
def nat (n : Nat) : Json := .integer n

/-- A document, or null where there is none. -/
def orNull : Option Json → Json
  | none => .null
  | some value => value

end Json

end BridgeRewards
