import Replay.Number

namespace Replay

/-- Integers and doubles are kept apart, and the members of an object keep their order. -/
inductive Json where
  | null
  | bool (b : Bool)
  | number (n : Number)
  | text (t : Text)
  | array (items : List Json)
  | object (members : List (Text × Json))

instance : Inhabited Json := ⟨.null⟩

/-- The members of an object, or anything else kept under names in order. -/
abbrev Members (α : Type) := List (Text × α)

namespace Members

/-- The value under a name; the first one counts. -/
def get? {α : Type} (members : Members α) (name : Text) : Option α :=
  (members.find? fun m => m.1 = name).map Prod.snd

def has {α : Type} (members : Members α) (name : Text) : Bool := members.any fun m => m.1 = name

/-- A name that is there keeps its place and takes the new value; a new name comes last. -/
def put {α : Type} (members : Members α) (name : Text) (value : α) : Members α :=
  match members with
  | [] => [(name, value)]
  | m :: rest => if m.1 = name then (name, value) :: rest else m :: put rest name value

theorem get?_put {α : Type} (members : Members α) (name other : Text) (value : α) :
    (members.put name value).get? other =
      if other = name then some value else members.get? other := by
  induction members with
  | nil => by_cases h : other = name <;> simp [put, get?, h, eq_comm]
  | cons m rest ih =>
    rw [put]
    by_cases hm : m.1 = name
    · by_cases h : other = name <;> simp_all [get?, eq_comm]
    · by_cases h : m.1 = other <;> simp_all [get?]

end Members

namespace Json

def int (n : Int) : Json := number (.int n)

def ofNat (n : Nat) : Json := int n

def ofText? : Option Text → Json
  | some t => text t
  | none => null

/-- The value under a name, if this is an object that has it. -/
def member? : Json → Text → Option Json
  | object members, name => Members.get? members name
  | _, _ => none

def isNull : Json → Bool
  | null => true
  | _ => false

end Json

end Replay
