import Tipping.IntIn
import Tipping.Json.Fault

/-!
Codecs: descriptions of the types that are kept as JSON.

A codec says which JSON a type is written as, and reading and writing follow it. A record is
written as an object with its fields in the order of their declaration; it may be read from an
object with its members in any order and others among them, or from an array of its fields.
A field with a value for its absence need not be given.
-/

namespace Tipping

namespace Json

mutual

inductive Codec : Type → Type 1 where
  | string : Codec String
  | bool : Codec Bool
  | double : Codec Binary64
  | integer (name : String) (low high : Int) : Codec (IntIn low high)
  | nullable {α : Type} (c : Codec α) : Codec (Option α)
  | list {α : Type} (c : Codec α) : Codec (List α)
  | record {σ β α : Type} (name : String) (fields : Fields σ β) (make : β → α) (parts : α → β)
      (make_parts : ∀ a, make (parts a) = a) (parts_make : ∀ b, parts (make b) = b) : Codec α

/-- The fields of a record, with the type of what has been read of them so far and the type of
all their values. -/
inductive Fields : Type → Type → Type 1 where
  | nil : Fields Unit Unit
  | cons {α σ β : Type} (name : String) (c : Codec α) (absent : Option α) (rest : Fields σ β) :
      Fields (Option α × σ) (α × β)

end

namespace Fields

def count {σ β : Type} : Fields σ β → Nat
  | nil => 0
  | cons _ _ _ rest => rest.count + 1

def names {σ β : Type} : Fields σ β → List String
  | nil => []
  | cons name _ _ rest => name :: rest.names

/-- Nothing read yet. -/
def blank {σ β : Type} : Fields σ β → σ
  | nil => ()
  | cons _ _ _ rest => (none, rest.blank)

end Fields

/-! ### Writing -/

mutual

def Codec.encode : {α : Type} → Codec α → α → ParseTree
  | _, .string, s => .string (some s)
  | _, .bool, b => .bool b
  | _, .double, x => .number (x.numeral layout)
  | _, .integer _ _ _, n => .number (.ofInt n.val)
  | _, .nullable _, none => .null
  | _, .nullable c, some a => c.encode a
  | _, .list c, as => .array (as.map c.encode) none
  | _, .record _ fields _ parts _ _, a => .object (fields.encode (parts a)) none
termination_by structural _ c => c

def Fields.encode : {σ β : Type} → Fields σ β → β → List (Option String × ParseTree)
  | _, _, .nil, _ => []
  | _, _, .cons name c _ rest, (a, b) => (some name, c.encode a) :: rest.encode b
termination_by structural _ _ fs => fs

end

theorem Codec.encode_none {α : Type} (c : Codec α) : c.nullable.encode none = .null := by
  rw [encode]

/-- The compact text of a value. -/
def Codec.text {α : Type} (c : Codec α) (a : α) : String := String.ofList (c.encode a).text

/-! ### Parts of reading -/

def Number.toIntIn (name : String) (low high : Int) : Number → Except Mismatch (IntIn low high)
  | .integer n _ => if h : low ≤ n ∧ n ≤ high then .ok ⟨n, h⟩ else .error (.outOfRange n name)
  | .double x => .error (.wrongType (.double x) name)

/-- The fields not given take the value of their absence. -/
def Fields.finish {σ β : Type} : Fields σ β → σ → Except Mismatch β
  | .nil, _ => .ok ()
  | .cons name _ absent rest, (slot, slots) =>
    match slot.or absent with
    | some a => (a, ·) <$> rest.finish slots
    | none => .error (.missing name)

end Json

end Tipping
