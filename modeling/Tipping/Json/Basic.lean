import Tipping.Binary64.Scaled
import Tipping.Binary64.Shortest
import Tipping.Json.ParseTree
import Tipping.Keyed

/-!
JSON values.

A number is an integer when it is written as one and fits 64 bits, signed or not; every other
number is a double, minus zero too. The members of an object are sorted by name, and of two
with one name the later stands.
-/

namespace Tipping

/-- Doubles are written with a point, and without a power of ten from `1e-5` to below `1e16`. -/
def Json.layout : Layout := ⟨-5, 15, true⟩

namespace Json

/-- The integers that a JSON number keeps as such: those of 64 bits, signed or not. -/
def FitsInteger (n : Int) : Prop := -9223372036854775808 ≤ n ∧ n < 18446744073709551616

instance (n : Int) : Decidable (FitsInteger n) := inferInstanceAs (Decidable (_ ∧ _))

inductive Number where
  | integer (n : Int) (fits : FitsInteger n)
  | double (x : Binary64)
  deriving DecidableEq, Repr

namespace Number

/-- The digits of a double are read as far as they fit into 64 bits. -/
def digitLimit : Nat := 18446744073709551615

/-- The double that a numeral is read as, if it is not beyond them all. -/
def doubleOf? (n : Numeral) : Option Binary64 :=
  let d := n.leading digitLimit
  Binary64.ofScaled? n.negative d.digits d.exponent

def ofNumeral? (n : Numeral) : Option Number :=
  let whole := ofDigits n.whole
  if n.isWhole ∧ ¬(n.negative = true ∧ whole = 0) then
    let i : Int := if n.negative then -whole else whole
    if h : FitsInteger i then some (.integer i h) else (doubleOf? n).map double
  else (doubleOf? n).map double

def numeral : Number → Numeral
  | integer n _ => .ofInt n
  | double x => x.numeral layout

/-- The nearest double. -/
def toBinary64 : Number → Binary64
  | integer n _ => (Binary64.ofInt? n).getD default
  | double x => x

end Number

end Json

inductive Json where
  | null
  | bool (b : Bool)
  | number (n : Json.Number)
  | string (s : String)
  | array (items : List Json)
  | object (members : List (String × Json))
  deriving Repr, Inhabited

namespace Json

/-- An object with the given members, whatever their order. -/
def ofMembers (ms : List (String × Json)) : Json := object (Keyed.ofList ms)

def member? (name : String) : Json → Option Json
  | object ms => ms.lookup name
  | _ => none

/-- How many containers may be open at once where values are kept. -/
def depthLimit : Nat := 127

def closed (ending : Option Cut) : Except Break Unit :=
  match ending with
  | none => .ok ()
  | some cut => .error cut.kept

mutual

/-- The value of a tree, unless it breaks, nests deeper than `depth`, or holds a number or a
string that cannot be kept; then the first such fault from the left. -/
def ofTree (depth : Nat) : ParseTree → Except Break Json
  | .null => .ok .null
  | .bool b => .ok (.bool b)
  | .number n =>
    match Number.ofNumeral? n with
    | some n => .ok (.number n)
    | none => .error .malformed
  | .string content =>
    match content with
    | some s => .ok (.string s)
    | none => .error .malformed
  | .array items ending =>
    match depth with
    | 0 => .error .malformed
    | depth + 1 => do
      let vs ← ofItems depth items
      closed ending
      .ok (.array vs)
  | .object members ending =>
    match depth with
    | 0 => .error .malformed
    | depth + 1 => do
      let vs ← ofMemberTrees depth members
      closed ending
      .ok (.ofMembers vs)
  | .broken cut => .error cut.kept

def ofItems (depth : Nat) : List ParseTree → Except Break (List Json)
  | [] => .ok []
  | t :: ts => do
    let v ← ofTree depth t
    let vs ← ofItems depth ts
    .ok (v :: vs)

def ofMemberTrees (depth : Nat) :
    List (Option String × ParseTree) → Except Break (List (String × Json))
  | [] => .ok []
  | (name, t) :: ms =>
    match name with
    | none => .error .malformed
    | some name => do
      let v ← ofTree depth t
      let vs ← ofMemberTrees depth ms
      .ok ((name, v) :: vs)

end

/-- The value that a text writes, and nothing but blanks around it. -/
def ofText (s : String) : Except Break Json := do
  let (tree, more) := ParseTree.ofText s.toList
  let v ← ofTree depthLimit tree
  if more then .error .malformed else .ok v

mutual

def tree : Json → ParseTree
  | null => .null
  | bool b => .bool b
  | number n => .number n.numeral
  | string s => .string (some s)
  | array items => .array (itemTrees items) none
  | object members => .object (memberTrees members) none

def itemTrees : List Json → List ParseTree
  | [] => []
  | v :: vs => v.tree :: itemTrees vs

def memberTrees : List (String × Json) → List (Option String × ParseTree)
  | [] => []
  | (name, v) :: ms => (some name, v.tree) :: memberTrees ms

end

/-- Compact text: no blanks, members in the order of their names. -/
def text (v : Json) : String := String.ofList v.tree.text

end Json

end Tipping
