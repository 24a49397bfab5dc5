import Tipping.Json.Codec.Basic

/-!
Reading a type from the tree of a text.

A tree is gone through from left to right, and the first fault met is the answer, be it a break
of the form or a value that does not fit. Members that are no fields are skipped, which asks
for their form alone.
-/

namespace Tipping.Json

/-- The tree is not of the expected kind. A scalar is looked at as a whole first, a container
not at all. -/
def ParseTree.refuse (expected : String) : ParseTree → Fault
  | .null => .content (.wrongType .null expected)
  | .bool b => .content (.wrongType (.bool b) expected)
  | .number n =>
    match Number.ofNumeral? n with
    | some n => .content (.wrongType n.found expected)
    | none => .form .malformed
  | .string content =>
    match content with
    | some s => .content (.wrongType (.string s) expected)
    | none => .form .malformed
  | .array _ _ => .content (.wrongType .array expected)
  | .object _ _ => .content (.wrongType .object expected)
  | .broken cut => .form cut.kept

def closedAt (ending : Option Cut) : Except Fault Unit := (closed ending).mapError .form

def readAll {α : Type} (read : ParseTree → Except Fault α) : List ParseTree → Except Fault (List α)
  | [] => .ok []
  | t :: ts => do
    let a ← read t
    let as ← readAll read ts
    .ok (a :: as)

/-- Reads the members from left to right. Those with a name that is no field are skipped. -/
def readMembers {σ : Type} (field : String → ParseTree → σ → Option (Except Fault σ)) :
    List (Option String × ParseTree) → σ → Except Fault σ
  | [], slots => .ok slots
  | (none, _) :: _, _ => .error (.form .malformed)
  | (some name, t) :: ms, slots =>
    match field name t slots with
    | some read => read.bind (readMembers field ms)
    | none =>
      match t.skip with
      | some b => .error (.form b)
      | none => readMembers field ms slots

mutual

/-- Reads a tree with at most `depth` containers open at once. -/
def Codec.read : {α : Type} → Codec α → Nat → ParseTree → Except Fault α
  | _, .string, _, t =>
    match t with
    | .string (some s) => .ok s
    | t => .error (t.refuse "a string")
  | _, .bool, _, t =>
    match t with
    | .bool b => .ok b
    | t => .error (t.refuse "a boolean")
  | _, .double, _, t =>
    match t with
    | .number n =>
      match Number.ofNumeral? n with
      | some n => .ok n.toBinary64
      | none => .error (.form .malformed)
    | t => .error (t.refuse "f64")
  | _, .integer name low high, _, t =>
    match t with
    | .number n =>
      match Number.ofNumeral? n with
      | some n => (n.toIntIn name low high).mapError .content
      | none => .error (.form .malformed)
    | t => .error (t.refuse name)
  | _, .nullable c, depth, t =>
    match t with
    | .null => .ok none
    | t => some <$> c.read depth t
  | _, .list c, depth, t =>
    match t with
    | .array items ending =>
      match depth with
      | 0 => .error (.form .malformed)
      | depth + 1 => do
        let as ← readAll (c.read depth) items
        closedAt ending
        .ok as
    | t => .error (t.refuse "a sequence")
  | _, .record name fields make _ _ _, depth, t =>
    match t with
    | .array items ending =>
      match depth with
      | 0 => .error (.form .malformed)
      | depth + 1 => make <$> fields.readItems name fields.count depth 0 ending items
    | .object members ending =>
      match depth with
      | 0 => .error (.form .malformed)
      | depth + 1 => do
        let slots ← readMembers (fun name t slots => fields.readField depth name t slots) members
          fields.blank
        closedAt ending
        make <$> (fields.finish slots).mapError .content
    | t => .error (t.refuse ("struct " ++ name))
termination_by structural _ c => c

/-- Reads the fields from the items of an array, the first of them at position `index`. -/
def Fields.readItems : {σ β : Type} → Fields σ β → String → Nat → Nat → Nat → Option Cut →
    List ParseTree → Except Fault β
  | _, _, .nil, _, _, _, _, ending, items =>
    if items.isEmpty then closedAt ending else .error (.form .malformed)
  | _, _, .cons _ c _ rest, record, total, depth, index, ending, t :: ts => do
    let a ← c.read depth t
    let b ← rest.readItems record total depth (index + 1) ending ts
    .ok (a, b)
  | _, _, .cons _ _ absent rest, record, total, depth, index, ending, [] => do
    closedAt ending
    match absent with
    | some a => (a, ·) <$> rest.readItems record total depth (index + 1) ending []
    | none => .error (.content (.tooShort index record total))
termination_by structural _ _ fs => fs

/-- Reads the value of the field of that name, if there is one. A field given twice is refused
at its second name. -/
def Fields.readField : {σ β : Type} → Fields σ β → Nat → String → ParseTree → σ →
    Option (Except Fault σ)
  | _, _, .nil, _, _, _, _ => none
  | _, _, .cons field c _ rest, depth, name, t, (slot, slots) =>
    if name = field then
      match slot with
      | some _ => some (.error (.content (.repeated field)))
      | none => some ((fun a => (some a, slots)) <$> c.read depth t)
    else (rest.readField depth name t slots).map fun read => (slot, ·) <$> read
termination_by structural _ _ fs => fs

end

theorem Codec.read_null {α : Type} (c : Codec α) (depth : Nat) :
    c.nullable.read depth .null = .ok none := by
  rw [read]

/-- Reads a text, with nothing but blanks around the value. -/
def Codec.readText {α : Type} (c : Codec α) (s : String) : Except Fault α := do
  let (tree, more) := ParseTree.ofText s.toList
  let a ← c.read depthLimit tree
  if more then .error (.form .malformed) else .ok a

end Tipping.Json
