import Tipping.Json.Codec.Basic

/-!
Reading a type from a JSON value.

The members of an object come in the order of their names, so the first mismatch met need not be
the one that a text with the same value shows first.
-/

namespace Tipping.Json

def ofAll {α : Type} (read : Json → Except Mismatch α) : List Json → Except Mismatch (List α)
  | [] => .ok []
  | v :: vs => do
    let a ← read v
    let as ← ofAll read vs
    .ok (a :: as)

def ofMembersOf {σ : Type} (field : String → Json → σ → Option (Except Mismatch σ)) :
    List (String × Json) → σ → Except Mismatch σ
  | [], slots => .ok slots
  | (name, v) :: ms, slots =>
    match field name v slots with
    | some read => read.bind (ofMembersOf field ms)
    | none => ofMembersOf field ms slots

mutual

def Codec.ofJson : {α : Type} → Codec α → Json → Except Mismatch α
  | _, .string, v =>
    match v with
    | .string s => .ok s
    | v => .error (.wrongType v.found "a string")
  | _, .bool, v =>
    match v with
    | .bool b => .ok b
    | v => .error (.wrongType v.found "a boolean")
  | _, .double, v =>
    match v with
    | .number n => .ok n.toBinary64
    | v => .error (.wrongType v.found "f64")
  | _, .integer name low high, v =>
    match v with
    | .number n => n.toIntIn name low high
    | v => .error (.wrongType v.found name)
  | _, .nullable c, v =>
    match v with
    | .null => .ok none
    | v => some <$> c.ofJson v
  | _, .list c, v =>
    match v with
    | .array items => ofAll c.ofJson items
    | v => .error (.wrongType v.found "a sequence")
  | _, .record name fields make _ _ _, v =>
    match v with
    | .array items => make <$> fields.ofItems name fields.count items.length 0 items
    | .object members => do
      let slots ← ofMembersOf (fun name v slots => fields.ofField name v slots) members fields.blank
      make <$> fields.finish slots
    | v => .error (.wrongType v.found ("struct " ++ name))
termination_by structural _ c => c

def Fields.ofItems : {σ β : Type} → Fields σ β → String → Nat → Nat → Nat → List Json →
    Except Mismatch β
  | _, _, .nil, _, _, length, _, items =>
    if items.isEmpty then .ok () else .error (.tooLong length)
  | _, _, .cons _ c _ rest, record, total, length, index, v :: vs => do
    let a ← c.ofJson v
    let b ← rest.ofItems record total length (index + 1) vs
    .ok (a, b)
  | _, _, .cons _ _ absent rest, record, total, length, index, [] =>
    match absent with
    | some a => (a, ·) <$> rest.ofItems record total length (index + 1) []
    | none => .error (.tooShort index record total)
termination_by structural _ _ fs => fs

def Fields.ofField : {σ β : Type} → Fields σ β → String → Json → σ → Option (Except Mismatch σ)
  | _, _, .nil, _, _, _ => none
  | _, _, .cons field c _ rest, name, v, (slot, slots) =>
    if name = field then
      match slot with
      | some _ => some (.error (.repeated field))
      | none => some ((fun a => (some a, slots)) <$> c.ofJson v)
    else (rest.ofField name v slots).map fun read => (slot, ·) <$> read
termination_by structural _ _ fs => fs

end

end Tipping.Json
