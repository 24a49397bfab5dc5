import Tipping.Proofs.Json.RoundTrip
import Tipping.Proofs.Json.Told

/-!
Trees that tell the same in another way.

The members of an object may stand in any order, and others may stand between them; the first
fields may be given as items instead; and any of this may be done inside a field or an item. What
is read stays the same.
-/

namespace Tipping.Json

open Outcome ParseTree

/-- One of the fields has that name and that form. -/
inductive Fields.Has {α : Type} (name : String) (c : Codec α) : {σ β : Type} → Fields σ β → Prop
    where
  | first {σ β : Type} (absent : Option α) (rest : Fields σ β) :
      Has name c (.cons name c absent rest)
  | later {α' σ β : Type} {other : String} (hne : other ≠ name) (c' : Codec α')
      (absent : Option α') {rest : Fields σ β} (h : rest.Has name c) :
      Has name c (.cons other c' absent rest)

/-- Two trees that say the same to whoever reads this form. -/
inductive Codec.Retold : {α : Type} → Codec α → ParseTree → ParseTree → Prop where
  | refl {α : Type} (c : Codec α) (t : ParseTree) : c.Retold t t
  | symm {α : Type} {c : Codec α} {t t' : ParseTree} (h : c.Retold t t') : c.Retold t' t
  | trans {α : Type} {c : Codec α} {t t' t'' : ParseTree} (h : c.Retold t t')
      (h' : c.Retold t' t'') : c.Retold t t''
  /-- The members in another order. -/
  | permuted {σ β α : Type} {name : String} {fields : Fields σ β} {make : β → α} {parts : α → β}
      {make_parts : ∀ a, make (parts a) = a} {parts_make : ∀ b, parts (make b) = b}
      {ms ms' : List (Option String × ParseTree)} (h : ms.Perm ms') :
      (Codec.record name fields make parts make_parts parts_make).Retold (.object ms none)
        (.object ms' none)
  /-- One more member, which is no field and well formed. -/
  | joined {σ β α : Type} {name : String} {fields : Fields σ β} {make : β → α} {parts : α → β}
      {make_parts : ∀ a, make (parts a) = a} {parts_make : ∀ b, parts (make b) = b}
      (ms ms' : List (Option String × ParseTree)) {key : String} (hkey : key ∉ fields.names)
      {t : ParseTree} (ht : t.Unbroken) :
      (Codec.record name fields make parts make_parts parts_make).Retold (.object (ms ++ ms') none)
        (.object (ms ++ (some key, t) :: ms') none)
  /-- A field that is told in another way. -/
  | field {σ β α α' : Type} {name : String} {fields : Fields σ β} {make : β → α} {parts : α → β}
      {make_parts : ∀ a, make (parts a) = a} {parts_make : ∀ b, parts (make b) = b}
      (ms ms' : List (Option String × ParseTree)) {key : String} {c : Codec α'}
      (hkey : fields.Has key c) {t t' : ParseTree} (ht : c.Retold t t') :
      (Codec.record name fields make parts make_parts parts_make).Retold
        (.object (ms ++ (some key, t) :: ms') none) (.object (ms ++ (some key, t') :: ms') none)
  /-- The first fields as items instead of members. -/
  | items {σ β α : Type} {name : String} {fields : Fields σ β} {make : β → α} {parts : α → β}
      {make_parts : ∀ a, make (parts a) = a} {parts_make : ∀ b, parts (make b) = b}
      {ts : List ParseTree} (h : ts.length ≤ fields.count) :
      (Codec.record name fields make parts make_parts parts_make).Retold (.array ts none)
        (.object (fields.named ts) none)
  /-- An item that is told in another way. -/
  | item {α : Type} {c : Codec α} (ts ts' : List ParseTree) {t t' : ParseTree}
      (h : c.Retold t t') :
      c.list.Retold (.array (ts ++ t :: ts') none) (.array (ts ++ t' :: ts') none)

/-! ### What the members tell -/

section Members

variable {ms ms' : List (Option String × ParseTree)} {depth : Nat}

lemma tells_perm {α : Type} {read : ParseTree → α → Prop} {absent : Option α} {a : α}
    {ts ts' : List ParseTree} (h : ts.Perm ts') :
    Tells read absent a ts ↔ Tells read absent a ts' := by
  have hlength := h.length_eq
  rcases ts with _ | ⟨t, _ | ⟨t₁, ts⟩⟩
  · rw [List.nil_perm.mp h]
  · rw [List.singleton_perm.mp h]
  · rcases ts' with _ | ⟨t', _ | ⟨t₁', ts'⟩⟩ <;> simp_all [Tells]

/-- The order does not matter. -/
lemma Fields.told_perm : ∀ {σ β : Type} (fs : Fields σ β)
    {ms ms' : List (Option String × ParseTree)} (b : β),
    ms.Perm ms' → (fs.Told depth ms b ↔ fs.Told depth ms' b)
  | _, _, .nil, _, _, (), h => forall_congr' fun m => by rw [h.mem_iff]
  | _, _, .cons _ _ _ rest, _, _, (_, b), h =>
    and_congr (tells_perm ((h.filter _).map _)) (rest.told_perm b (h.filter _))

/-- Neither do members that are no fields. -/
lemma Fields.told_joined {key : String} {t : ParseTree} (ht : t.skip = none) :
    ∀ {σ β : Type} (fs : Fields σ β) (ms ms' : List (Option String × ParseTree)) (b : β),
      key ∉ fs.names → (fs.Told depth (ms ++ ms') b ↔ fs.Told depth (ms ++ (some key, t) :: ms') b)
  | _, _, .nil, ms, ms', (), _ => by
    simp [Told, or_imp, forall_and, ht]
  | _, _, .cons name _ _ rest, ms, ms', (_, b), h => by
    simp only [names, List.mem_cons, not_or] at h
    have hkey : some key ≠ some name := fun he => h.1 (Option.some.inj he)
    rw [Told, Told, valuesOf_append, valuesOf_append, valuesOf_cons_of_ne hkey, othersThan_append,
      othersThan_append, othersThan_cons_of_ne hkey, rest.told_joined ht _ _ b h.2]

lemma tells_congr {α : Type} {read : ParseTree → α → Prop} {absent : Option α} {a : α}
    {ts ts' : List ParseTree} {t t' : ParseTree} (h : read t a ↔ read t' a) :
    Tells read absent a (ts ++ t :: ts') ↔ Tells read absent a (ts ++ t' :: ts') := by
  rcases ts with _ | ⟨t₁, _ | ⟨t₂, ts⟩⟩
  · cases ts' with
    | nil => exact h
    | cons t₁ ts' => exact Iff.rfl
  · exact Iff.rfl
  · exact Iff.rfl

/-- A field is told as well by any tree that is read like it. -/
lemma Fields.told_field {α : Type} {key : String} {c : Codec α} {t t' : ParseTree}
    (ht : Agree (c.read depth t) (c.read depth t')) {σ β : Type} {fs : Fields σ β}
    (h : fs.Has key c) (ms ms' : List (Option String × ParseTree)) (b : β) :
    fs.Told depth (ms ++ (some key, t) :: ms') b ↔
      fs.Told depth (ms ++ (some key, t') :: ms') b := by
  induction h generalizing ms ms' with
  | first absent rest =>
    obtain ⟨a, b⟩ := b
    rw [Told, Told, valuesOf_append, valuesOf_append, valuesOf_cons_of_eq rfl,
      valuesOf_cons_of_eq rfl, othersThan_append, othersThan_append, othersThan_cons_of_eq rfl,
      othersThan_cons_of_eq rfl, tells_congr (ht a)]
  | later hne c' absent h ih =>
    obtain ⟨a, b⟩ := b
    have hkey : some key ≠ some _ := fun he => hne (Option.some.inj he).symm
    rw [Told, Told, valuesOf_append, valuesOf_append, valuesOf_cons_of_ne hkey,
      valuesOf_cons_of_ne hkey, othersThan_append, othersThan_append, othersThan_cons_of_ne hkey,
      othersThan_cons_of_ne hkey, ih]

end Members

/-! ### What is read -/

lemma agree_record {σ β α : Type} {name : String} {fields : Fields σ β} {make : β → α}
    {parts : α → β} {make_parts : ∀ a, make (parts a) = a} {parts_make : ∀ b, parts (make b) = b}
    {ms ms' : List (Option String × ParseTree)}
    (h : ∀ depth b, fields.Told depth ms b ↔ fields.Told depth ms' b) (depth : Nat) :
    let c := Codec.record name fields make parts make_parts parts_make
    Agree (c.read depth (.object ms none)) (c.read depth (.object ms' none)) := by
  intro c
  cases depth with
  | zero => exact .error _ _
  | succ depth =>
    intro a
    rw [read_record_object, read_record_object]
    exact h depth (parts a)

lemma agree_readAll {α : Type} {read : ParseTree → Except Fault α} {t t' : ParseTree}
    (h : Agree (read t) (read t')) (ts ts' : List ParseTree) :
    Agree (readAll read (ts ++ t :: ts')) (readAll read (ts ++ t' :: ts')) := by
  induction ts with
  | nil => exact h.bind fun a => Agree.refl _
  | cons t₁ ts ih => exact (Agree.refl (read t₁)).bind fun a => ih.bind fun as => Agree.refl _

lemma Fields.Has.lawful {α : Type} {key : String} {c : Codec α} {σ β : Type} {fs : Fields σ β}
    (h : fs.Has key c) (hfs : fs.Lawful) : c.Lawful := by
  induction h with
  | first => exact hfs.1
  | later _ _ _ _ ih => exact ih hfs.2

/-- **What is told in another way is read alike**, at any depth. -/
theorem Codec.Retold.agree {α : Type} {c : Codec α} {t t' : ParseTree} (h : c.Retold t t')
    (hc : c.Lawful) (depth : Nat) : Agree (c.read depth t) (c.read depth t') := by
  induction h generalizing depth with
  | refl c t => exact .refl _
  | symm _ ih => exact (ih hc depth).symm
  | trans _ _ ih ih' => exact (ih hc depth).trans (ih' hc depth)
  | @permuted _ _ _ _ fields _ _ _ _ _ _ h =>
    exact agree_record (fun depth b => fields.told_perm b h) depth
  | @joined _ _ _ _ fields _ _ _ _ ms ms' _ hkey _ ht =>
    exact agree_record (fun depth b => fields.told_joined ht.skip ms ms' b hkey) depth
  | field ms ms' hkey _ ih =>
    have hread := ih (hkey.lawful hc.2)
    exact agree_record (fun depth b => Fields.told_field (hread depth) hkey ms ms' b) depth
  | items h =>
    cases depth with
    | zero => exact .error _ _
    | succ depth =>
      intro a
      rw [read_record_object, read_record_array hc.1, and_iff_right h]
  | item ts ts' _ ih =>
    cases depth with
    | zero => exact .error _ _
    | succ depth => exact (agree_readAll (ih hc depth) ts ts').bind fun as => .refl _

/-- The same of texts. -/
theorem Codec.Retold.agree_text {α : Type} {c : Codec α} {t t' : ParseTree} (h : c.Retold t t')
    (hc : c.Lawful) {s s' : String} (hs : t.TextOf s.toList) (hs' : t'.TextOf s'.toList) :
    Agree (c.readText s) (c.readText s') := by
  rw [hs.readText, hs'.readText]
  exact h.agree hc depthLimit

end Tipping.Json
