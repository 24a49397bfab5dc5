import Mathlib.Data.List.Perm.Basic
import Tipping.Json.Codec.Tree
import Tipping.Proofs.Json.Members
import Tipping.Proofs.Json.Soundness

/-!
What the members of an object tell a record.

The reader goes through the members from left to right and fills one slot after the other. Field by
field it comes to this: the members of the field's name are at most one, and its value, or that of
its absence, is the value of the field; of the members that are left each has a name and can be
skipped. The items of an array are told like members with the names of the first fields.
-/

namespace Tipping.Json

open Outcome

/-- The values of the members of that name. -/
def valuesOf (name : String) (ms : List (Option String × ParseTree)) : List ParseTree :=
  (ms.filter (·.1 = some name)).map Prod.snd

/-- The members of other names, and those without one. -/
def othersThan (name : String) (ms : List (Option String × ParseTree)) :
    List (Option String × ParseTree) :=
  ms.filter (·.1 ≠ some name)

section

variable {name : String} {ms : List (Option String × ParseTree)} {m : Option String × ParseTree}

lemma valuesOf_cons_of_eq (h : m.1 = some name) :
    valuesOf name (m :: ms) = m.2 :: valuesOf name ms := by
  simp [valuesOf, h]

lemma valuesOf_cons_of_ne (h : m.1 ≠ some name) :
    valuesOf name (m :: ms) = valuesOf name ms := by
  simp [valuesOf, h]

lemma othersThan_cons_of_eq (h : m.1 = some name) :
    othersThan name (m :: ms) = othersThan name ms := by
  simp [othersThan, h]

lemma othersThan_cons_of_ne (h : m.1 ≠ some name) :
    othersThan name (m :: ms) = m :: othersThan name ms := by
  simp [othersThan, h]

lemma valuesOf_append (ms ms' : List (Option String × ParseTree)) :
    valuesOf name (ms ++ ms') = valuesOf name ms ++ valuesOf name ms' := by
  simp [valuesOf]

lemma othersThan_append (ms ms' : List (Option String × ParseTree)) :
    othersThan name (ms ++ ms') = othersThan name ms ++ othersThan name ms' := by
  simp [othersThan]

lemma valuesOf_of_not_mem (h : some name ∉ ms.map Prod.fst) : valuesOf name ms = [] := by
  simp only [valuesOf, List.map_eq_nil_iff, List.filter_eq_nil_iff, decide_eq_true_eq]
  exact fun m hm he => h (he ▸ List.mem_map_of_mem hm)

lemma valuesOf_othersThan {other : String} (h : name ≠ other) :
    valuesOf name (othersThan other ms) = valuesOf name ms := by
  have hfilter : ∀ m ∈ ms, (m.1 ≠ some other ∧ m.1 = some name) ↔ m.1 = some name := fun m _ =>
    and_iff_right_of_imp fun hm he => h (Option.some.inj (hm.symm.trans he))
  rw [valuesOf, othersThan, List.filter_filter]
  exact congrArg _ (List.filter_congr fun m hm => by simpa [and_comm] using hfilter m hm)

lemma othersThan_of_not_mem (h : some name ∉ ms.map Prod.fst) : othersThan name ms = ms := by
  simp only [othersThan, List.filter_eq_self, decide_eq_true_eq]
  exact fun m hm he => h (he ▸ List.mem_map_of_mem hm)

end

lemma unbroken_of_mem_valuesOf {ms : List (Option String × ParseTree)}
    (h : ParseTree.UnbrokenMembers ms) {name : String} {t : ParseTree}
    (ht : t ∈ valuesOf name ms) : t.Unbroken := by
  obtain ⟨m, hm, rfl⟩ := List.mem_map.mp ht
  exact ParseTree.unbroken_of_mem h m (List.mem_filter.mp hm).1

/-- The values given for a field come to this one: the only one is read, and without any the field
takes the value of its absence. -/
def Tells {α : Type} (read : ParseTree → α → Prop) (absent : Option α) (a : α) :
    List ParseTree → Prop
  | [] => absent = some a
  | [t] => read t a
  | _ :: _ :: _ => False

lemma tells_required {α : Type} {read : ParseTree → α → Prop} {a : α} {ts : List ParseTree} :
    Tells read none a ts ↔ ∃ t, ts = [t] ∧ read t a := by
  rcases ts with _ | ⟨t, _ | ⟨t', ts⟩⟩ <;> simp [Tells]

lemma tells_congr_of_mem {α : Type} {read read' : ParseTree → α → Prop} {absent : Option α} {a : α}
    {ts : List ParseTree} (h : ∀ t ∈ ts, read t a ↔ read' t a) :
    Tells read absent a ts ↔ Tells read' absent a ts := by
  rcases ts with _ | ⟨t, _ | ⟨t', ts⟩⟩
  · exact Iff.rfl
  · exact h t (List.mem_singleton.mpr rfl)
  · exact Iff.rfl

/-- The members tell the fields these values, each field by itself. -/
def Fields.Told (depth : Nat) : {σ β : Type} → Fields σ β →
    List (Option String × ParseTree) → β → Prop
  | _, _, .nil, ms, _ => ∀ m ∈ ms, m.1.isSome = true ∧ m.2.skip = none
  | _, _, .cons name c absent rest, ms, (a, b) =>
    Tells (fun t a => c.read depth t = .ok a) absent a (valuesOf name ms) ∧
      rest.Told depth (othersThan name ms) b
termination_by structural _ _ fs => fs

/-- The same without a word on the other members. -/
def Fields.EachTold (depth : Nat) : {σ β : Type} → Fields σ β →
    List (Option String × ParseTree) → β → Prop
  | _, _, .nil, _, _ => True
  | _, _, .cons name c absent rest, ms, (a, b) =>
    Tells (fun t a => c.read depth t = .ok a) absent a (valuesOf name ms) ∧
      rest.EachTold depth ms b
termination_by structural _ _ fs => fs

lemma Fields.eachTold_othersThan {depth : Nat} {name : String}
    {ms : List (Option String × ParseTree)} : ∀ {σ β : Type} (fs : Fields σ β) (b : β),
    name ∉ fs.names → (fs.EachTold depth (othersThan name ms) b ↔ fs.EachTold depth ms b)
  | _, _, .nil, _, _ => Iff.rfl
  | _, _, .cons other _ _ rest, (_, b), h => by
    simp only [names, List.mem_cons, not_or] at h
    rw [EachTold, EachTold, valuesOf_othersThan (Ne.symm h.1), rest.eachTold_othersThan b h.2]

/-- Where all can be skipped, the fields are told one by one, and every member has a name. -/
lemma Fields.told_iff_each {depth : Nat} : ∀ {σ β : Type} (fs : Fields σ β)
    {ms : List (Option String × ParseTree)} (b : β), fs.names.Nodup →
    (∀ m ∈ ms, m.2.skip = none) →
    (fs.Told depth ms b ↔ (∀ m ∈ ms, m.1.isSome = true) ∧ fs.EachTold depth ms b)
  | _, _, .nil, ms, (), _, h => by
    rw [Told, EachTold, and_true]
    exact forall₂_congr fun m hm => and_iff_left (h m hm)
  | _, _, .cons name c absent rest, ms, (a, b), hnames, h => by
    obtain ⟨hname, hrest⟩ := List.nodup_cons.mp hnames
    have hothers : ∀ m ∈ othersThan name ms, m.2.skip = none := fun m hm =>
      h m (List.mem_filter.mp hm).1
    have hnamed : (∀ m ∈ othersThan name ms, m.1.isSome = true) ↔
        ∀ m ∈ ms, m.1.isSome = true := by
      refine ⟨fun hall m hm => ?_, fun hall m hm => hall m (List.mem_filter.mp hm).1⟩
      by_cases hm' : m.1 = some name
      · rw [hm']
        rfl
      · exact hall m (List.mem_filter.mpr ⟨hm, by simpa using hm'⟩)
    rw [Told, EachTold, rest.told_iff_each b hrest hothers, hnamed,
      rest.eachTold_othersThan b hname, and_left_comm]

/-! ### The reader's slots -/

/-- How the values given for a field fill its slot. -/
def Fills {α : Type} (c : Codec α) (depth : Nat) (slot slot' : Option α) : List ParseTree → Prop
  | [] => slot' = slot
  | [t] => slot = none ∧ ∃ a, c.read depth t = .ok a ∧ slot' = some a
  | _ :: _ :: _ => False

lemma fills_some {α : Type} {c : Codec α} {depth : Nat} {a : α} {slot : Option α}
    {ts : List ParseTree} : Fills c depth (some a) slot ts ↔ ts = [] ∧ slot = some a := by
  rcases ts with _ | ⟨t, _ | ⟨t', ts⟩⟩ <;> simp [Fills]

lemma fills_cons {α : Type} {c : Codec α} {depth : Nat} {slot : Option α} {t : ParseTree}
    {ts : List ParseTree} : Fills c depth none slot (t :: ts) ↔
      ∃ a, c.read depth t = .ok a ∧ Fills c depth (some a) slot ts := by
  simp only [fills_some]
  rcases ts with _ | ⟨t', ts⟩ <;> simp [Fills]

lemma not_fills_cons {α : Type} {c : Codec α} {depth : Nat} {a : α} {slot : Option α}
    {t : ParseTree} {ts : List ParseTree} : ¬Fills c depth (some a) slot (t :: ts) := by
  simp [fills_some]

lemma readMembers_of_some {σ : Type} {field : String → ParseTree → σ → Option (Except Fault σ)}
    {name : String} {t : ParseTree} {slots : σ} {read : Except Fault σ}
    (h : field name t slots = some read) (ms : List (Option String × ParseTree)) :
    readMembers field ((some name, t) :: ms) slots = read.bind (readMembers field ms) := by
  simp only [readMembers, h]

lemma readMembers_of_none {σ : Type} {field : String → ParseTree → σ → Option (Except Fault σ)}
    {name : String} {t : ParseTree} {slots : σ} (h : field name t slots = none)
    (ms : List (Option String × ParseTree)) (slots' : σ) :
    readMembers field ((some name, t) :: ms) slots = .ok slots' ↔
      t.skip = none ∧ readMembers field ms slots = .ok slots' := by
  simp only [readMembers, h]
  cases t.skip <;> simp

section Split

variable {α σ β : Type} {name : String} {c : Codec α} {absent : Option α} {rest : Fields σ β}
  {depth : Nat}

lemma readField_first (t : ParseTree) (slots : σ) :
    (Fields.cons name c absent rest).readField depth name t (none, slots) =
      some ((fun a => (some a, slots)) <$> c.read depth t) := by
  simp [Fields.readField]

lemma readField_again (t : ParseTree) (a : α) (slots : σ) :
    (Fields.cons name c absent rest).readField depth name t (some a, slots) =
      some (.error (.content (.repeated name))) := by
  simp [Fields.readField]

lemma readField_other {n : String} (hn : n ≠ name) (t : ParseTree) (slot : Option α) (slots : σ) :
    (Fields.cons name c absent rest).readField depth n t (slot, slots) =
      (rest.readField depth n t slots).map fun read => (slot, ·) <$> read := by
  simp only [Fields.readField, if_neg hn]

/-- The first field's slot is filled by the members of its name, and the others by the others. -/
lemma readMembers_split {slot slot' : Option α} {slots slots' : σ}
    {ms : List (Option String × ParseTree)} :
    readMembers (fun n t s => (Fields.cons name c absent rest).readField depth n t s) ms
        (slot, slots) = .ok (slot', slots') ↔
      Fills c depth slot slot' (valuesOf name ms) ∧
        readMembers (fun n t s => rest.readField depth n t s) (othersThan name ms) slots =
          .ok slots' := by
  induction ms generalizing slot slots with
  | nil => simp [readMembers, valuesOf, othersThan, Fills, eq_comm]
  | cons m ms ih =>
    obtain ⟨n, t⟩ := m
    cases n with
    | none =>
      rw [othersThan_cons_of_ne (by simp)]
      simp [readMembers]
    | some n =>
      -- a member of the field's name meets its slot, and any other goes to the other slots
      by_cases hn : n = name
      · subst hn
        rw [valuesOf_cons_of_eq rfl, othersThan_cons_of_eq rfl]
        cases slot with
        | some a =>
          rw [readMembers_of_some (readField_again t a slots)]
          simp [not_fills_cons, Except.bind]
        | none =>
          rw [readMembers_of_some (readField_first t slots), fills_cons]
          cases c.read depth t with
          | error fault => simp [Except.bind, Functor.map, Except.map]
          | ok a =>
            simp only [Except.ok.injEq, exists_eq_left']
            exact ih
      · have hn' : some n ≠ some name := fun h => hn (Option.some.inj h)
        have hother : (Fields.cons name c absent rest).readField depth n t (slot, slots) =
            (rest.readField depth n t slots).map fun read => (slot, ·) <$> read :=
          readField_other hn t slot slots
        rw [valuesOf_cons_of_ne hn', othersThan_cons_of_ne hn']
        cases hread : rest.readField depth n t slots with
        | none =>
          rw [hread] at hother
          rw [readMembers_of_none hother, ih, readMembers_of_none hread, and_left_comm]
        | some read =>
          rw [hread] at hother
          rw [readMembers_of_some hother, readMembers_of_some hread]
          cases read with
          | error fault => simp [Except.bind, Functor.map, Except.map]
          | ok slots₁ => exact ih

end Split

lemma tells_iff {α : Type} {c : Codec α} {depth : Nat} {absent : Option α} {a : α}
    {ts : List ParseTree} : Tells (fun t a => c.read depth t = .ok a) absent a ts ↔
      ∃ slot, Fills c depth none slot ts ∧ slot.or absent = some a := by
  rcases ts with _ | ⟨t, _ | ⟨t', ts⟩⟩ <;> simp [Tells, Fills]

/-- All slots are filled and emptied again as the members tell. -/
theorem Fields.told_iff {depth : Nat} : ∀ {σ β : Type} (fs : Fields σ β)
    (ms : List (Option String × ParseTree)) (b : β),
    fs.Told depth ms b ↔ ∃ slots,
      readMembers (fun n t s => fs.readField depth n t s) ms fs.blank = .ok slots ∧
        fs.finish slots = .ok b
  | _, _, .nil, ms, () => by
    induction ms with
    | nil => simp [Told, readMembers, finish]
    | cons m ms ih =>
      obtain ⟨n, t⟩ := m
      cases n with
      | none => simp [Told, readMembers]
      | some n =>
        simp only [Told, List.forall_mem_cons, Option.isSome_some, true_and] at ih ⊢
        have hnone : nil.readField depth n t nil.blank = none := rfl
        simp only [readMembers_of_none hnone, ih, and_assoc, exists_and_left]
  | _, _, .cons name c absent rest, ms, (a, b) => by
    rw [Told, tells_iff, rest.told_iff]
    constructor
    · rintro ⟨⟨slot, hslot, ha⟩, slots, hslots, hb⟩
      exact ⟨(slot, slots), readMembers_split.mpr ⟨hslot, hslots⟩, finish_cons.mpr ⟨ha, hb⟩⟩
    · rintro ⟨⟨slot, slots⟩, hread, hfinish⟩
      obtain ⟨hslot, hslots⟩ := readMembers_split.mp hread
      obtain ⟨ha, hb⟩ := finish_cons.mp hfinish
      exact ⟨⟨slot, hslot, ha⟩, slots, hslots, hb⟩

/-! ### Items -/

/-- Items with the names of the first fields. -/
def Fields.named {σ β : Type} (fs : Fields σ β) (items : List ParseTree) :
    List (Option String × ParseTree) :=
  (fs.names.map some).zip items

lemma Fields.not_mem_named {σ β : Type} {fs : Fields σ β} {name : String} (h : name ∉ fs.names)
    (items : List ParseTree) : some name ∉ (fs.named items).map Prod.fst := by
  intro hmem
  obtain ⟨m, hm, hname⟩ := List.mem_map.mp hmem
  obtain ⟨n, hn, he⟩ := List.mem_map.mp (List.of_mem_zip hm).1
  exact h (Option.some.inj (he.trans hname) ▸ hn)

/-- What is read from items is what they tell, if they are not more than there are fields. -/
theorem Fields.readItems_iff {record : String} {total depth : Nat} : ∀ {σ β : Type}
    (fs : Fields σ β) (index : Nat) (items : List ParseTree) (b : β), fs.names.Nodup →
    (fs.readItems record total depth index none items = .ok b ↔
      items.length ≤ fs.count ∧ fs.Told depth (fs.named items) b)
  | _, _, .nil, _, items, (), _ => by
    cases items with
    | nil => simp [readItems, Told, named, closedAt, closed, Except.mapError]
    | cons t ts => simp [readItems, count]
  | _, _, .cons name c absent rest, index, [], (a, b), hnames => by
    have hrest : rest.readItems record total depth (index + 1) none [] = .ok b ↔
        [].length ≤ rest.count ∧ rest.Told depth (rest.named []) b :=
      rest.readItems_iff (index + 1) [] b (List.nodup_cons.mp hnames).2
    simp only [named, List.zip_nil_right, List.length_nil, Nat.zero_le, true_and] at hrest ⊢
    simp only [readItems, Told, valuesOf, othersThan, List.filter_nil, List.map_nil, Tells,
      ← hrest]
    cases absent with
    | none => simp [closedAt, closed, Except.mapError]
    | some a' =>
      change (a', ·) <$> rest.readItems record total depth (index + 1) none [] = .ok (a, b) ↔ _
      simp [and_comm]
  | _, _, .cons name c absent rest, index, t :: ts, (a, b), hnames => by
    have hother := rest.not_mem_named (List.nodup_cons.mp hnames).1 ts
    have hrest : rest.readItems record total depth (index + 1) none ts = .ok b ↔
        ts.length ≤ rest.count ∧ rest.Told depth (rest.named ts) b :=
      rest.readItems_iff (index + 1) ts b (List.nodup_cons.mp hnames).2
    have hnamed : (cons name c absent rest).named (t :: ts) = (some name, t) :: rest.named ts := rfl
    rw [hnamed, Told, valuesOf_cons_of_eq rfl, othersThan_cons_of_eq rfl,
      valuesOf_of_not_mem hother, othersThan_of_not_mem hother, List.length_cons, count,
      Nat.succ_le_succ_iff, and_left_comm, ← hrest]
    simp [readItems, Tells]

section Record

variable {σ β α : Type} {name : String} {fields : Fields σ β} {make : β → α} {parts : α → β}
  {make_parts : ∀ a, make (parts a) = a} {parts_make : ∀ b, parts (make b) = b} {depth : Nat}

lemma make_eq_iff (make_parts : ∀ a, make (parts a) = a) (parts_make : ∀ b, parts (make b) = b)
    {a : α} {b : β} : make b = a ↔ b = parts a :=
  ⟨fun h => h ▸ (parts_make b).symm, fun h => h ▸ make_parts a⟩

/-- **A record is read from an object** that tells it, and only then. -/
theorem read_record_object {ms : List (Option String × ParseTree)} {a : α} :
    (Codec.record name fields make parts make_parts parts_make).read (depth + 1)
        (.object ms none) = .ok a ↔ fields.Told depth ms (parts a) := by
  rw [fields.told_iff]
  simp only [Codec.read, bind_eq_ok, map_eq_ok]
  refine exists_congr fun slots => and_congr_right fun _ => ?_
  cases hfinish : fields.finish slots with
  | error m => simp [closedAt, closed, Except.mapError]
  | ok b => simp [closedAt, closed, Except.mapError, make_eq_iff make_parts parts_make]

/-- **A record is read from an array** of its first fields if they tell it, and only then. -/
theorem read_record_array (hnames : fields.names.Nodup) {items : List ParseTree} {a : α} :
    (Codec.record name fields make parts make_parts parts_make).read (depth + 1)
        (.array items none) = .ok a ↔
      items.length ≤ fields.count ∧ fields.Told depth (fields.named items) (parts a) := by
  simp only [Codec.read, map_eq_ok, fields.readItems_iff 0 items _ hnames,
    make_eq_iff make_parts parts_make, exists_eq_right]

lemma Fields.ending_of_readItems {record : String} {total depth : Nat} {ending : Option Cut} :
    ∀ {σ β : Type} (fs : Fields σ β) (index : Nat) (items : List ParseTree) (b : β),
      fs.readItems record total depth index ending items = .ok b → ending = none
  | _, _, .nil, _, items, _, h => by
    rw [readItems] at h
    split at h
    · cases ending with
      | none => rfl
      | some cut => cases h
    · cases h
  | _, _, .cons _ _ _ rest, index, [], _, h => by
    cases ending with
    | none => rfl
    | some cut => cases h
  | _, _, .cons _ _ _ rest, index, t :: ts, _, h => by
    rw [readItems, bind_eq_ok] at h
    obtain ⟨a, -, h⟩ := h
    obtain ⟨b, hb, -⟩ := bind_eq_ok.mp h
    exact rest.ending_of_readItems (index + 1) ts b hb

end Record

/-! ### Texts -/

/-- Of a text of JSON, what is read is what its tree is read as. -/
lemma ParseTree.TextOf.readText {α : Type} {c : Codec α} {t : ParseTree} {s : String}
    (h : t.TextOf s.toList) : c.readText s = c.read depthLimit t := by
  rw [Codec.readText, h.ofText]
  cases hread : c.read depthLimit t with
  | error fault => simp [hread, bind, Except.bind]
  | ok a => simp [hread, bind, Except.bind]

section Record

variable {σ β α : Type} {name : String} {fields : Fields σ β} {make : β → α} {parts : α → β}
  {make_parts : ∀ a, make (parts a) = a} {parts_make : ∀ b, parts (make b) = b} {depth : Nat}

/-- A record is read from a closed container only. -/
lemma container_of_read_record {t : ParseTree} {a : α}
    (h : (Codec.record name fields make parts make_parts parts_make).read depth t = .ok a) :
    (∃ ms, t = .object ms none) ∨ ∃ items, t = .array items none := by
  cases t with
  | array items ending =>
    cases depth with
    | zero => cases h
    | succ depth =>
      simp only [Codec.read, map_eq_ok] at h
      obtain ⟨b, hb, -⟩ := h
      exact .inr ⟨items, by rw [fields.ending_of_readItems 0 items b hb]⟩
  | object ms ending =>
    cases depth with
    | zero => cases h
    | succ depth =>
      simp only [Codec.read, bind_eq_ok] at h
      obtain ⟨slots, -, u, hclosed, -⟩ := h
      cases ending with
      | none => exact .inl ⟨ms, rfl⟩
      | some cut => cases hclosed
  | _ => cases h

/-- Only from a text of JSON a record is read, and from an object or an array. -/
lemma textOf_of_readText_record {s : String} {a : α}
    (h : (Codec.record name fields make parts make_parts parts_make).readText s = .ok a) :
    (∃ ms, (ParseTree.object ms none).TextOf s.toList) ∨
      ∃ items, (ParseTree.array items none).TextOf s.toList := by
  rw [Codec.readText, bind_eq_ok] at h
  obtain ⟨b, hread, hmore⟩ := h
  cases htext : ParseTree.ofText s.toList with
  | mk t more =>
    rw [htext] at hread hmore
    have hmore : more = false := by
      cases more with
      | false => rfl
      | true => cases hmore
    subst hmore
    rcases container_of_read_record hread with ⟨ms, rfl⟩ | ⟨items, rfl⟩
    · exact .inl ⟨ms, ParseTree.textOf_iff.mpr ⟨htext, rfl⟩⟩
    · exact .inr ⟨items, ParseTree.textOf_iff.mpr ⟨htext, rfl⟩⟩

end Record

end Tipping.Json
