import Tipping.Json.Codec.Value
import Tipping.Proofs.Json.Sorted

/-!
Reading a record from the members of a value.

The reader goes through the members and fills the slot of each field that it meets. When no field
is named twice, what it ends with does not depend on the order: every field holds what the member
of its name reads as.
-/

namespace Tipping.Json

open Outcome

namespace Fields

/-- What a member of that name reads as, if there is one; nothing if it does not fit. -/
def slotOf {α : Type} (c : Codec α) (member : Option Json) (slot : Option α) :
    Option (Option α) :=
  match member with
  | none => some slot
  | some v => (c.ofJson v).toOption.map some

/-- The slots with what the members say, each field looked up by its name. -/
def fill : {σ β : Type} → Fields σ β → σ → List (String × Json) → Option σ
  | _, _, .nil, _, _ => some ()
  | _, _, .cons name c _ rest, (slot, slots), ms =>
    (slotOf c (ms.lookup name) slot).bind fun a => (rest.fill slots ms).map fun as => (a, as)

/-- The slot of that name, if there is one, is empty. -/
def IsFree (name : String) : {σ β : Type} → Fields σ β → σ → Prop
  | _, _, .nil, _ => True
  | _, _, .cons field _ _ rest, (slot, slots) =>
    (field = name → slot = none) ∧ rest.IsFree name slots

theorem isFree_blank (name : String) : ∀ {σ β : Type} (fs : Fields σ β), fs.IsFree name fs.blank
  | _, _, .nil => trivial
  | _, _, .cons _ _ _ rest => ⟨fun _ => rfl, rest.isFree_blank name⟩

theorem fill_nil : ∀ {σ β : Type} (fs : Fields σ β) (slots : σ), fs.fill slots [] = some slots
  | _, _, .nil, _ => rfl
  | _, _, .cons _ _ _ rest, (slot, slots) => by
    rw [fill, rest.fill_nil]
    rfl

theorem fill_cons_of_not_mem {name : String} {v : Json} {ms : List (String × Json)} :
    ∀ {σ β : Type} (fs : Fields σ β) (slots : σ), name ∉ fs.names →
      fs.fill slots ((name, v) :: ms) = fs.fill slots ms
  | _, _, .nil, _, _ => rfl
  | _, _, .cons field _ _ rest, (slot, slots), h => by
    simp only [names, List.mem_cons, not_or] at h
    rw [fill, fill, rest.fill_cons_of_not_mem slots h.2, Keyed.lookup_cons,
      if_neg (Ne.symm h.1)]

theorem ofField_eq_none {name : String} {v : Json} :
    ∀ {σ β : Type} (fs : Fields σ β) (slots : σ), fs.ofField name v slots = none →
      name ∉ fs.names
  | _, _, .nil, _, _ => by simp [names]
  | _, _, .cons field _ _ rest, (slot, slots), h => by
    simp only [ofField] at h
    split at h
    · split at h <;> cases h
    · rename_i hne
      rw [Option.map_eq_none_iff] at h
      simp [names, hne, rest.ofField_eq_none slots h]

/-- Reading a member fills the slot of its name and leaves the others to the members after it. -/
theorem fill_cons {name : String} {v : Json} {ms : List (String × Json)}
    (hname : name ∉ ms.map Prod.fst) :
    ∀ {σ β : Type} (fs : Fields σ β) (slots : σ) (read : Except Mismatch σ), fs.names.Nodup →
      fs.IsFree name slots → fs.ofField name v slots = some read →
      fs.fill slots ((name, v) :: ms) = read.toOption.bind fun slots => fs.fill slots ms
  | _, _, .cons field c _ rest, (slot, slots), read, hfs, hfree, hread => by
    obtain ⟨hfield, hrest⟩ := List.nodup_cons.mp hfs
    simp only [ofField] at hread
    split at hread
    · rename_i heq
      subst heq
      have hslot : slot = none := hfree.1 rfl
      have hlookup : ms.lookup name = none := List.lookup_eq_none_iff.mpr fun p hp =>
        bne_iff_ne.mpr fun h => hname (h ▸ List.mem_map_of_mem hp)
      rw [hslot] at hread
      cases hread
      rw [fill, Keyed.lookup_cons, if_pos rfl, rest.fill_cons_of_not_mem slots hfield]
      cases hv : c.ofJson v <;> simp [slotOf, hv, fill, hlookup, Except.toOption]
    · rename_i hne
      obtain ⟨read', hread', rfl⟩ := Option.map_eq_some_iff.mp hread
      rw [fill, Keyed.lookup_cons, if_neg (Ne.symm hne),
        rest.fill_cons hname slots read' hrest hfree.2 hread']
      cases read' with
      | error m => cases slotOf c (ms.lookup field) slot <;> rfl
      | ok slots' => rfl

theorem isFree_of_ofField {name other : String} {v : Json} (hne : other ≠ name) :
    ∀ {σ β : Type} (fs : Fields σ β) (slots slots' : σ), fs.IsFree other slots →
      fs.ofField name v slots = some (.ok slots') → fs.IsFree other slots'
  | _, _, .cons field c _ rest, (slot, slots), (slot', slots'), hfree, hread => by
    simp only [ofField] at hread
    split at hread
    · rename_i heq
      split at hread
      · cases hread
      · simp only [Option.some.injEq, map_eq_ok] at hread
        obtain ⟨a, -, h⟩ := hread
        cases h
        exact ⟨fun h => absurd (h ▸ heq.symm) hne, hfree.2⟩
    · obtain ⟨read, hread, hmap⟩ := Option.map_eq_some_iff.mp hread
      obtain ⟨slots₁, rfl, h⟩ := map_eq_ok.mp hmap
      cases h
      exact ⟨hfree.1, rest.isFree_of_ofField hne slots _ hfree.2 hread⟩

theorem mem_names_of_ofField {name : String} {v : Json} :
    ∀ {σ β : Type} (fs : Fields σ β) (slots : σ) (read : Except Mismatch σ),
      fs.ofField name v slots = some read → name ∈ fs.names
  | _, _, .cons field _ _ rest, (slot, slots), read, h => by
    simp only [ofField] at h
    split at h
    · rename_i heq
      simp [names, heq]
    · obtain ⟨read', h, -⟩ := Option.map_eq_some_iff.mp h
      exact List.mem_cons_of_mem field (rest.mem_names_of_ofField slots read' h)

/-- The names of fields among those given, each as often as it is given. -/
def given {σ β : Type} (fs : Fields σ β) (ns : List String) : List String :=
  ns.filter (· ∈ fs.names)

lemma mem_given {σ β : Type} {fs : Fields σ β} {name : String} {ns : List String} :
    name ∈ fs.given ns ↔ name ∈ ns ∧ name ∈ fs.names := by
  simp [given]

/-- The members of an object that gives no field twice, read one by one, fill the slots of their
names. -/
theorem toOption_ofMembersOf {σ β : Type} (fs : Fields σ β) (hfs : fs.names.Nodup)
    {ms : List (String × Json)} (hms : (fs.given (ms.map Prod.fst)).Nodup) (slots : σ)
    (hfree : ∀ name ∈ ms.map Prod.fst, fs.IsFree name slots) :
    (ofMembersOf (fun name v slots => fs.ofField name v slots) ms slots).toOption =
      fs.fill slots ms := by
  induction ms generalizing slots with
  | nil => rw [fs.fill_nil]; rfl
  | cons p ms ih =>
    obtain ⟨name, v⟩ := p
    have hrest : (fs.given (ms.map Prod.fst)).Nodup :=
      hms.sublist ((List.sublist_cons_self name _).filter _)
    simp only [List.map_cons, List.forall_mem_cons] at hfree
    simp only [ofMembersOf]
    split
    · rename_i read hread
      have hfield : name ∈ fs.names := fs.mem_names_of_ofField slots read hread
      have hname : name ∉ ms.map Prod.fst := by
        intro hmem
        rw [List.map_cons, given, List.filter_cons_of_pos (by simpa using hfield)] at hms
        exact (List.nodup_cons.mp hms).1 (mem_given.mpr ⟨hmem, hfield⟩)
      rw [fs.fill_cons hname slots read hfs hfree.1 hread]
      cases read with
      | error m => rfl
      | ok slots' =>
        refine ih hrest slots' fun other ho => ?_
        have hother : other ≠ name := fun h => hname (h ▸ ho)
        exact fs.isFree_of_ofField hother slots slots' (hfree.2 other ho) hread
    · rename_i hread
      rw [fs.fill_cons_of_not_mem slots (fs.ofField_eq_none slots hread)]
      exact ih hrest slots hfree.2

/-- The members give the fields these values. -/
def Gives {σ β : Type} (fs : Fields σ β) (ms : List (String × Json)) (b : β) : Prop :=
  ∃ slots, fs.fill fs.blank ms = some slots ∧ fs.finish slots = .ok b

lemma gives_nil (ms : List (String × Json)) : nil.Gives ms () := ⟨(), rfl, rfl⟩

lemma finish_cons {σ β α : Type} {name : String} {c : Codec α} {absent : Option α}
    {rest : Fields σ β} {slot : Option α} {slots : σ} {a : α} {b : β} :
    (cons name c absent rest).finish (slot, slots) = .ok (a, b) ↔
      slot.or absent = some a ∧ rest.finish slots = .ok b := by
  rw [finish]
  cases slot.or absent with
  | none => simp
  | some a' => simp [and_comm]

/-- The value of a field is what the member of its name reads as, or that of its absence. -/
lemma gives_cons {σ β α : Type} {name : String} {c : Codec α} {absent : Option α}
    {rest : Fields σ β} {ms : List (String × Json)} {a : α} {b : β} :
    (cons name c absent rest).Gives ms (a, b) ↔
      (match ms.lookup name with
        | none => absent = some a
        | some v => c.ofJson v = .ok a) ∧ rest.Gives ms b := by
  have hslot : (match ms.lookup name with
      | none => absent = some a
      | some v => c.ofJson v = .ok a) ↔
      ∃ slot, slotOf c (ms.lookup name) none = some slot ∧ slot.or absent = some a := by
    cases ms.lookup name with
    | none => simp [slotOf]
    | some v => cases hv : c.ofJson v <;> simp [slotOf, hv, Except.toOption]
  rw [hslot]
  constructor
  · rintro ⟨⟨slot, slots⟩, hfill, hfin⟩
    obtain ⟨slot', hslot, hrest⟩ := Option.bind_eq_some_iff.mp hfill
    obtain ⟨slots', hrest, h⟩ := Option.map_eq_some_iff.mp hrest
    cases h
    obtain ⟨ha, hb⟩ := finish_cons.mp hfin
    exact ⟨⟨slot, hslot, ha⟩, slots, hrest, hb⟩
  · rintro ⟨⟨slot, hslot, ha⟩, slots, hrest, hb⟩
    refine ⟨(slot, slots), ?_, finish_cons.mpr ⟨ha, hb⟩⟩
    simp [fill, blank, hslot, hrest]

end Fields

/-- **Reading a record from an object.** It succeeds when the members that are fields fit and none
is missing, whatever their order and whatever else is there. -/
theorem ofJson_record_object {σ β α : Type} {name : String} {fs : Fields σ β} {make : β → α}
    {parts : α → β} {hm : ∀ a, make (parts a) = a} {hp : ∀ b, parts (make b) = b}
    (hfs : fs.names.Nodup) {ms : List (String × Json)} (hms : (ms.map Prod.fst).Nodup) {a : α} :
    (Codec.record name fs make parts hm hp).ofJson (.object ms) = .ok a ↔
      fs.Gives ms (parts a) := by
  have hfill := fs.toOption_ofMembersOf hfs (hms.filter _) fs.blank fun n _ => fs.isFree_blank n
  simp only [Codec.ofJson, bind_eq_ok, map_eq_ok]
  constructor
  · rintro ⟨slots, hslots, b, hb, rfl⟩
    rw [hslots] at hfill
    exact ⟨slots, hfill.symm, by rw [hp, hb]⟩
  · rintro ⟨slots, hslots, hfin⟩
    rw [hslots] at hfill
    refine ⟨slots, ?_, parts a, hfin, hm a⟩
    cases hread : ofMembersOf (fun name v slots => fs.ofField name v slots) ms fs.blank with
    | error m => rw [hread] at hfill; cases hfill
    | ok slots' => rw [hread] at hfill; cases hfill; rfl

end Tipping.Json
