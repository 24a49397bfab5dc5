import Tipping.Proofs.Json.Members
import Tipping.Proofs.RoundTrip

/-!
Reading a text agrees with reading the value that it writes.

The tree of a text that writes a value has nothing broken or too deep in it, so what is skipped
there is well formed. The two readers then differ in one thing: a text gives the members of an
object as they stand, a value gives them sorted and each name once. For a record this makes no
difference, unless one of its fields is given twice.
-/

namespace Tipping

open Outcome

namespace Keyed

variable {α : Type}

lemma lookup_foldl_insert (ps acc : List (String × α)) (k : String) :
    (ps.foldl (fun acc p => insert p.1 p.2 acc) acc).lookup k =
      (ps.reverse.lookup k).or (acc.lookup k) := by
  induction ps generalizing acc with
  | nil => simp
  | cons p ps ih =>
    rw [List.foldl_cons, ih, lookup_insert, List.reverse_cons, List.lookup_append, Option.or_assoc]
    congr 1
    rw [lookup_cons]
    split <;> simp

/-- Of pairs that give a key once at most, sorting keeps what is found under it. -/
lemma lookup_ofList {ps : List (String × α)} {k : String}
    (h : ((ps.map Prod.fst).filter (· = k)).Nodup) : (ofList ps).lookup k = ps.lookup k := by
  have hrev : ps.reverse.lookup k = ps.lookup k := by
    induction ps with
    | nil => rfl
    | cons p ps ih =>
      rw [List.map_cons, List.filter_cons] at h
      rw [List.reverse_cons, List.lookup_append, lookup_cons, lookup_cons]
      by_cases hk : k = p.1
      · rw [if_pos (by simpa using hk.symm)] at h
        have hnone : ps.lookup k = none := by
          refine List.lookup_eq_none_iff.mpr fun q hq => bne_iff_ne.mpr fun he => ?_
          refine (List.nodup_cons.mp h).1 (List.mem_filter.mpr ⟨?_, by simpa using hk.symm⟩)
          rw [← hk, he]
          exact List.mem_map_of_mem hq
        have hs := (List.nodup_cons.mp h).2
        rw [ih hs, hnone, if_pos hk, if_pos hk]
        rfl
      · rw [if_neg (by simpa using Ne.symm hk)] at h
        rw [ih h, if_neg hk, if_neg hk]
        simp
  rw [ofList, lookup_foldl_insert, hrev]
  simp

end Keyed

namespace Json

/-! ### Trees that are kept -/

/-- The value that is kept of a tree. -/
inductive Kept : Nat → ParseTree → Json → Prop where
  | null {depth : Nat} : Kept depth .null .null
  | bool {depth : Nat} (b : Bool) : Kept depth (.bool b) (.bool b)
  | number {depth : Nat} {n : Numeral} {m : Number} (h : Number.ofNumeral? n = some m) :
      Kept depth (.number n) (.number m)
  | string {depth : Nat} (s : String) : Kept depth (.string (some s)) (.string s)
  | array {depth : Nat} {items : List ParseTree} {vs : List Json}
      (h : ofItems depth items = .ok vs) : Kept (depth + 1) (.array items none) (.array vs)
  | object {depth : Nat} {members : List (Option String × ParseTree)} {vs : List (String × Json)}
      (h : ofMemberTrees depth members = .ok vs) :
      Kept (depth + 1) (.object members none) (.ofMembers vs)

lemma closed_eq_ok {ending : Option Cut} {u : Unit} (h : closed ending = .ok u) :
    ending = none := by
  cases ending with
  | none => rfl
  | some cut => cases h

lemma kept_of_ofTree {depth : Nat} {t : ParseTree} {v : Json} (h : ofTree depth t = .ok v) :
    Kept depth t v := by
  cases t with
  | null => cases h; exact .null
  | bool b => cases h; exact .bool b
  | number n =>
    simp only [ofTree] at h
    split at h
    · rename_i m hm
      cases h
      exact .number hm
    · cases h
  | string content =>
    simp only [ofTree] at h
    split at h <;> cases h
    exact .string _
  | array items ending =>
    cases depth with
    | zero => cases h
    | succ depth =>
      simp only [ofTree, bind_eq_ok] at h
      obtain ⟨vs, hvs, _, hending, h⟩ := h
      cases h
      cases closed_eq_ok hending
      exact .array hvs
  | object members ending =>
    cases depth with
    | zero => cases h
    | succ depth =>
      simp only [ofTree, bind_eq_ok] at h
      obtain ⟨vs, hvs, _, hending, h⟩ := h
      cases h
      cases closed_eq_ok hending
      exact .object hvs
  | broken cut => cases h

/-- There is nothing in it that a reader who skips it would mind. -/
lemma Kept.skip {depth : Nat} {t : ParseTree} {v : Json} (h : Kept depth t v) :
    t.skip = none := by
  cases h <;> rfl

/-- Members are kept one by one, each under its name. -/
lemma ofMemberTrees_cons {depth : Nat} {name : Option String} {t : ParseTree}
    {ms : List (Option String × ParseTree)} {vs : List (String × Json)}
    (h : ofMemberTrees depth ((name, t) :: ms) = .ok vs) :
    ∃ s v vs', name = some s ∧ Kept depth t v ∧ ofMemberTrees depth ms = .ok vs' ∧
      vs = (s, v) :: vs' := by
  cases name with
  | none => cases h
  | some s =>
    simp only [ofMemberTrees, bind_eq_ok] at h
    obtain ⟨v, hv, vs', hvs, h⟩ := h
    cases h
    exact ⟨s, v, vs', rfl, kept_of_ofTree hv, hvs, rfl⟩

lemma names_ofMemberTrees {depth : Nat} {ms : List (Option String × ParseTree)}
    {vs : List (String × Json)} (h : ofMemberTrees depth ms = .ok vs) :
    ms.filterMap Prod.fst = vs.map Prod.fst := by
  induction ms generalizing vs with
  | nil => cases h; rfl
  | cons p ms ih =>
    obtain ⟨name, t⟩ := p
    obtain ⟨s, v, vs', rfl, -, hvs, rfl⟩ := ofMemberTrees_cons h
    simp [ih hvs]

/-! ### Fields given once -/

mutual

/-- No object in the tree that is read as a record gives one of the record's fields twice. -/
def Codec.GivenOnce : {α : Type} → Codec α → ParseTree → Prop
  | _, .nullable c, t => c.GivenOnce t
  | _, .list c, t =>
    match t with
    | .array items _ => ∀ t ∈ items, c.GivenOnce t
    | _ => True
  | _, .record _ fields _ _ _ _, t =>
    match t with
    | .array items _ => fields.GivenOnceIn items
    | .object members _ =>
      (fields.given (members.filterMap Prod.fst)).Nodup ∧
        ∀ m ∈ members, ∀ name ∈ m.1, fields.GivenOnceAt name m.2
    | _ => True
  | _, _, _ => True
termination_by structural _ c => c

/-- The same of the items of an array that are read as the fields in their order. -/
def Fields.GivenOnceIn : {σ β : Type} → Fields σ β → List ParseTree → Prop
  | _, _, .cons _ c _ rest, t :: ts => c.GivenOnce t ∧ rest.GivenOnceIn ts
  | _, _, _, _ => True
termination_by structural _ _ fs => fs

/-- The same of a member that is read as the field of its name. -/
def Fields.GivenOnceAt : {σ β : Type} → Fields σ β → String → ParseTree → Prop
  | _, _, .nil, _, _ => True
  | _, _, .cons field c _ rest, name, t =>
    (name = field → c.GivenOnce t) ∧ rest.GivenOnceAt name t
termination_by structural _ _ fs => fs

end

mutual

def Codec.decideGivenOnce : {α : Type} → (c : Codec α) → (t : ParseTree) →
    Decidable (c.GivenOnce t)
  | _, .nullable c, t => c.decideGivenOnce t
  | _, .list c, t =>
    match t with
    | .array items _ =>
      have (t : ParseTree) : Decidable (c.GivenOnce t) := c.decideGivenOnce t
      inferInstanceAs (Decidable (∀ t ∈ items, c.GivenOnce t))
    | .null | .bool _ | .number _ | .string _ | .object _ _ | .broken _ => .isTrue trivial
  | _, .record _ fields _ _ _ _, t =>
    match t with
    | .array items _ => fields.decideGivenOnceIn items
    | .object members _ =>
      have (name : String) (t : ParseTree) : Decidable (fields.GivenOnceAt name t) :=
        fields.decideGivenOnceAt name t
      inferInstanceAs (Decidable ((fields.given (members.filterMap Prod.fst)).Nodup ∧
        ∀ m ∈ members, ∀ name ∈ m.1, fields.GivenOnceAt name m.2))
    | .null | .bool _ | .number _ | .string _ | .broken _ => .isTrue trivial
  | _, .string, _ => .isTrue trivial
  | _, .bool, _ => .isTrue trivial
  | _, .double, _ => .isTrue trivial
  | _, .integer _ _ _, _ => .isTrue trivial
termination_by structural _ c => c

def Fields.decideGivenOnceIn : {σ β : Type} → (fs : Fields σ β) → (ts : List ParseTree) →
    Decidable (fs.GivenOnceIn ts)
  | _, _, .cons _ c _ rest, t :: ts =>
    have := c.decideGivenOnce t
    have := rest.decideGivenOnceIn ts
    inferInstanceAs (Decidable (c.GivenOnce t ∧ rest.GivenOnceIn ts))
  | _, _, .nil, _ => .isTrue trivial
  | _, _, .cons _ _ _ _, [] => .isTrue trivial
termination_by structural _ _ fs => fs

def Fields.decideGivenOnceAt : {σ β : Type} → (fs : Fields σ β) → (name : String) →
    (t : ParseTree) → Decidable (fs.GivenOnceAt name t)
  | _, _, .nil, _, _ => .isTrue trivial
  | _, _, .cons field c _ rest, name, t =>
    have := c.decideGivenOnce t
    have := rest.decideGivenOnceAt name t
    inferInstanceAs (Decidable ((name = field → c.GivenOnce t) ∧ rest.GivenOnceAt name t))
termination_by structural _ _ fs => fs

end

instance {α : Type} (c : Codec α) (t : ParseTree) : Decidable (c.GivenOnce t) :=
  c.decideGivenOnce t

/-! ### Records -/

/-- What the members give the fields depends on what is found under the names of the fields. -/
theorem Fields.fill_congr {ms ms' : List (String × Json)} :
    ∀ {σ β : Type} (fs : Fields σ β) (slots : σ),
      (∀ name ∈ fs.names, ms.lookup name = ms'.lookup name) → fs.fill slots ms = fs.fill slots ms'
  | _, _, .nil, _, _ => rfl
  | _, _, .cons name _ _ rest, (slot, slots), h => by
    rw [fill, fill, h name List.mem_cons_self,
      rest.fill_congr slots fun n hn => h n (List.mem_cons_of_mem name hn)]

lemma Fields.lookup_ofList {σ β : Type} {fs : Fields σ β} {ms : List (String × Json)}
    (h : (fs.given (ms.map Prod.fst)).Nodup) {name : String} (hname : name ∈ fs.names) :
    (Keyed.ofList ms).lookup name = ms.lookup name := by
  refine Keyed.lookup_ofList (h.sublist ?_)
  have hmono (n : String) (hn : n = name) : n ∈ fs.names := hn ▸ hname
  exact List.monotone_filter_right _ fun n hn => by simpa using hmono n (by simpa using hn)

/-- Members read as they stand, or sorted: the slots are filled alike. -/
lemma Fields.agree_ofList {σ β : Type} {fs : Fields σ β} (hfs : fs.names.Nodup)
    {ms : List (String × Json)} (h : (fs.given (ms.map Prod.fst)).Nodup) :
    Agree (ofMembersOf (fun name v slots => fs.ofField name v slots) ms fs.blank)
      (ofMembersOf (fun name v slots => fs.ofField name v slots) (Keyed.ofList ms) fs.blank) := by
  have hsorted : (fs.given ((Keyed.ofList ms).map Prod.fst)).Nodup :=
    (Keyed.sorted_ofList ms).nodup.filter _
  refine .of_toOption ?_
  rw [fs.toOption_ofMembersOf hfs h _ fun n _ => fs.isFree_blank n,
    fs.toOption_ofMembersOf hfs hsorted _ fun n _ => fs.isFree_blank n]
  exact (fs.fill_congr _ fun name hname => lookup_ofList h hname).symm

/-- Members read as they stand in the tree, or from their values in the same order. -/
lemma agree_members {σ : Type} {depth : Nat}
    {field : String → ParseTree → σ → Option (Except Fault σ)}
    {field' : String → Json → σ → Option (Except Mismatch σ)}
    {ms : List (Option String × ParseTree)} {vs : List (String × Json)}
    (h : ofMemberTrees depth ms = .ok vs)
    (hfield : ∀ m ∈ ms, ∀ name ∈ m.1, ∀ v, Kept depth m.2 v → ∀ slots,
      Option.Rel Agree (field name m.2 slots) (field' name v slots)) (slots : σ) :
    Agree (readMembers field ms slots) (ofMembersOf field' vs slots) := by
  induction ms generalizing vs slots with
  | nil => cases h; exact .ok slots
  | cons p ms ih =>
    obtain ⟨name, t⟩ := p
    obtain ⟨s, v, vs', rfl, hv, hvs, rfl⟩ := ofMemberTrees_cons h
    rw [List.forall_mem_cons] at hfield
    have hrest (slots : σ) := ih hvs hfield.2 slots
    have hhead := hfield.1 s rfl v hv slots
    simp only [readMembers, ofMembersOf, hv.skip]
    generalize field s t slots = x at hhead
    generalize field' s v slots = y at hhead
    cases hhead with
    | none => exact hrest slots
    | some hread => exact hread.bind hrest

/-! ### The two ways of reading -/

/-- The reader of trees and the reader of values come to the same value, on every tree that is
kept and gives no field of a record twice. -/
def Codec.ReadsAlike {α : Type} (c : Codec α) : Prop :=
  ∀ depth t v, Kept depth t v → c.GivenOnce t → Agree (c.read depth t) (c.ofJson v)

/-- The same of fields read from the items of an array. -/
def Fields.ReadsItemsAlike {σ β : Type} (fs : Fields σ β) : Prop :=
  ∀ depth items vs, Json.ofItems depth items = .ok vs → fs.GivenOnceIn items →
    ∀ record total index length,
      Agree (fs.readItems record total depth index none items)
        (fs.ofItems record total length index vs)

/-- The same of a member read as the field of its name. -/
def Fields.ReadsFieldAlike {σ β : Type} (fs : Fields σ β) : Prop :=
  ∀ depth name t v, Kept depth t v → fs.GivenOnceAt name t → ∀ slots,
    Option.Rel Agree (fs.readField depth name t slots) (fs.ofField name v slots)

lemma agree_all {α : Type} {depth : Nat} {c : Codec α} (hc : c.ReadsAlike)
    {items : List ParseTree} {vs : List Json} (h : ofItems depth items = .ok vs)
    (honce : ∀ t ∈ items, c.GivenOnce t) :
    Agree (readAll (c.read depth) items) (ofAll c.ofJson vs) := by
  induction items generalizing vs with
  | nil => cases h; exact .ok []
  | cons t ts ih =>
    simp only [ofItems, bind_eq_ok] at h
    obtain ⟨v, hv, vs', hvs, h⟩ := h
    cases h
    rw [List.forall_mem_cons] at honce
    have hhead := hc _ _ _ (kept_of_ofTree hv) honce.1
    have hrest := ih hvs honce.2
    exact hhead.bind fun a => hrest.bind fun as => .ok (a :: as)

lemma readsAlike_nullable {α : Type} {c : Codec α} (hc : c.ReadsAlike) :
    c.nullable.ReadsAlike := by
  intro depth t v h honce
  have hread := hc _ _ _ h honce
  cases h with
  | null => exact .ok none
  | _ => exact hread.map some

lemma closedAt_none_bind {α : Type} (x : Except Fault α) : (closedAt none >>= fun _ => x) = x :=
  rfl

lemma readsAlike_list {α : Type} {c : Codec α} (hc : c.ReadsAlike) : c.list.ReadsAlike := by
  intro depth t v h honce
  cases h with
  | array hvs =>
    have hall := agree_all hc hvs honce
    intro as
    simp only [Codec.read, Codec.ofJson, closedAt_none_bind]
    rw [← hall as]
    simp
  | _ => exact .error _ _

lemma readsItemsAlike_nil : Fields.nil.ReadsItemsAlike := by
  intro depth items vs h honce record total index length
  cases items with
  | nil => cases h; exact .ok ()
  | cons t ts =>
    simp only [Json.ofItems, bind_eq_ok] at h
    obtain ⟨v, -, vs', -, h⟩ := h
    cases h
    exact .error _ _

lemma readsItemsAlike_cons {α σ β : Type} {name : String} {c : Codec α} {absent : Option α}
    {rest : Fields σ β} (hc : c.ReadsAlike) (hrest : rest.ReadsItemsAlike) :
    (Fields.cons name c absent rest).ReadsItemsAlike := by
  intro depth items vs h honce record total index length
  cases items with
  | nil =>
    cases h
    have honce : rest.GivenOnceIn [] := by cases rest <;> trivial
    have hread := hrest depth [] [] rfl honce record total (index + 1) length
    simp only [Fields.readItems, Fields.ofItems, closedAt_none_bind]
    cases absent with
    | none => exact .error _ _
    | some a => exact hread.map (a, ·)
  | cons t ts =>
    simp only [Json.ofItems, bind_eq_ok] at h
    obtain ⟨v, hv, vs', hvs, h⟩ := h
    cases h
    have hhead := hc _ _ _ (kept_of_ofTree hv) honce.1
    have hread := hrest _ _ _ hvs honce.2 record total (index + 1) length
    exact hhead.bind fun a => hread.bind fun b => .ok (a, b)

lemma readsFieldAlike_cons {α σ β : Type} {field : String} {c : Codec α} {absent : Option α}
    {rest : Fields σ β} (hc : c.ReadsAlike) (hrest : rest.ReadsFieldAlike) :
    (Fields.cons field c absent rest).ReadsFieldAlike := by
  intro depth name t v h honce slots
  obtain ⟨slot, slots⟩ := slots
  simp only [Fields.readField, Fields.ofField]
  by_cases hname : name = field
  · rw [if_pos hname, if_pos hname]
    have hread := hc _ _ _ h (honce.1 hname)
    cases slot with
    | none => exact .some (hread.map _)
    | some a => exact .some (.error _ _)
  · rw [if_neg hname, if_neg hname]
    have hread := hrest _ _ _ _ h honce.2 slots
    generalize rest.readField depth name t slots = x at hread
    generalize rest.ofField name v slots = y at hread
    cases hread with
    | none => exact .none
    | some hread => exact .some (hread.map _)

lemma readsAlike_record {σ β α : Type} {name : String} {fields : Fields σ β} {make : β → α}
    {parts : α → β} {make_parts : ∀ a, make (parts a) = a} {parts_make : ∀ b, parts (make b) = b}
    (hnames : fields.names.Nodup) (hitems : fields.ReadsItemsAlike)
    (hfield : fields.ReadsFieldAlike) :
    (Codec.record name fields make parts make_parts parts_make).ReadsAlike := by
  intro depth t v h honce
  cases h with
  | @array depth items vs hvs =>
    have hread := hitems _ _ _ hvs honce name fields.count 0 vs.length
    exact hread.map make
  | @object depth members vs hvs =>
    have hgiven : (fields.given (vs.map Prod.fst)).Nodup := names_ofMemberTrees hvs ▸ honce.1
    have hread : Agree
        (readMembers (fun n t slots => fields.readField depth n t slots) members fields.blank)
        (ofMembersOf (fun n v slots => fields.ofField n v slots) vs fields.blank) :=
      agree_members hvs (fun m hm n hn v hv slots => hfield _ _ _ _ hv (honce.2 m hm n hn) slots) _
    have hslots := hread.trans (fields.agree_ofList hnames hgiven)
    exact hslots.bind fun slots => (Agree.mapError (fields.finish slots) _).map make
  | _ => exact .error _ _

mutual

theorem Codec.readsAlike : ∀ {α : Type} (c : Codec α), c.Lawful → c.ReadsAlike
  | _, .string, _ => by
    intro depth t v h _
    cases h with
    | string s => exact .ok s
    | _ => exact .error _ _
  | _, .bool, _ => by
    intro depth t v h _
    cases h with
    | bool b => exact .ok b
    | _ => exact .error _ _
  | _, .double, _ => by
    intro depth t v h _
    cases h with
    | number hn =>
      simp only [Codec.read, Codec.ofJson, hn]
      exact .ok _
    | _ => exact .error _ _
  | _, .integer name low high, _ => by
    intro depth t v h _
    cases h with
    | @number _ n m hn =>
      simp only [Codec.read, Codec.ofJson, hn]
      exact .mapError _ _
    | _ => exact .error _ _
  | _, .nullable c, hc => readsAlike_nullable (c.readsAlike hc.2)
  | _, .list c, hc => readsAlike_list (c.readsAlike hc)
  | _, .record _ fields _ _ _ _, hc =>
    readsAlike_record hc.1 (fields.readsItemsAlike hc.2) (fields.readsFieldAlike hc.2)
termination_by structural _ c => c

theorem Fields.readsItemsAlike : ∀ {σ β : Type} (fs : Fields σ β), fs.Lawful → fs.ReadsItemsAlike
  | _, _, .nil, _ => readsItemsAlike_nil
  | _, _, .cons _ c _ rest, h =>
    readsItemsAlike_cons (c.readsAlike h.1) (rest.readsItemsAlike h.2)
termination_by structural _ _ fs => fs

theorem Fields.readsFieldAlike : ∀ {σ β : Type} (fs : Fields σ β), fs.Lawful → fs.ReadsFieldAlike
  | _, _, .nil, _ => fun _ _ _ _ _ _ _ => .none
  | _, _, .cons _ c _ rest, h =>
    readsFieldAlike_cons (c.readsAlike h.1) (rest.readsFieldAlike h.2)
termination_by structural _ _ fs => fs

end

end Json

open Json

/-- **Reading a text agrees with reading its value.** For everything that is sent or stored: if a
text is JSON and gives no field of a record twice, it is read directly just when its value is, and
as the same. -/
theorem text_agrees_with_value {α : Type} {c : Codec α} (h : Exchanged c) {text : String}
    {v : Json} (hv : Json.ofText text = .ok v)
    (honce : c.GivenOnce (ParseTree.ofText text.toList).1) (a : α) :
    c.readText text = .ok a ↔ c.ofJson v = .ok a := by
  unfold Json.ofText at hv
  unfold Codec.readText
  generalize ParseTree.ofText text.toList = parsed at hv honce ⊢
  obtain ⟨tree, more⟩ := parsed
  obtain ⟨v', htree, hend⟩ := bind_eq_ok.mp hv
  cases more with
  | true => cases hend
  | false =>
    cases hend
    have hread := c.readsAlike h.lawful _ _ _ (kept_of_ofTree htree) honce a
    rw [← hread]
    simp

/-- Members out of their order, an unknown one twice, a record as an array, minus zero. -/
theorem text_agrees_with_value_of_payments :
    let text := "\x7b\"pendingContributions\":[\x7b\"x\":[],\"amount\":1,\"x\":null," ++
      "\"publisherKey\":\"a\"\x7d,[\"b\",-0]],\"rewardsEnabled\":true\x7d"
    let one : Binary64 := ⟨false, 1 <<< 52, 1022, by decide, by decide, by decide⟩
    let contribution (key : String) (percentage amount : Binary64) : Payments.Contribution :=
      ⟨key, percentage, false, .zero, "", "", "", "", amount, .zero, "", .zero⟩
    let s : Payments.State :=
      ⟨true, [contribution "a" (.zero false) one, contribution "b" (.zero true) (.zero false)]⟩
    let c := Payments.State.codec
    ∃ v, (Exchanged c ∧ Json.ofText text = .ok v ∧
        c.GivenOnce (ParseTree.ofText text.toList).1) ∧
      c.readText text = .ok s ∧ c.ofJson v = .ok s := by
  intro text one contribution s c
  have hread : c.readText text = .ok s := by decide +kernel
  have honce : c.GivenOnce (ParseTree.ofText text.toList).1 := by decide +kernel
  have hjson : (Json.ofText text).toBool = true := by decide +kernel
  cases hv : Json.ofText text with
  | error b => rw [hv] at hjson; cases hjson
  | ok v =>
    have hvalue := (text_agrees_with_value .payments hv honce s).mp hread
    exact ⟨v, ⟨.payments, rfl, honce⟩, hread, hvalue⟩

/-- A field given twice is refused in a text, while of the value only the last one is left. -/
example :
    let text := "\x7b\"enabled\":true,\"enabled\":false\x7d"
    RewardsReply.codec.readText text = .error (.content (.repeated "enabled")) ∧
      Json.ofText text = .ok (.object [("enabled", .bool false)]) := by
  constructor <;> cbv

end Tipping
