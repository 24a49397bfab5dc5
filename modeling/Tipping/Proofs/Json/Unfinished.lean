import Mathlib.Logic.Basic
import Tipping.Proofs.Json.CutShort
import Tipping.Proofs.Json.Numbers

/-!
Reading a value whose text ends too early.

Whatever is complete is read, and so are the digits that are left of a number, since they write one
that is no larger. So the first thing that can go wrong is the end of the text: it is met inside a
value or, at the latest, where a container that is still open should end.
-/

namespace Tipping.Json

/-! ### What is left of a number -/

/-- What is left of a numeral has a small power of ten, unless the number is large. -/
lemma scale_stub_le {l : Layout} (hl : l.highest ≤ 20) {negative : Bool} {d : Decimal}
    (hd : d.digits ≠ 0 → d.exponent + (digitsOf d.digits).length - 1 ≤ 320) {n : Numeral}
    (h : (l.numeral negative d).Stub n) : n.power.getD 0 + n.whole.length ≤ 50 := by
  -- without a power of ten the digits are few; with one, what is left of it is at most a tenth
  rcases l.places_numeral negative d with ⟨hpower, hwhole⟩ | ⟨hdigits, hn⟩
  · have hwhole : (l.numeral negative d).whole.length ≤ 21 := by omega
    cases h with
    | whole _ hds =>
      have hlength := hds.length_le
      simp only [Option.getD_none]
      omega
    | fraction =>
      simp only [Option.getD_none]
      omega
    | power hp => cases hpower.symm.trans hp
  · rw [hn] at h
    have hwhole : ((digitsOf d.digits).take 1).length ≤ 1 := List.length_take_le 1 _
    cases h with
    | whole _ hds =>
      have hlength := hds.length_le
      simp only [Option.getD_none] at hlength ⊢
      omega
    | fraction =>
      simp only [Option.getD_none]
      omega
    | @power p ds hp _ hds =>
      have hlead : p ≤ 320 := Option.some.inj hp ▸ hd hdigits
      have htenth := ten_mul_ofDigits_le hds.1 hds.2
      simp only [Option.getD_some]
      split <;> omega

lemma doubleOf?_stub {l : Layout} (hl : l.highest ≤ 20) {negative : Bool} {x : Binary64}
    {n : Numeral} (h : (l.numeral negative x.shortest).Stub n) :
    ∃ y, Number.doubleOf? n = some y :=
  ofScaled?_isSome_of_small _ (n.leading_digits_le _)
    (Int.le_trans (n.leading_exponent_le_add _) (scale_stub_le hl Binary64.lead_shortest_le h))

/-- What is left of an integer is one that is no further from zero. -/
lemma ofNumeral?_stub_ofInt {i : Int} (hi : FitsInteger i) {n : Numeral}
    (h : (Numeral.ofInt i).Stub n) :
    ∃ j fits, Number.ofNumeral? n = some (.integer j fits) ∧ min i 0 ≤ j ∧ j ≤ max i 0 := by
  cases h with
  | fraction hne h => exact absurd (List.prefix_nil.mp h) hne
  | power hp => cases hp
  | @whole ds hne hds =>
    have hds : ds <+: digitsOf i.natAbs := hds
    have hle : ofDigits ds ≤ i.natAbs := by
      by_cases hall : ds = digitsOf i.natAbs
      · rw [hall, ofDigits_digitsOf]
      · have := ten_mul_ofDigits_le hds hall
        omega
    -- the digits of what is below zero do not begin with a zero
    have hzero : ¬((Numeral.ofInt i).negative = true ∧ ofDigits ds = 0) := by
      rintro ⟨hneg, h0⟩
      have hneg : i < 0 := of_decide_eq_true hneg
      exact ofDigits_ne_zero (by omega) hne hds h0
    have hrange : min i 0 ≤ (if i < 0 then -(ofDigits ds : Int) else ofDigits ds) ∧
        (if i < 0 then -(ofDigits ds : Int) else ofDigits ds) ≤ max i 0 := by
      split <;> omega
    have hfits : FitsInteger (if i < 0 then -(ofDigits ds : Int) else ofDigits ds) := by
      obtain ⟨hlow, hhigh⟩ := hi
      constructor <;> omega
    refine ⟨_, hfits, ?_, hrange⟩
    simp only [Number.ofNumeral?, Numeral.ofInt, decide_eq_true_eq] at hzero ⊢
    rw [if_pos ⟨rfl, hzero⟩, dif_pos hfits]

/-! ### Codecs -/

mutual

/-- Zero is among the integers of every range. -/
def Codec.ZeroFits : {α : Type} → Codec α → Prop
  | _, .integer _ low high => low ≤ 0 ∧ 0 ≤ high
  | _, .nullable c => c.ZeroFits
  | _, .list c => c.ZeroFits
  | _, .record _ fields _ _ _ _ => fields.ZeroFits
  | _, _ => True
termination_by structural _ c => c

def Fields.ZeroFits : {σ β : Type} → Fields σ β → Prop
  | _, _, .nil => True
  | _, _, .cons _ c _ rest => c.ZeroFits ∧ rest.ZeroFits
termination_by structural _ _ fs => fs

end

lemma exists_readsAs_double (x : Binary64) : ∃ y, Codec.double.ReadsAs x y := by
  obtain ⟨y, hy⟩ := doubleOf?_numeral (l := layout) (by decide) x.negative x
  have hwhole : (x.numeral layout).isWhole = false := isWhole_numeral rfl _ _
  have hread : Number.doubleOf? (x.numeral layout) = some y := hy
  exact ⟨y, readsAs_double (by simp [Number.ofNumeral?, hwhole, hread])⟩

lemma exists_readsAs_list {α : Type} {c : Codec α} (h : ∀ a, ∃ a', c.ReadsAs a a') (as : List α) :
    ∃ as', c.list.ReadsAs as as' := by
  choose read hread using h
  exact ⟨as.map read, readsAs_list (List.forall₂_map_right_iff.mpr
    (List.forall₂_same.mpr fun a _ => hread a))⟩

mutual

/-- Of the tree that was written for a value some value is read. -/
theorem Codec.exists_readsAs : ∀ {α : Type} (c : Codec α), c.Lawful → ∀ a, ∃ a', c.ReadsAs a a'
  | _, .string, _, a => ⟨a, fun _ _ => rfl⟩
  | _, .bool, _, a => ⟨a, fun _ _ => rfl⟩
  | _, .double, _, x => exists_readsAs_double x
  | _, .integer _ _ _, hc, n => ⟨n, readsAs_integer n (hc n.val n.property)⟩
  | _, .nullable c, _, none => ⟨none, readsAs_none c⟩
  | _, .nullable c, hc, some a =>
    (c.exists_readsAs hc.2 a).imp' some fun _ h => readsAs_some hc.1 h
  | _, .list c, hc, as => exists_readsAs_list (c.exists_readsAs hc) as
  | _, .record _ fields make _ _ parts_make, hc, _ =>
    (fields.exists_readsAs hc.1 hc.2 _).imp' make fun b h =>
      readsAs_record ((parts_make b).symm ▸ h)
termination_by structural _ c => c

theorem Fields.exists_readsAs : ∀ {σ β : Type} (fs : Fields σ β), fs.names.Nodup → fs.Lawful →
    ∀ b, ∃ b', fs.ReadsAs b b'
  | _, _, .nil, _, _, _ => ⟨(), fun _ _ => rfl⟩
  | _, _, .cons _ c _ rest, hnames, hfs, (a, b) =>
    have ⟨a', ha⟩ := c.exists_readsAs hfs.1 a
    have ⟨b', hb⟩ := rest.exists_readsAs (List.nodup_cons.mp hnames).2 hfs.2 b
    ⟨(a', b'), readsAs_cons (List.nodup_cons.mp hnames).1 ha hb⟩
termination_by structural _ _ fs => fs

end

/-! ### The end of the text is what a reader meets -/

/-- A reader came through, or met the end of the text. -/
def MayEnd {α : Type} (r : Except Fault α) : Prop :=
  (∃ a, r = .ok a) ∨ r = .error (.form .truncated)

section MayEnd

variable {α β : Type} {r : Except Fault α}

lemma MayEnd.map (h : MayEnd r) (f : α → β) : MayEnd (f <$> r) := by
  rcases h with ⟨a, rfl⟩ | rfl
  · exact .inl ⟨f a, rfl⟩
  · exact .inr rfl

lemma MayEnd.bind (h : MayEnd r) {f : α → Except Fault β} (hf : ∀ a, MayEnd (f a)) :
    MayEnd (r.bind f) := by
  rcases h with ⟨a, rfl⟩ | rfl
  · exact hf a
  · exact .inr rfl

/-- After what a reader comes through, a container that is still open is met. -/
lemma MayEnd.unclosed (h : MayEnd r) {cut : Cut} (hcut : cut.kept = .truncated)
    (f : α → Except Fault β) :
    (do
      let a ← r
      closedAt (some cut)
      f a) = .error (.form .truncated) := by
  rcases h with ⟨a, rfl⟩ | rfl
  · change Except.error (Fault.form cut.kept) = _
    rw [hcut]
  · rfl

end MayEnd

lemma Codec.read_broken : ∀ {α : Type} (c : Codec α) (depth : Nat) (cut : Cut),
    c.read depth (.broken cut) = .error (.form cut.kept)
  | _, .string, _, _ => rfl
  | _, .bool, _, _ => rfl
  | _, .double, _, _ => rfl
  | _, .integer _ _ _, _, _ => rfl
  | _, .nullable c, depth, cut => by
    simp only [read, c.read_broken depth cut]
    rfl
  | _, .list _, _, _ => rfl
  | _, .record _ _ _ _ _ _, _, _ => rfl

lemma mayEnd_broken {α : Type} (c : Codec α) (depth : Nat) {cut : Cut}
    (h : cut.kept = .truncated) : MayEnd (c.read depth (.broken cut)) :=
  .inr (by rw [c.read_broken, h])

namespace ParseTree

variable {t t' : ParseTree}

lemma CutShort.ne_null (h : CutShort t' t) : t' ≠ .null := by
  cases h <;> nofun

lemma CutMembers.names {ms ms' : List (Option String × ParseTree)} (h : CutMembers ms' ms) :
    ms'.map Prod.fst ⊆ ms.map Prod.fst := by
  induction ms generalizing ms' with
  | nil =>
    cases h
    exact List.Subset.refl _
  | cons m ms ih =>
    cases h with
    | nil => exact List.nil_subset _
    | last => simp
    | cons _ h => exact List.cons_subset_cons _ (ih h)

end ParseTree

open ParseTree

/-- What is left of a tree that was written is read up to the end of the text. -/
def Codec.EndsIn {α : Type} (c : Codec α) (a : α) : Prop :=
  ∀ depth ≥ c.height, ∀ t, CutShort t (c.encode a) → MayEnd (c.read depth t)

/-- The same of the fields and the members that were written for them. -/
def Fields.EndsIn {σ β : Type} (fs : Fields σ β) (b : β) : Prop :=
  ∀ depth ≥ fs.height, ∀ ms, CutMembers ms (fs.encode b) →
    MayEnd (readMembers (fun n t s => fs.readField depth n t s) ms fs.blank)

lemma endsIn_double (x : Binary64) : Codec.double.EndsIn x := by
  intro depth _ t h
  cases h with
  | broken _ hcut => exact mayEnd_broken .double depth hcut
  | number h =>
    obtain ⟨m, hm⟩ := ofNumeral?_isSome (doubleOf?_stub (by decide) h)
    exact .inl ⟨m.toBinary64, by simp only [Codec.read, hm]⟩

lemma endsIn_integer {name : String} {low high : Int} (hzero : low ≤ 0 ∧ 0 ≤ high)
    (n : IntIn low high) (hn : FitsInteger n.val) : (Codec.integer name low high).EndsIn n := by
  intro depth _ t h
  cases h with
  | broken _ hcut => exact mayEnd_broken (.integer name low high) depth hcut
  | number h =>
    obtain ⟨j, fits, hj, hlow, hhigh⟩ := ofNumeral?_stub_ofInt hn h
    have hrange : low ≤ j ∧ j ≤ high := by
      have := n.property
      omega
    refine .inl ⟨⟨j, hrange⟩, ?_⟩
    simp only [Codec.read, hj, Number.toIntIn]
    rw [dif_pos hrange]
    rfl

lemma endsIn_none {α : Type} (c : Codec α) : c.nullable.EndsIn none := by
  intro depth _ t h
  cases h with
  | broken _ hcut => exact mayEnd_broken c.nullable depth hcut

lemma endsIn_some {α : Type} {c : Codec α} {a : α} (h : c.EndsIn a) :
    c.nullable.EndsIn (some a) := by
  intro depth hd t ht
  have hnull : t ≠ .null := ht.ne_null
  have hread : c.nullable.read depth t = some <$> c.read depth t := by
    cases t <;> first | rfl | exact absurd rfl hnull
  rw [hread]
  exact (h depth hd t ht).map some

/-- Of the items before the end each is read, the last of them as far as it goes. -/
lemma mayEnd_items {α : Type} {c : Codec α} (hreads : ∀ a, ∃ a', c.ReadsAs a a')
    (h : ∀ a, c.EndsIn a) {depth : Nat} (hd : c.height ≤ depth) {as : List α}
    {ts : List ParseTree} (hts : CutItems ts (as.map c.encode)) :
    MayEnd (readAll (c.read depth) ts) := by
  induction as generalizing ts with
  | nil =>
    cases hts with
    | nil => exact .inl ⟨[], rfl⟩
    | due hcut => exact (mayEnd_broken c depth hcut).bind fun a => .inl ⟨[a], rfl⟩
  | cons a as ih =>
    cases hts with
    | nil => exact .inl ⟨[], rfl⟩
    | last ht => exact (h a depth hd _ ht).bind fun a => .inl ⟨[a], rfl⟩
    | cons _ hts =>
      obtain ⟨a', ha⟩ := hreads a
      rw [readAll, ha depth hd]
      exact (ih hts).map (a' :: ·)

lemma read_items_open {α : Type} {c : Codec α} (hreads : ∀ a, ∃ a', c.ReadsAs a a')
    (h : ∀ a, c.EndsIn a) {depth : Nat} (hd : c.list.height ≤ depth) {as : List α}
    {t : ParseTree} (ht : CutShort t (c.list.encode as)) :
    c.list.read depth t = .error (.form .truncated) := by
  cases ht with
  | broken _ hcut => rw [Codec.read_broken, hcut]
  | array hcut hts =>
    cases depth with
    | zero => exact absurd hd (Nat.not_succ_le_zero _)
    | succ depth => exact (mayEnd_items hreads h (Nat.le_of_succ_le_succ hd) hts).unclosed hcut _

lemma read_record_open {σ β α : Type} {name : String} {fields : Fields σ β} {make : β → α}
    {parts : α → β} {make_parts : ∀ a, make (parts a) = a} {parts_make : ∀ b, parts (make b) = b}
    {a : α} (h : fields.EndsIn (parts a)) {depth : Nat} (hd : fields.height + 1 ≤ depth)
    {t : ParseTree}
    (ht : CutShort t ((Codec.record name fields make parts make_parts parts_make).encode a)) :
    (Codec.record name fields make parts make_parts parts_make).read depth t =
      .error (.form .truncated) := by
  cases ht with
  | broken _ hcut => rw [Codec.read_broken, hcut]
  | object hcut hms =>
    cases depth with
    | zero => exact absurd hd (Nat.not_succ_le_zero _)
    | succ depth => exact (h depth (Nat.le_of_succ_le_succ hd) _ hms).unclosed hcut _

/-- The first field is where the text ends, or is read. -/
lemma endsIn_cons {α σ β : Type} {name : String} {c : Codec α} {absent : Option α}
    {rest : Fields σ β} {a : α} {b : β} (hname : name ∉ rest.names)
    (hreads : ∃ a', c.ReadsAs a a') (h : c.EndsIn a) (hrest : rest.EndsIn b) :
    (Fields.cons name c absent rest).EndsIn (a, b) := by
  intro depth hd ms hms
  have hdc : c.height ≤ depth := Nat.le_trans (Nat.le_max_left _ _) hd
  have hdr : rest.height ≤ depth := Nat.le_trans (Nat.le_max_right _ _) hd
  rw [Fields.encode] at hms
  cases hms with
  | nil => exact .inl ⟨_, rfl⟩
  | @last _ _ t ht =>
    rw [Fields.blank, readMembers, Fields.readField, if_pos rfl]
    exact ((h depth hdc t ht).map _).bind fun slots => .inl ⟨slots, rfl⟩
  | cons _ hms =>
    obtain ⟨a', ha⟩ := hreads
    have hother : some name ∉ (rest.encode b).map Prod.fst := by
      rw [rest.names_encode]
      simpa using hname
    rw [readMembers_first (ha depth hdc) fun hmem => hother (hms.names hmem)]
    exact (hrest depth hdr _ hms).map _

mutual

theorem Codec.endsIn : ∀ {α : Type} (c : Codec α), c.Lawful → c.ZeroFits → ∀ a, c.EndsIn a
  | _, .string, _, _, _ => fun depth _ t h => by
    cases h with
    | broken _ hcut => exact mayEnd_broken .string depth hcut
  | _, .bool, _, _, _ => fun depth _ t h => by
    cases h with
    | broken _ hcut => exact mayEnd_broken .bool depth hcut
  | _, .double, _, _, x => endsIn_double x
  | _, .integer _ _ _, hc, hzero, n => endsIn_integer hzero n (hc n.val n.property)
  | _, .nullable c, _, _, none => endsIn_none c
  | _, .nullable c, hc, hzero, some a => endsIn_some (c.endsIn hc.2 hzero a)
  | _, .list c, hc, hzero, _ => fun _ hd _ ht =>
    .inr (read_items_open (c.exists_readsAs hc) (c.endsIn hc hzero) hd ht)
  | _, .record _ fields _ parts _ _, hc, hzero, a => fun _ hd _ ht =>
    .inr (read_record_open (fields.endsIn hc.1 hc.2 hzero (parts a)) hd ht)
termination_by structural _ c => c

theorem Fields.endsIn : ∀ {σ β : Type} (fs : Fields σ β), fs.names.Nodup → fs.Lawful →
    fs.ZeroFits → ∀ b, fs.EndsIn b
  | _, _, .nil, _, _, _, _ => fun _ _ ms hms => by
    cases hms
    exact .inl ⟨(), rfl⟩
  | _, _, .cons _ c _ rest, hnames, hfs, hzero, (a, b) =>
    endsIn_cons (List.nodup_cons.mp hnames).1 (c.exists_readsAs hfs.1 a)
      (c.endsIn hfs.1 hzero.1 a)
      (rest.endsIn (List.nodup_cons.mp hnames).2 hfs.2 hzero.2 b)
termination_by structural _ _ fs => fs

end

/-- What is written has brackets around it. -/
def Codec.isContainer : {α : Type} → Codec α → Bool
  | _, .list _ => true
  | _, .record _ _ _ _ _ _ => true
  | _, _ => false

lemma Codec.read_cutShort {α : Type} {c : Codec α} (h : c.isContainer = true) (hc : c.Lawful)
    (hzero : c.ZeroFits) {a : α} {depth : Nat} (hd : c.height ≤ depth) {t : ParseTree}
    (ht : CutShort t (c.encode a)) : c.read depth t = .error (.form .truncated) := by
  cases c with
  | list c => exact read_items_open (c.exists_readsAs hc) (c.endsIn hc hzero) hd ht
  | record name fields make parts => exact read_record_open (fields.endsIn hc.1 hc.2 hzero _) hd ht
  | _ => cases h

/-- **A text in brackets that is cut off is read as nothing**, and what goes wrong is that it
ends. -/
theorem Codec.readText_cropped {α : Type} {c : Codec α} (h : c.isContainer = true) (hc : c.Lawful)
    (hzero : c.ZeroFits) (hd : c.height ≤ depthLimit) (a : α) {p : String}
    (hp : Cropped p.toList (c.text a).toList) : c.readText p = .error (.form .truncated) := by
  rw [text, String.toList_ofList] at hp
  obtain ⟨t, ht, htext⟩ := ofText_cropped (c.whole_encode a) hp
  rw [readText, htext]
  simp only [read_cutShort h hc hzero hd ht]
  rfl

end Tipping.Json
