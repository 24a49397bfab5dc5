import Mathlib.Data.List.Forall2
import Tipping.Json.Codec.Tree
import Tipping.Proofs.Json.Printing

/-!
Values are read back from their own text.

What a codec writes is whole, so its text gives the tree back, and from the tree the codec reads
the value field by field. Only doubles need care: the digits written for one are its shortest, and
reading digits rounds, so whether a double comes back is a matter of that double alone.
-/

namespace Tipping.Json

/-! ### Numbers -/

lemma Number.ofNumeral?_ofInt {n : Int} (h : FitsInteger n) :
    ofNumeral? (.ofInt n) = some (.integer n h) := by
  have hzero : ¬((Numeral.ofInt n).negative = true ∧ ofDigits (Numeral.ofInt n).whole = 0) := by
    simp only [Numeral.ofInt, ofDigits_digitsOf, decide_eq_true_eq]
    omega
  have hval : (if (Numeral.ofInt n).negative then -(ofDigits (Numeral.ofInt n).whole : Int)
      else ofDigits (Numeral.ofInt n).whole) = n := by
    simp only [Numeral.ofInt, ofDigits_digitsOf, decide_eq_true_eq]
    split <;> omega
  simp only [ofNumeral?, hval]
  rw [if_pos ⟨rfl, hzero⟩, dif_pos h]

/-- A layout that sets a point writes nothing as a whole number. -/
lemma isWhole_numeral {l : Layout} (h : l.pointed = true) (negative : Bool) (d : Decimal) :
    (l.numeral negative d).isWhole = false := by
  have hpoint (ds : List Digit) : (l.fraction ds).isEmpty = false := by
    unfold Layout.fraction
    cases ds <;> simp [h]
  have hdigits : digitsOf d.digits ≠ [] := digitsOf_ne_nil _
  simp only [Layout.numeral]
  split
  · simp [Numeral.isWhole, hpoint]
  split
  · split
    · simp [Numeral.isWhole, hdigits]
    · simp [Numeral.isWhole, hpoint]
  · simp [Numeral.isWhole]

/-- The double is what its own numeral is read as. -/
def Exact (x : Binary64) : Prop := Number.doubleOf? (x.numeral layout) = some x

instance (x : Binary64) : Decidable (Exact x) := inferInstanceAs (Decidable (_ = _))

lemma Exact.ofNumeral? {x : Binary64} (h : Exact x) :
    Number.ofNumeral? (x.numeral layout) = some (.double x) := by
  have hwhole : (x.numeral layout).isWhole = false := isWhole_numeral rfl _ _
  have hread : Number.doubleOf? (x.numeral layout) = some x := h
  simp [Number.ofNumeral?, hwhole, hread]

lemma exact_zero (negative : Bool) : Exact (.zero negative) := by
  revert negative
  decide +kernel

/-- Of a double with `k + 1` exact digits, the shortest decimal is found without counting them. -/
lemma shortest_of_digits {x : Binary64} (k : Nat) (h : 10 ^ k ≤ x.exactDigits)
    (h' : x.exactDigits < 10 ^ (k + 1)) {d : Decimal}
    (hd : (List.range 17).findSome? (fun n => x.onGrid? (k - n)) = some d) :
    x.shortest = d.strip := by
  have hlen : (digitsOf x.exactDigits).length = k + 1 := length_digitsOf h h'
  rw [Binary64.shortest, hlen]
  simp only [Nat.add_sub_add_right, hd, Option.getD_some]

/-- A double that has `k + 1` exact digits comes back if the shortest of its decimals does. -/
lemma exact_of_digits {x : Binary64} (k : Nat) (h : 10 ^ k ≤ x.exactDigits)
    (h' : x.exactDigits < 10 ^ (k + 1)) {d : Decimal}
    (hd : (List.range 17).findSome? (fun n => x.onGrid? (k - n)) = some d)
    (hread : Number.doubleOf? (layout.numeral x.negative d.strip) = some x) : Exact x := by
  rw [Exact, Binary64.numeral, shortest_of_digits k h h' hd]
  exact hread

/-! ### Codecs -/

mutual

/-- How many containers a value may open at once. -/
def Codec.height : {α : Type} → Codec α → Nat
  | _, .nullable c => c.height
  | _, .list c => c.height + 1
  | _, .record _ fields _ _ _ _ => fields.height + 1
  | _, _ => 0
termination_by structural _ c => c

def Fields.height : {σ β : Type} → Fields σ β → Nat
  | _, _, .nil => 0
  | _, _, .cons _ c _ rest => max c.height rest.height
termination_by structural _ _ fs => fs

end

def Codec.isNullable : {α : Type} → Codec α → Bool
  | _, .nullable _ => true
  | _, _ => false

mutual

/-- Nothing gets lost in writing: integers fit, an absent value is told from a present one, and
no two fields of a record have one name. -/
def Codec.Lawful : {α : Type} → Codec α → Prop
  | _, .integer _ low high => ∀ n, low ≤ n ∧ n ≤ high → FitsInteger n
  | _, .nullable c => c.isNullable = false ∧ c.Lawful
  | _, .list c => c.Lawful
  | _, .record _ fields _ _ _ _ => fields.names.Nodup ∧ fields.Lawful
  | _, _ => True
termination_by structural _ c => c

def Fields.Lawful : {σ β : Type} → Fields σ β → Prop
  | _, _, .nil => True
  | _, _, .cons _ c _ rest => c.Lawful ∧ rest.Lawful
termination_by structural _ _ fs => fs

end

mutual

/-- Every double in the value is read again as itself. -/
def Codec.Exact : {α : Type} → Codec α → α → Prop
  | _, .double, x => Json.Exact x
  | _, .nullable c, a => ∀ x ∈ a, c.Exact x
  | _, .list c, as => ∀ a ∈ as, c.Exact a
  | _, .record _ fields _ parts _ _, a => fields.Exact (parts a)
  | _, _, _ => True
termination_by structural _ c => c

def Fields.Exact : {σ β : Type} → Fields σ β → β → Prop
  | _, _, .nil, _ => True
  | _, _, .cons _ c _ rest, (a, b) => c.Exact a ∧ rest.Exact b
termination_by structural _ _ fs => fs

end

mutual

def Codec.hasDoubles : {α : Type} → Codec α → Bool
  | _, .double => true
  | _, .nullable c => c.hasDoubles
  | _, .list c => c.hasDoubles
  | _, .record _ fields _ _ _ _ => fields.hasDoubles
  | _, _ => false
termination_by structural _ c => c

def Fields.hasDoubles : {σ β : Type} → Fields σ β → Bool
  | _, _, .nil => false
  | _, _, .cons _ c _ rest => c.hasDoubles || rest.hasDoubles
termination_by structural _ _ fs => fs

end

mutual

theorem Codec.exact_of_no_doubles : ∀ {α : Type} (c : Codec α) (a : α), c.hasDoubles = false →
    c.Exact a
  | _, .string, _, _ => trivial
  | _, .bool, _, _ => trivial
  | _, .integer _ _ _, _, _ => trivial
  | _, .nullable c, _, h => fun x _ => c.exact_of_no_doubles x h
  | _, .list c, _, h => fun a _ => c.exact_of_no_doubles a h
  | _, .record _ fields _ parts _ _, a, h => fields.exact_of_no_doubles (parts a) h
termination_by structural _ c => c

theorem Fields.exact_of_no_doubles : ∀ {σ β : Type} (fs : Fields σ β) (b : β),
    fs.hasDoubles = false → fs.Exact b
  | _, _, .nil, _, _ => trivial
  | _, _, .cons _ c _ rest, (a, b), h =>
    ⟨c.exact_of_no_doubles a (Bool.or_eq_false_iff.mp h).1,
      rest.exact_of_no_doubles b (Bool.or_eq_false_iff.mp h).2⟩
termination_by structural _ _ fs => fs

end

/-! ### Writing -/

lemma wholeItems_map {α : Type} {encode : α → ParseTree} (h : ∀ a, (encode a).Whole)
    (as : List α) : ParseTree.WholeItems (as.map encode) := by
  induction as with
  | nil => trivial
  | cons a as ih => exact ⟨h a, ih⟩

mutual

theorem Codec.whole_encode : ∀ {α : Type} (c : Codec α) (a : α), (c.encode a).Whole
  | _, .string, _ => rfl
  | _, .bool, _ => trivial
  | _, .double, x => Layout.plain_numeral layout x.negative x.shortest
  | _, .integer _ _ _, n => Numeral.plain_ofInt n.val
  | _, .nullable _, none => trivial
  | _, .nullable c, some a => c.whole_encode a
  | _, .list c, as => ⟨wholeItems_map c.whole_encode as, rfl⟩
  | _, .record _ fields _ parts _ _, a => ⟨fields.whole_encode (parts a), rfl⟩

theorem Fields.whole_encode : ∀ {σ β : Type} (fs : Fields σ β) (b : β),
    ParseTree.WholeMembers (fs.encode b)
  | _, _, .nil, _ => trivial
  | _, _, .cons _ c _ rest, (a, b) => ⟨rfl, c.whole_encode a, rest.whole_encode b⟩

end

/-! ### Reading -/

lemma readAll_map {α : Type} {read : ParseTree → Except Fault α} {encode : α → ParseTree}
    {as as' : List α} (h : List.Forall₂ (fun a a' => read (encode a) = .ok a') as as') :
    readAll read (as.map encode) = .ok as' := by
  induction h with
  | nil => rfl
  | cons ha _ ih =>
    rw [List.map_cons, readAll, ha, ih]
    rfl

lemma Codec.encode_ne_null {α : Type} {c : Codec α} (h : c.isNullable = false) (a : α) :
    c.encode a ≠ .null := by
  cases c with
  | nullable c => cases h
  | _ => simp [encode]

lemma Fields.names_encode : ∀ {σ β : Type} (fs : Fields σ β) (b : β),
    (fs.encode b).map Prod.fst = fs.names.map some
  | _, _, .nil, _ => rfl
  | _, _, .cons name _ _ rest, (_, b) => congrArg (some name :: ·) (rest.names_encode b)

/-- The slots when all fields have been read. -/
def Fields.filled : {σ β : Type} → Fields σ β → β → σ
  | _, _, .nil, _ => ()
  | _, _, .cons _ _ _ rest, (a, b) => (some a, rest.filled b)

lemma Fields.finish_filled : ∀ {σ β : Type} (fs : Fields σ β) (b : β),
    fs.finish (fs.filled b) = .ok b
  | _, _, .nil, _ => rfl
  | _, _, .cons _ _ _ rest, (a, b) => by
    rw [filled, finish, Option.some_or, rest.finish_filled b]
    rfl

/-- Members that do not name the first field leave its slot alone. -/
lemma readMembers_cons {α σ β : Type} {name : String} {c : Codec α} {absent : Option α}
    {rest : Fields σ β} {depth : Nat} (slot : Option α) {ms : List (Option String × ParseTree)}
    (h : some name ∉ ms.map Prod.fst) (slots : σ) :
    readMembers (fun n t s => (Fields.cons name c absent rest).readField depth n t s) ms
        (slot, slots) =
      (slot, ·) <$> readMembers (fun n t s => rest.readField depth n t s) ms slots := by
  induction ms generalizing slots with
  | nil => rfl
  | cons p ms ih =>
    obtain ⟨n, t⟩ := p
    rw [List.map_cons, List.mem_cons, not_or] at h
    cases n with
    | none => rfl
    | some n =>
      have hn : n ≠ name := fun hn => h.1 (congrArg some hn.symm)
      simp only [readMembers, Fields.readField, if_neg hn]
      cases rest.readField depth n t slots with
      | none =>
        simp only [Option.map_none]
        split
        · rfl
        · exact ih h.2 slots
      | some read =>
        cases read with
        | error fault => rfl
        | ok slots' => exact ih h.2 slots'

/-- From the tree that was written for the one value the other is read, wherever it is not too
deep. -/
def Codec.ReadsAs {α : Type} (c : Codec α) (a a' : α) : Prop :=
  ∀ depth ≥ c.height, c.read depth (c.encode a) = .ok a'

/-- The same of the fields and the members that were written for them. -/
def Fields.ReadsAs {σ β : Type} (fs : Fields σ β) (b b' : β) : Prop :=
  ∀ depth ≥ fs.height,
    readMembers (fun n t s => fs.readField depth n t s) (fs.encode b) fs.blank = .ok (fs.filled b')

/-- The value is read from the tree that was written for it, wherever it is not too deep. -/
def Codec.Recovers {α : Type} (c : Codec α) (a : α) : Prop := c.ReadsAs a a

/-- All fields are read from the members that were written for them. -/
def Fields.Recovers {σ β : Type} (fs : Fields σ β) (b : β) : Prop := fs.ReadsAs b b

lemma readsAs_double {x y : Binary64}
    (h : Number.ofNumeral? (x.numeral layout) = some (.double y)) : Codec.double.ReadsAs x y := by
  intro depth _
  rw [Codec.encode, Codec.read, h]
  rfl

lemma readsAs_integer {name : String} {low high : Int} (n : IntIn low high)
    (h : FitsInteger n.val) : (Codec.integer name low high).ReadsAs n n := by
  intro depth _
  simp only [Codec.read, Codec.encode, Number.ofNumeral?_ofInt h, Number.toIntIn]
  rw [dif_pos n.property]
  rfl

lemma readsAs_none {α : Type} (c : Codec α) : c.nullable.ReadsAs none none := by
  intro depth _
  rw [c.encode_none, c.read_null]

lemma readsAs_some {α : Type} {c : Codec α} {a a' : α} (hc : c.isNullable = false)
    (h : c.ReadsAs a a') : c.nullable.ReadsAs (some a) (some a') := by
  intro depth hd
  have hnull := c.encode_ne_null hc a
  have hread := h depth hd
  simp only [Codec.read, Codec.encode, hread]
  rfl

lemma readsAs_list {α : Type} {c : Codec α} {as as' : List α}
    (h : List.Forall₂ c.ReadsAs as as') : c.list.ReadsAs as as' := by
  intro depth hd
  cases depth with
  | zero => exact absurd hd (Nat.not_succ_le_zero _)
  | succ depth =>
    have hread := readAll_map (h.imp fun _ _ ha => ha depth (Nat.le_of_succ_le_succ hd))
    simp only [Codec.read, Codec.encode, hread]
    rfl

lemma readsAs_record {σ β α : Type} {name : String} {fields : Fields σ β} {make : β → α}
    {parts : α → β} {make_parts : ∀ a, make (parts a) = a} {parts_make : ∀ b, parts (make b) = b}
    {a a' : α} (h : fields.ReadsAs (parts a) (parts a')) :
    (Codec.record name fields make parts make_parts parts_make).ReadsAs a a' := by
  intro depth hd
  cases depth with
  | zero => exact absurd hd (Nat.not_succ_le_zero _)
  | succ depth =>
    have hread := h depth (Nat.le_of_succ_le_succ hd)
    have hfinish := fields.finish_filled (parts a')
    simp only [Codec.read, Codec.encode, hread]
    change make <$> Except.mapError Fault.content (fields.finish _) = _
    rw [hfinish]
    exact congrArg Except.ok (make_parts a')

/-- The member of the first field is read, then those of the others. -/
lemma readMembers_first {α σ β : Type} {name : String} {c : Codec α} {absent : Option α}
    {rest : Fields σ β} {depth : Nat} {t : ParseTree} {a : α}
    {ms : List (Option String × ParseTree)} (ht : c.read depth t = .ok a)
    (hms : some name ∉ ms.map Prod.fst) :
    readMembers (fun n t s => (Fields.cons name c absent rest).readField depth n t s)
        ((some name, t) :: ms) (Fields.cons name c absent rest).blank =
      (some a, ·) <$> readMembers (fun n t s => rest.readField depth n t s) ms rest.blank := by
  have hfield : (Fields.cons name c absent rest).readField depth name t (none, rest.blank) =
      some (.ok (some a, rest.blank)) := by
    rw [Fields.readField, if_pos rfl, ht]
    rfl
  rw [Fields.blank, readMembers, hfield]
  exact readMembers_cons (some a) hms rest.blank

lemma readsAs_cons {α σ β : Type} {name : String} {c : Codec α} {absent : Option α}
    {rest : Fields σ β} {a a' : α} {b b' : β} (hname : name ∉ rest.names) (h : c.ReadsAs a a')
    (hrest : rest.ReadsAs b b') : (Fields.cons name c absent rest).ReadsAs (a, b) (a', b') := by
  intro depth hd
  have hread := h depth (Nat.le_trans (Nat.le_max_left _ _) hd)
  have hreadRest := hrest depth (Nat.le_trans (Nat.le_max_right _ _) hd)
  have hother : some name ∉ (rest.encode b).map Prod.fst := by
    rw [rest.names_encode]
    simpa using hname
  rw [Fields.encode, readMembers_first hread hother, hreadRest]
  rfl

mutual

theorem Codec.recovers : ∀ {α : Type} (c : Codec α) {a : α}, c.Lawful → c.Exact a → c.Recovers a
  | _, .string, _, _, _ => fun _ _ => rfl
  | _, .bool, _, _, _ => fun _ _ => rfl
  | _, .double, _, _, ha => readsAs_double ha.ofNumeral?
  | _, .integer _ _ _, n, hc, _ => readsAs_integer n (hc n.val n.property)
  | _, .nullable c, none, _, _ => readsAs_none c
  | _, .nullable c, some a, hc, ha => readsAs_some hc.1 (c.recovers hc.2 (ha a rfl))
  | _, .list c, _, hc, ha => readsAs_list (List.forall₂_same.mpr fun a h => c.recovers hc (ha a h))
  | _, .record _ fields _ _ _ _, _, hc, ha => readsAs_record (fields.recovers hc.1 hc.2 ha)
termination_by structural _ c => c

theorem Fields.recovers : ∀ {σ β : Type} (fs : Fields σ β) {b : β}, fs.names.Nodup → fs.Lawful →
    fs.Exact b → fs.Recovers b
  | _, _, .nil, _, _, _, _ => fun _ _ => rfl
  | _, _, .cons _ c _ rest, (_, _), hnames, hfs, hb =>
    readsAs_cons (List.nodup_cons.mp hnames).1 (c.recovers hfs.1 hb.1)
      (rest.recovers (List.nodup_cons.mp hnames).2 hfs.2 hb.2)
termination_by structural _ _ fs => fs

end

/-- **A value is read back from its own text**, if its doubles are. -/
theorem Codec.readText_text {α : Type} {c : Codec α} {a : α} (hc : c.Lawful)
    (hd : c.height ≤ depthLimit) (ha : c.Exact a) : c.readText (c.text a) = .ok a := by
  rw [readText, text, String.toList_ofList, ParseTree.ofText_text (c.whole_encode a)]
  simp only [c.recovers hc ha depthLimit hd]
  rfl

end Tipping.Json
