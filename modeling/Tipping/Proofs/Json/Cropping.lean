import Mathlib.Data.List.Forall2
import Tipping.Proofs.Json.Printing

/-!
The tokens of a text that ends too early.

What is written and then cut off lexes to the tokens that are complete, and then perhaps to what is
left of one more: nothing but a break, or of a number as many digits as there are.
-/

namespace Tipping

/-- One list is the other without some of its end. -/
def Cropped {α : Type} (p s : List α) : Prop := p <+: s ∧ p ≠ s

instance {α : Type} [DecidableEq α] (p s : List α) : Decidable (Cropped p s) :=
  inferInstanceAs (Decidable (_ ∧ _))

section

variable {α β : Type} {p s t : List α}

lemma Cropped.nil_of_ne_nil (h : s ≠ []) : Cropped [] s := ⟨List.nil_prefix, h.symm⟩

lemma not_cropped_nil : ¬Cropped p [] := fun h => h.2 (List.prefix_nil.mp h.1)

lemma cropped_cons {a : α} : Cropped p (a :: s) ↔ p = [] ∨ ∃ q, p = a :: q ∧ Cropped q s := by
  rw [Cropped, List.prefix_cons_iff]
  constructor
  · rintro ⟨rfl | ⟨q, rfl, hq⟩, hne⟩
    · exact .inl rfl
    · exact .inr ⟨q, rfl, hq, fun h => hne (h ▸ rfl)⟩
  · rintro (rfl | ⟨q, rfl, hq, hne⟩)
    · exact ⟨.inl rfl, by simp⟩
    · exact ⟨.inr ⟨q, rfl, hq⟩, by simpa using hne⟩

/-- The first part is cut off, or the second. -/
lemma Cropped.of_append (h : Cropped p (s ++ t)) :
    Cropped p s ∨ ∃ q, p = s ++ q ∧ Cropped q t := by
  induction s generalizing p with
  | nil => exact .inr ⟨p, rfl, h⟩
  | cons a s ih =>
    rcases cropped_cons.mp h with rfl | ⟨q, rfl, hq⟩
    · exact .inl (.nil_of_ne_nil (List.cons_ne_nil a s))
    rcases ih hq with hq | ⟨r, rfl, hr⟩
    · exact .inl (cropped_cons.mpr (.inr ⟨q, rfl, hq⟩))
    · exact .inr ⟨r, rfl, hr⟩

lemma Cropped.exists_take (h : Cropped p s) : ∃ k < s.length, p = s.take k := by
  obtain ⟨rest, rfl⟩ := h.1
  have hrest : rest ≠ [] := fun hr => h.2 (by simp [hr])
  exact ⟨p.length, by simpa [List.length_pos_iff] using hrest, by simp⟩

lemma Cropped.of_map {f : β → α} {s : List β} (h : Cropped p (s.map f)) :
    ∃ q, p = q.map f ∧ Cropped q s := by
  obtain ⟨q, hq, rfl⟩ := List.prefix_map_iff.mp h.1
  exact ⟨q, rfl, hq, fun he => h.2 (he ▸ rfl)⟩

end

/-- What is left of a numeral when its text ends after one of its digits. -/
inductive Numeral.Stub (n : Numeral) : Numeral → Prop where
  | whole {ds : List Digit} (hne : ds ≠ []) (h : ds <+: n.whole) :
      n.Stub ⟨n.negative, ds, [], none⟩
  | fraction {ds : List Digit} (hne : ds ≠ []) (h : ds <+: n.fraction) :
      n.Stub ⟨n.negative, n.whole, ds, none⟩
  | power {p : Int} {ds : List Digit} (hp : n.power = some p) (hne : ds ≠ [])
      (h : Cropped ds (digitsOf p.natAbs)) :
      n.Stub ⟨n.negative, n.whole, n.fraction,
        some (if p < 0 then -(ofDigits ds : Int) else ofDigits ds)⟩

namespace Json

/-- What is left of a token when the text ends in it. -/
inductive Token.Stub : Token → Token → Prop where
  | null : Stub .null (.broken (.both .truncated))
  | bool (b : Bool) : Stub (.bool b) (.broken (.both .truncated))
  | sign (n : Numeral) {cut : Cut} (h : cut.kept = .truncated) : Stub (.number n) (.broken cut)
  | digits {n n' : Numeral} (h : n.Stub n') : Stub (.number n) (.number n')
  | string (s : Option String) : Stub (.string s) (.brokenString (.both .truncated))

/-- Some of the tokens, and perhaps what is left of the next. -/
inductive CroppedTokens : List Token → List Token → Prop where
  | nil (t : Token) (ts : List Token) : CroppedTokens [] (t :: ts)
  | stub {t t' : Token} (h : t.Stub t') (ts : List Token) : CroppedTokens [t'] (t :: ts)
  | cons {ts ts' : List Token} (t : Token) (h : CroppedTokens ts' ts) :
      CroppedTokens (t :: ts') (t :: ts)

namespace CroppedTokens

variable {ts us xs : List Token}

lemma left (h : CroppedTokens xs ts) (us : List Token) : CroppedTokens xs (ts ++ us) := by
  induction h with
  | nil t ts => exact .nil t _
  | stub h ts => exact .stub h _
  | cons t _ ih => exact .cons t ih

lemma right (ts : List Token) (h : CroppedTokens xs us) :
    CroppedTokens (ts ++ xs) (ts ++ us) := by
  induction ts with
  | nil => exact h
  | cons t ts ih => exact .cons t ih

lemma of_append (h : CroppedTokens xs (ts ++ us)) :
    CroppedTokens xs ts ∨ ∃ ys, xs = ts ++ ys ∧ CroppedTokens ys us := by
  induction ts generalizing xs with
  | nil => exact .inr ⟨xs, rfl, h⟩
  | cons t ts ih =>
    cases h with
    | nil => exact .inl (.nil t ts)
    | stub h => exact .inl (.stub h ts)
    | cons _ h =>
      rcases ih h with h | ⟨ys, rfl, hys⟩
      · exact .inl (.cons t h)
      · exact .inr ⟨ys, rfl, hys⟩

end CroppedTokens

/-- Cut off anywhere, the text lexes to some of the tokens and what is left of the next. -/
def Crops (s : List Char) (ts : List Token) : Prop := ∀ p, Cropped p s → CroppedTokens (lex p) ts

lemma lex_nil : lex [] = [] := by rw [lex]

lemma lex_last {c : Char} {s : List Char} {t : Token} (hc : isSpace c = false)
    (h : lexToken c s = .last t) : lex (c :: s) = [t] := by
  rw [lex, if_neg (by simp [hc])]
  split
  · rename_i h'
    cases h.symm.trans h'
    rfl
  · rename_i h'
    cases h.symm.trans h'

/-! ### Words and marks -/

lemma lexWord_cropped (t : Token) {ws p : List Char} (h : Cropped p ws) :
    lexWord t ws p = .stop .truncated := by
  induction ws generalizing p with
  | nil => exact absurd h not_cropped_nil
  | cons w ws ih =>
    rcases cropped_cons.mp h with rfl | ⟨q, rfl, hq⟩
    · rfl
    · simp [lexWord, ih hq]

lemma crops_word {t : Token} {c : Char} {ws : List Char} (hc : isSpace c = false)
    (hword : ∀ s, lexToken c s = lexWord t ws s) (ht : t.Stub (.broken (.both .truncated))) :
    Crops (c :: ws) [t] := by
  intro p hp
  rcases cropped_cons.mp hp with rfl | ⟨q, rfl, hq⟩
  · rw [lex_nil]
    exact .nil t []
  · rw [lex_last hc ((hword q).trans (lexWord_cropped t hq))]
    exact .stub ht []

lemma crops_null : Crops ['n', 'u', 'l', 'l'] [.null] :=
  crops_word rfl (fun _ => rfl) .null

lemma crops_bool : ∀ b : Bool, Crops (ParseTree.bool b).text [.bool b]
  | true => crops_word rfl (fun _ => rfl) (.bool true)
  | false => crops_word rfl (fun _ => rfl) (.bool false)

lemma Crops.mark {c : Char} {t : Token} {s : List Char} {ts : List Token} (h : Crops s ts)
    (hc : isSpace c = false) (ht : punctuation? c = some t) : Crops (c :: s) (t :: ts) := by
  intro p hp
  rcases cropped_cons.mp hp with rfl | ⟨q, rfl, hq⟩
  · rw [lex_nil]
    exact .nil t ts
  · rw [lex_mark hc ht]
    exact .cons t (h q hq)

/-- A text that lexes, and one after it. -/
lemma Crops.append {s s' : List Char} {ts ts' : List Token} (h : Crops s ts) (hs : Lexes s ts)
    (h' : Crops s' ts') (hends : Ends s') : Crops (s ++ s') (ts ++ ts') := by
  intro p hp
  rcases hp.of_append with hp | ⟨q, rfl, hq⟩
  · exact (h p hp).left ts'
  · have hq' : Ends q := by
      intro c hc
      obtain ⟨rest, rfl⟩ := hq.1
      refine hends c ?_
      cases q with
      | nil => cases hc
      | cons a q => exact hc
    rw [hs q hq']
    exact (h' q hq).right ts

/-! ### Numbers -/

/-- What is left of a numeral ends the text. -/
inductive CropsNumeral (n : Numeral) : Lexeme → Prop where
  | sign {cut : Cut} (h : cut.kept = .truncated) : CropsNumeral n (.last (.broken cut))
  | digits {n' : Numeral} (h : n.Stub n') : CropsNumeral n (.next (.number n') [])

lemma CropsNumeral.noDigits (n : Numeral) : CropsNumeral n (noDigits []) := .sign rfl

lemma spanDigits_all (ds : List Digit) : spanDigits (textOfDigits ds) = (ds, []) := by
  have h := spanDigits_textOfDigits ds (s := []) (by simp)
  rwa [List.append_nil] at h

variable {n : Numeral}

lemma cropsNumeral_power {p : Int} (hp : n.power = some p) {q : List Char}
    (hq : Cropped q (textOfDigits (digitsOf p.natAbs))) :
    CropsNumeral n (lexPower n.negative n.whole n.fraction (p < 0) q) := by
  obtain ⟨ds, rfl, hds⟩ := Cropped.of_map hq
  change CropsNumeral n (lexPower _ _ _ _ (textOfDigits ds))
  rw [lexPower, spanDigits_all]
  cases ds with
  | nil => exact .noDigits n
  | cons d ds => simpa using CropsNumeral.digits (.power hp (List.cons_ne_nil d ds) hds)

lemma cropsNumeral_exponent (hwhole : n.whole ≠ []) {q : List Char}
    (hq : Cropped q ((n.power.map Numeral.powerText).getD [])) :
    CropsNumeral n (lexExponent n.negative n.whole n.fraction q) := by
  cases hp : n.power with
  | none =>
    rw [hp] at hq
    exact absurd hq not_cropped_nil
  | some p =>
    rw [hp, Option.map_some, Option.getD_some, Numeral.powerText] at hq
    rcases cropped_cons.mp hq with rfl | ⟨r, rfl, hr⟩
    · refine .digits ?_
      cases hf : n.fraction with
      | nil => exact .whole hwhole (List.prefix_refl _)
      | cons d ds =>
        have hne : n.fraction ≠ [] := by simp [hf]
        exact hf ▸ .fraction hne (List.prefix_refl _)
    rcases cropped_cons.mp hr with rfl | ⟨ds, rfl, hds⟩
    · exact .noDigits n
    · have h := cropsNumeral_power hp hds
      by_cases hneg : p < 0
      · simpa [lexExponent, hneg] using h
      · simpa [lexExponent, hneg] using h

lemma head_cropped_power {q : List Char}
    (hq : Cropped q ((n.power.map Numeral.powerText).getD [])) : ∀ c ∈ q.head?, c = 'e' := by
  cases hp : n.power with
  | none =>
    rw [hp] at hq
    exact absurd hq not_cropped_nil
  | some p =>
    rw [hp, Option.map_some, Option.getD_some, Numeral.powerText] at hq
    rcases cropped_cons.mp hq with rfl | ⟨r, rfl, -⟩ <;> simp

lemma cropsNumeral_fraction (hwhole : n.whole ≠ []) {q : List Char}
    (hq : Cropped q ((if n.fraction.isEmpty then [] else '.' :: textOfDigits n.fraction) ++
      (n.power.map Numeral.powerText).getD [])) :
    CropsNumeral n (lexFraction n.negative n.whole q) := by
  -- cut before the end of the fraction, or in the power after it
  rcases hq.of_append with hq | ⟨r, rfl, hr⟩
  · cases hf : n.fraction with
    | nil =>
      rw [hf] at hq
      exact absurd hq not_cropped_nil
    | cons d ds =>
      rw [hf, List.isEmpty_cons, if_neg (by simp)] at hq
      rcases cropped_cons.mp hq with rfl | ⟨r, rfl, hr⟩
      · exact .digits (.whole hwhole (List.prefix_refl _))
      obtain ⟨es, rfl, hes⟩ := Cropped.of_map hr
      change CropsNumeral n (lexFraction _ _ ('.' :: textOfDigits es))
      rw [lexFraction, spanDigits_all]
      cases es with
      | nil => exact .noDigits n
      | cons e es => exact .digits (.fraction (List.cons_ne_nil e es) (hf ▸ hes.1))
  · have h := cropsNumeral_exponent hwhole hr
    have hhead := head_cropped_power hr
    cases hf : n.fraction with
    | nil =>
      have hpoint : ∀ s, r ≠ '.' :: s := by
        rintro s rfl
        exact absurd (hhead '.' rfl) (by decide)
      rw [hf] at h
      rw [List.isEmpty_nil, if_pos rfl, List.nil_append, lexFraction]
      · exact h
      · exact hpoint
    | cons d ds =>
      have hdigit : ∀ c ∈ r.head?, Digit.ofChar? c = none := fun c hc => by
        rw [hhead c hc]
        rfl
      rw [hf] at h
      simp only [List.isEmpty_cons, Bool.false_eq_true, if_false, List.cons_append, lexFraction,
        spanDigits_textOfDigits _ hdigit]
      exact h

/-- What is left of the part after the whole digits does not begin with a digit. -/
lemma noDigit_cropped_fraction {q : List Char}
    (hq : Cropped q ((if n.fraction.isEmpty then [] else '.' :: textOfDigits n.fraction) ++
      (n.power.map Numeral.powerText).getD [])) : ∀ c ∈ q.head?, Digit.ofChar? c = none := by
  cases hf : n.fraction with
  | nil =>
    rw [hf] at hq
    intro c hc
    rw [head_cropped_power hq c hc]
    rfl
  | cons d ds =>
    rw [hf, List.isEmpty_cons, if_neg (by simp)] at hq
    rcases cropped_cons.mp hq with rfl | ⟨r, rfl, -⟩
    · simp
    · intro c hc
      cases hc
      rfl

lemma cropsNumeral_number (hn : n.Plain) {q : List Char}
    (hq : Cropped q (textOfDigits n.whole ++
      ((if n.fraction.isEmpty then [] else '.' :: textOfDigits n.fraction) ++
        (n.power.map Numeral.powerText).getD []))) : CropsNumeral n (lexNumber n.negative q) := by
  rcases hq.of_append with hq | ⟨r, rfl, hr⟩
  · obtain ⟨ds, rfl, hds⟩ := Cropped.of_map hq
    change CropsNumeral n (lexNumber _ (textOfDigits ds))
    rw [lexNumber, spanDigits_all]
    split
    · rename_i heq
      cases heq
      exact .noDigits n
    · rename_i d es _ heq
      cases heq
      obtain ⟨after, hafter⟩ := hds.1
      exact absurd (hn.lead (d :: es ++ after) hafter.symm) (by simp)
    · rename_i hne _ heq
      cases heq
      exact .digits (.whole hne hds.1)
  · have h := cropsNumeral_fraction hn.whole hr
    rw [lexNumber, spanDigits_textOfDigits _ (noDigit_cropped_fraction hr)]
    split
    · rename_i heq
      exact absurd (congrArg Prod.fst heq) hn.whole
    · rename_i heq
      exact absurd (hn.lead _ (congrArg Prod.fst heq)) (List.cons_ne_nil _ _)
    · rename_i heq
      cases heq
      exact h

/-- The first digit or the sign of a number, and what is left of the rest. -/
lemma CropsNumeral.cropped {c : Char} {s : List Char} (hc : isSpace c = false)
    (h : CropsNumeral n (lexToken c s)) : CroppedTokens (lex (c :: s)) [.number n] := by
  generalize hl : lexToken c s = l at h
  cases h with
  | sign h =>
    rw [lex_last hc hl]
    exact .stub (.sign n h) []
  | digits h =>
    rw [lex_cons hc hl, lex_nil]
    exact .stub (.digits h) []

lemma crops_number (hn : n.Plain) : Crops n.text [.number n] := by
  intro p hp
  simp only [Numeral.text, List.append_assoc] at hp
  cases hneg : n.negative with
  | true =>
    rw [hneg, if_pos rfl, List.singleton_append] at hp
    rcases cropped_cons.mp hp with rfl | ⟨q, rfl, hq⟩
    · rw [lex_nil]
      exact .nil _ []
    · have h := cropsNumeral_number hn hq
      rw [hneg] at h
      exact h.cropped rfl
  | false =>
    rw [hneg, if_neg (by simp), List.nil_append] at hp
    cases hw : n.whole with
    | nil => exact absurd hw hn.whole
    | cons d ds =>
      cases p with
      | nil =>
        rw [lex_nil]
        exact .nil _ []
      | cons c q =>
        have hcd : c = d.toChar := by
          rw [hw] at hp
          rcases cropped_cons.mp hp with h | ⟨r, h, -⟩
          · cases h
          · exact (List.cons.inj h).1
        subst hcd
        obtain ⟨hspace, hlex⟩ := lexToken_digit d q
        have h := cropsNumeral_number hn hp
        rw [hneg, ← hlex] at h
        exact h.cropped hspace

/-! ### Strings -/

lemma shortUnit_of_ascii {s : List Char} (hs : ∀ c ∈ s, c.utf8Size = 1) (hlen : s.length < 4) :
    shortUnit s = .truncated := by
  have hsize : (String.ofList s).utf8ByteSize = s.length := by
    clear hlen
    induction s with
    | nil => rfl
    | cons c s ih =>
      rw [List.forall_mem_cons] at hs
      rw [String.ofList_cons, String.utf8ByteSize_append, String.utf8ByteSize_singleton, hs.1,
        ih hs.2, List.length_cons, Nat.add_comm]
  rw [shortUnit, hsize, if_pos hlen]

lemma utf8Size_hexChar {k : Nat} (hk : k < 16) : (hexChar k).utf8Size = 1 := by
  interval_cases k <;> rfl

/-- An escape that is cut off is no character. -/
lemma scanString_cropped_escape {c : Char} {p : List Char} (h : Cropped p (escapeChar c)) :
    scanString p = ⟨[], .error .truncated⟩ := by
  obtain ⟨k, hk, rfl⟩ := h.exists_take
  have hletter (x : Char) (hk : k < 2) :
      scanString (['\\', x].take k) = ⟨[], .error .truncated⟩ := by
    interval_cases k <;> rfl
  have hunit (s : List Char) (hs : ∀ x ∈ s, x.utf8Size = 1) (hlen : s.length < 4) :
      StringScan.mk [] (.error (shortUnit s)) = ⟨[], .error .truncated⟩ := by
    rw [shortUnit_of_ascii hs hlen]
  -- a letter after the backslash, or a unit of four digits
  unfold escapeChar at hk ⊢
  split_ifs at hk ⊢ with h₁ h₂ h₃ h₄ h₅ h₆ h₇ hcontrol
  · exact hletter _ hk
  · exact hletter _ hk
  · exact hletter _ hk
  · exact hletter _ hk
  · exact hletter _ hk
  · exact hletter _ hk
  · exact hletter _ hk
  · have hlt : c.toNat < 32 := by simpa [isControl] using hcontrol
    have hsize : (hexChar (c.toNat / 16)).utf8Size = 1 := utf8Size_hexChar (by omega)
    have hzero : '0'.utf8Size = 1 := rfl
    simp only [List.length_cons, List.length_nil] at hk
    interval_cases k
    · rfl
    · rfl
    · exact hunit [] (by simp) (by simp)
    · exact hunit ['0'] (by simp [hzero]) (by simp)
    · exact hunit ['0', '0'] (by simp [hzero]) (by simp)
    · exact hunit ['0', '0', hexChar (c.toNat / 16)] (by simp [hzero, hsize]) (by simp)
  · rw [List.length_singleton, Nat.lt_one_iff] at hk
    subst hk
    rfl

/-- What is left of a string is some of its characters, then the end of the text. -/
lemma scanString_cropped {cs p : List Char} (h : Cropped p (cs.flatMap escapeChar ++ ['"'])) :
    ∃ cs', scanString p = ⟨List.map pieceOf cs', .error .truncated⟩ := by
  induction cs generalizing p with
  | nil =>
    rcases cropped_cons.mp h with rfl | ⟨q, rfl, hq⟩
    · exact ⟨[], rfl⟩
    · exact absurd hq not_cropped_nil
  | cons c cs ih =>
    rw [List.flatMap_cons, List.append_assoc] at h
    rcases h.of_append with h | ⟨q, rfl, hq⟩
    · exact ⟨[], scanString_cropped_escape h⟩
    · obtain ⟨cs', hcs⟩ := ih hq
      exact ⟨c :: cs', by rw [scanString_escapeChar, hcs]; rfl⟩

lemma crops_string (s : String) : Crops (stringText s) [.string (some s)] := by
  intro p hp
  rw [stringText] at hp
  rcases cropped_cons.mp hp with rfl | ⟨q, rfl, hq⟩
  · rw [lex_nil]
    exact .nil _ []
  · obtain ⟨cs, hcs⟩ := scanString_cropped hq
    have hlex : lexToken '"' q = .last (.brokenString (.both .truncated)) := by
      change lexString q = _
      simp [lexString, hcs, joinPieces_map]
    rw [lex_last rfl hlex]
    exact .stub (.string _) []

/-! ### Texts put together -/

/-- The text lexes to the tokens, and cut off to some of them. -/
structure Spells (s : List Char) (ts : List Token) : Prop where
  lexes : Lexes s ts
  crops : Crops s ts

lemma crops_commaSeparated {ss : List (List Char)} {tss : List (List Token)}
    (h : List.Forall₂ Spells ss tss) : Crops (commaSeparated ss) (commaTokens tss) := by
  induction h with
  | nil => exact fun _ hp => absurd hp not_cropped_nil
  | @cons s ts ss tss hs htail ih =>
    cases htail with
    | nil => simpa [commaSeparated, commaTokens] using hs.crops
    | @cons s' ts' ss tss hs' htail =>
      have htokens : commaTokens (ts :: ts' :: tss) = ts ++ .comma :: commaTokens (ts' :: tss) := by
        simp [commaTokens]
      rw [htokens]
      exact hs.crops.append hs.lexes (ih.mark rfl rfl) (ends_cons ⟨rfl, by decide, by decide⟩)

/-- Brackets around texts with commas between them. -/
lemma spells_enclosed {first last : Char} {opening closing : Token} {ss : List (List Char)}
    {tss : List (List Token)} (h : List.Forall₂ Spells ss tss)
    (hopening : punctuation? first = some opening) (hclosing : punctuation? last = some closing)
    (hfirst : isSpace first = false) (hlast : isSpace last = false) (hapart : Apart last) :
    Spells (first :: commaSeparated ss ++ [last]) (opening :: commaTokens tss ++ [closing]) := by
  have hlexes := lexes_commaSeparated (h.imp fun _ _ hs => hs.lexes)
  have hclose : Crops [last] [closing] :=
    Crops.mark (fun _ hp => absurd hp not_cropped_nil) hlast hclosing
  exact ⟨hlexes.enclosed hopening hclosing hfirst hlast hapart,
    ((crops_commaSeparated h).append hlexes hclose (ends_cons hapart)).mark hfirst hopening⟩

/-- A name and a colon before a text. -/
lemma Spells.member {s : List Char} {ts : List Token} (h : Spells s ts) (name : String) :
    Spells (stringText name ++ ':' :: s) (.string (some name) :: .colon :: ts) :=
  ⟨h.lexes.member name, (crops_string name).append (lexes_string name) (h.crops.mark rfl rfl)
    (ends_cons ⟨rfl, by decide, by decide⟩)⟩

namespace ParseTree

mutual

theorem spells_text : ∀ {t : ParseTree}, t.Whole → Spells t.text t.tokens
  | null, h => ⟨lexes_text h, crops_null⟩
  | bool b, h => ⟨lexes_text h, crops_bool b⟩
  | number _, h => ⟨lexes_text h, crops_number h⟩
  | string (some s), h => ⟨lexes_text h, crops_string s⟩
  | array _ _, h =>
    spells_enclosed (spells_itemTexts h.1) rfl rfl rfl rfl ⟨rfl, by decide, by decide⟩
  | object _ _, h =>
    spells_enclosed (spells_memberTexts h.1) rfl rfl rfl rfl ⟨rfl, by decide, by decide⟩

theorem spells_itemTexts : ∀ {ts : List ParseTree}, WholeItems ts →
    List.Forall₂ Spells (itemTexts ts) (itemTokens ts)
  | [], _ => .nil
  | _ :: _, h => .cons (spells_text h.1) (spells_itemTexts h.2)

theorem spells_memberTexts : ∀ {ms : List (Option String × ParseTree)}, WholeMembers ms →
    List.Forall₂ Spells (memberTexts ms) (memberTokens ms)
  | [], _ => .nil
  | (some _, _) :: _, h => .cons ((spells_text h.2.1).member _) (spells_memberTexts h.2.2)

end

end ParseTree

end Json

end Tipping
