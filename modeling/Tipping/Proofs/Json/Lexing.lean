import Mathlib.Data.Char
import Mathlib.Tactic.IntervalCases
import Tipping.Proofs.Json.Grammar

/-!
What is written lexes back.

A piece of text lexes to its tokens in front of whatever follows, as long as that could not go on
with a number. So texts that are put together lex to their tokens put together, and blanks between
them change nothing.
-/

namespace Tipping.Json

/-- No number goes on with this character. -/
structure Apart (c : Char) : Prop where
  noDigit : Digit.ofChar? c = none
  noPoint : c ≠ '.'
  noPower : ¬(c = 'e' ∨ c = 'E')

/-- No number before this text goes on in it. -/
def Ends (s : List Char) : Prop := ∀ c ∈ s.head?, Apart c

lemma ends_nil : Ends [] := by simp [Ends]

lemma ends_cons {c : Char} {s : List Char} (h : Apart c) : Ends (c :: s) := by simpa [Ends] using h

/-- The text lexes to these tokens, whatever comes after it. -/
def Lexes (s : List Char) (ts : List Token) : Prop :=
  ∀ rest, Ends rest → lex (s ++ rest) = ts ++ lex rest

lemma lex_cons {c : Char} {s rest : List Char} {t : Token} (hc : isSpace c = false)
    (h : lexToken c s = .next t rest) : lex (c :: s) = t :: lex rest := by
  rw [lex, if_neg (by simp [hc])]
  split
  · rename_i h'
    cases h.symm.trans h'
  · rename_i h'
    cases h.symm.trans h'
    rfl

/-! ### Blanks -/

lemma apart_of_isSpace {c : Char} (h : isSpace c = true) : Apart c := by
  simp only [isSpace, Bool.or_eq_true, decide_eq_true_eq] at h
  rcases h with ((rfl | rfl) | rfl) | rfl <;> exact ⟨rfl, by decide, by decide⟩

lemma Blanks.ends {b s : List Char} (h : Blanks b) (hs : Ends s) : Ends (b ++ s) := by
  cases b with
  | nil => exact hs
  | cons c b => exact ends_cons (apart_of_isSpace (h c List.mem_cons_self))

lemma Blanks.lex {b : List Char} (h : Blanks b) (s : List Char) : lex (b ++ s) = lex s := by
  induction b with
  | nil => rfl
  | cons c b ih =>
    rw [List.cons_append, Json.lex, if_pos (h c List.mem_cons_self)]
    exact ih fun c hc => h c (List.mem_cons_of_mem _ hc)

/-- Blanks around a text that lexes. -/
lemma Lexes.padded {s b b' : List Char} {ts : List Token} (h : Lexes s ts) (hb : Blanks b)
    (hb' : Blanks b') : Lexes (b ++ s ++ b') ts := by
  intro rest hrest
  rw [List.append_assoc, List.append_assoc, hb.lex, h _ (hb'.ends hrest), hb'.lex]

/-! ### Words and marks -/

lemma lexWord_append (t : Token) (ws rest : List Char) :
    lexWord t ws (ws ++ rest) = .next t rest := by
  induction ws with
  | nil => cases rest <;> rfl
  | cons w ws ih => simp [lexWord, ih]

lemma lexes_null : Lexes ['n', 'u', 'l', 'l'] [.null] := fun rest _ =>
  lex_cons rfl (lexWord_append .null ['u', 'l', 'l'] rest)

lemma lexes_true : Lexes ['t', 'r', 'u', 'e'] [.bool true] := fun rest _ =>
  lex_cons rfl (lexWord_append (.bool true) ['r', 'u', 'e'] rest)

lemma lexes_false : Lexes ['f', 'a', 'l', 's', 'e'] [.bool false] := fun rest _ =>
  lex_cons rfl (lexWord_append (.bool false) ['a', 'l', 's', 'e'] rest)

lemma lex_mark {c : Char} {t : Token} (hc : isSpace c = false) (ht : punctuation? c = some t)
    (rest : List Char) : lex (c :: rest) = t :: lex rest :=
  lex_cons hc (by simp [lexToken, ht])

/-! ### Numbers -/

lemma spanDigits_textOfDigits (ds : List Digit) {s : List Char}
    (hs : ∀ c ∈ s.head?, Digit.ofChar? c = none) : spanDigits (textOfDigits ds ++ s) = (ds, s) := by
  induction ds with
  | nil =>
    cases s with
    | nil => rfl
    | cons c s =>
      have hc : Digit.ofChar? c = none := hs c rfl
      simp [textOfDigits, spanDigits, hc]
  | cons d ds ih =>
    rw [textOfDigits, List.map_cons, List.cons_append, spanDigits, Digit.ofChar?_toChar]
    exact congrArg (fun p => (d :: p.1, p.2)) ih

lemma Ends.noDigit {s : List Char} (h : Ends s) : ∀ c ∈ s.head?, Digit.ofChar? c = none :=
  fun c hc => (h c hc).noDigit

lemma lexPower_digits (negative : Bool) (whole fraction : List Digit) (below : Bool)
    {ds : List Digit} (hds : ds ≠ []) {rest : List Char} (h : Ends rest) :
    lexPower negative whole fraction below (textOfDigits ds ++ rest) =
      .next (.number ⟨negative, whole, fraction,
        some (if below then -(ofDigits ds : Int) else ofDigits ds)⟩) rest := by
  rw [lexPower, spanDigits_textOfDigits _ h.noDigit]
  split
  · rename_i heq
    exact absurd (congrArg Prod.fst heq) hds
  · rename_i heq
    cases heq
    rfl

lemma textOfDigits_ne {ds : List Digit} {rest : List Char} {c : Char}
    (hc : Digit.ofChar? c = none) (hds : ds ≠ []) : ∀ s, textOfDigits ds ++ rest ≠ c :: s := by
  intro s hs
  cases ds with
  | nil => exact hds rfl
  | cons d ds =>
    have hd : d.toChar = c := (List.cons.inj hs).1
    rw [← hd, Digit.ofChar?_toChar] at hc
    cases hc

/-- The power of ten that is written. -/
lemma powerText (power : Option Int) :
    PowerText ((power.map Numeral.powerText).getD []) power := by
  cases power with
  | none => exact .none
  | some p =>
    simp only [Option.map_some, Option.getD_some, Numeral.powerText]
    by_cases hp : p < 0
    · have h := PowerText.minus (.inl rfl) (digitsOf_ne_nil p.natAbs)
      rw [ofDigits_digitsOf, show -(p.natAbs : Int) = p by omega] at h
      rwa [if_pos hp]
    · have h := PowerText.plus (.inl rfl) (digitsOf_ne_nil p.natAbs)
      rw [ofDigits_digitsOf, show (p.natAbs : Int) = p by omega] at h
      rwa [if_neg hp]

variable {power : List Char} {p : Option Int} {rest : List Char}

lemma lexExponent_power (negative : Bool) (whole fraction : List Digit) (hp : PowerText power p)
    (h : Ends rest) :
    lexExponent negative whole fraction (power ++ rest) =
      .next (.number ⟨negative, whole, fraction, p⟩) rest := by
  cases hp with
  | none =>
    cases rest with
    | nil => rfl
    | cons c rest =>
      have hc : ¬(c = 'e' ∨ c = 'E') := (h c rfl).noPower
      simp [lexExponent, hc]
  | unsigned he hds =>
    simp only [List.cons_append, lexExponent, if_pos he]
    split
    · rename_i heq
      exact absurd heq (textOfDigits_ne rfl hds _)
    · rename_i heq
      exact absurd heq (textOfDigits_ne rfl hds _)
    · exact lexPower_digits _ _ _ false hds h
  | plus he hds =>
    simp only [List.cons_append, lexExponent, if_pos he]
    exact lexPower_digits _ _ _ false hds h
  | minus he hds =>
    simp only [List.cons_append, lexExponent, if_pos he]
    exact lexPower_digits _ _ _ true hds h

lemma PowerText.head (hp : PowerText power p) : ∀ c ∈ power.head?, c = 'e' ∨ c = 'E' := by
  cases hp <;> simp_all

/-- Neither do the digits before a power of ten go on in it, nor has it a point. -/
lemma head_power (hp : PowerText power p) (h : Ends rest) :
    ∀ c ∈ (power ++ rest).head?, Digit.ofChar? c = none ∧ c ≠ '.' := by
  intro c hc
  cases power with
  | nil => exact ⟨(h c hc).noDigit, (h c hc).noPoint⟩
  | cons e power =>
    have hc : e = c := by simpa using hc
    rcases hp.head c (by simp [hc]) with rfl | rfl <;> exact ⟨rfl, by decide⟩

lemma lexFraction_fraction (negative : Bool) (whole fraction : List Digit)
    (hp : PowerText power p) (h : Ends rest) :
    lexFraction negative whole (fractionText fraction ++ (power ++ rest)) =
      .next (.number ⟨negative, whole, fraction, p⟩) rest := by
  cases fraction with
  | nil =>
    have hpoint : ∀ s, power ++ rest ≠ '.' :: s := fun s hs =>
      (head_power hp h '.' (by rw [hs]; rfl)).2 rfl
    rw [fractionText, List.isEmpty_nil, if_pos rfl, List.nil_append, lexFraction]
    · exact lexExponent_power _ _ _ hp h
    · exact hpoint
  | cons d ds =>
    simp only [fractionText, List.isEmpty_cons, Bool.false_eq_true, if_false, List.cons_append,
      lexFraction, spanDigits_textOfDigits _ fun c hc => (head_power hp h c hc).1]
    exact lexExponent_power _ _ _ hp h

lemma noDigit_fraction (fraction : List Digit) (hp : PowerText power p) (h : Ends rest) :
    ∀ c ∈ (fractionText fraction ++ (power ++ rest)).head?, Digit.ofChar? c = none := by
  cases fraction with
  | nil => exact fun c hc => (head_power hp h c hc).1
  | cons d ds =>
    intro c hc
    cases hc
    decide

/-- A numeral after its sign. -/
lemma lexNumber_text {n : Numeral} (hn : n.Plain) (hp : PowerText power n.power) (h : Ends rest) :
    lexNumber n.negative (textOfDigits n.whole ++ (fractionText n.fraction ++ (power ++ rest))) =
      .next (.number n) rest := by
  rw [lexNumber, spanDigits_textOfDigits _ (noDigit_fraction _ hp h)]
  split
  · rename_i heq
    exact absurd (congrArg Prod.fst heq) hn.whole
  · rename_i heq
    exact absurd (hn.lead _ (congrArg Prod.fst heq)) (List.cons_ne_nil _ _)
  · rename_i heq
    cases heq
    exact lexFraction_fraction _ _ _ hp h

lemma lexToken_digit (d : Digit) (s : List Char) :
    isSpace d.toChar = false ∧ lexToken d.toChar s = lexNumber false (d.toChar :: s) := by
  obtain ⟨n, hn⟩ := d
  interval_cases n <;> exact ⟨rfl, rfl⟩

lemma lexes_number {n : Numeral} (hn : n.Plain) (hp : PowerText power n.power) :
    Lexes ((if n.negative then ['-'] else []) ++
      (textOfDigits n.whole ++ (fractionText n.fraction ++ power))) [.number n] := by
  intro rest h
  have hnum := lexNumber_text hn hp h
  cases hneg : n.negative with
  | true =>
    rw [hneg] at hnum
    simp only [if_true, List.append_assoc, List.cons_append]
    exact lex_cons rfl hnum
  | false =>
    rw [hneg] at hnum
    cases hw : n.whole with
    | nil => exact absurd hw hn.whole
    | cons d ds =>
      obtain ⟨hspace, hd⟩ := lexToken_digit d
        (textOfDigits ds ++ (fractionText n.fraction ++ (power ++ rest)))
      rw [hw] at hnum
      simp only [Bool.false_eq_true, if_false, List.nil_append, List.append_assoc]
      exact lex_cons hspace (hd.trans hnum)

lemma lexes_numeral {n : Numeral} (hn : n.Plain) : Lexes n.text [.number n] := by
  have h := lexes_number hn (powerText n.power)
  rwa [← List.append_assoc, ← List.append_assoc] at h

/-! ### Strings -/

/-- How a character is read again: a control without a letter of its own as a unit. -/
def pieceOf (c : Char) : Piece :=
  if isControl c ∧ c.toNat ≠ 8 ∧ c ≠ '\t' ∧ c ≠ '\n' ∧ c.toNat ≠ 12 ∧ c ≠ '\r' then .unit c.toNat
  else .plain c

lemma hexDigit?_hexChar {n : Nat} (h : n < 16) : hexDigit? (hexChar n) = some n := by
  interval_cases n <;> rfl

lemma scanString_piece {x : List Char} {p : Piece} (h : PieceText x p) (s : List Char) :
    scanString (x ++ s) = (scanString s).push p := by
  cases h with
  | plain hquote hback hcontrol =>
    rw [List.singleton_append, scanString, if_neg (by simp [hcontrol])]
    · exact hquote
    all_goals
      intros
      simp_all
  | @escape c p h =>
    have hu : c ≠ 'u' := by
      rintro rfl
      cases h
    simp only [List.cons_append, List.nil_append]
    rw [scanString]
    · simp only [h]
    all_goals
      intros
      simp_all
  | unit h => simp only [List.cons_append, List.nil_append, scanString, h]

lemma pieceText_escapeChar (c : Char) : PieceText (escapeChar c) (pieceOf c) := by
  have hofNat {n : Nat} (h : c.toNat = n) : c = Char.ofNat n := h ▸ (Char.ofNat_toNat c).symm
  unfold escapeChar
  split
  · rename_i h; subst h; exact .escape rfl
  split
  · rename_i h; subst h; exact .escape rfl
  split
  · rename_i h; rw [hofNat h]; exact .escape rfl
  split
  · rename_i h; subst h; exact .escape rfl
  split
  · rename_i h; subst h; exact .escape rfl
  split
  · rename_i h; rw [hofNat h]; exact .escape rfl
  split
  · rename_i h; subst h; exact .escape rfl
  rename_i hquote hback h8 htab hnewline h12 hreturn
  split
  · rename_i hcontrol
    have hlt : c.toNat < 32 := by simpa [isControl] using hcontrol
    have hunit : hexUnit? '0' '0' (hexChar (c.toNat / 16)) (hexChar (c.toNat % 16)) =
        some c.toNat := by
      have h0 : hexDigit? '0' = some 0 := rfl
      simp [hexUnit?, h0, hexDigit?_hexChar (show c.toNat / 16 < 16 by omega),
        hexDigit?_hexChar (show c.toNat % 16 < 16 by omega)]
      omega
    have hpiece : pieceOf c = .unit c.toNat := by
      simp [pieceOf, hcontrol, h8, htab, hnewline, h12, hreturn]
    rw [hpiece]
    exact .unit hunit
  · rename_i hcontrol
    have hpiece : pieceOf c = .plain c := by simp [pieceOf, hcontrol]
    rw [hpiece]
    exact .plain hquote hback (by simpa using hcontrol)

lemma scanString_escapeChar (c : Char) (s : List Char) :
    scanString (escapeChar c ++ s) = (scanString s).push (pieceOf c) :=
  scanString_piece (pieceText_escapeChar c) s

/-- The text of a string up to its closing quote is read again piece by piece. -/
lemma scanString_pieces {s : List Char} {ps : List Piece} (h : PiecesText s ps)
    (rest : List Char) : scanString (s ++ '"' :: rest) = ⟨ps, .ok rest⟩ := by
  induction h with
  | nil => rfl
  | cons h _ ih =>
    rw [List.append_assoc, scanString_piece h, ih]
    rfl

lemma piecesText_escaped (cs : List Char) :
    PiecesText (cs.flatMap escapeChar) (cs.map pieceOf) := by
  induction cs with
  | nil => exact .nil
  | cons c cs ih => exact .cons (pieceText_escapeChar c) ih

/-- No control is half of a surrogate pair, so every piece is a character by itself. -/
lemma joinPieces_cons (atEnd : Break) (c : Char) (ps : List Piece) :
    joinPieces atEnd (pieceOf c :: ps) = (c :: ·) <$> joinPieces atEnd ps := by
  unfold pieceOf
  split
  · rename_i h
    have hlt : c.toNat < 32 := by simpa [isControl] using h.1
    have hlow : isLowHalf c.toNat = false := by simp [isLowHalf]; omega
    have hhigh : isHighHalf c.toNat = false := by simp [isHighHalf]; omega
    rw [joinPieces.eq_def]
    simp only [hlow, hhigh, Bool.false_eq_true, if_false, Char.ofNat_toNat]
  · rfl

lemma joinPieces_map (atEnd : Break) (cs : List Char) :
    joinPieces atEnd (cs.map pieceOf) = .ok cs := by
  induction cs with
  | nil => rfl
  | cons c cs ih =>
    rw [List.map_cons, joinPieces_cons, ih]
    rfl

lemma lexes_quoted {s : List Char} {ps : List Piece} (h : PiecesText s ps) :
    Lexes ('"' :: (s ++ ['"'])) [.string (contentOf ps)] := by
  intro rest _
  have hlex : lexString (s ++ '"' :: rest) = .next (.string (contentOf ps)) rest := by
    simp [lexString, scanString_pieces h, contentOf]
  rw [List.cons_append, List.append_assoc, List.singleton_append]
  exact lex_cons rfl hlex

lemma contentOf_map (cs : List Char) : contentOf (cs.map pieceOf) = some (String.ofList cs) := by
  rw [contentOf, joinPieces_map]
  rfl

lemma lexes_string (s : String) : Lexes (stringText s) [.string (some s)] := by
  have h := lexes_quoted (piecesText_escaped s.toList)
  rwa [contentOf_map, String.ofList_toList] at h

/-! ### Tokens -/

/-- **A token lexes back** however it is written. -/
theorem lexes_token {t : Token} {x : List Char} (h : t.Text x) : Lexes x [t] := by
  cases h with
  | nullWord => exact lexes_null
  | trueWord => exact lexes_true
  | falseWord => exact lexes_false
  | number hn hp => exact lexes_number hn hp
  | string h => exact lexes_quoted h
  | _ => exact fun rest _ => lex_mark rfl rfl rest

/-! ### Texts put together -/

lemma lexes_commaSeparated {ss : List (List Char)} {tss : List (List Token)}
    (h : List.Forall₂ Lexes ss tss) : Lexes (commaSeparated ss) (commaTokens tss) := by
  induction h with
  | nil => exact fun rest _ => rfl
  | @cons s ts ss tss hs htail ih =>
    intro rest hrest
    cases htail with
    | nil => simpa [commaSeparated, commaTokens] using hs rest hrest
    | @cons s' ts' ss tss hs' htail =>
      have hcomma : Ends (',' :: (commaSeparated (s' :: ss) ++ rest)) :=
        ends_cons ⟨rfl, by decide, by decide⟩
      have htokens : commaTokens (ts :: ts' :: tss) = ts ++ .comma :: commaTokens (ts' :: tss) := by
        simp [commaTokens]
      rw [commaSeparated, List.append_assoc, List.cons_append, hs _ hcomma, lex_mark rfl rfl,
        ih rest hrest, htokens, List.append_assoc, List.cons_append]
      simp

/-- Brackets around a text that lexes. -/
lemma Lexes.enclosed {first last : Char} {opening closing : Token} {s : List Char}
    {ts : List Token} (h : Lexes s ts) (hopening : punctuation? first = some opening)
    (hclosing : punctuation? last = some closing)
    (hfirst : isSpace first = false) (hlast : isSpace last = false) (hapart : Apart last) :
    Lexes (first :: s ++ [last]) (opening :: ts ++ [closing]) := by
  intro rest hrest
  simp only [List.cons_append, List.append_assoc, List.nil_append]
  rw [lex_mark hfirst hopening, h _ (ends_cons hapart), lex_mark hlast hclosing]

/-- A name and a colon before a text that lexes. -/
lemma Lexes.member {s : List Char} {ts : List Token} (h : Lexes s ts) (name : String) :
    Lexes (stringText name ++ ':' :: s) (.string (some name) :: .colon :: ts) := by
  intro rest hrest
  have hcolon : Ends (':' :: (s ++ rest)) := ends_cons ⟨rfl, by decide, by decide⟩
  rw [List.append_assoc, List.cons_append, lexes_string name _ hcolon, lex_mark rfl rfl,
    h rest hrest]
  rfl

end Tipping.Json
