import Tipping.Proofs.Json.Completeness

/-!
Only texts of the grammar are read.

Each part of the lexer takes off the front of a text what is written there, and says what it was.
Where no token is broken, the tokens spell the text; and where no container is left open, they are
the tokens of the tree that grows from them.
-/

namespace Tipping.Json

/-! ### Numbers -/

lemma toChar_of_ofChar? {c : Char} {d : Digit} (h : Digit.ofChar? c = some d) : d.toChar = c := by
  unfold Digit.ofChar? at h
  split at h
  · rename_i hc
    cases h
    have hval : 48 + (c.toNat - 48) = c.toNat := by omega
    rw [Digit.toChar, hval, Char.ofNat_toNat]
  · cases h

lemma spanDigits_append (s : List Char) :
    s = textOfDigits (spanDigits s).1 ++ (spanDigits s).2 := by
  induction s with
  | nil => rfl
  | cons c s ih =>
    rw [spanDigits]
    split
    · rename_i d hd
      simp only [textOfDigits, List.map_cons, List.cons_append, toChar_of_ofChar? hd]
      exact congrArg (c :: ·) ih
    · rfl

lemma noDigits_ne_next {s rest : List Char} {t : Token} : noDigits s ≠ .next t rest := by
  unfold noDigits
  split <;> nofun

section Numbers

variable {negative : Bool} {whole fraction : List Digit} {s rest : List Char} {t : Token}

lemma lexPower_sound {below : Bool} (h : lexPower negative whole fraction below s = .next t rest) :
    ∃ ds, ds ≠ [] ∧ s = textOfDigits ds ++ rest ∧ t = .number ⟨negative, whole, fraction,
      some (if below then -(ofDigits ds : Int) else ofDigits ds)⟩ := by
  have hs := spanDigits_append s
  unfold lexPower at h
  split at h
  · exact absurd h noDigits_ne_next
  · rename_i ds s' hne hspan
    cases h
    rw [hspan] at hs
    exact ⟨ds, fun h0 => hne (by rw [h0]), hs, rfl⟩

lemma lexExponent_sound (h : lexExponent negative whole fraction s = .next t rest) :
    ∃ power p, PowerText power p ∧ s = power ++ rest ∧
      t = .number ⟨negative, whole, fraction, p⟩ := by
  cases s with
  | nil =>
    cases h
    exact ⟨[], none, .none, rfl, rfl⟩
  | cons c s =>
    simp only [lexExponent] at h
    split at h
    · rename_i hc
      split at h
      · obtain ⟨ds, hds, rfl, rfl⟩ := lexPower_sound h
        exact ⟨_, _, .plus hc hds, rfl, rfl⟩
      · obtain ⟨ds, hds, rfl, rfl⟩ := lexPower_sound h
        exact ⟨_, _, .minus hc hds, rfl, rfl⟩
      · obtain ⟨ds, hds, rfl, rfl⟩ := lexPower_sound h
        exact ⟨_, _, .unsigned hc hds, rfl, rfl⟩
    · cases h
      exact ⟨[], none, .none, rfl, rfl⟩

lemma lexFraction_sound (h : lexFraction negative whole s = .next t rest) :
    ∃ fraction power p, PowerText power p ∧ s = fractionText fraction ++ (power ++ rest) ∧
      t = .number ⟨negative, whole, fraction, p⟩ := by
  unfold lexFraction at h
  split at h
  · rename_i s
    have hs := spanDigits_append s
    split at h
    · exact absurd h noDigits_ne_next
    · rename_i ds s' hne hspan
      obtain ⟨power, p, hp, rfl, rfl⟩ := lexExponent_sound h
      rw [hspan] at hs
      have hds : ds.isEmpty = false := by
        cases ds with
        | nil => exact absurd rfl hne
        | cons d ds => rfl
      exact ⟨ds, power, p, hp, by simp [fractionText, hds, ← hs], rfl⟩
  · obtain ⟨power, p, hp, rfl, rfl⟩ := lexExponent_sound h
    exact ⟨[], power, p, hp, rfl, rfl⟩

lemma lexNumber_sound (h : lexNumber negative s = .next t rest) :
    ∃ (n : Numeral) (power : List Char), n.negative = negative ∧ n.Plain ∧
      PowerText power n.power ∧
      s = textOfDigits n.whole ++ (fractionText n.fraction ++ (power ++ rest)) ∧
      t = .number n := by
  have hs := spanDigits_append s
  unfold lexNumber at h
  split at h
  · exact absurd h noDigits_ne_next
  · cases h
  · rename_i ds s' hne hlead hspan
    obtain ⟨fraction, power, p, hp, rfl, rfl⟩ := lexFraction_sound h
    rw [hspan] at hs
    refine ⟨⟨negative, ds, fraction, p⟩, power, rfl, ⟨hne, ?_⟩, hp, hs, rfl⟩
    rintro ds' rfl
    cases ds' with
    | nil => rfl
    | cons d ds' => exact absurd rfl (hlead d ds')

end Numbers

/-! ### Words and strings -/

lemma lexWord_sound {t t' : Token} {ws s rest : List Char} (h : lexWord t ws s = .next t' rest) :
    t' = t ∧ s = ws ++ rest := by
  induction ws generalizing s with
  | nil =>
    cases s <;> cases h <;> exact ⟨rfl, rfl⟩
  | cons w ws ih =>
    cases s with
    | nil => cases h
    | cons c s =>
      rw [lexWord] at h
      split at h
      · rename_i hc
        obtain ⟨rfl, rfl⟩ := ih h
        exact ⟨rfl, by rw [hc]; rfl⟩
      · cases h

lemma scanString_sound (s : List Char) {rest : List Char}
    (h : (scanString s).outcome = .ok rest) :
    ∃ x, PiecesText x (scanString s).pieces ∧ s = x ++ '"' :: rest := by
  fun_induction scanString s with
  | case1 => cases h
  | case2 s =>
    cases h
    exact ⟨[], .nil, rfl⟩
  | case3 a b c d s u hu ih =>
    obtain ⟨x, hx, rfl⟩ := ih h
    exact ⟨_, .cons (.unit hu) hx, by simp⟩
  | case4 => cases h
  | case5 => cases h
  | case6 c s _ _ p hp ih =>
    obtain ⟨x, hx, rfl⟩ := ih h
    exact ⟨_, .cons (.escape hp) hx, by simp⟩
  | case7 => cases h
  | case8 => cases h
  | case9 => cases h
  | case10 c s hquote hunit hshort hescape hend hcontrol ih =>
    obtain ⟨x, hx, hs⟩ := ih h
    have hback : c ≠ '\\' := by
      intro hc
      cases s with
      | nil => exact hend hc rfl
      | cons c' s => exact hescape c' s hc rfl
    exact ⟨c :: x, .cons (.plain hquote hback (by simpa using hcontrol)) hx, by rw [hs]; rfl⟩

lemma lexString_sound {s rest : List Char} {t : Token} (h : lexString s = .next t rest) :
    ∃ x ps, PiecesText x ps ∧ s = x ++ '"' :: rest ∧ t = .string (contentOf ps) := by
  simp only [lexString] at h
  split at h
  · rename_i rest' hscan
    cases h
    obtain ⟨x, hx, hs⟩ := scanString_sound s hscan
    exact ⟨x, _, hx, hs, rfl⟩
  · split at h <;> cases h

/-! ### Tokens -/

lemma text_of_punctuation? {c : Char} {t : Token} (h : punctuation? c = some t) :
    t.Text [c] := by
  have hofNat {n : Nat} (h : c.toNat = n) : c = Char.ofNat n := h ▸ (Char.ofNat_toNat c).symm
  unfold punctuation? at h
  split_ifs at h with h₁ h₂ h₃ h₄ h₅ h₆ <;> cases h
  · exact h₁ ▸ .openArray
  · exact h₂ ▸ .closeArray
  · exact hofNat h₃ ▸ .openObject
  · exact hofNat h₄ ▸ .closeObject
  · exact h₅ ▸ .comma
  · exact h₆ ▸ .colon

lemma lexToken_sound {c : Char} {s rest : List Char} {t : Token}
    (h : lexToken c s = .next t rest) : ∃ x, t.Text x ∧ c :: s = x ++ rest := by
  unfold lexToken at h
  split at h
  · rename_i hmark
    cases h
    exact ⟨[c], text_of_punctuation? hmark, rfl⟩
  split at h
  · rename_i hc
    obtain ⟨x, ps, hx, rfl, rfl⟩ := lexString_sound h
    exact ⟨_, .string hx, by simp [hc]⟩
  split at h
  · rename_i hc
    obtain ⟨rfl, rfl⟩ := lexWord_sound h
    exact ⟨_, .nullWord, by rw [hc]; rfl⟩
  split at h
  · rename_i hc
    obtain ⟨rfl, rfl⟩ := lexWord_sound h
    exact ⟨_, .trueWord, by rw [hc]; rfl⟩
  split at h
  · rename_i hc
    obtain ⟨rfl, rfl⟩ := lexWord_sound h
    exact ⟨_, .falseWord, by rw [hc]; rfl⟩
  split at h
  · rename_i hc
    obtain ⟨n, power, hneg, hn, hp, rfl, rfl⟩ := lexNumber_sound h
    exact ⟨_, .number hn hp, by simp [hc, hneg]⟩
  split at h
  · obtain ⟨n, power, hneg, hn, hp, hs, rfl⟩ := lexNumber_sound h
    exact ⟨_, .number hn hp, by simp [hs, hneg]⟩
  · cases h

def Token.isBroken : Token → Bool
  | broken _ | brokenString _ => true
  | _ => false

/-- What does not end the text well is broken. -/
def Lexeme.Breaks : Lexeme → Prop
  | .next _ _ => True
  | .last t => t.isBroken = true

lemma breaks_noDigits (s : List Char) : (noDigits s).Breaks := by
  unfold noDigits
  split <;> rfl

lemma breaks_lexPower (negative : Bool) (whole fraction : List Digit) (below : Bool)
    (s : List Char) : (lexPower negative whole fraction below s).Breaks := by
  unfold lexPower
  split
  · exact breaks_noDigits _
  · trivial

lemma breaks_lexExponent (negative : Bool) (whole fraction : List Digit) (s : List Char) :
    (lexExponent negative whole fraction s).Breaks := by
  cases s with
  | nil => trivial
  | cons c s =>
    simp only [lexExponent]
    split
    · split <;> exact breaks_lexPower ..
    · trivial

lemma breaks_lexNumber (negative : Bool) (s : List Char) : (lexNumber negative s).Breaks := by
  unfold lexNumber
  split
  · exact breaks_noDigits _
  · rfl
  · unfold lexFraction
    split
    · split
      · exact breaks_noDigits _
      · exact breaks_lexExponent ..
    · exact breaks_lexExponent ..

lemma breaks_lexWord (t : Token) (ws s : List Char) : (lexWord t ws s).Breaks := by
  induction ws generalizing s with
  | nil => cases s <;> trivial
  | cons w ws ih =>
    cases s with
    | nil => rfl
    | cons c s =>
      rw [lexWord]
      split
      · exact ih s
      · rfl

lemma breaks_lexString (s : List Char) : (lexString s).Breaks := by
  simp only [lexString]
  split
  · trivial
  · split <;> rfl

lemma breaks_lexToken (c : Char) (s : List Char) : (lexToken c s).Breaks := by
  unfold lexToken
  split
  · trivial
  split
  · exact breaks_lexString s
  split
  · exact breaks_lexWord ..
  split
  · exact breaks_lexWord ..
  split
  · exact breaks_lexWord ..
  split
  · exact breaks_lexNumber ..
  split
  · exact breaks_lexNumber ..
  · rfl

/-- Tokens spell the text that they were read from, unless it breaks. -/
theorem spelled_lex (s : List Char) (h : ∀ t ∈ lex s, t.isBroken = false) : Spelled s (lex s) := by
  fun_induction lex s with
  | case1 => exact .blanks (by simp [Blanks])
  | case2 c s hc ih =>
    have hs := ih h
    generalize lex s = ts at hs
    have hblank : Blanks [c] := by simpa [Blanks] using hc
    cases hs with
    | blanks hs => exact .blanks (List.forall_mem_cons.mpr ⟨hc, hs⟩)
    | @token b x s t ts hb hx hs =>
      exact .token (b := c :: b) (List.forall_mem_cons.mpr ⟨hc, hb⟩) hx hs
  | case3 c s _ t hlex =>
    have hbreaks := breaks_lexToken c s
    rw [hlex] at hbreaks
    cases (h t List.mem_cons_self).symm.trans hbreaks
  | case4 c s _ t rest hlex ih =>
    obtain ⟨x, hx, hs⟩ := lexToken_sound hlex
    have hrest := ih fun t ht => h t (List.mem_cons_of_mem _ ht)
    rw [hs]
    exact .token (b := []) (by simp [Blanks]) hx hrest

/-! ### Trees -/

namespace ParseTree

lemma skip_breakOff {t : ParseTree} (h : t.skip ≠ none) (cut : Cut) (frames : List Frame) :
    (breakOff cut t frames).skip ≠ none := by
  induction frames generalizing t with
  | nil => exact h
  | cons f frames ih => exact ih (by cases f <;> simp [Frame.plug, skip])

/-- Where something breaks off inside a container, the container is left open. -/
lemma skip_breakOff_cons (cut : Cut) (t : ParseTree) (f : Frame) (frames : List Frame) :
    (breakOff cut t (f :: frames)).skip ≠ none :=
  skip_breakOff (by cases f <;> simp [Frame.plug, skip]) cut frames

lemma skip_cutOff (cut : Cut) (frames : List Frame) : (cutOff cut frames).skip ≠ none :=
  skip_breakOff (by simp [skip]) cut frames

/-- If nothing breaks, the tokens begin with those of a value where one is due. -/
def BeginsWithValue (ts : List Token) : Prop :=
  ∀ frames, (grow .value frames ts).1.skip = none →
    ∃ (t : ParseTree) (rest : List Token), t.Unbroken ∧ ts = t.tokens ++ rest

/-- If nothing breaks, the tokens begin with those of further items and a bracket. -/
def BeginsWithItems (ts : List Token) : Prop :=
  ∀ t before frames, (grow (.after t) (.array before :: frames) ts).1.skip = none →
    ∃ items rest, UnbrokenItems items ∧
      ts = (itemTokens items).flatMap (.comma :: ·) ++ .closeArray :: rest

def BeginsWithMembers (ts : List Token) : Prop :=
  ∀ t before name frames, (grow (.after t) (.object before name :: frames) ts).1.skip = none →
    ∃ ms rest, UnbrokenMembers ms ∧
      ts = (memberTokens ms).flatMap (.comma :: ·) ++ .closeObject :: rest

/-- If nothing breaks where a name is due, the tokens begin with one and a colon. -/
lemma grow_name_cases {before : List (Option String × ParseTree)} {frames : List Frame}
    {ts : List Token} (h : (grow (.name before) frames ts).1.skip = none) :
    ∃ name rest, ts = .string name :: .colon :: rest ∧
      (grow .value (.object before name :: frames) rest).1.skip = none := by
  have hopen (ts : List Token) :
      (breakOff (nameCut ts) (.object before.reverse (some (nameCut ts))) frames).skip ≠ none :=
    skip_breakOff (by simp [skip]) _ _
  cases ts with
  | nil => exact absurd h (hopen [])
  | cons t ts =>
    cases t with
    | string name =>
      cases ts with
      | nil => exact absurd h (skip_cutOff _ _)
      | cons t ts =>
        cases t with
        | colon => exact ⟨name, ts, rfl, h⟩
        | _ => exact absurd h (skip_cutOff _ _)
    | _ => exact absurd h (hopen _)

section Step

variable {n : Nat} (hvalue : ∀ ts : List Token, ts.length < n → BeginsWithValue ts)

include hvalue

lemma beginsWithItems (ts : List Token) (hts : ts.length ≤ n) : BeginsWithItems ts := by
  induction hk : ts.length using Nat.strongRecOn generalizing ts with
  | _ k ih =>
    intro t before frames h
    cases ts with
    | nil => exact absurd h (skip_breakOff_cons _ _ _ _)
    | cons token ts =>
      simp only [List.length_cons] at hk hts
      cases token with
      | comma =>
        obtain ⟨t', rest, ht', rfl⟩ := hvalue ts (by omega) _ h
        rw [grow, grow_tokens ht'] at h
        rw [List.length_append] at hk hts
        obtain ⟨items, rest', hitems, rfl⟩ := ih rest.length (by omega) rest (by omega) rfl _ _ _ h
        exact ⟨t' :: items, rest', ⟨ht', hitems⟩, by simp [itemTokens]⟩
      | closeArray => exact ⟨[], ts, trivial, rfl⟩
      | _ => exact absurd h (skip_breakOff_cons _ _ _ _)

lemma beginsWithMembers (ts : List Token) (hts : ts.length ≤ n) : BeginsWithMembers ts := by
  induction hk : ts.length using Nat.strongRecOn generalizing ts with
  | _ k ih =>
    intro t before name frames h
    cases ts with
    | nil => exact absurd h (skip_breakOff_cons _ _ _ _)
    | cons token ts =>
      simp only [List.length_cons] at hk hts
      cases token with
      | comma =>
        obtain ⟨name', us, rfl, hus⟩ := grow_name_cases h
        simp only [List.length_cons] at hk hts
        obtain ⟨t', rest, ht', rfl⟩ := hvalue us (by omega) _ hus
        rw [grow_tokens ht'] at hus
        rw [List.length_append] at hk hts
        obtain ⟨ms, rest', hms, rfl⟩ := ih rest.length (by omega) rest (by omega) rfl _ _ _ _ hus
        exact ⟨(name', t') :: ms, rest', ⟨ht', hms⟩, by simp [memberTokens]⟩
      | closeObject => exact ⟨[], ts, trivial, rfl⟩
      | _ => exact absurd h (skip_breakOff_cons _ _ _ _)

lemma beginsWithValue_array {ts : List Token} (hts : ts.length < n) :
    BeginsWithValue (.openArray :: ts) := by
  intro frames h
  by_cases hclose : ts.head? = some .closeArray
  · obtain ⟨rest, rfl⟩ := List.head?_eq_some_iff.mp hclose
    exact ⟨.array [] none, rest, ⟨trivial, rfl⟩, rfl⟩
  · rw [grow_openArray hclose] at h
    obtain ⟨t, rest, ht, rfl⟩ := hvalue ts hts _ h
    rw [grow_tokens ht] at h
    rw [List.length_append] at hts
    obtain ⟨items, rest', hitems, rfl⟩ := beginsWithItems hvalue rest (by omega) _ _ _ h
    exact ⟨.array (t :: items) none, rest', ⟨⟨ht, hitems⟩, rfl⟩,
      by simp [tokens, itemTokens, commaTokens]⟩

lemma beginsWithValue_object {ts : List Token} (hts : ts.length < n) :
    BeginsWithValue (.openObject :: ts) := by
  intro frames h
  by_cases hclose : ts.head? = some .closeObject
  · obtain ⟨rest, rfl⟩ := List.head?_eq_some_iff.mp hclose
    exact ⟨.object [] none, rest, ⟨trivial, rfl⟩, rfl⟩
  · rw [grow_openObject hclose] at h
    obtain ⟨name, us, rfl, hus⟩ := grow_name_cases h
    simp only [List.length_cons] at hts
    obtain ⟨t, rest, ht, rfl⟩ := hvalue us (by omega) _ hus
    rw [grow_tokens ht] at hus
    rw [List.length_append] at hts
    obtain ⟨ms, rest', hms, rfl⟩ := beginsWithMembers hvalue rest (by omega) _ _ _ _ hus
    exact ⟨.object ((name, t) :: ms) none, rest', ⟨⟨ht, hms⟩, rfl⟩,
      by simp [tokens, memberTokens, commaTokens]⟩

end Step

theorem beginsWithValue (ts : List Token) : BeginsWithValue ts := by
  induction hn : ts.length using Nat.strongRecOn generalizing ts with
  | _ n ih =>
    have hvalue (us : List Token) (hus : us.length < n) : BeginsWithValue us :=
      ih us.length hus us rfl
    cases ts with
    | nil => exact fun frames h => absurd h (skip_cutOff _ _)
    | cons token ts =>
      have hts : ts.length < n := by
        rw [← hn]
        exact Nat.lt_succ_self _
      cases token with
      | openArray => exact beginsWithValue_array hvalue hts
      | openObject => exact beginsWithValue_object hvalue hts
      | null => exact fun _ _ => ⟨.null, ts, trivial, rfl⟩
      | bool b => exact fun _ _ => ⟨.bool b, ts, trivial, rfl⟩
      | number n => exact fun _ _ => ⟨.number n, ts, trivial, rfl⟩
      | string content => exact fun _ _ => ⟨.string content, ts, trivial, rfl⟩
      | _ => exact fun frames h => absurd h (skip_cutOff _ _)

/-- Between brackets, and with commas between them, tokens stay sound. -/
lemma isBroken_bracketed {first last : Token} {tss : List (List Token)}
    (hfirst : first.isBroken = false) (hlast : last.isBroken = false)
    (h : ∀ ts ∈ tss, ∀ token ∈ ts, token.isBroken = false) :
    ∀ token ∈ first :: commaTokens tss ++ [last], token.isBroken = false := by
  have hcommas : ∀ token ∈ commaTokens tss, token.isBroken = false := by
    cases tss with
    | nil => nofun
    | cons ts tss =>
      obtain ⟨hts, htss⟩ := List.forall_mem_cons.mp h
      refine List.forall_mem_append.mpr ⟨hts, fun token htoken => ?_⟩
      obtain ⟨us, hus, htoken⟩ := List.mem_flatMap.mp htoken
      rcases List.mem_cons.mp htoken with rfl | htoken
      · rfl
      · exact htss us hus token htoken
  exact List.forall_mem_append.mpr
    ⟨List.forall_mem_cons.mpr ⟨hfirst, hcommas⟩, List.forall_mem_singleton.mpr hlast⟩

mutual

lemma isBroken_tokens : ∀ {t : ParseTree}, t.Unbroken → ∀ token ∈ t.tokens, token.isBroken = false
  | null, _ => by simp [tokens, Token.isBroken]
  | bool _, _ => by simp [tokens, Token.isBroken]
  | number _, _ => by simp [tokens, Token.isBroken]
  | string _, _ => by simp [tokens, Token.isBroken]
  | array _ _, h => isBroken_bracketed rfl rfl (isBroken_itemTokens h.1)
  | object _ _, h => isBroken_bracketed rfl rfl (isBroken_memberTokens h.1)

lemma isBroken_itemTokens : ∀ {items : List ParseTree}, UnbrokenItems items →
    ∀ ts ∈ itemTokens items, ∀ token ∈ ts, token.isBroken = false
  | [], _ => nofun
  | _ :: _, h => List.forall_mem_cons.mpr ⟨isBroken_tokens h.1, isBroken_itemTokens h.2⟩

lemma isBroken_memberTokens : ∀ {ms : List (Option String × ParseTree)}, UnbrokenMembers ms →
    ∀ ts ∈ memberTokens ms, ∀ token ∈ ts, token.isBroken = false
  | [], _ => nofun
  | _ :: _, h => List.forall_mem_cons.mpr
    ⟨List.forall_mem_cons.mpr ⟨rfl, List.forall_mem_cons.mpr ⟨rfl, isBroken_tokens h.1⟩⟩,
      isBroken_memberTokens h.2⟩

end

/-- **What is read is JSON**, unless something in it is broken: a text whose tree can be skipped,
with nothing after it, is a text of that tree; and these are all such texts. -/
theorem textOf_iff {t : ParseTree} {s : List Char} :
    t.TextOf s ↔ ofText s = (t, false) ∧ t.skip = none := by
  refine ⟨fun h => ⟨h.ofText, h.unbroken.skip⟩, fun ⟨hs, hskip⟩ => ?_⟩
  have hgrow : grow .value [] (lex s) = (t, false) := hs
  obtain ⟨t', rest, ht', hlex⟩ := beginsWithValue (lex s) [] (by rw [hgrow]; exact hskip)
  rw [hlex, grow_tokens ht', grow, Prod.mk.injEq] at hgrow
  obtain ⟨rfl, hrest⟩ := hgrow
  have hnil : rest = [] := by simpa using hrest
  rw [hnil, List.append_nil] at hlex
  refine ⟨ht', hlex ▸ spelled_lex s ?_⟩
  rw [hlex]
  exact isBroken_tokens ht'

lemma Whole.textOf {t : ParseTree} (h : t.Whole) : t.TextOf t.text :=
  textOf_iff.mpr ⟨ofText_text h, h.unbroken.skip⟩

end ParseTree

end Tipping.Json
