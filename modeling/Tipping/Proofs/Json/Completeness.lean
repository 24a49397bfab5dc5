import Tipping.Proofs.Json.Printing

/-!
Every text of the grammar is read, as the tree that it is the text of.

Where one token ends and the next begins is no question, since between two tokens that could run
into each other there is always a mark.
-/

namespace Tipping.Json

/-- However these tokens are spelled, they lex back. -/
def AlwaysLex (ts : List Token) : Prop := ∀ s, Spelled s ts → Lexes s ts

def Token.isMark : Token → Bool
  | openArray | closeArray | openObject | closeObject | comma | colon => true
  | _ => false

/-- A mark is one character. -/
lemma Token.Text.of_isMark {t : Token} {x : List Char} (h : t.Text x) (ht : t.isMark = true) :
    ∃ c, x = [c] ∧ isSpace c = false ∧ punctuation? c = some t ∧ Apart c := by
  cases h with
  | openArray | closeArray | openObject | closeObject | comma | colon =>
    exact ⟨_, rfl, rfl, rfl, rfl, by decide, by decide⟩
  | _ => cases ht

namespace Spelled

/-- The spelling of tokens is that of some and then that of the others. -/
lemma split {s : List Char} {ts us : List Token} (h : Spelled s (ts ++ us)) :
    ∃ s₁ s₂, s = s₁ ++ s₂ ∧ Spelled s₁ ts ∧ Spelled s₂ us := by
  induction ts generalizing s with
  | nil => exact ⟨[], s, rfl, .blanks (by simp [Blanks]), h⟩
  | cons t ts ih =>
    cases h with
    | @token b x _ _ _ hb hx hs =>
      obtain ⟨s₁, s₂, rfl, h₁, h₂⟩ := ih hs
      exact ⟨b ++ (x ++ s₁), s₂, by simp, .token hb hx h₁, h₂⟩

/-- No number goes on in the spelling of tokens that begin with a mark, or in that of none. -/
lemma ends {s : List Char} {ts : List Token} (h : Spelled s ts)
    (hmark : ∀ t ∈ ts.head?, t.isMark = true) {rest : List Char} (hrest : Ends rest) :
    Ends (s ++ rest) := by
  cases h with
  | blanks h => exact h.ends hrest
  | @token b x s t ts hb hx hs =>
    obtain ⟨c, rfl, -, -, hc⟩ := hx.of_isMark (hmark t rfl)
    simpa using hb.ends (s := c :: (s ++ rest)) (ends_cons hc)

end Spelled

namespace AlwaysLex

variable {t : Token} {ts us : List Token}

lemma nil : AlwaysLex [] := by
  intro s h rest _
  cases h with
  | blanks h => exact h.lex rest

lemma token (t : Token) : AlwaysLex [t] := by
  intro s h
  cases h with
  | token hb hx hs =>
    cases hs with
    | blanks hs => simpa using (lexes_token hx).padded hb hs

/-- A mark is one whatever follows it. -/
lemma mark (ht : t.isMark = true) (h : AlwaysLex ts) : AlwaysLex (t :: ts) := by
  intro s hs rest hrest
  cases hs with
  | @token b x s _ _ hb hx hs =>
    obtain ⟨c, rfl, hspace, hpunctuation, -⟩ := hx.of_isMark ht
    rw [List.append_assoc, List.append_assoc, hb.lex, List.singleton_append,
      lex_mark hspace hpunctuation, h s hs rest hrest, List.cons_append]

lemma append (h : AlwaysLex ts) (h' : AlwaysLex us) (hmark : ∀ t ∈ us.head?, t.isMark = true) :
    AlwaysLex (ts ++ us) := by
  intro s hs rest hrest
  obtain ⟨s₁, s₂, rfl, h₁, h₂⟩ := hs.split
  rw [List.append_assoc, h s₁ h₁ _ (h₂.ends hmark hrest), h' s₂ h₂ rest hrest, List.append_assoc]

lemma commas {tss : List (List Token)} (h : ∀ ts ∈ tss, AlwaysLex ts) :
    AlwaysLex (tss.flatMap (.comma :: ·)) := by
  induction tss with
  | nil => exact nil
  | cons ts tss ih =>
    rw [List.forall_mem_cons] at h
    rw [List.flatMap_cons]
    refine (mark rfl h.1).append (ih h.2) ?_
    cases tss <;> simp [Token.isMark]

lemma commaTokens {tss : List (List Token)} (h : ∀ ts ∈ tss, AlwaysLex ts) :
    AlwaysLex (commaTokens tss) := by
  cases tss with
  | nil => exact nil
  | cons ts tss =>
    rw [List.forall_mem_cons] at h
    refine h.1.append (commas h.2) ?_
    cases tss <;> simp [Token.isMark]

lemma enclosed {opening closing : Token} (ho : opening.isMark = true)
    (hc : closing.isMark = true) (h : AlwaysLex ts) :
    AlwaysLex (opening :: ts ++ [closing]) :=
  (mark ho h).append (token closing) (by simpa using hc)

end AlwaysLex

namespace ParseTree

mutual

theorem alwaysLex : ∀ {t : ParseTree}, t.Unbroken → AlwaysLex t.tokens
  | null, _ => .token _
  | bool _, _ => .token _
  | number _, _ => .token _
  | string _, _ => .token _
  | array _ _, h => .enclosed rfl rfl (.commaTokens (alwaysLexItems h.1))
  | object _ _, h => .enclosed rfl rfl (.commaTokens (alwaysLexMembers h.1))

theorem alwaysLexItems : ∀ {ts : List ParseTree}, UnbrokenItems ts →
    ∀ tokens ∈ itemTokens ts, AlwaysLex tokens
  | [], _ => nofun
  | _ :: _, h => List.forall_mem_cons.mpr ⟨alwaysLex h.1, alwaysLexItems h.2⟩

theorem alwaysLexMembers : ∀ {ms : List (Option String × ParseTree)}, UnbrokenMembers ms →
    ∀ tokens ∈ memberTokens ms, AlwaysLex tokens
  | [], _ => nofun
  | _ :: _, h => List.forall_mem_cons.mpr
    ⟨AlwaysLex.append (.token _) (.mark rfl (alwaysLex h.1)) (by simp [Token.isMark]),
      alwaysLexMembers h.2⟩

end

/-- **What the grammar says is what is read.** A text of JSON gives the tree of its value, and
nothing follows it. -/
theorem TextOf.ofText {t : ParseTree} {s : List Char} (h : t.TextOf s) : ofText s = (t, false) := by
  have hlex := alwaysLex h.unbroken s h.spelled [] ends_nil
  have hgrow := grow_tokens h.unbroken [] []
  rw [List.append_nil, lex, List.append_nil] at hlex
  rw [List.append_nil] at hgrow
  rw [ParseTree.ofText, hlex, hgrow]
  rfl

end ParseTree

end Tipping.Json
