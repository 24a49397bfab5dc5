import Tipping.Proofs.Json.Cropping

/-!
The tree of a text that ends too early.

What is read of a tree up to the end of the text is the tree cut short: where the text ends a value
is broken, or a number short of digits, and all containers that are open there are left open.
-/

namespace Tipping.Json.ParseTree

mutual

/-- The text of a tree ends inside the tree. -/
inductive CutShort : ParseTree → ParseTree → Prop where
  | broken (t : ParseTree) {cut : Cut} (h : cut.kept = .truncated) : CutShort (.broken cut) t
  | number {n n' : Numeral} (h : n.Stub n') : CutShort (.number n') (.number n)
  | array {ts ts' : List ParseTree} {cut : Cut} (hcut : cut.kept = .truncated)
      (h : CutItems ts' ts) : CutShort (.array ts' (some cut)) (.array ts none)
  | object {ms ms' : List (Option String × ParseTree)} {cut : Cut} (hcut : cut.kept = .truncated)
      (h : CutMembers ms' ms) : CutShort (.object ms' (some cut)) (.object ms none)

inductive CutItems : List ParseTree → List ParseTree → Prop where
  | nil (ts : List ParseTree) : CutItems [] ts
  | due {cut : Cut} (h : cut.kept = .truncated) : CutItems [.broken cut] []
  | last {t t' : ParseTree} (h : CutShort t' t) (ts : List ParseTree) : CutItems [t'] (t :: ts)
  | cons {ts ts' : List ParseTree} (t : ParseTree) (h : CutItems ts' ts) :
      CutItems (t :: ts') (t :: ts)

inductive CutMembers :
    List (Option String × ParseTree) → List (Option String × ParseTree) → Prop where
  | nil (ms : List (Option String × ParseTree)) : CutMembers [] ms
  | last (name : Option String) {t t' : ParseTree} (h : CutShort t' t)
      (ms : List (Option String × ParseTree)) : CutMembers [(name, t')] ((name, t) :: ms)
  | cons {ms ms' : List (Option String × ParseTree)} (m : Option String × ParseTree)
      (h : CutMembers ms' ms) : CutMembers (m :: ms') (m :: ms)

end

/-- Of the tokens of a tree that is due, some and what is left of the next give the tree cut short,
and all that is open ends there. -/
def GrowsShort (t : ParseTree) : Prop :=
  ∀ (frames : List Frame) (xs : List Token), CroppedTokens xs t.tokens →
    ∃ t' cut, CutShort t' t ∧ cut.kept = .truncated ∧
      grow .value frames xs = (breakOff cut t' frames, false)

/-- The same of the items that are due in an array. -/
def ItemsGrowShort (ts : List ParseTree) : Prop :=
  ts ≠ [] → ∀ (before : List ParseTree) (frames : List Frame) (xs : List Token),
    CroppedTokens xs (commaTokens (itemTokens ts) ++ [.closeArray]) →
    ∃ ts' cut, CutItems ts' ts ∧ cut.kept = .truncated ∧
      grow .value (.array before :: frames) xs =
        (breakOff cut (.array (before.reverse ++ ts') (some cut)) frames, false)

/-- The same of the members that are due in an object. -/
def MembersGrowShort (ms : List (Option String × ParseTree)) : Prop :=
  ms ≠ [] → ∀ (before : List (Option String × ParseTree)) (frames : List Frame) (xs : List Token),
    CroppedTokens xs (commaTokens (memberTokens ms) ++ [.closeObject]) →
    ∃ ms' cut, CutMembers ms' ms ∧ cut.kept = .truncated ∧
      grow (.name before) frames xs =
        (breakOff cut (.object (before.reverse ++ ms') (some cut)) frames, false)

lemma grow_value_nil (frames : List Frame) :
    grow .value frames [] =
      (breakOff (.both .truncated) (.broken (.both .truncated)) frames, false) := rfl

lemma grow_after_nil (t : ParseTree) (frames : List Frame) :
    grow (.after t) frames [] = (breakOff (.both .truncated) t frames, false) := by
  cases frames with
  | nil => rfl
  | cons f frames => cases f <;> rfl

lemma not_croppedTokens_nil {xs : List Token} : ¬CroppedTokens xs [] := nofun

/-- Nothing is left of a bracket. -/
lemma croppedTokens_singleton {xs : List Token} {t : Token} (h : CroppedTokens xs [t])
    (ht : ∀ t', ¬t.Stub t') : xs = [] := by
  cases h with
  | nil => rfl
  | stub h => exact absurd h (ht _)
  | cons _ h => exact absurd h not_croppedTokens_nil

lemma growsShort_leaf {t : ParseTree} {token : Token} (ht : t.tokens = [token])
    (hstub : ∀ token' frames, token.Stub token' → ∃ t' cut, CutShort t' t ∧ cut.kept = .truncated ∧
      grow .value frames [token'] = (breakOff cut t' frames, false)) : GrowsShort t := by
  intro frames xs h
  rw [ht] at h
  cases h with
  | nil => exact ⟨_, _, .broken t rfl, rfl, grow_value_nil frames⟩
  | stub h => exact hstub _ frames h
  | cons _ h => exact absurd h not_croppedTokens_nil

lemma head_cropped {xs ts : List Token} {mark : Token} (h : CroppedTokens xs ts)
    (hmark : ∀ t : Token, ¬t.Stub mark) (hts : ts.head? ≠ some mark) : xs.head? ≠ some mark := by
  cases h with
  | nil => simp
  | stub h => exact fun he => hmark _ (Option.some.inj he ▸ h)
  | cons => exact hts

lemma itemsGrowShort_cons {t : ParseTree} {ts : List ParseTree} (ht : t.Unbroken)
    (h : GrowsShort t) (hts : ItemsGrowShort ts) : ItemsGrowShort (t :: ts) := by
  intro _ before frames xs hxs
  rw [itemTokens, commaTokens, List.append_assoc] at hxs
  rcases hxs.of_append with hxs | ⟨ys, rfl, hys⟩
  · obtain ⟨t', cut, hcut, hkept, hgrow⟩ := h (.array before :: frames) xs hxs
    exact ⟨[t'], cut, .last hcut ts, hkept, by rw [hgrow]; simp [breakOff, Frame.plug]⟩
  rw [grow_tokens ht]
  cases ts with
  | nil =>
    obtain rfl : ys = [] := croppedTokens_singleton hys nofun
    exact ⟨[t], .both .truncated, .cons t (.nil []), rfl, by
      rw [grow_after_nil]; simp [breakOff, Frame.plug]⟩
  | cons t₂ ts =>
    cases hys with
    | nil =>
      exact ⟨[t], .both .truncated, .cons t (.nil _), rfl, by
        rw [grow_after_nil]; simp [breakOff, Frame.plug]⟩
    | stub h => cases h
    | cons _ hzs =>
      have hzs' : CroppedTokens _ (commaTokens (itemTokens (t₂ :: ts)) ++ [.closeArray]) := hzs
      obtain ⟨ts', cut, hcut, hkept, hgrow⟩ := hts (by simp) (t :: before) frames _ hzs'
      exact ⟨t :: ts', cut, .cons t hcut, hkept, by rw [grow, hgrow]; simp⟩

lemma growsShort_array {ts : List ParseTree} (hts : WholeItems ts) (h : ItemsGrowShort ts) :
    GrowsShort (.array ts none) := by
  intro frames xs hxs
  rw [tokens, List.cons_append] at hxs
  cases hxs with
  | nil => exact ⟨_, _, .broken _ rfl, rfl, grow_value_nil frames⟩
  | stub h => cases h
  | cons _ hys =>
    cases ts with
    | nil =>
      obtain rfl := croppedTokens_singleton hys nofun
      exact ⟨_, _, .array rfl (.due rfl), rfl, rfl⟩
    | cons t ts =>
      have hhead : (commaTokens (itemTokens (t :: ts)) ++ [Token.closeArray]).head? ≠
          some .closeArray := by
        rw [itemTokens, commaTokens, List.append_assoc]
        exact (head_tokens hts.1.unbroken _).1
      obtain ⟨ts', cut, hcut, hkept, hgrow⟩ := h (by simp) [] frames _ hys
      rw [grow_openArray (head_cropped hys nofun hhead)]
      exact ⟨_, cut, .array hkept hcut, hkept, hgrow⟩

lemma membersGrowShort_cons {name : String} {t : ParseTree}
    {ms : List (Option String × ParseTree)} (ht : t.Unbroken) (h : GrowsShort t)
    (hms : MembersGrowShort ms) : MembersGrowShort ((some name, t) :: ms) := by
  intro _ before frames xs hxs
  rw [memberTokens, commaTokens, List.append_assoc] at hxs
  -- before the name, inside it, after it, inside the value, after it
  cases hxs with
  | nil => exact ⟨[], .both .truncated, .nil _, rfl, by simp [grow, nameCut]⟩
  | stub h =>
    cases h
    exact ⟨[], .both .truncated, .nil _, rfl, by simp [grow, nameCut]⟩
  | cons _ hys =>
    cases hys with
    | nil =>
      exact ⟨[(some name, .broken (.both .truncated))], .both .truncated, .last _ (.broken t rfl) _,
        rfl, by simp [grow, markCut, cutOff, breakOff, Frame.plug]⟩
    | stub h => cases h
    | cons _ hzs =>
      rcases hzs.of_append with hzs | ⟨us, rfl, hus⟩
      · obtain ⟨t', cut, hcut, hkept, hgrow⟩ := h (.object before (some name) :: frames) _ hzs
        exact ⟨[(some name, t')], cut, .last _ hcut ms, hkept, by
          rw [grow, grow, hgrow]; simp [breakOff, Frame.plug]⟩
      rw [grow, grow, grow_tokens ht]
      cases ms with
      | nil =>
        obtain rfl : us = [] := croppedTokens_singleton hus nofun
        exact ⟨[(some name, t)], .both .truncated, .cons _ (.nil []), rfl, by
          rw [grow_after_nil]; simp [breakOff, Frame.plug]⟩
      | cons m ms =>
        cases hus with
        | nil =>
          exact ⟨[(some name, t)], .both .truncated, .cons _ (.nil _), rfl, by
            rw [grow_after_nil]; simp [breakOff, Frame.plug]⟩
        | stub h => cases h
        | cons _ hvs =>
          have hvs' : CroppedTokens _ (commaTokens (memberTokens (m :: ms)) ++ [.closeObject]) :=
            hvs
          obtain ⟨ms', cut, hcut, hkept, hgrow⟩ :=
            hms (by simp) ((some name, t) :: before) frames _ hvs'
          exact ⟨(some name, t) :: ms', cut, .cons _ hcut, hkept, by rw [grow, hgrow]; simp⟩

lemma growsShort_object {ms : List (Option String × ParseTree)} (hms : WholeMembers ms)
    (h : MembersGrowShort ms) : GrowsShort (.object ms none) := by
  intro frames xs hxs
  rw [tokens, List.cons_append] at hxs
  cases hxs with
  | nil => exact ⟨_, _, .broken _ rfl, rfl, grow_value_nil frames⟩
  | stub h => cases h
  | cons _ hys =>
    cases ms with
    | nil =>
      obtain rfl := croppedTokens_singleton hys nofun
      exact ⟨_, _, .object rfl (.nil []), rfl, rfl⟩
    | cons m ms =>
      have hhead : (commaTokens (memberTokens (m :: ms)) ++ [Token.closeObject]).head? ≠
          some .closeObject := by
        simp [memberTokens, commaTokens]
      obtain ⟨ms', cut, hcut, hkept, hgrow⟩ := h (by simp) [] frames _ hys
      rw [grow_openObject (head_cropped hys nofun hhead)]
      exact ⟨_, cut, .object hkept hcut, hkept, hgrow⟩

mutual

theorem growsShort : ∀ {t : ParseTree}, t.Whole → GrowsShort t
  | null, _ => growsShort_leaf rfl fun _ frames h => by
    cases h
    exact ⟨_, _, .broken _ rfl, rfl, rfl⟩
  | bool _, _ => growsShort_leaf rfl fun _ frames h => by
    cases h
    exact ⟨_, _, .broken _ rfl, rfl, rfl⟩
  | number _, _ => growsShort_leaf rfl fun _ frames h => by
    cases h with
    | sign _ h => exact ⟨_, _, .broken _ h, h, rfl⟩
    | digits h => exact ⟨_, .both .truncated, .number h, rfl, grow_after_nil _ frames⟩
  | string (some _), _ => growsShort_leaf rfl fun _ frames h => by
    cases h
    exact ⟨_, _, .broken _ rfl, rfl, rfl⟩
  | array _ none, h => growsShort_array h.1 (itemsGrowShort h.1)
  | object _ none, h => growsShort_object h.1 (membersGrowShort h.1)

theorem itemsGrowShort : ∀ {ts : List ParseTree}, WholeItems ts → ItemsGrowShort ts
  | [], _ => fun h => absurd rfl h
  | _ :: _, h => itemsGrowShort_cons h.1.unbroken (growsShort h.1) (itemsGrowShort h.2)

theorem membersGrowShort : ∀ {ms : List (Option String × ParseTree)}, WholeMembers ms →
    MembersGrowShort ms
  | [], _ => fun h => absurd rfl h
  | (some _, _) :: _, h =>
    membersGrowShort_cons h.2.1.unbroken (growsShort h.2.1) (membersGrowShort h.2.2)

end

/-- **A text that is cut off gives its tree cut short.** -/
theorem ofText_cropped {t : ParseTree} (h : t.Whole) {p : List Char} (hp : Cropped p t.text) :
    ∃ t', CutShort t' t ∧ ofText p = (t', false) := by
  obtain ⟨t', cut, hcut, -, hgrow⟩ := growsShort h [] (lex p) ((spells_text h).crops p hp)
  exact ⟨t', hcut, hgrow⟩

end Tipping.Json.ParseTree
