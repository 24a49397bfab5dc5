import Tipping.Config
import Tipping.Proofs.Json.Soundness
import Tipping.Proofs.Json.Told

/-!
Which settings are loaded from a text.

Of the tree of a text each setting is a matter of the members of its name alone. So a text either
gives the settings that its members say and the defaults for the others, or it gives none at all.
-/

namespace Tipping

open Json Outcome

namespace Config

lemma ofText_eq_ok {s : String} {c : Config} :
    ofText s = .ok c ↔ codec.readText s = .ok c ∧ c.badgeText ≠ "" := by
  rw [ofText]
  cases codec.readText s with
  | error fault => simp
  | ok c' =>
    by_cases h : c'.badgeText.isEmpty = true
    · have hempty : c'.badgeText = "" := String.isEmpty_iff.mp h
      simp only [h, if_true, Except.ok.injEq]
      exact iff_of_false nofun fun ⟨he, hne⟩ => hne (he ▸ hempty)
    · have hne : c'.badgeText ≠ "" := fun he => h (String.isEmpty_iff.mpr he)
      simp only [h, Bool.false_eq_true, if_false, Except.ok.injEq]
      exact ⟨fun he => ⟨he, he ▸ hne⟩, fun he => he.1⟩

lemma load_blank {text : Option String} (h : ∀ s ∈ text, blankText s = true) :
    load text = ⟨initial, initial.level, []⟩ := by
  cases text with
  | none => rfl
  | some s => simp [load, ofOptionalText, h s rfl]

section

variable {s : String} (hs : blankText s = false)

include hs

lemma load_of_ok {c : Config} (h : ofText s = .ok c) : load (some s) = ⟨c, c.level, []⟩ := by
  simp [load, ofOptionalText, hs, h]

lemma load_of_error {e : ConfigError} (h : ofText s = .error e) :
    load (some s) = ⟨initial, initial.level, [⟨.warn, "Using default config: " ++ e.text⟩]⟩ := by
  simp [load, ofOptionalText, hs, h]

end

end Config

/-- The badge text of settings that were loaded is never empty. -/
lemma badgeText_load (text : Option String) : (Config.load text).config.badgeText ≠ "" := by
  have hinitial : Config.initial.badgeText ≠ "" := by decide
  cases text with
  | none => exact hinitial
  | some s =>
    cases hs : blankText s with
    | true =>
      rw [Config.load_blank (by simpa using hs)]
      exact hinitial
    | false =>
      cases h : Config.ofText s with
      | ok c =>
        rw [Config.load_of_ok hs h]
        exact (Config.ofText_eq_ok.mp h).2
      | error e =>
        rw [Config.load_of_error hs h]
        exact hinitial

/-! ### What a tree says -/

/-- Three paths, each given once as a member, or all of them as items. -/
inductive IconSet.SaidBy (i : IconSet) : ParseTree → Prop where
  | members {ms : List (Option String × ParseTree)} (named : ∀ m ∈ ms, m.1.isSome = true)
      (small : valuesOf "18" ms = [.string (some i.small)])
      (medium : valuesOf "36" ms = [.string (some i.medium)])
      (large : valuesOf "54" ms = [.string (some i.large)]) : i.SaidBy (.object ms none)
  | items : i.SaidBy
      (.array [.string (some i.small), .string (some i.medium), .string (some i.large)] none)

/-- The members give these settings. Every key says something; of each setting there is one member
that gives it, or none and it has its default. The milliseconds are digits without a sign, a point
or a power of ten, and fit into 64 bits. -/
structure Config.GivenBy (c : Config) (ms : List (Option String × ParseTree)) : Prop where
  named : ∀ m ∈ ms, m.1.isSome = true
  badgeColor : Tells (fun t s => t = .string (some s)) (some Config.initial.badgeColor) c.badgeColor
    (valuesOf "badgeColor" ms)
  badgeText : Tells (fun t s => t = .string (some s)) (some Config.initial.badgeText) c.badgeText
    (valuesOf "badgeText" ms)
  icons : Tells (fun t i => i.SaidBy t) (some Config.initial.icons) c.icons (valuesOf "icons" ms)
  saveDebounce : Tells
    (fun t n => ∃ ds, t = .number ⟨false, ds, [], none⟩ ∧ (ofDigits ds : Int) = n.val)
    (some Config.initial.saveDebounce) c.saveDebounce (valuesOf "saveDebounceMs" ms)
  logLevel : Tells (fun t s => t = .string (some s)) (some Config.initial.logLevel) c.logLevel
    (valuesOf "logLevel" ms)

namespace Json

/-! ### Reading it -/

lemma read_string_iff {depth : Nat} {t : ParseTree} {s : String} :
    Codec.string.read depth t = .ok s ↔ t = .string (some s) := by
  cases t with
  | string content => cases content <;> simp [Codec.read]
  | _ => simp [Codec.read]

/-- Only digits without a sign, a point or a power of ten are read as an integer from zero on. -/
lemma ofNumeral?_eq_integer_iff {n : Numeral} {i : Int} {fits : FitsInteger i} (hi : 0 ≤ i) :
    Number.ofNumeral? n = some (.integer i fits) ↔
      ∃ ds, n = ⟨false, ds, [], none⟩ ∧ (ofDigits ds : Int) = i := by
  have hdouble (x : Option Binary64) : x.map Number.double ≠ some (.integer i fits) := by
    cases x <;> simp
  constructor
  · intro h
    by_cases hwhole : n.isWhole ∧ ¬(n.negative = true ∧ ofDigits n.whole = 0)
    · simp only [Number.ofNumeral?, if_pos hwhole] at h
      generalize hj : (if n.negative then -(ofDigits n.whole : Int) else ofDigits n.whole) = j at h
      by_cases hfits : FitsInteger j
      · rw [dif_pos hfits] at h
        simp only [Option.some.injEq, Number.integer.injEq] at h
        obtain ⟨negative, whole, fraction, power⟩ := n
        obtain ⟨hplain, hzero⟩ := hwhole
        simp only [Numeral.isWhole, Bool.and_eq_true, List.isEmpty_iff,
          Option.isNone_iff_eq_none] at hplain hj hzero
        -- with a sign, what is not below zero could only be zero, and that is a double then
        have hnegative : negative = false := by
          cases negative with
          | false => rfl
          | true =>
            simp only [if_true, true_and] at hj hzero
            omega
        subst hnegative
        exact ⟨whole, by rw [hplain.1, hplain.2], by simpa [h] using hj⟩
      · rw [dif_neg hfits] at h
        exact absurd h (hdouble _)
    · simp only [Number.ofNumeral?, if_neg hwhole] at h
      exact absurd h (hdouble _)
  · rintro ⟨ds, rfl, rfl⟩
    simp only [Number.ofNumeral?, Bool.false_eq_true, if_false]
    rw [if_pos ⟨rfl, by simp⟩, dif_pos fits]

lemma read_unsigned64_iff {depth : Nat} {name : String} {t : ParseTree} {n : Unsigned64} :
    (Codec.integer name 0 18446744073709551615).read depth t = .ok n ↔
      ∃ ds, t = .number ⟨false, ds, [], none⟩ ∧ (ofDigits ds : Int) = n.val := by
  cases t with
  | number m =>
    have fits : FitsInteger n.val := by
      have := n.property
      constructor <;> omega
    have hread : (Codec.integer name 0 18446744073709551615).read depth (.number m) = .ok n ↔
        Number.ofNumeral? m = some (.integer n.val fits) := by
      simp only [Codec.read]
      cases Number.ofNumeral? m with
      | none => simp
      | some x =>
        cases x with
        | double x => simp [Number.toIntIn, Except.mapError]
        | integer i hi =>
          obtain ⟨j, hj⟩ := n
          simp only [Number.toIntIn, Option.some.injEq, Number.integer.injEq]
          split
          · simp [Except.mapError]
          · rename_i hrange
            exact iff_of_false (by simp [Except.mapError]) fun h => hrange (h ▸ hj)
    rw [hread, ofNumeral?_eq_integer_iff n.property.1]
    simp
  | _ => simp [Codec.read]

lemma read_icons_iff {depth : Nat} {t : ParseTree} (ht : t.Unbroken) {i : IconSet} :
    IconSet.codec.read (depth + 1) t = .ok i ↔ i.SaidBy t := by
  cases t with
  | object ms ending =>
    obtain ⟨hms, rfl⟩ := ht
    have hskip : ∀ m ∈ ms, m.2.skip = none := fun m hm => (ParseTree.unbroken_of_mem hms m hm).skip
    refine Iff.trans read_record_object ((Fields.told_iff_each _ _ (by decide) hskip).trans ?_)
    simp only [Fields.EachTold, tells_required, read_string_iff, exists_eq_right, and_true]
    constructor
    · rintro ⟨hnamed, hsmall, hmedium, hlarge⟩
      exact .members hnamed hsmall hmedium hlarge
    · intro h
      cases h with
      | members hnamed hsmall hmedium hlarge => exact ⟨hnamed, hsmall, hmedium, hlarge⟩
  | array items ending =>
    obtain ⟨-, rfl⟩ := ht
    have hsaid : i.SaidBy (.array items none) ↔ items = [.string (some i.small),
        .string (some i.medium), .string (some i.large)] :=
      ⟨fun h => by cases h; rfl, fun h => h ▸ .items⟩
    rw [hsaid]
    refine Iff.trans (read_record_array (by decide)) ?_
    rcases items with _ | ⟨t₁, _ | ⟨t₂, _ | ⟨t₃, _ | ⟨t₄, items⟩⟩⟩⟩ <;>
      simp [Fields.count, Fields.Told, Fields.named, Fields.names, valuesOf, othersThan,
        tells_required, read_string_iff]
  | _ => exact iff_of_false (by simp [Codec.read, IconSet.codec]) fun h => by cases h

/-- The settings are read from an object that gives them, and only then. -/
lemma read_config_iff {ms : List (Option String × ParseTree)} (hms : ParseTree.UnbrokenMembers ms)
    {c : Config} : Config.codec.read depthLimit (.object ms none) = .ok c ↔ c.GivenBy ms := by
  have hskip : ∀ m ∈ ms, m.2.skip = none := fun m hm => (ParseTree.unbroken_of_mem hms m hm).skip
  have hicons : Tells (fun t i => IconSet.codec.read 126 t = .ok i) (some Config.initial.icons)
      c.icons (valuesOf "icons" ms) ↔
      Tells (fun t i => i.SaidBy t) (some Config.initial.icons) c.icons (valuesOf "icons" ms) :=
    tells_congr_of_mem fun t ht => read_icons_iff (unbroken_of_mem_valuesOf hms ht)
  refine Iff.trans read_record_object ((Fields.told_iff_each _ _ (by decide) hskip).trans ?_)
  simp only [Fields.EachTold, read_string_iff, read_unsigned64_iff, hicons, and_true]
  constructor
  · rintro ⟨hnamed, hcolor, htext, hicons, hsave, hlevel⟩
    exact ⟨hnamed, hcolor, htext, hicons, hsave, hlevel⟩
  · rintro ⟨hnamed, hcolor, htext, hicons, hsave, hlevel⟩
    exact ⟨hnamed, hcolor, htext, hicons, hsave, hlevel⟩

end Json

namespace Config

lemma ofText_object {s : String} {ms : List (Option String × ParseTree)}
    (hs : (ParseTree.object ms none).TextOf s.toList) {c : Config} :
    ofText s = .ok c ↔ c.GivenBy ms ∧ c.badgeText ≠ "" := by
  rw [ofText_eq_ok, hs.readText, read_config_iff hs.unbroken.1]

/-- Of a text that gives settings, the value is an object or an array. -/
lemma textOf_of_ofText {s : String} {c : Config} (h : ofText s = .ok c) :
    (∃ ms, (ParseTree.object ms none).TextOf s.toList) ∨
      ∃ items, (ParseTree.array items none).TextOf s.toList :=
  textOf_of_readText_record (ofText_eq_ok.mp h).1

lemma blankText_object {s : String} {ms : List (Option String × ParseTree)}
    (hs : (ParseTree.object ms none).TextOf s.toList) : blankText s = false := by
  have hmem : Char.ofNat 0x7B ∈ s.toList := by
    obtain ⟨-, hspelled⟩ := hs
    generalize s.toList = cs at hspelled
    rw [ParseTree.tokens, List.cons_append] at hspelled
    cases hspelled with
    | token _ hx _ =>
      cases hx
      simp
  have hbrace : isBlank (Char.ofNat 0x7B) = false := rfl
  rw [blankText, List.all_eq_false]
  exact ⟨_, hmem, by simp [hbrace]⟩

end Config

/-- **Settings are loaded as a whole or not at all**, and always with a badge text. Without a text,
or from blanks, they are the defaults. From an object that gives them, with a badge text that is not
empty, they are what it gives. From any other object, and from whatever else is neither blank nor an
array, they are the defaults, and one warning is made at their level. -/
theorem settings_loaded_whole (text : Option String) :
    (Config.load text).config.badgeText ≠ "" ∧
    ((∀ s ∈ text, blankText s = true) →
      Config.load text = ⟨.initial, Config.initial.level, []⟩) ∧
    (∀ s ∈ text, ∀ ms (c : Config), (ParseTree.object ms none).TextOf s.toList → c.GivenBy ms →
      c.badgeText ≠ "" → Config.load text = ⟨c, c.level, []⟩) ∧
    (∀ s ∈ text, blankText s = false →
      (∀ items, ¬(ParseTree.array items none).TextOf s.toList) →
      (∀ ms (c : Config), (ParseTree.object ms none).TextOf s.toList → c.GivenBy ms →
        c.badgeText = "") →
      ∃ reason, Config.load text =
        ⟨.initial, .info, [⟨.warn, "Using default config: " ++ reason⟩]⟩) := by
  refine ⟨badgeText_load text, Config.load_blank, ?_, ?_⟩
  · rintro s hs ms c htext hgiven hbadge
    cases Option.mem_def.mp hs
    exact Config.load_of_ok (Config.blankText_object htext)
      ((Config.ofText_object htext).mpr ⟨hgiven, hbadge⟩)
  · rintro s hs hblank harray hobject
    cases Option.mem_def.mp hs
    cases h : Config.ofText s with
    | error e => exact ⟨e.text, Config.load_of_error hblank h⟩
    | ok c =>
      -- of what is read the text is an object or an array, and neither is left here
      rcases Config.textOf_of_ofText h with ⟨ms, htext⟩ | ⟨items, htext⟩
      · obtain ⟨hgiven, hbadge⟩ := (Config.ofText_object htext).mp h
        exact absurd (hobject ms c htext hgiven) hbadge
      · exact absurd htext (harray items)

/-- The icons as an array, beside a number beyond all doubles and a window; and a badge text that is
empty, with a level beside it that is not taken either. -/
theorem settings_loaded_whole_of_texts :
    Config.load (some "\x7b\"x\":1e999,\"icons\":[\"a\",\"b\",\"c\"],\"saveDebounceMs\":7\x7d") =
      ⟨{ Config.initial with icons := ⟨"a", "b", "c"⟩, saveDebounce := ⟨7, by decide⟩ },
        .info, []⟩ ∧
    ∃ reason, Config.load (some "\x7b\"logLevel\":\"warn\",\"badgeText\":\"\"\x7d") =
      ⟨.initial, .info, [⟨.warn, "Using default config: " ++ reason⟩]⟩ := by
  constructor
  · have htext : (ParseTree.object [(some "x", .number ⟨false, [1], [], some 999⟩),
        (some "icons", .array [.string (some "a"), .string (some "b"), .string (some "c")] none),
        (some "saveDebounceMs", .number ⟨false, [7], [], none⟩)] none).TextOf
        "\x7b\"x\":1e999,\"icons\":[\"a\",\"b\",\"c\"],\"saveDebounceMs\":7\x7d".toList :=
      ParseTree.textOf_iff.mpr ⟨by with_unfolding_all rfl, rfl⟩
    exact (settings_loaded_whole _).2.2.1 _ rfl _ _ htext
      ⟨by simp, rfl, rfl, .items, ⟨[7], rfl, rfl⟩, rfl⟩ (by decide)
  · have htext : (ParseTree.object [(some "logLevel", .string (some "warn")),
        (some "badgeText", .string (some ""))] none).TextOf
        "\x7b\"logLevel\":\"warn\",\"badgeText\":\"\"\x7d".toList :=
      ParseTree.textOf_iff.mpr ⟨by with_unfolding_all rfl, rfl⟩
    refine (settings_loaded_whole _).2.2.2 _ rfl (by decide)
      (fun items hitems => ?_) fun ms c hms hc => ?_
    · cases hitems.ofText.symm.trans htext.ofText
    · cases hms.ofText.symm.trans htext.ofText
      have hbadge : ParseTree.string (some "") = .string (some c.badgeText) := hc.badgeText
      exact (Option.some.inj (ParseTree.string.inj hbadge)).symm

/-- Sound form is not enough: no setting is loaded from an object with half of a surrogate pair for
a key, although no field is of that name, and zero with a sign is no number of milliseconds. -/
theorem settings_of_sound_form_refused :
    (ParseTree.object [(none, .bool true)] none).TextOf "\x7b\"\\ud800\":true\x7d".toList ∧
    Config.load (some "\x7b\"\\ud800\":true\x7d") = ⟨.initial, .info,
      [⟨.warn, "Using default config: Failed to parse extension config: <syntax>"⟩]⟩ ∧
    (ParseTree.object [(some "saveDebounceMs", .number ⟨true, [0], [], none⟩)] none).TextOf
      "\x7b\"saveDebounceMs\":-0\x7d".toList ∧
    Config.load (some "\x7b\"saveDebounceMs\":-0\x7d") = ⟨.initial, .info,
      [⟨.warn, "Using default config: Failed to parse extension config: " ++
        "invalid type: floating point `-0.0`, expected u64"⟩]⟩ := by
  have hblanks : Blanks [] := nofun
  have hkey : Token.Text (.string none) ['"', '\\', 'u', 'd', '8', '0', '0', '"'] :=
    .string (.cons (.unit (u := 0xD800) (by decide)) .nil)
  have hspelled : Spelled "\x7b\"\\ud800\":true\x7d".toList
      [.openObject, .string none, .colon, .bool true, .closeObject] :=
    .token hblanks .openObject (.token hblanks hkey (.token hblanks .colon
      (.token hblanks .trueWord (.token hblanks .closeObject (.blanks hblanks)))))
  exact ⟨⟨⟨⟨trivial, trivial⟩, rfl⟩, hspelled⟩, by decide +kernel,
    ParseTree.textOf_iff.mpr ⟨by with_unfolding_all rfl, rfl⟩, by decide +kernel⟩

end Tipping
