import Mathlib.Tactic.SplitIfs
import Tipping.Message
import Tipping.Proofs.Json.Members

/-!
What a value is read as.

A message is told by its tag, and a tip by its tag and four strings. Members are found by their
names, so neither their order nor what else is among them matters. A value that is neither the
question for the rewards nor a complete tip is unknown, and keeps its tag.
-/

namespace Tipping

open Json Outcome

/-- An object with the tag of a tip and its four strings, whatever else it holds. -/
structure Json.AsksTip (v : Json) (t : TwitterTip) : Prop where
  type : v.member? "type" = some (.string Message.donateTag)
  userId : v.member? "userId" = some (.string t.userId)
  name : v.member? "name" = some (.string t.name)
  screenName : v.member? "screenName" = some (.string t.screenName)
  tweetText : v.member? "tweetText" = some (.string t.tweetText)

/-- The tag of a value: a bare string is its own, and that of an object is its `type`. A value
that gives no string for it has the empty one. -/
def Json.tag : Json → String
  | .string s => s
  | v =>
    match v.member? "type" with
    | some (.string s) => s
    | _ => ""

/-- The value that asks for a tip and says nothing else. -/
def Json.ofTip (t : TwitterTip) : Json :=
  .object [("name", .string t.name), ("screenName", .string t.screenName),
    ("tweetText", .string t.tweetText), ("type", .string Message.donateTag),
    ("userId", .string t.userId)]

lemma Json.sorted_ofTip (t : TwitterTip) : (ofTip t).Sorted :=
  ⟨by simp only [Keyed.Sorted, List.map_cons, List.map_nil]; decide,
    sortedMembers_iff.mpr (by simp [Json.Sorted])⟩

lemma ofJson_string_iff {v : Json} {s : String} :
    Codec.string.ofJson v = .ok s ↔ v = .string s := by
  cases v <;> simp [Codec.ofJson]

/-- A string that has to be given. -/
lemma gives_string {σ β : Type} {name : String} {rest : Fields σ β} {ms : List (String × Json)}
    {s : String} {b : β} :
    (Fields.cons name .string none rest).Gives ms (s, b) ↔
      ms.lookup name = some (.string s) ∧ rest.Gives ms b := by
  rw [Fields.gives_cons]
  cases ms.lookup name <;> simp [ofJson_string_iff]

lemma ofJson_tip_iff {ms : List (String × Json)} (hms : (ms.map Prod.fst).Nodup)
    {t : TwitterTip} :
    TwitterTip.codec.ofJson (.object ms) = .ok t ↔
      ms.lookup "userId" = some (.string t.userId) ∧ ms.lookup "name" = some (.string t.name) ∧
        ms.lookup "screenName" = some (.string t.screenName) ∧
        ms.lookup "tweetText" = some (.string t.tweetText) := by
  rw [TwitterTip.codec, ofJson_record_object (by decide) hms]
  simp only [gives_string, Fields.gives_nil, and_true]

namespace Message

lemma parse_eq_donate {v : Json} {t : TwitterTip} :
    (parse v).1 = .donate t ↔
      tagOf? v = some donateTag ∧ TwitterTip.codec.ofJson v = .ok t := by
  have htag : donateTag ≠ rewardsEnabledTag := by decide
  cases hv : tagOf? v with
  | none => simp [parse, hv]
  | some tag =>
    by_cases h₁ : tag = rewardsEnabledTag
    · simp [parse, hv, h₁, htag.symm]
    by_cases h₂ : tag = donateTag
    · cases hread : TwitterTip.codec.ofJson v <;> simp [parse, hv, h₂, htag, hread]
    · simp [parse, hv, h₁, h₂]

lemma tagOf?_object {ms : List (String × Json)} {tag : String} :
    tagOf? (.object ms) = some tag ↔ ms.lookup "type" = some (.string tag) := by
  simp only [tagOf?]
  split
  · rename_i s h
    simp [h]
  · rename_i h
    simpa using h tag

/-- A bare tag has no payload. -/
lemma ofJson_tip_string (s : String) (t : TwitterTip) :
    TwitterTip.codec.ofJson (.string s) ≠ .ok t := by
  simp [TwitterTip.codec, Codec.ofJson]

/-- **Which values are tips.** Exactly those that ask for one, and the tip holds their strings. -/
theorem parse_eq_donate_iff {v : Json} (hv : v.Sorted) {t : TwitterTip} :
    (parse v).1 = .donate t ↔ v.AsksTip t := by
  rw [parse_eq_donate]
  cases v with
  | object ms =>
    rw [tagOf?_object, ofJson_tip_iff hv.1.nodup]
    constructor
    · rintro ⟨type, userId, name, screenName, tweetText⟩
      exact ⟨type, userId, name, screenName, tweetText⟩
    · intro h
      exact ⟨h.type, h.userId, h.name, h.screenName, h.tweetText⟩
  | string s =>
    exact iff_of_false (fun h => ofJson_tip_string s t h.2) fun h => by
      simpa [member?] using h.type
  | _ =>
    exact iff_of_false (fun h => by simpa [tagOf?] using h.1) fun h => by
      simpa [member?] using h.type

lemma tagOf?_getD (v : Json) : (tagOf? v).getD "" = v.tag := by
  cases v with
  | object ms =>
    cases hm : ms.lookup "type" with
    | none => simp [tagOf?, Json.tag, member?, hm]
    | some u => cases u <;> simp [tagOf?, Json.tag, member?, hm]
  | _ => rfl

/-- Nothing that happens to the payload touches the tag. -/
lemma tag_parse (v : Json) : (parse v).1.tag = v.tag := by
  rw [← tagOf?_getD]
  cases hv : tagOf? v with
  | none => simp [parse, hv, tag]
  | some tag =>
    by_cases h₁ : tag = rewardsEnabledTag
    · simp [parse, hv, h₁, Message.tag]
    by_cases h₂ : tag = donateTag
    · have htag : donateTag ≠ rewardsEnabledTag := by decide
      cases hread : TwitterTip.codec.ofJson v <;> simp [parse, hv, h₂, htag, hread, Message.tag]
    · simp [parse, hv, h₁, h₂, Message.tag]

/-- The question for the rewards has no payload that could be wrong. -/
lemma parse_eq_rewardsEnabled {v : Json} :
    (parse v).1 = .rewardsEnabled ↔ v.tag = rewardsEnabledTag := by
  constructor
  · intro h
    rw [← tag_parse, h]
    rfl
  · intro h
    have hv : tagOf? v = some rewardsEnabledTag := by
      have hget := tagOf?_getD v
      cases hv : tagOf? v with
      | none => rw [hv, h] at hget; exact absurd hget (by decide)
      | some tag => rw [hv, h] at hget; exact congrArg some hget
    simp [parse, hv]

/-- What is unknown is all that is left, and its tag is kept. -/
lemma parse_eq_unknown {v : Json} {tag : String} :
    (parse v).1 = .unknown tag ↔
      tag = v.tag ∧ (parse v).1 ≠ .rewardsEnabled ∧ ∀ t, (parse v).1 ≠ .donate t := by
  have htag := tag_parse v
  cases hv : (parse v).1 with
  | unknown tag' =>
    rw [hv] at htag
    simp [← htag, Message.tag, eq_comm]
  | _ => simp

/-- Of values that are no tips the tag says all. -/
lemma parse_eq_of_tag {v w : Json} (htag : v.tag = w.tag) (hv : ∀ t, (parse v).1 ≠ .donate t)
    (hw : ∀ t, (parse w).1 ≠ .donate t) : (parse v).1 = (parse w).1 := by
  by_cases h : v.tag = rewardsEnabledTag
  · rw [parse_eq_rewardsEnabled.mpr h, parse_eq_rewardsEnabled.mpr (htag ▸ h)]
  · have hne {u : Json} (hu : u.tag = v.tag) : (parse u).1 ≠ .rewardsEnabled :=
      fun hp => h (hu ▸ parse_eq_rewardsEnabled.mp hp)
    rw [parse_eq_unknown.mpr ⟨rfl, hne rfl, hv⟩, parse_eq_unknown.mpr ⟨htag, hne htag.symm, hw⟩]

/-- A tag without a payload says the same, bare or in an object. -/
lemma parse_bare (s : String) :
    (parse (.string s)).1 = (parse (.object [("type", .string s)])).1 := by
  refine parse_eq_of_tag rfl (fun t h => ?_) fun t h => ?_
  · exact ofJson_tip_string s t (parse_eq_donate.mp h).2
  · have huser := ((ofJson_tip_iff (by simp)).mp (parse_eq_donate.mp h).2).1
    simp [Keyed.lookup_cons] at huser

/-- **How a value is classified.** It is the question for the rewards exactly if it has that tag,
and a tip exactly if it asks for one; all else is unknown. In each case the tag is kept, and it is
all one whether a tag comes bare or as the only member of an object. -/
theorem classified_exactly {v : Json} (hv : v.Sorted) :
    ((parse v).1 = .rewardsEnabled ↔ v.tag = rewardsEnabledTag) ∧
      (∀ t, (parse v).1 = .donate t ↔ v.AsksTip t) ∧
      (∀ tag, (parse v).1 = .unknown tag ↔
        tag = v.tag ∧ v.tag ≠ rewardsEnabledTag ∧ ∀ t, ¬ v.AsksTip t) ∧
      (parse v).1.tag = v.tag ∧
      ∀ s, (parse (.string s)).1 = (parse (.object [("type", .string s)])).1 := by
  have htip (t : TwitterTip) : (parse v).1 = .donate t ↔ v.AsksTip t := parse_eq_donate_iff hv
  refine ⟨parse_eq_rewardsEnabled, htip, fun tag => ?_, tag_parse v, parse_bare⟩
  rw [parse_eq_unknown, Ne, parse_eq_rewardsEnabled]
  simp only [Ne, htip]

/-- A member too many does not matter, and one too few leaves the tag. -/
theorem classified_exactly_by_fields :
    let tip : TwitterTip := ⟨"7", "Ann", "ann", "hello"⟩
    let v : Json := .object [("name", .string "Ann"), ("note", .null),
      ("screenName", .string "ann"), ("tweetText", .string "hello"),
      ("type", .string "donateToTwitterUser"), ("userId", .string "7")]
    let w : Json := .object [("name", .string "Ann"), ("screenName", .bool true),
      ("tweetText", .string "hello"), ("type", .string "donateToTwitterUser"),
      ("userId", .string "7")]
    (v.Sorted ∧ w.Sorted) ∧ (parse v).1 = .donate tip ∧
      (parse w).1 = .unknown "donateToTwitterUser" := by
  intro tip v w
  have hv : v.Sorted := ⟨by simp only [Keyed.Sorted, List.map_cons, List.map_nil]; decide,
    sortedMembers_iff.mpr (by simp [Json.Sorted])⟩
  have hw : w.Sorted := ⟨by simp only [Keyed.Sorted, List.map_cons, List.map_nil]; decide,
    sortedMembers_iff.mpr (by simp [Json.Sorted])⟩
  obtain ⟨-, htip, -⟩ := classified_exactly hv
  obtain ⟨-, -, hunknown, -⟩ := classified_exactly hw
  have hnone (t : TwitterTip) : ¬ w.AsksTip t := by
    intro h
    have hname := h.screenName
    simp [w, member?, Keyed.lookup_cons] at hname
  exact ⟨⟨hv, hw⟩, (htip tip).mpr ⟨rfl, rfl, rfl, rfl, rfl⟩,
    (hunknown _).mpr ⟨rfl, by decide, hnone⟩⟩

end Message

end Tipping
