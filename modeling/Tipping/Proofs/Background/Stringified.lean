import Tipping.Proofs.Background.Refinement
import Tipping.Proofs.Browser.Stringify
import Tipping.Proofs.Message

/-!
A message that comes by way of its text is the message of its value.

On that way nothing is lost but the exact doubles, and a message is told by its strings.
-/

namespace Tipping

open Json Browser

namespace Message

lemma tagOf?_mapNumbers (f : Number → Number) (v : Json) :
    tagOf? (v.mapNumbers f) = tagOf? v := by
  cases v with
  | object ms =>
    rw [mapNumbers, membersWith_eq, tagOf?, tagOf?, Keyed.lookup_mapValues]
    cases ms.lookup "type" with
    | none => rfl
    | some v => cases v <;> rfl
  | _ => rfl

lemma mapNumbers_eq_string {f : Number → Number} {v : Json} {s : String} :
    v.mapNumbers f = .string s ↔ v = .string s := by
  cases v <;> simp [mapNumbers]

/-- The strings of a tip are the same, whatever the numbers beside them. -/
lemma ofJson_tip_membersWith {f : Number → Number} {ms : List (String × Json)}
    (hms : (ms.map Prod.fst).Nodup) (t : TwitterTip) :
    TwitterTip.codec.ofJson (.object (membersWith f ms)) = .ok t ↔
      TwitterTip.codec.ofJson (.object ms) = .ok t := by
  have hstring (name s : String) :
      (membersWith f ms).lookup name = some (.string s) ↔ ms.lookup name = some (.string s) := by
    rw [membersWith_eq, Keyed.lookup_mapValues]
    simp [mapNumbers_eq_string]
  have hnames : ((membersWith f ms).map Prod.fst).Nodup := by
    rwa [membersWith_eq, Keyed.map_fst_mapValues]
  rw [ofJson_tip_iff hms, ofJson_tip_iff hnames]
  simp only [hstring]

/-- **A message does not depend on numbers.** -/
theorem parse_mapNumbers {f : Number → Number} {v : Json} (hv : (v.mapNumbers f).Sorted) :
    (parse (v.mapNumbers f)).1 = (parse v).1 := by
  have htag := tagOf?_mapNumbers f v
  cases v with
  | object ms =>
    have hnames : (ms.map Prod.fst).Nodup := by
      rw [mapNumbers, membersWith_eq] at hv
      rw [← Keyed.map_fst_mapValues (mapNumbers f)]
      exact hv.1.nodup
    have hread := ofJson_tip_membersWith (f := f) hnames
    rw [mapNumbers] at htag ⊢
    unfold parse
    rw [htag]
    cases tagOf? (.object ms) with
    | none => rfl
    | some tag =>
      simp only
      split
      · rfl
      split
      · cases hx : TwitterTip.codec.ofJson (.object (membersWith f ms)) with
        | ok t => rw [(hread t).mp hx]
        | error m =>
          cases hy : TwitterTip.codec.ofJson (.object ms) with
          | ok t => rw [(hread t).mpr hy] at hx; cases hx
          | error m' => rfl
      · rfl
  | _ => rfl

/-- A text that reads as a value, but for its numbers, is the message of that value. -/
lemma ofText_eq_parse {f : Number → Number} {text : String} {v : Json}
    (h : Json.ofText text = .ok (v.mapNumbers f)) : (ofText text).1 = (parse v).1 := by
  rw [ofText, h]
  exact parse_mapNumbers (sorted_of_ofText h)

lemma parse_string (s : String) :
    (parse (.string s)).1 = if s = rewardsEnabledTag then rewardsEnabled else unknown s := by
  simp only [parse, tagOf?]
  split
  · rfl
  split
  · cases hread : TwitterTip.codec.ofJson (.string s) with
    | ok t => exact absurd hread (ofJson_tip_string s t)
    | error m => rfl
  · rfl

/-- A value without cycles is taken for what it is in JSON. -/
lemma ofJsValue_eq_parse {v : JsValue} (hc : v.hasCycle = false) (hh : v.height ≤ depthLimit) :
    (ofJsValue v).1 = (parse v.json).1 := by
  cases hw : v.isWritten with
  | true =>
    obtain ⟨text, htext, hread⟩ := JsValue.ofText_stringify hc hw hh
    rw [ofJsValue_of_text htext, ofText_eq_parse hread]
  | false =>
    cases v with
    | undefined => rfl
    | cyclic => cases hc
    | _ => cases hw

end Message

/-- **Stringified and direct messages agree.** The compact text of a value in which no more
containers are nested than a reader takes is the message that the value is; a message that is no
string is stringified and read again, and understood as the value that it is in JSON; and one that
is a string is a bare tag, whatever it says. -/
theorem stringified_agrees :
    (∀ v : Json, v.Sorted → v.height ≤ depthLimit →
      (Message.ofText v.text).1 = (Message.parse v).1) ∧
    (∀ v : JsValue, v.hasCycle = false → v.height ≤ depthLimit →
      (Message.ofJsValue v).1 = (Message.parse v.json).1) ∧
    ∀ s : String, (Message.ofJsValue (.string s)).1 =
      if s = Message.rewardsEnabledTag then .rewardsEnabled else .unknown s :=
  ⟨fun _ hs hh => Message.ofText_eq_parse (ofText_text hs hh),
    fun _ hc hh => Message.ofJsValue_eq_parse hc hh,
    Message.parse_string⟩

/-- A tip with all kinds of values beside its strings, as JSON and as a runtime message, and a text
that is an object to a reader and a bare tag to the page. -/
theorem stringified_agrees_for_tip :
    let t : TwitterTip := ⟨"7", String.ofList ['A', '"', '\\', '\n', Char.ofNat 1], "ann", ""⟩
    let beside : Json := .array [.number (.double tenth), .number (.double (.zero true)),
      .number (.integer (-9223372036854775808) (by decide)), .null, .bool true, .object []]
    let v : Json := .object [("", beside), ("name", .string t.name),
      ("screenName", .string "ann"), ("tweetText", .string ""),
      ("type", .string "donateToTwitterUser"), ("userId", .string "7")]
    let m : JsValue := .object [("type", .string "donateToTwitterUser"), ("userId", .string "7"),
      ("name", .string t.name), ("10", .array [.undefined, .number .nan]),
      ("9", .number (.finite tenth)), ("screenName", .string "ann"), ("left out", .undefined),
      ("tweetText", .string "")]
    let s := "\x7b\"type\":\"rewardsEnabled\"\x7d"
    (v.Sorted ∧ v.height ≤ depthLimit ∧ (Message.ofText v.text).1 = .donate t) ∧
      (m.hasCycle = false ∧ m.height ≤ depthLimit ∧ (Message.ofJsValue m).1 = .donate t) ∧
      (Message.ofText s).1 = .rewardsEnabled ∧ (Message.ofJsValue (.string s)).1 = .unknown s := by
  intro t beside v m s
  obtain ⟨hjson, hvalue, hstring⟩ := stringified_agrees
  have hv : v.Sorted := ⟨by simp only [Keyed.Sorted, List.map_cons, List.map_nil]; decide,
    sortedMembers_iff.mpr (by simp [beside, Json.Sorted, SortedItems, SortedMembers, Keyed.Sorted])⟩
  have hvh : v.height ≤ depthLimit := by decide
  have hmh : m.height ≤ depthLimit := by decide
  refine ⟨⟨hv, hvh, (hjson v hv hvh).trans ?_⟩, ⟨rfl, hmh, (hvalue m rfl hmh).trans ?_⟩, ?_,
    (hstring s).trans ?_⟩
  · decide +kernel
  · decide +kernel
  · decide +kernel
  · decide +kernel

end Tipping
