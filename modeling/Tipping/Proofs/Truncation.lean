import Tipping.Proofs.Json.Unfinished
import Tipping.Proofs.Payments.Reload

/-!
What was sent or stored and then cut off is never taken for something else.
-/

namespace Tipping

open Json Payments

lemma zeroFits_contribution : Contribution.codec.ZeroFits :=
  ⟨trivial, trivial, trivial, ⟨by decide, by decide⟩, trivial, trivial, trivial, trivial, trivial,
    ⟨by decide, by decide⟩, trivial, ⟨by decide, by decide⟩, trivial⟩

lemma Exchanged.zeroFits {α : Type} {c : Codec α} (h : Exchanged c) : c.ZeroFits := by
  cases h with
  | tip => exact ⟨trivial, trivial, trivial, trivial, trivial⟩
  | reply => exact ⟨trivial, trivial⟩
  | tab => exact ⟨⟨by decide, by decide⟩, trivial⟩
  | icons => exact ⟨trivial, trivial, trivial, trivial⟩
  | payments => exact ⟨trivial, zeroFits_contribution, trivial⟩
  | contribution => exact zeroFits_contribution

lemma Exchanged.isContainer {α : Type} {c : Codec α} (h : Exchanged c) : c.isContainer = true := by
  cases h <;> rfl

/-- The text of whatever is sent or stored, cut off anywhere, is refused because it ends. -/
lemma Exchanged.readText_cropped {α : Type} {c : Codec α} (h : Exchanged c) (a : α) {p : String}
    (hp : Cropped p.toList (c.text a).toList) : c.readText p = .error (.form .truncated) :=
  Codec.readText_cropped h.isContainer h.lawful h.zeroFits h.height_le a hp

/-- **A text that is cut off never reads as something else.** Of the text of anything that is sent
or stored no proper beginning is read, the empty one included, and each is refused for ending too
early. So where the item holds the beginning of a state's text, the initial state is loaded. -/
theorem cropped_text_ends_early :
    (∀ (α : Type) (c : Codec α), Exchanged c → ∀ (a : α) (p : String),
      Cropped p.toList (c.text a).toList → c.readText p = .error (.form .truncated)) ∧
    ∀ (σ : Type) [ItemStore σ] (d : Desk σ) (s : State) (p : String),
      Cropped p.toList (State.codec.text s).toList →
      (ItemStore.getItem itemKey d.store).1 = .ok (some p) → d.load.1 = .initial := by
  refine ⟨fun α c hc a p hp => hc.readText_cropped a hp, fun σ _ d s p hp hitem => ?_⟩
  have hread := Exchanged.payments.readText_cropped s hp
  rw [Desk.load_eq, hitem]
  simp only [State.ofItem, hread]

/-- Cut off before the first character, in a name, in a word, after the first half of an escape,
after the sign and after the point of minus zero. -/
theorem cropped_text_ends_early_of_state :
    let c : Contribution := ⟨"a\"b", .zero true, true, .zero, "", "", "", "", .zero false, .zero,
      "", .zero⟩
    let s : State := ⟨true, [c]⟩
    let before := "\x7b\"rewardsEnabled\":true,\"pendingContributions\":[\x7b\"publisherKey\":\"a"
    ∀ p ∈ ["", "\x7b\"rewards", "\x7b\"rewardsEnabled\":tr", before ++ "\\",
      before ++ "\\\"b\",\"percentage\":-", before ++ "\\\"b\",\"percentage\":-0."],
      Cropped p.toList (State.codec.text s).toList ∧
        State.codec.readText p = .error (.form .truncated) ∧
        (Desk.new (Memory.new (some p)) .immediate [0]).load.1 = .initial := by
  intro c s before p hp
  have hcropped : Cropped p.toList (State.codec.text s).toList := by
    revert p
    rw [Codec.text, String.toList_ofList]
    decide +kernel
  exact ⟨hcropped, cropped_text_ends_early.1 State State.codec .payments s p hcropped,
    cropped_text_ends_early.2 Memory _ s p hcropped rfl⟩

end Tipping
