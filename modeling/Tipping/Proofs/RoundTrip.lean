import Tipping.Config
import Tipping.Message
import Tipping.Payments.State
import Tipping.Proofs.Json.RoundTrip

/-!
What is sent to other pages or stored comes back from its text.
-/

namespace Tipping

open Json

/-- The codecs of all that is sent or stored. -/
inductive Exchanged : {α : Type} → Codec α → Prop where
  | tip : Exchanged TwitterTip.codec
  | reply : Exchanged RewardsReply.codec
  | tab : Exchanged Tab.codec
  | icons : Exchanged IconSet.codec
  | payments : Exchanged Payments.State.codec
  | contribution : Exchanged Payments.Contribution.codec

lemma lawful_integer {name : String} {low high : Int} (hlow : -9223372036854775808 ≤ low)
    (hhigh : high < 18446744073709551616) : (Codec.integer name low high).Lawful :=
  fun _ h => ⟨Int.le_trans hlow h.1, Int.lt_of_le_of_lt h.2 hhigh⟩

lemma lawful_contribution : Payments.Contribution.codec.Lawful := by
  refine ⟨by decide, ?_⟩
  simp only [Fields.Lawful, and_true]
  refine ⟨trivial, trivial, trivial, ?_, trivial, trivial, trivial, trivial, trivial, ?_, trivial,
    ?_⟩ <;> exact lawful_integer (by decide) (by decide)

lemma Exchanged.lawful {α : Type} {c : Codec α} (h : Exchanged c) : c.Lawful := by
  cases h with
  | tip => exact ⟨by decide, trivial, trivial, trivial, trivial, trivial⟩
  | reply => exact ⟨by decide, trivial, trivial⟩
  | tab => exact ⟨by decide, ⟨rfl, lawful_integer (by decide) (by decide)⟩, trivial⟩
  | icons => exact ⟨by decide, trivial, trivial, trivial, trivial⟩
  | payments => exact ⟨by decide, trivial, lawful_contribution, trivial⟩
  | contribution => exact lawful_contribution

lemma Exchanged.height_le {α : Type} {c : Codec α} (h : Exchanged c) : c.height ≤ depthLimit := by
  cases h <;> decide

lemma Exchanged.readText_text {α : Type} {c : Codec α} (h : Exchanged c) {a : α}
    (ha : c.hasDoubles → c.Exact a) : c.readText (c.text a) = .ok a := by
  refine Codec.readText_text h.lawful h.height_le ?_
  cases hc : c.hasDoubles with
  | false => exact c.exact_of_no_doubles a hc
  | true => exact ha hc

lemma exact_contribution {c : Payments.Contribution} (hp : Exact c.percentage)
    (ha : Exact c.amount) : Payments.Contribution.codec.Exact c :=
  ⟨trivial, hp, trivial, trivial, trivial, trivial, trivial, trivial, ha, trivial, trivial,
    trivial, trivial⟩

lemma exact_state {s : Payments.State}
    (h : ∀ c ∈ s.pendingContributions, Payments.Contribution.codec.Exact c) :
    Payments.State.codec.Exact s :=
  ⟨trivial, h, trivial⟩

/-- **Reading undoes writing** for everything that is sent or stored: a value comes back from its
own text in all its parts, if its doubles do; and a text that is read is written in a form that
is read and written again as it is. -/
theorem reading_undoes_writing {α : Type} {c : Codec α} (h : Exchanged c) :
    (∀ a, (c.hasDoubles → c.Exact a) → c.readText (c.text a) = .ok a) ∧
      ∀ t a, c.readText t = .ok a → (c.hasDoubles → c.Exact a) →
        (c.readText (c.text a)).map c.text = .ok (c.text a) := by
  refine ⟨fun a ha => h.readText_text ha, fun t a _ ha => ?_⟩
  rw [h.readText_text ha]
  rfl

/-- The double `0.1`. -/
def tenth : Binary64 := ⟨false, 7205759403792794, 1018, by decide, by decide, by decide⟩

lemma exact_tenth : Exact tenth :=
  exact_of_digits (d := ⟨1, -1⟩) 1073 (by decide +kernel) (by decide +kernel) (by decide +kernel)
    (by decide +kernel)

/-- A tenth, minus zero, the least integer and a name with an escape of every kind come back. -/
theorem reading_undoes_writing_of_contribution :
    let name := String.ofList ['é', '"', '\\', '\n', Char.ofNat 1, Char.ofNat 0x1F600]
    let c : Payments.Contribution := ⟨"key", tenth, true, ⟨-2147483648, by decide⟩, name, "", "",
      "", .zero true, ⟨4294967295, by decide⟩, "", ⟨0, by decide⟩⟩
    let s : Payments.State := ⟨true, [c]⟩
    Exchanged Payments.State.codec ∧ Payments.State.codec.Exact s ∧
      Payments.State.codec.readText (Payments.State.codec.text s) = .ok s := by
  intro name c s
  have hs : Payments.State.codec.Exact s := by
    refine exact_state fun a ha => ?_
    rw [List.mem_singleton.mp ha]
    exact exact_contribution exact_tenth (exact_zero true)
  exact ⟨.payments, hs, (reading_undoes_writing .payments).1 s fun _ => hs⟩

end Tipping
