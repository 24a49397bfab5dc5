import Tipping.Proofs.Config
import Tipping.Proofs.Json.Retelling
import Tipping.Proofs.RoundTrip

/-!
What is read from a text is a matter of the fields that it gives.
-/

namespace Tipping

open Json Outcome

/-- The codecs of all that is read from texts. -/
inductive FromText : {α : Type} → Codec α → Prop where
  | exchanged {α : Type} {c : Codec α} (h : Exchanged c) : FromText c
  | config : FromText Config.codec

lemma FromText.lawful {α : Type} {c : Codec α} (h : FromText c) : c.Lawful := by
  cases h with
  | exchanged h => exact h.lawful
  | config =>
    exact ⟨by decide, trivial, trivial, ⟨by decide, trivial, trivial, trivial, trivial⟩,
      lawful_integer (by decide) (by decide), trivial, trivial⟩

/-- **Only the fields matter.** Let two texts of JSON tell the same in two ways: the members of an
object in another order, or with more among them that are no fields, or the first fields as the
items of an array, at the top or inside. Then both are refused, or both are read as the same value.
So it is with settings too, of which more is asked than that they can be read. -/
theorem only_fields_matter :
    (∀ (α : Type) (c : Codec α), FromText c → ∀ t t', c.Retold t t' → ∀ s s' : String,
      t.TextOf s.toList → t'.TextOf s'.toList → Agree (c.readText s) (c.readText s')) ∧
    ∀ t t', Config.codec.Retold t t' → ∀ s s' : String,
      t.TextOf s.toList → t'.TextOf s'.toList → Agree (Config.ofText s) (Config.ofText s') := by
  refine ⟨fun α c hc t t' h s s' hs hs' => h.agree_text hc.lawful hs hs', ?_⟩
  intro t t' h s s' hs hs'
  have hread := h.agree_text FromText.config.lawful hs hs'
  intro config
  rw [Config.ofText_eq_ok, Config.ofText_eq_ok, hread config]

/-- A state with one contribution. Its members change places, and so do those of the contribution,
between which comes a number beyond all doubles; or the contribution is an array. -/
theorem only_fields_matter_of_state :
    let key : ParseTree := .string (some "a")
    let share : ParseTree := .number ⟨true, [0], [0], none⟩
    let more : ParseTree :=
      .array [.object [(some "y", .number ⟨false, [1], [], some 999⟩)] none] none
    let enabled : Option String × ParseTree := (some "rewardsEnabled", .bool true)
    let pending (t : ParseTree) : Option String × ParseTree :=
      (some "pendingContributions", .array [t] none)
    let t : ParseTree := .object [enabled,
      pending (.object [(some "publisherKey", key), (some "percentage", share)] none)] none
    let t' : ParseTree := .object [pending (.object [(some "percentage", share), (some "x", more),
      (some "publisherKey", key)] none), enabled] none
    let t'' : ParseTree := .object [enabled, pending (.array [key, share] none)] none
    let s : Payments.State := ⟨true, [⟨"a", .zero true, false, .zero, "", "", "", "", .zero false,
      .zero, "", .zero⟩]⟩
    Payments.State.codec.Retold t t' ∧ Payments.State.codec.Retold t t'' ∧
      ∀ t₁ ∈ [t, t', t''], Payments.State.codec.readText (String.ofList t₁.text) = .ok s := by
  intro key share more enabled pending t t' t'' s
  have hpending : (Fields.cons "rewardsEnabled" .bool (some false)
      (.cons "pendingContributions" (.list Payments.Contribution.codec) (some []) .nil)).Has
        "pendingContributions" (.list Payments.Contribution.codec) :=
    .later (by decide) _ _ (.first _ _)
  have hmore : more.Unbroken := ⟨⟨⟨⟨trivial, trivial⟩, rfl⟩, trivial⟩, rfl⟩
  have hswapped : Payments.Contribution.codec.Retold
      (.object [(some "publisherKey", key), (some "percentage", share)] none)
      (.object [(some "percentage", share), (some "x", more), (some "publisherKey", key)] none) :=
    .trans (.permuted (.swap _ _ _)) (.joined [_] [_] (by decide) hmore)
  have ht' : Payments.State.codec.Retold t t' :=
    .trans (.permuted (.swap _ _ _)) (.field [] [enabled] hpending (.item [] [] hswapped))
  have ht'' : Payments.State.codec.Retold t t'' :=
    .field [enabled] [] hpending (.item [] [] (.symm (.items (by decide))))
  have hshare : Numeral.Plain ⟨true, [0], [0], none⟩ := ⟨by simp, by simp⟩
  have hlarge : Numeral.Plain ⟨false, [1], [], some 999⟩ := ⟨by simp, by simp⟩
  have htext {t₁ : ParseTree} (h : t₁.Whole) : t₁.TextOf (String.ofList t₁.text).toList := by
    rw [String.toList_ofList]
    exact h.textOf
  have hw : t.TextOf (String.ofList t.text).toList := htext
    ⟨⟨rfl, trivial, rfl, ⟨⟨⟨⟨rfl, rfl, rfl, hshare, trivial⟩, rfl⟩, trivial⟩, rfl⟩, trivial⟩, rfl⟩
  have hw' : t'.TextOf (String.ofList t'.text).toList := htext
    ⟨⟨rfl, ⟨⟨⟨⟨rfl, hshare, rfl, ⟨⟨⟨⟨rfl, hlarge, trivial⟩, rfl⟩, trivial⟩, rfl⟩, rfl, rfl,
      trivial⟩, rfl⟩, trivial⟩, rfl⟩, rfl, trivial, trivial⟩, rfl⟩
  have hw'' : t''.TextOf (String.ofList t''.text).toList := htext
    ⟨⟨rfl, trivial, rfl, ⟨⟨⟨⟨rfl, hshare, trivial⟩, rfl⟩, trivial⟩, rfl⟩, trivial⟩, rfl⟩
  have hread : Payments.State.codec.readText (String.ofList t.text) = .ok s := by
    decide +kernel
  have hagree := only_fields_matter.1 _ Payments.State.codec (.exchanged .payments)
  refine ⟨ht', ht'', ?_⟩
  simp only [List.forall_mem_cons]
  exact ⟨hread, (hagree t t' ht' _ _ hw hw' s).mp hread, (hagree t t'' ht'' _ _ hw hw'' s).mp hread,
    nofun⟩

end Tipping
