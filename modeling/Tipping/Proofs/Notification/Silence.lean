import Tipping.Proofs.Notification.Storage

/-!
With no notification pending, nothing is ever shown.

The badge is told a text, a state changes and the flag is removed only by a flight that has read
the flag as pending or has just stored it so. Nobody but an installation stores it; so a flag that
does not read as pending keeps every operation from all of these.
-/

namespace Tipping.Notification

/-- The operation that is called, if any. -/
def Impulse.operation? : Impulse → Option Operation
  | event e => e.operation?
  | call _ op => some op

namespace Session

/-- The flag does not read as pending and is as it was, nothing was shown, no controller knows of a
notification, and no flight is about to store the flag or to remove it. -/
structure Silent (flag : Option String) (s : Session Memory) : Prop where
  kept : s.flag = flag
  settled : flag ≠ some no
  states : ∀ σ ∈ s.states, σ = .acknowledged
  texts : s.texts = []
  uninstalled : ∀ f ∈ s.flights, f.progress.operation ≠ .installed "install"
  keeping : ∀ f ∈ s.flights, f.progress ≠ .waiting .removingFlag

lemma silent_new (config : Config) {m : Memory} (hm : m.items.lookup dismissedKey ≠ some no) :
    Silent (m.items.lookup dismissedKey) (.new config m) := by
  refine ⟨rfl, hm, ?_, rfl, ?_, ?_⟩ <;> simp [new]

variable {s : Session Memory} {flag : Option String}

/-- In silence an event acknowledges at most. -/
lemma Silent.changes (h : Silent flag s) {e : Event} (he : e.isOwn) :
    ∃ c σ, (σ = none ∨ σ = some .acknowledged) ∧ Changes s (s.step e) c σ flag none := by
  have hsettled : s.flag ≠ some no := h.kept ▸ h.settled
  rw [← h.kept]
  rcases step_cases he with ⟨id, f, stage, rfl, hf, hp, turn⟩ | ⟨-, hch⟩
  · have hmem := (mem_of_flight? hf).1
    cases turn with
    | refused _ hch => exact ⟨_, _, .inl rfl, hch⟩
    | installed _ =>
      refine absurd ?_ (h.uninstalled f hmem)
      rw [hp]
      rfl
    | recalled hpending _ => exact absurd hpending hsettled
    | acknowledged _ hch => exact ⟨_, _, .inr rfl, hch⟩
    | dismissed hpending _ => exact absurd hpending hsettled
    | declined _ hch => exact ⟨_, _, .inl rfl, hch⟩
    | removed _ => exact absurd hp (h.keeping f hmem)
    | aside _ hch => exact ⟨_, _, .inl rfl, hch⟩
  · exact ⟨_, _, .inl rfl, hch⟩

lemma Changes.acknowledged {s' : Session Memory} {c : Nat} {σ : Option State}
    {text : Option String} (hch : Changes s s' c σ flag text)
    (hσ : σ = none ∨ σ = some .acknowledged) (h : ∀ σ ∈ s.states, σ = .acknowledged) :
    ∀ σ ∈ s'.states, σ = .acknowledged := by
  intro σ' hmem
  rw [hch.states] at hmem
  rcases hσ with rfl | rfl
  · exact h σ' hmem
  · exact (List.mem_or_eq_of_mem_set hmem).elim (h σ') id

theorem silent_step {e : Event} (h : Silent flag s) (hspares : e.sparesItems)
    (he : e.operation? ≠ some (.installed "install")) : Silent flag (s.step e) := by
  have huninstalled : ∀ f ∈ (s.step e).flights, f.progress.operation ≠ .installed "install" :=
    operations_step (P := (· ≠ .installed "install")) (fun op hop heq => he (heq ▸ hop))
      h.uninstalled
  have hkeeping : ∀ f ∈ (s.step e).flights, f.progress ≠ .waiting .removingFlag := by
    intro f hf hp
    have hent : ¬ s.Enters e .removingFlag := fun hent => h.settled (h.kept ▸ hent.pending)
    obtain ⟨g, hg, hq⟩ := dismissing_of_step hent ⟨f, hf, hp⟩
    exact h.keeping g hg hq
  rcases Event.isOwn_or_restart hspares with own | rfl
  · obtain ⟨c, σ, hσ, hch⟩ := h.changes own
    refine ⟨hch.flag, h.settled, hch.acknowledged hσ h.states, ?_, huninstalled, hkeeping⟩
    rw [hch.texts, h.texts]
    rfl
  · refine ⟨h.kept, h.settled, fun σ hσ => ?_, h.texts, huninstalled, hkeeping⟩
    rcases List.mem_append.mp hσ with hσ | hσ
    · exact h.states σ hσ
    · exact List.mem_singleton.mp hσ

lemma silent_call (h : Silent flag s) (c : Nat) {op : Operation}
    (hop : op ≠ .installed "install") : Silent flag (s.call c op) := by
  have htexts : (s.call c op).texts = s.texts := by
    simp [call, note, Session.texts, Happening.text?]
  refine ⟨h.kept, h.settled, h.states, htexts.trans h.texts, fun f hf => ?_, fun f hf => ?_⟩ <;>
    rcases List.mem_append.mp hf with hf | hf
  · exact h.uninstalled f hf
  · rw [List.mem_singleton.mp hf]
    exact hop
  · exact h.keeping f hf
  · rw [List.mem_singleton.mp hf]
    simp

theorem silent_undergo {i : Impulse} (h : Silent flag s) (hspares : i.sparesItems)
    (hi : i.operation? ≠ some (.installed "install")) : Silent flag (s.undergo i) := by
  cases i with
  | event e => exact silent_step h hspares hi
  | call c op => exact silent_call h c fun hop => hi (congrArg some hop)

lemma silent_foldl {is : List Impulse} (h : Silent flag s)
    (his : ∀ i ∈ is, i.sparesItems ∧ i.operation? ≠ some (.installed "install")) :
    Silent flag (is.foldl undergo s) := by
  induction is generalizing s with
  | nil => exact h
  | cons i is ih =>
    obtain ⟨hspares, hi⟩ := his i List.mem_cons_self
    exact ih (silent_undergo h hspares hi) fun j hj => his j (List.mem_cons_of_mem _ hj)

/-- What a flight told the badge is among the texts. -/
lemma mem_texts_of_told {id : Nat} {text : String} (h : .told (.text text) ∈ s.doings id) :
    text ∈ s.texts := by
  obtain ⟨happening, hmem, hdoing⟩ := List.mem_filterMap.mp h
  refine List.mem_filterMap.mpr ⟨happening, hmem, ?_⟩
  cases happening with
  | notified flight n o =>
    simp only [Happening.doing?] at hdoing
    split at hdoing <;> cases hdoing
    rfl
  | became c σ => cases hdoing
  | logged r => cases hdoing
  | _ => simp only [Happening.doing?] at hdoing; split at hdoing <;> cases hdoing

/-- Whoever asks to remove the flag has told the badge to clear. -/
lemma Silent.not_removes (h : Silent flag s) (hr : Recorded s) (id : Nat) :
    ¬ Removes dismissedKey (s.doings id) := by
  intro hremoves
  obtain ⟨-, o, rest, hdoings, -⟩ := hr.removed id dismissedKey hremoves
  have htold : .told (.text "") ∈ s.doings id := by
    rw [hdoings]
    simp [dismissal]
  have hmem := mem_texts_of_told htold
  rw [h.texts] at hmem
  cases hmem

end Session

/-- **No pending notification, no badge.** On a host whose flag is absent or anything but
`"false"`, and that nobody else writes to: however the operations of several controllers
interleave, and whatever fails, is dropped or restarted, the badge is told no text, every
controller stays `acknowledged`, and the flag stays as it was and is never to be removed, as long
as nothing is installed afresh. -/
theorem no_badge_unless_pending (config : Config) (m : Memory) (is : List Impulse)
    (hm : m.items.lookup dismissedKey ≠ some no)
    (his : ∀ i ∈ is, i.sparesItems ∧ i.operation? ≠ some (.installed "install")) :
    let s := is.foldl Session.undergo (.new config m)
    s.texts = [] ∧ (∀ σ ∈ s.states, σ = .acknowledged ∧ σ.badgeText s.config = "") ∧
      s.flag = m.items.lookup dismissedKey ∧ ∀ id, ¬ Removes dismissedKey (s.doings id) := by
  intro s
  have h : Session.Silent (m.items.lookup dismissedKey) s :=
    Session.silent_foldl (Session.silent_new config hm) his
  have hr : Session.Recorded s := (Session.traced_foldl fun i hi => (his i hi).1).1
  refine ⟨h.texts, fun σ hσ => ?_, h.kept, h.not_removes hr⟩
  rw [h.states σ hσ]
  exact ⟨rfl, rfl⟩

/-- The flag is all but `"false"`. Two controllers start up, connect and hear of an update, while
reads fail for a time and a connection is dropped before it reads the flag. -/
theorem no_badge_unless_pending_at_near_miss :
    let m : Memory := ⟨[(dismissedKey, "False")], none, none, none, [], none, false, []⟩
    let is : List Impulse := [.event .setUp, .call 0 .startup, .call 0 .connect,
      .event (.start 0), .event (.start 1), .event (.outside (.outOfOrder .reads true)),
      .event (.resume 0), .event (.resume 1), .event .restart, .call 1 (.installed "update"),
      .event (.start 2), .event (.outside (.outOfOrder .reads false)), .call 1 .startup,
      .event (.resume 1), .event (.start 3), .event (.resume 3), .call 0 .connect,
      .event (.start 4), .event (.drop 4)]
    let s := is.foldl Session.undergo (.new Config.initial m)
    (m.items.lookup dismissedKey ≠ some no ∧
      ∀ i ∈ is, i.sparesItems ∧ i.operation? ≠ some (.installed "install")) ∧
      s.flights = [] ∧ s.texts = [] ∧ s.states = [.acknowledged, .acknowledged] ∧
      s.flag = some "False" ∧ ∀ id, ¬ Removes dismissedKey (s.doings id) := by
  intro m is s
  have hm : m.items.lookup dismissedKey ≠ some no := by decide
  have his : ∀ i ∈ is, i.sparesItems ∧ i.operation? ≠ some (.installed "install") := by decide
  obtain ⟨htexts, -, hflag, hkept⟩ := no_badge_unless_pending Config.initial m is hm his
  exact ⟨⟨hm, his⟩, by decide +kernel, htexts, by decide +kernel, hflag, hkept⟩

end Tipping.Notification
