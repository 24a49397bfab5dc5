import Tipping.Proofs.Notification.Badge

/-!
Restarts are safe.

A new controller knows neither what is on the badge nor what the flights of earlier ones are still
about to do, so its state says nothing of them. What survives is a link between the badge and the
stored flag alone: the text shows only while the flag says so, and never while a removal is out.
-/

namespace Tipping.Notification

open Session

/-- Nobody else writes to the storage. -/
def Event.sparesItems : Event → Bool
  | .outside (.set _ _) => false
  | .outside (.unset _) => false
  | _ => true

lemma Event.isOwn_or_restart {e : Event} (h : e.sparesItems) : e.isOwn ∨ e = .restart := by
  cases e with
  | restart => exact .inr rfl
  | outside c => cases c <;> first | exact .inl rfl | cases h
  | _ => exact .inl rfl

namespace Session

/-- The badge takes every text, nobody else writes to the storage, and while a removal is out no
installation of any controller stores the flag and no start-up of any reads it. -/
structure Unraced (s : Session Memory) (e : Event) : Prop where
  sparesItems : e.sparesItems
  sparesTexts : e.sparesTexts
  apart : s.resumes? e = some .storingFlag ∨ s.resumes? e = some .readingFlagAtStartup →
    ¬ s.Dismissing

instance (s : Session Memory) (e : Event) : Decidable (Unraced s e) :=
  decidable_of_iff
    ((e.sparesItems ∧ e.sparesTexts) ∧
      (s.resumes? e = some .storingFlag ∨ s.resumes? e = some .readingFlagAtStartup →
        ¬ s.Dismissing))
    ⟨fun h => ⟨h.1.1, h.1.2, h.2⟩, fun h => ⟨⟨h.sparesItems, h.sparesTexts⟩, h.apart⟩⟩

/-- The badge and the flag, whatever the controllers remember. -/
structure Linked (s : Session Memory) : Prop where
  named : s.config.badgeText ≠ ""
  accepts : s.AcceptsTexts
  shows : s.host.shown = some s.config.badgeText → s.flag = some no
  window : s.Dismissing → s.host.shown ≠ some s.config.badgeText
  started : s.states ≠ []
  manned : ∀ f ∈ s.flights, f.controller < s.states.length

lemma linked_new {settings : Option String} {m : Memory} (hm : m.shown = none)
    (ht : m.failures.lookup .text = none) :
    Linked (.new (Config.load settings).config m) where
  named := badgeText_load settings
  accepts := ht
  shows := by simp [new, hm]
  window := by simp [Dismissing, new]
  started := by simp [new]
  manned := by simp [new]

/-- Every flight has a controller, when the event takes none away. -/
lemma manned_step {s : Session Memory} {e : Event} (hs : s.states ≠ [])
    (hle : s.states.length ≤ (s.step e).states.length)
    (h : ∀ f ∈ s.flights, f.controller < s.states.length) :
    ∀ f ∈ (s.step e).flights, f.controller < (s.step e).states.length := by
  intro f hf
  rcases mem_flights_step hf with hf | ⟨op, -, rfl⟩ | ⟨g, hg, stage, -, -, rfl⟩
  · exact Nat.lt_of_lt_of_le (h f hf) hle
  · have := List.length_pos_iff.mpr hs
    simp only [current]
    omega
  · exact Nat.lt_of_lt_of_le (h g hg) hle

lemma Changes.length_states {s s' : Session Memory} {c : Nat} {σ : Option State}
    {flag text : Option String} (h : Changes s s' c σ flag text) :
    s'.states.length = s.states.length := by
  rw [h.states]
  cases σ <;> simp

lemma length_states_step {s : Session Memory} {e : Event} (he : e.isOwn) :
    (s.step e).states.length = s.states.length := by
  rcases step_cases he with ⟨id, f, stage, -, -, -, turn⟩ | ⟨-, hch⟩
  · obtain ⟨σ, flag, text, hch⟩ := turn.changes
    exact hch.length_states
  · exact hch.length_states

lemma linked_restart {s : Session Memory} (h : Linked s) : Linked (s.step .restart) := by
  refine ⟨h.named, h.accepts, h.shows, h.window, by simp [step, restart], fun f hf => ?_⟩
  have hlt := h.manned f hf
  simp only [step, restart, List.length_append, List.length_singleton]
  omega

theorem linked_step {s : Session Memory} {e : Event} (he : Unraced s e) (h : Linked s) :
    Linked (s.step e) := by
  rcases Event.isOwn_or_restart he.sparesItems with own | rfl
  · have hlen := length_states_step (s := s) own
    -- it is enough that the text shows only with the flag, and not while a removal is out
    have after {c : Nat} {σ : Option State} {flag text : Option String}
        (hch : Changes s (s.step e) c σ flag text)
        (hshows : text.or s.host.shown = some s.config.badgeText → flag = some no)
        (hwindow : (s.step e).Dismissing → text.or s.host.shown ≠ some s.config.badgeText) :
        Linked (s.step e) := by
      refine ⟨step_config s e ▸ h.named, accepts_step he.sparesTexts h.accepts, ?_, ?_, ?_, ?_⟩
      · rw [step_config, hch.shown h.accepts, hch.flag]
        exact hshows
      · rw [step_config, hch.shown h.accepts]
        exact hwindow
      · rw [← List.length_pos_iff, hlen]
        exact List.length_pos_iff.mpr h.started
      · exact manned_step h.started (Nat.le_of_eq hlen.symm) h.manned
    have hclear : some "" ≠ some s.config.badgeText := fun he => h.named (Option.some.inj he).symm
    by_cases hent : s.Enters e .removingFlag
    · obtain ⟨id, f, -, -, -, hch⟩ := hent.removing
      exact after hch (fun ht => absurd ht hclear) fun _ => hclear
    have hwin : (s.step e).Dismissing → s.Dismissing := dismissing_of_step hent
    have hsame : (s.step e).Dismissing → s.host.shown ≠ some s.config.badgeText :=
      fun hd => h.window (hwin hd)
    rcases step_cases own with ⟨id, f, stage, rfl, hf, hp, turn⟩ | ⟨-, hch⟩
    · have hst := resumes?_resume hf hp
      cases turn with
      | refused _ hch => exact after hch h.shows hsame
      | installed hch =>
        exact after hch (fun _ => rfl) fun hd => absurd (hwin hd) (he.apart (.inl hst))
      | recalled hflag hch =>
        exact after hch (fun _ => hflag) fun hd => absurd (hwin hd) (he.apart (.inr hst))
      | acknowledged _ hch => exact after hch h.shows hsame
      | dismissed _ hch => exact after hch (fun ht => absurd ht hclear) fun _ => hclear
      | declined _ hch => exact after hch h.shows hsame
      | removed hch =>
        -- the flight that removed the flag was out, so the text was not on the badge
        have hout : s.Dismissing := ⟨f, (mem_of_flight? hf).1, hp⟩
        exact after hch (fun ht => absurd ht (h.window hout)) hsame
      | aside _ hch => exact after hch h.shows hsame
    · exact after hch h.shows hsame
  · exact linked_restart h

end Session

/-- **Restarts are safe.** However many controllers come and go on one host, at every point of a
run in which no installation stores the flag and no start-up reads it while a removal is out, the
badge shows the configured text only if the stored flag says so. And right after a start-up that
could read the flag the badge, the flag and the state of its own controller agree. -/
theorem restart_safe (settings : Option String) (m : Memory) (es : List Event)
    (hm : m.shown = none) (ht : m.failures.lookup .text = none)
    (hes : (Session.new (Config.load settings).config m).Obeys Unraced es) :
    let config := (Config.load settings).config
    let s := (Session.new config m).run es
    (s.host.shown = some config.badgeText → s.flag = some no) ∧
      ∀ id f, s.flight? id = some f → f.progress = .waiting .readingFlagAtStartup →
        Unraced s (.resume id) → s.host.planned? (Memory.targets (.get dismissedKey)) = none →
        let s' := s.step (.resume id)
        (s'.host.shown = some config.badgeText ↔ s'.flag = some no) ∧
          (s'.flag = some no ↔ s'.states[f.controller]? = some .fresh) ∧
          (s'.flag ≠ some no → s'.states[f.controller]? = some .acknowledged) := by
  intro config s
  have h : Linked s ∧ s.config = config :=
    run_inv (P := fun s => Linked s ∧ s.config = config)
      (fun s e he h => ⟨linked_step he h.1, (step_config s e).trans h.2⟩) hes
      ⟨linked_new hm ht, rfl⟩
  obtain ⟨h, hconf⟩ := h
  refine ⟨hconf ▸ h.shows, fun id f hf hp he hread => ?_⟩
  intro s'
  have h' : Linked s' := linked_step he h
  have hconf' : s'.config = config := (step_config s _).trans hconf
  have hshows : s'.host.shown = some config.badgeText → s'.flag = some no := hconf' ▸ h'.shows
  have hc : f.controller < s.states.length := h.manned f (mem_of_flight? hf).1
  cases turn_resume hf hp with
  | refused failure _ => exact absurd hread failure
  | recalled hflag hch =>
    have hq : s'.flag = some no := hch.flag.trans hflag
    have hσ : s'.states[f.controller]? = some .fresh := by simp [s', hch.states, hc]
    have hshown : s'.host.shown = some config.badgeText :=
      hconf ▸ (hch.shown h.accepts).trans rfl
    simp [hq, hσ, hshown]
  | acknowledged hflag hch =>
    have hq : s'.flag ≠ some no := fun hq => hflag (hch.flag.symm.trans hq)
    have hσ : s'.states[f.controller]? = some .acknowledged := by simp [s', hch.states, hc]
    simp [hq, hσ, mt hshows hq]
  | aside hs _ => simp at hs

/-- A dismissal is cut off before its removal; the next controller shows the notification again,
while a start-up of the first is still under way. -/
theorem restart_safe_after_cut_off_dismissal :
    let m : Memory := ⟨[(dismissedKey, no)], none, none, none, [], none, false, []⟩
    let es : List Event := [.hold .startup, .start 0, .hold .connect, .start 1, .resume 1,
      .resume 1, .drop 1, .restart, .hold .startup, .start 2]
    let f : Flight := ⟨2, 1, .waiting .readingFlagAtStartup⟩
    let s := (Session.new (Config.load none).config m).run es
    (m.shown = none ∧ m.failures.lookup .text = none ∧
      (Session.new (Config.load none).config m).Obeys Unraced es ∧ s.flight? 2 = some f ∧
      Unraced s (.resume 2) ∧ s.host.planned? (Memory.targets (.get dismissedKey)) = none) ∧
      s.host.shown = some "" ∧ (s.step (.resume 2)).flag = some no ∧
      (s.step (.resume 2)).host.shown = some "1" ∧
      (s.step (.resume 2)).states = [.dismissed, .fresh] := by
  intro m es f s
  have hes : (Session.new (Config.load none).config m).Obeys Unraced es := by decide +kernel
  have hf : s.flight? 2 = some f := by decide +kernel
  have he : Unraced s (.resume 2) := by decide +kernel
  have hr : s.host.planned? (Memory.targets (.get dismissedKey)) = none := by decide +kernel
  have hq : (s.step (.resume 2)).flag = some no := by decide +kernel
  have hb : (Config.load none).config.badgeText = "1" := rfl
  obtain ⟨hshown, -, -⟩ := (restart_safe none m es rfl rfl hes).2 2 f hf rfl he hr
  rw [hb, show (Session.new (Config.load none).config m).run es = s from rfl] at hshown
  have hclear : s.host.shown = some "" := by decide +kernel
  have hσ : (s.step (.resume 2)).states = [.dismissed, .fresh] := by decide +kernel
  exact ⟨⟨rfl, rfl, hes, hf, he, hr⟩, hclear, hq, hshown.mpr hq, hσ⟩

end Tipping.Notification
