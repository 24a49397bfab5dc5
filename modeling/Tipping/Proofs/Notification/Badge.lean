import Tipping.Proofs.Config
import Tipping.Proofs.Notification.Turn

/-!
The badge, the state of a controller and the stored flag agree.

The three are written at different moments: a dismissal clears the badge at once and removes the
flag only when the host answers. The invariant says that the state is `dismissed` for as long as
some flight waits for that removal; whoever writes or rereads the flag in between could break it.
-/

namespace Tipping.Notification

open Session

/-- How a state shows, on the badge and in the stored flag. -/
def State.Shows (text : String) (shown flag : Option String) : State → Prop
  | fresh => shown = some text ∧ flag = some no
  | dismissed => shown = some ""
  | acknowledged => shown = none ∨ shown = some ""

/-- The event makes the badge refuse no text. -/
def Event.sparesTexts : Event → Bool
  | .outside (.plan ts _) => .text ∉ ts
  | _ => true

namespace Session

/-- A connection has read that the notification is pending, and its removal is not over. -/
def Dismissing (s : Session Memory) : Prop :=
  ∃ f ∈ s.flights, f.progress = .waiting .removingFlag

instance (s : Session Memory) : Decidable s.Dismissing :=
  inferInstanceAs (Decidable (∃ f ∈ s.flights, f.progress = .waiting .removingFlag))

/-- The badge takes every text, nobody else writes to the storage, and while a removal is out no
installation stores the flag and no start-up reads it. -/
structure Undisputed (s : Session Memory) (e : Event) : Prop where
  own : e.isOwn
  spares : e.sparesTexts
  apart : s.resumes? e = some .storingFlag ∨ s.resumes? e = some .readingFlagAtStartup →
    ¬ s.Dismissing

instance (s : Session Memory) (e : Event) : Decidable (Undisputed s e) :=
  decidable_of_iff
    ((e.isOwn ∧ e.sparesTexts) ∧
      (s.resumes? e = some .storingFlag ∨ s.resumes? e = some .readingFlagAtStartup →
        ¬ s.Dismissing))
    ⟨fun h => ⟨h.1.1, h.1.2, h.2⟩, fun h => ⟨⟨h.own, h.spares⟩, h.apart⟩⟩

/-- A removal that is out after an event that begins none was out before. -/
lemma dismissing_of_step {s : Session Memory} {e : Event} (h : ¬ s.Enters e .removingFlag) :
    (s.step e).Dismissing → s.Dismissing := by
  rintro ⟨f, hf, hp⟩
  rcases mem_flights_step hf with hf | ⟨op, -, rfl⟩ | ⟨g, hg, stage, he, -, rfl⟩
  · exact ⟨f, hf, hp⟩
  · cases hp
  · cases hp
    exact absurd he h

structure Agrees (s : Session Memory) : Prop where
  alone : s.Alone
  named : s.config.badgeText ≠ ""
  accepts : s.AcceptsTexts
  shows : s.state.Shows s.config.badgeText s.host.shown s.flag
  window : s.Dismissing → s.state = .dismissed

lemma agrees_new {settings : Option String} {m : Memory} (hm : m.shown = none)
    (ht : m.failures.lookup .text = none) :
    Agrees (.new (Config.load settings).config m) where
  alone := alone_new _ m
  named := badgeText_load settings
  accepts := ht
  shows := .inl hm
  window := by simp [Dismissing, new]

lemma accepts_step {s : Session Memory} {e : Event} (he : e.sparesTexts) (h : s.AcceptsTexts) :
    (s.step e).AcceptsTexts := by
  cases e with
  | outside c =>
    cases c with
    | plan ts failure => exact (Memory.lookup_planAll s.host failure (of_decide_eq_true he)).trans h
    | outOfOrder part b =>
      refine (Memory.lookup_planAll s.host _ ?_).trans h
      cases part <;> decide
    | _ => exact h
  | _ =>
    unfold AcceptsTexts
    rw [step_failures (by simp)]
    exact h

theorem agrees_step {s : Session Memory} {e : Event} (he : Undisputed s e) (h : Agrees s) :
    Agrees (s.step e) := by
  -- it is enough that the new state shows, and that it is `dismissed` while a removal is out
  have after {c : Nat} {σ : Option State} {flag text : Option String} (hc : c = 0)
      (hch : Changes s (s.step e) c σ flag text)
      (hshows : (σ.getD s.state).Shows s.config.badgeText (text.or s.host.shown) flag)
      (hwindow : (s.step e).Dismissing → σ.getD s.state = .dismissed) : Agrees (s.step e) := by
    have hσ := h.alone.state_eq hc hch
    refine ⟨alone_step he.own h.alone, step_config s e ▸ h.named,
      accepts_step he.spares h.accepts, ?_, fun hd => hσ.trans (hwindow hd)⟩
    rw [step_config, hσ, hch.shown h.accepts, hch.flag]
    exact hshows
  by_cases hent : s.Enters e .removingFlag
  · obtain ⟨id, f, rfl, hf, -, hch⟩ := hent.removing
    exact after (h.alone.controller hf) hch rfl fun _ => rfl
  have hwin : (s.step e).Dismissing → s.Dismissing := dismissing_of_step hent
  have hsame : (s.step e).Dismissing → s.state = .dismissed := fun hd => h.window (hwin hd)
  rcases step_cases he.own with ⟨id, f, stage, rfl, hf, hp, turn⟩ | ⟨-, hch⟩
  · have hc := h.alone.controller hf
    have hst := resumes?_resume hf hp
    cases turn with
    | refused _ hch => exact after hc hch h.shows hsame
    | installed hch =>
      exact after hc hch ⟨rfl, rfl⟩ fun hd => absurd (hwin hd) (he.apart (.inl hst))
    | recalled hflag hch =>
      exact after hc hch ⟨rfl, hflag⟩ fun hd => absurd (hwin hd) (he.apart (.inr hst))
    | acknowledged hflag hch =>
      refine after hc hch ?_ fun hd => absurd (hwin hd) (he.apart (.inr hst))
      have hs := h.shows
      cases hσ : s.state with
      | fresh => rw [hσ] at hs; exact absurd hs.2 hflag
      | dismissed => rw [hσ] at hs; exact .inr hs
      | acknowledged => rw [hσ] at hs; exact hs
    | dismissed _ hch => exact after hc hch rfl fun _ => rfl
    | declined _ hch => exact after hc hch h.shows hsame
    | removed hch =>
      have hσ : s.state = .dismissed := h.window ⟨f, (mem_of_flight? hf).1, hp⟩
      have hs := h.shows
      refine after hc hch ?_ hsame
      rw [hσ] at hs ⊢
      exact hs
    | aside _ hch => exact after hc hch h.shows hsame
  · exact after rfl hch h.shows hsame

end Session

/-- **Badge, state and flag agree.** At every point of a run in which no installation stores the
flag and no start-up reads it while a removal is out, the badge shows the configured text exactly
while the state is `fresh`, and the flag says so then; it is cleared while the state is
`dismissed`, and nothing is on it while the state is `acknowledged`. -/
theorem badge_agrees (settings : Option String) (m : Memory) (es : List Event)
    (hm : m.shown = none) (ht : m.failures.lookup .text = none)
    (hes : (Session.new (Config.load settings).config m).Obeys Undisputed es) :
    let config := (Config.load settings).config
    let s := (Session.new config m).run es
    (s.state = .fresh ↔ s.host.shown = some config.badgeText) ∧
      (s.state = .fresh → s.flag = some no) ∧
      (s.state = .dismissed → s.host.shown = some "") ∧
      (s.state = .acknowledged → s.host.shown = none ∨ s.host.shown = some "") := by
  intro config s
  have h : Agrees s ∧ s.config = config :=
    run_inv (P := fun s => Agrees s ∧ s.config = config)
      (fun s e he h => ⟨agrees_step he h.1, (step_config s e).trans h.2⟩) hes
      ⟨agrees_new hm ht, rfl⟩
  obtain ⟨h, hconf⟩ := h
  have hne := h.named
  have hs := h.shows
  rw [hconf] at hne hs
  cases hσ : s.state with
  | fresh =>
    rw [hσ] at hs
    simp [hs.1, hs.2]
  | dismissed =>
    rw [hσ] at hs
    have hs : s.host.shown = some "" := hs
    simp [hs, Ne.symm hne]
  | acknowledged =>
    rw [hσ] at hs
    have hs : s.host.shown = none ∨ s.host.shown = some "" := hs
    rcases hs with hs | hs <;> simp [hs, Ne.symm hne]

/-- A connection whose removal fails leaves the flag, and the next start-up shows the badge. -/
theorem badge_agrees_after_failed_removal :
    let m : Memory := ⟨[(dismissedKey, no)], none, none, none, [], none, false, []⟩
    let es : List Event := [.hold .connect, .hold .startup, .start 0, .start 1, .resume 1,
      .resume 0, .resume 0, .outside (.outOfOrder .writes true), .hold (.installed "install"),
      .start 2, .resume 0, .resume 2, .hold .startup, .start 3, .resume 3]
    let s := (Session.new (Config.load none).config m).run es
    (m.shown = none ∧ m.failures.lookup .text = none ∧
      (Session.new (Config.load none).config m).Obeys Undisputed es) ∧
      s.state = .fresh ∧ s.host.shown = some "1" ∧ s.flag = some no := by
  intro m es
  have hes : (Session.new (Config.load none).config m).Obeys Undisputed es := by decide +kernel
  have hσ : ((Session.new (Config.load none).config m).run es).state = .fresh := by decide +kernel
  have hb : (Config.load none).config.badgeText = "1" := rfl
  obtain ⟨hshown, hflag, -, -⟩ := badge_agrees none m es rfl rfl hes
  rw [hb] at hshown
  exact ⟨⟨rfl, rfl, hes⟩, hσ, hshown.mp hσ, hflag hσ⟩

end Tipping.Notification
