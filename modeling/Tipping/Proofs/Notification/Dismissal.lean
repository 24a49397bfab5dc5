import Tipping.Proofs.Notification.Badge

/-!
When a dismissed notification comes back in the same session.

A dismissal is over only when the host has removed the flag. With no failure and no installation
the flag reads as pending until the first removal is over, and is absent from then on; so a
start-up brings the notification back exactly if it reads the flag before that.
-/

namespace Tipping.Notification

/-- No installation, no flight dropped, no new controller, and the host only answers. -/
def Event.isCalm : Event → Bool
  | .hold (.installed _) => false
  | .drop _ => false
  | .restart => false
  | .outside (.tab _) => true
  | .outside (.enabled _) => true
  | .outside _ => false
  | _ => true

lemma Event.isOwn_of_isCalm {e : Event} (h : e.isCalm) : e.isOwn := by
  cases e with
  | outside c => cases c <;> first | rfl | cases h
  | restart => cases h
  | _ => rfl

namespace Session

/-- In a run some flight that waited at the stage is carried on. -/
def ResumesAt (stage : Stage) : Session Memory → List Event → Prop
  | _, [] => False
  | s, e :: es => s.resumes? e = some stage ∨ ResumesAt stage (s.step e) es

instance decidableResumesAt (stage : Stage) : ∀ s es, Decidable (ResumesAt stage s es)
  | _, [] => .isFalse id
  | s, e :: es =>
    have := decidableResumesAt stage (s.step e) es
    inferInstanceAs (Decidable (s.resumes? e = some stage ∨ ResumesAt stage (s.step e) es))

lemma resumesAt_append_singleton (stage : Stage) (s : Session Memory) (es : List Event)
    (e : Event) :
    s.ResumesAt stage (es ++ [e]) ↔ s.ResumesAt stage es ∨ (s.run es).resumes? e = some stage := by
  induction es generalizing s with
  | nil => simp [ResumesAt]
  | cons e' es ih => simp [ResumesAt, ih, or_assoc]

/-- The host refuses nothing, and no flight installs. -/
structure Calm (s : Session Memory) : Prop where
  alone : s.Alone
  willing : s.host.failures = []
  uninstalled : ∀ f ∈ s.flights,
    f.progress ≠ .waiting .storingFlag ∧ ∀ reason, f.progress ≠ .held (.installed reason)

lemma calm_new {config : Config} {m : Memory} (hm : m.failures = []) : Calm (.new config m) :=
  ⟨alone_new config m, hm, by simp [new]⟩

lemma Enters.storing {s : Session Memory} {e : Event} (h : s.Enters e .storingFlag) :
    ∃ f ∈ s.flights, ∃ reason, f.progress = .held (.installed reason) := by
  cases h with
  | @start id f op _ hf hp hn =>
    cases op with
    | installed reason => exact ⟨f, (mem_of_flight? hf).1, reason, hp⟩
    | _ => cases hn
  | @resume id f before _ hf hp hn =>
    cases before <;> simp only [Stage.resume] at hn <;> (repeat' split at hn) <;> cases hn

lemma calm_step {s : Session Memory} {e : Event} (he : e.isCalm) (h : Calm s) :
    Calm (s.step e) := by
  refine ⟨alone_step (Event.isOwn_of_isCalm he) h.alone, ?_, fun f hf => ?_⟩
  · cases e with
    | outside c =>
      cases c with
      | tab t => exact h.willing
      | enabled b => exact h.willing
      | _ => cases he
    | _ => rw [step_failures (by simp)]; exact h.willing
  · rcases mem_flights_step hf with hf | ⟨op, hop, rfl⟩ | ⟨g, hg, stage, hent, -, rfl⟩
    · exact h.uninstalled f hf
    · refine ⟨by simp, ?_⟩
      rintro reason ⟨⟩
      cases e with
      | hold op => cases hop; cases he
      | receive message rs => cases message <;> cases hop
      | _ => cases hop
    · refine ⟨?_, by simp⟩
      rintro ⟨⟩
      obtain ⟨f, hf, reason, hp⟩ := hent.storing
      exact (h.uninstalled f hf).2 reason hp

lemma Calm.planned? {s : Session Memory} (h : Calm s) (ts : List Target) :
    s.host.planned? ts = none := by
  simp [Memory.planned?, h.willing]

lemma Calm.ne_storing {s : Session Memory} (h : Calm s) {id : Nat} {f : Flight}
    (hf : s.flight? id = some f) : f.progress ≠ .waiting .storingFlag :=
  (h.uninstalled f (mem_of_flight? hf).1).1

/-- In a calm session the flag goes only by a removal. -/
lemma calm_flag {s : Session Memory} {e : Event} (he : e.isCalm) (h : Calm s) :
    (s.step e).flag = if s.resumes? e = some .removingFlag then none else s.flag := by
  rcases step_cases (Event.isOwn_of_isCalm he) with ⟨id, f, stage, rfl, hf, hp, turn⟩ | ⟨hr, hch⟩
  · rw [resumes?_resume hf hp]
    cases turn with
    | refused failure _ => exact absurd (h.planned? _) failure
    | installed _ => exact absurd hp (h.ne_storing hf)
    | recalled _ hch => simpa using hch.flag
    | acknowledged _ hch => simpa using hch.flag
    | dismissed _ hch => simpa using hch.flag
    | declined _ hch => simpa using hch.flag
    | removed hch => simpa using hch.flag
    | aside hs hch =>
      rw [hch.flag, if_neg]
      rcases hs with rfl | rfl | ⟨tip, rfl⟩ | rfl <;> simp
  · simpa [hr] using hch.flag

/-- In a calm session only a start-up that reads the flag as pending makes the state `fresh` or
shows the configured text, and a connection dismisses only then. -/
lemma calm_state {s : Session Memory} {e : Event} (he : e.isCalm) (h : Calm s) :
    (s.resumes? e = some .readingFlagAtStartup ∧ s.flag = some no ∧ (s.step e).state = .fresh ∧
      (s.step e).texts = s.texts ++ [s.config.badgeText]) ∨
    (s.resumes? e ≠ some .readingFlagAtStartup ∧ s.flag = some no ∧
      (s.step e).state = .dismissed ∧ (s.step e).texts = s.texts ++ [""]) ∨
    ((s.resumes? e = some .readingFlagAtStartup → s.flag ≠ some no) ∧
      ((s.step e).state = s.state ∨ (s.step e).state = .acknowledged) ∧
      (s.step e).texts = s.texts) := by
  rcases step_cases (Event.isOwn_of_isCalm he) with ⟨id, f, stage, rfl, hf, hp, turn⟩ | ⟨hr, hch⟩
  · have hc := h.alone.controller hf
    rw [resumes?_resume hf hp]
    cases turn with
    | refused failure _ => exact absurd (h.planned? _) failure
    | installed _ => exact absurd hp (h.ne_storing hf)
    | recalled hq hch => exact .inl ⟨rfl, hq, h.alone.state_eq hc hch, hch.texts⟩
    | acknowledged hq hch =>
      exact .inr (.inr ⟨fun _ => hq, .inr (h.alone.state_eq hc hch), by simpa using hch.texts⟩)
    | dismissed hq hch => exact .inr (.inl ⟨by simp, hq, h.alone.state_eq hc hch, hch.texts⟩)
    | declined _ hch =>
      exact .inr (.inr ⟨by simp, .inl (h.alone.state_eq hc hch), by simpa using hch.texts⟩)
    | removed hch =>
      exact .inr (.inr ⟨by simp, .inl (h.alone.state_eq hc hch), by simpa using hch.texts⟩)
    | aside hs hch =>
      refine .inr (.inr ⟨?_, .inl (h.alone.state_eq hc hch), by simpa using hch.texts⟩)
      rcases hs with rfl | rfl | ⟨tip, rfl⟩ | rfl <;> simp
  · exact .inr (.inr ⟨by simp [hr], .inl (h.alone.state_eq rfl hch), by simpa using hch.texts⟩)

/-- What a calm run has come to: the flag is as it was until a removal is over, and nothing was
dismissed unless it was pending from the start. -/
structure Past (s : Session Memory) (es : List Event) : Prop where
  calm : Calm (s.run es)
  removed : s.ResumesAt .removingFlag es → (s.run es).flag = none
  kept : ¬ s.ResumesAt .removingFlag es → (s.run es).flag = s.flag
  dismissed : (s.run es).state = .dismissed → s.flag = some no

lemma past_run {s : Session Memory} (hs : Calm s) (hd : s.state ≠ .dismissed) {es : List Event}
    (hes : ∀ e ∈ es, e.isCalm) : Past s es := by
  induction es using List.reverseRecOn with
  | nil => exact ⟨hs, False.elim, fun _ => rfl, fun h => absurd h hd⟩
  | append_singleton es e ih =>
    have he : e.isCalm := hes e (by simp)
    have ih := ih fun e' he' => hes e' (by simp [he'])
    have hflag := calm_flag he ih.calm
    have hpending : (s.run es).flag = some no → s.flag = some no := fun h => by
      rw [← ih.kept fun hr => by simp [ih.removed hr] at h]
      exact h
    refine ⟨?_, ?_, ?_, ?_⟩ <;> rw [run_concat]
    · exact calm_step he ih.calm
    · rw [resumesAt_append_singleton, hflag]
      rintro (hr | hr)
      · simp [ih.removed hr]
      · rw [if_pos hr]
    · rw [resumesAt_append_singleton, hflag, not_or]
      rintro ⟨hr, hne⟩
      rw [if_neg hne, ih.kept hr]
    · intro h
      rcases calm_state he ih.calm with ⟨-, -, hf, -⟩ | ⟨-, hq, -, -⟩ | ⟨-, hd | hd, -⟩
      · rw [hf] at h; cases h
      · exact hpending hq
      · exact ih.dismissed (hd ▸ h)
      · rw [hd] at h; cases h

/-- In `later`, a start-up reads the flag before any removal is over. -/
def Recalls (s : Session Memory) (before later : List Event) : Prop :=
  ∃ es e, es ++ [e] <+: later ∧ ¬ s.ResumesAt .removingFlag (before ++ es) ∧
    (s.run (before ++ es)).resumes? e = some .readingFlagAtStartup

lemma Recalls.mono {s : Session Memory} {before later later' : List Event}
    (h : later <+: later') : s.Recalls before later → s.Recalls before later' :=
  fun ⟨es, e, hp, hr⟩ => ⟨es, e, hp.trans h, hr⟩

/-- A step that brings the notification back is such a start-up. -/
lemma Past.recalls {s : Session Memory} {before es : List Event} {e : Event}
    (h : Past s (before ++ es))
    (hr : (s.run (before ++ es)).resumes? e = some .readingFlagAtStartup)
    (hq : (s.run (before ++ es)).flag = some no) : s.Recalls before (es ++ [e]) :=
  ⟨es, e, List.prefix_rfl, fun hrem => by simp [h.removed hrem] at hq, hr⟩

lemma recalls_of_fresh {s : Session Memory} {before later : List Event} (hs : Calm s)
    (hd : s.state ≠ .dismissed) (he : ∀ e ∈ before ++ later, e.isCalm)
    (hb : (s.run before).state ≠ .fresh) (h : (s.run (before ++ later)).state = .fresh) :
    s.Recalls before later := by
  induction later using List.reverseRecOn with
  | nil => exact absurd (by simpa using h) hb
  | append_singleton es e ih =>
    rw [← List.append_assoc] at he h
    have hes : ∀ e' ∈ before ++ es, e'.isCalm := fun e' he' => he e' (List.mem_append_left _ he')
    have hpast := past_run hs hd hes
    rw [run_concat] at h
    rcases calm_state (he e (by simp)) hpast.calm with
      ⟨hr, hq, -, -⟩ | ⟨-, -, hσ, -⟩ | ⟨-, hσ | hσ, -⟩
    · exact hpast.recalls hr hq
    · rw [hσ] at h; cases h
    · exact (ih hes (hσ ▸ h)).mono (List.prefix_append _ _)
    · rw [hσ] at h; cases h

lemma texts_prefix {s : Session Memory} {before later : List Event} (hs : Calm s)
    (hd : s.state ≠ .dismissed) (he : ∀ e ∈ before ++ later, e.isCalm) :
    (s.run before).texts <+: (s.run (before ++ later)).texts := by
  induction later using List.reverseRecOn with
  | nil => simp
  | append_singleton es e ih =>
    rw [← List.append_assoc] at he ⊢
    have hes : ∀ e' ∈ before ++ es, e'.isCalm := fun e' he' => he e' (List.mem_append_left _ he')
    refine (ih hes).trans ?_
    rw [run_concat]
    rcases calm_state (he e (by simp)) (past_run hs hd hes).calm with
      ⟨-, -, -, ht⟩ | ⟨-, -, -, ht⟩ | ⟨-, -, ht⟩ <;> simp [ht]

lemma recalls_of_text {s : Session Memory} {before later : List Event} (hs : Calm s)
    (hd : s.state ≠ .dismissed) (he : ∀ e ∈ before ++ later, e.isCalm)
    (hne : s.config.badgeText ≠ "")
    (h : s.config.badgeText ∈
      (s.run (before ++ later)).texts.drop (s.run before).texts.length) :
    s.Recalls before later := by
  induction later using List.reverseRecOn with
  | nil => simp at h
  | append_singleton es e ih =>
    rw [← List.append_assoc] at he h
    have hes : ∀ e' ∈ before ++ es, e'.isCalm := fun e' he' => he e' (List.mem_append_left _ he')
    have hpast := past_run hs hd hes
    have hpre := texts_prefix hs hd hes
    have hbefore := ih hes
    rw [run_concat] at h
    rcases calm_state (he e (by simp)) hpast.calm with
      ⟨hr, hq, -, -⟩ | ⟨-, -, -, ht⟩ | ⟨-, -, ht⟩
    · exact hpast.recalls hr hq
    · rw [ht, List.drop_append_of_le_length hpre.length_le, List.mem_append] at h
      rcases h with h | h
      · exact (hbefore h).mono (List.prefix_append _ _)
      · exact absurd (by simpa using h) hne
    · rw [ht] at h
      exact (hbefore h).mono (List.prefix_append _ _)

/-- The start-up that reads the flag before any removal is over does bring it back. -/
lemma Recalls.shown {s : Session Memory} {before later : List Event} (hs : Calm s)
    (hd : s.state ≠ .dismissed) (he : ∀ e ∈ before ++ later, e.isCalm)
    (hb : (s.run before).state = .dismissed) (h : s.Recalls before later) :
    (∃ es, es <+: later ∧ (s.run (before ++ es)).state = .fresh) ∧
      s.config.badgeText ∈
        (s.run (before ++ later)).texts.drop (s.run before).texts.length := by
  obtain ⟨es, e, ⟨rest, rfl⟩, hrem, hr⟩ := h
  have hes : ∀ e' ∈ before ++ es, e'.isCalm := fun e' he' => he e' (by simp at he' ⊢; tauto)
  have hstart := past_run hs hd fun e' he' => he e' (List.mem_append_left _ he')
  have hpast := past_run hs hd hes
  have hq : (s.run (before ++ es)).flag = some no := (hpast.kept hrem).trans (hstart.dismissed hb)
  have hpre := texts_prefix hs hd hes
  rw [← List.append_assoc, ← List.append_assoc] at he ⊢
  have hlater := texts_prefix hs hd he
  rw [run_concat] at hlater
  rcases calm_state (he e (by simp)) hpast.calm with ⟨-, -, hσ, ht⟩ | ⟨hn, -⟩ | ⟨hn, -⟩
  · refine ⟨⟨es ++ [e], List.prefix_append _ _, ?_⟩, ?_⟩
    · rw [← List.append_assoc, run_concat, hσ]
    · obtain ⟨more, hmore⟩ := hlater
      rw [← hmore, ht, run_config, List.append_assoc, List.drop_append_of_le_length hpre.length_le]
      simp
  · exact absurd hr hn
  · exact absurd hq (hn hr)

end Session

open Session

/-- **When a dismissed notification comes back.** Once a connection has dismissed, the state is
`fresh` again, and the configured text shown again, exactly if a start-up reads the flag before
any removal is over. -/
theorem dismissed_returns_iff (settings : Option String) (m : Memory) (before later : List Event)
    (hm : m.failures = []) (he : ∀ e ∈ before ++ later, e.isCalm)
    (hb : ((Session.new (Config.load settings).config m).run before).state = .dismissed) :
    let config := (Config.load settings).config
    let s := Session.new config m
    ((∃ es, es <+: later ∧ (s.run (before ++ es)).state = .fresh) ↔ s.Recalls before later) ∧
      (config.badgeText ∈ (s.run (before ++ later)).texts.drop (s.run before).texts.length ↔
        s.Recalls before later) := by
  intro config s
  have hs : s.Calm := calm_new hm
  have hd : s.state ≠ .dismissed := by simp [s, new, state]
  refine ⟨⟨?_, fun h => (h.shown hs hd he hb).1⟩, ?_, fun h => (h.shown hs hd he hb).2⟩
  · rintro ⟨es, hes, hfresh⟩
    have hle : before ++ es <+: before ++ later := (List.prefix_append_right_inj before).mpr hes
    have hne : (s.run before).state ≠ .fresh := by rw [hb]; decide
    exact (recalls_of_fresh hs hd (fun e h => he e (hle.subset h)) hne hfresh).mono hes
  · exact recalls_of_text hs hd he (badgeText_load settings)

/-- A start-up that reads the flag between a dismissal and its removal brings it back. -/
theorem dismissed_returns_in_gap :
    let m : Memory := ⟨[(dismissedKey, no)], none, none, none, [], none, false, []⟩
    let before : List Event := [.hold .connect, .hold .startup, .start 0, .start 1, .resume 0,
      .resume 0]
    let later : List Event := [.resume 1, .resume 0]
    let s := Session.new (Config.load none).config m
    (m.failures = [] ∧ (∀ e ∈ before ++ later, e.isCalm) ∧ (s.run before).state = .dismissed) ∧
      ∃ es, es <+: later ∧ (s.run (before ++ es)).state = .fresh := by
  intro m before later
  have he : ∀ e ∈ before ++ later, e.isCalm := by decide
  have hb : ((Session.new (Config.load none).config m).run before).state = .dismissed := by
    decide +kernel
  have hr : (Session.new (Config.load none).config m).Recalls before later :=
    ⟨[], .resume 1, ⟨[.resume 0], rfl⟩, by decide +kernel, by decide +kernel⟩
  exact ⟨⟨rfl, he, hb⟩, (dismissed_returns_iff none m before later rfl he hb).1.mpr hr⟩

/-- A dismissal is not final, though nothing fails and nothing is installed. -/
theorem dismissed_not_final :
    ¬ ∀ (settings : Option String) (m : Memory) (before later : List Event), m.failures = [] →
      (∀ e ∈ before ++ later, e.isCalm) →
      ((Session.new (Config.load settings).config m).run before).state = .dismissed →
      ((Session.new (Config.load settings).config m).run (before ++ later)).state ≠ .fresh := by
  intro h
  refine h none ⟨[(dismissedKey, no)], none, none, none, [], none, false, []⟩
    [.hold .connect, .hold .startup, .start 0, .start 1, .resume 0, .resume 0] [.resume 1] rfl
    (by decide) ?_ ?_ <;> decide +kernel

end Tipping.Notification
