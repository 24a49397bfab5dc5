import Mathlib.Tactic.Lemma
import Tipping.Tasks.Workspace

/-!
How far a plan is carried out.

Every step before the first that fails is done, that step is tried, and none after it. So the
programs that were started and the texts that were said are those of a beginning of the plan, in
its order, and a task ends well exactly if all of its plan went well.
-/

namespace Tipping.Tasks

/-- The line of the program that a step starts. -/
def Step.line? : Step → Option String
  | start program arguments => some (commandLine program arguments)
  | _ => none

/-- What a step says. -/
def Step.text? : Step → Option String
  | say text => some text
  | _ => none

namespace Workspace

/-- Each step goes well where the one before it led. -/
inductive GoesWell : Workspace → List Step → Workspace → Prop where
  | nil (w : Workspace) : GoesWell w [] w
  | cons {w w₁ w' : Workspace} {s : Step} {ss : List Step} (first : w.step s = (.ok (), w₁))
      (rest : GoesWell w₁ ss w') : GoesWell w (s :: ss) w'

/-- The steps before one of them go well, and that one fails. -/
inductive FailsAt : Workspace → List Step → Failure → Workspace → Prop where
  | intro {w w₁ w' : Workspace} {s : Step} {f : Failure} (before after : List Step)
      (done : GoesWell w before w₁) (failed : w₁.step s = (.error f, w')) :
      FailsAt w (before ++ s :: after) f w'

variable {w w₁ w' : Workspace} {s : Step} {ss : List Step} {f : Failure}

lemma carryOut_cons_of_ok (h : w.step s = (.ok (), w₁)) :
    w.carryOut (s :: ss) = w₁.carryOut ss := by
  rw [carryOut, h]

lemma carryOut_cons_of_error (h : w.step s = (.error f, w')) :
    w.carryOut (s :: ss) = (.error f, w') := by
  rw [carryOut, h]

lemma GoesWell.carryOut_append (h : GoesWell w ss w₁) (after : List Step) :
    w.carryOut (ss ++ after) = w₁.carryOut after := by
  induction h with
  | nil w => rfl
  | cons first _ ih => rw [List.cons_append, carryOut_cons_of_ok first, ih]

lemma GoesWell.carryOut (h : GoesWell w ss w') : w.carryOut ss = (.ok (), w') := by
  simpa [Workspace.carryOut] using h.carryOut_append []

lemma FailsAt.carryOut (h : FailsAt w ss f w') : w.carryOut ss = (.error f, w') := by
  obtain ⟨before, after, done, failed⟩ := h
  rw [done.carryOut_append, carryOut_cons_of_error failed]

lemma FailsAt.cons (first : w.step s = (.ok (), w₁)) (h : FailsAt w₁ ss f w') :
    FailsAt w (s :: ss) f w' := by
  obtain ⟨before, after, done, failed⟩ := h
  exact .intro (s :: before) after (.cons first done) failed

/-- **A plan is carried out up to its first failure**: all steps go well, or those before the one
that fails did and nothing is done after it. -/
theorem carryOut_cases (w : Workspace) (ss : List Step) :
    (∃ w', GoesWell w ss w' ∧ w.carryOut ss = (.ok (), w')) ∨
      ∃ f w', FailsAt w ss f w' ∧ w.carryOut ss = (.error f, w') := by
  induction ss generalizing w with
  | nil => exact .inl ⟨w, .nil w, rfl⟩
  | cons s ss ih =>
    rcases h : w.step s with ⟨f | ⟨⟩, w₁⟩
    · exact .inr ⟨f, w₁, .intro [] ss (.nil w) h, carryOut_cons_of_error h⟩
    · rw [carryOut_cons_of_ok h]
      rcases ih w₁ with ⟨w', hw, hc⟩ | ⟨f, w', hf, hc⟩
      · exact .inl ⟨w', .cons h hw, hc⟩
      · exact .inr ⟨f, w', .cons h hf, hc⟩

theorem carryOut_eq_ok_iff : w.carryOut ss = (.ok (), w') ↔ GoesWell w ss w' := by
  refine ⟨fun h => ?_, GoesWell.carryOut⟩
  rcases carryOut_cases w ss with ⟨w₁, hw, hc⟩ | ⟨f, w₁, -, hc⟩
  · cases hc.symm.trans h
    exact hw
  · cases hc.symm.trans h

theorem carryOut_eq_error_iff : w.carryOut ss = (.error f, w') ↔ FailsAt w ss f w' := by
  refine ⟨fun h => ?_, FailsAt.carryOut⟩
  rcases carryOut_cases w ss with ⟨w₁, -, hc⟩ | ⟨f₁, w₁, hf, hc⟩
  · cases hc.symm.trans h
  · cases hc.symm.trans h
    exact hf

/-! ### What is seen of a run -/

/-- From one workspace to the other these steps showed, and no others. -/
structure Shows (w w' : Workspace) (ss : List Step) : Prop where
  started : w'.started = w.started ++ ss.filterMap Step.line?
  said : w'.said = w.said ++ ss.filterMap Step.text?

lemma Shows.nil (w : Workspace) : Shows w w [] := ⟨by simp, by simp⟩

lemma Shows.append {ss' : List Step} (h : Shows w w₁ ss) (h' : Shows w₁ w' ss') :
    Shows w w' (ss ++ ss') := by
  refine ⟨?_, ?_⟩
  · rw [h'.started, h.started, List.filterMap_append, List.append_assoc]
  · rw [h'.said, h.said, List.filterMap_append, List.append_assoc]

/-- A step that goes well shows. -/
lemma shows_of_ok (h : w.step s = (.ok (), w')) : Shows w w' [s] := by
  cases s with
  | say text =>
    cases h
    exact ⟨by simp [Step.line?], by simp [Step.text?]⟩
  | start program arguments =>
    simp only [step, start] at h
    split at h
    · cases h
    · split at h <;> cases h
      exact ⟨by simp [Step.line?], by simp [Step.text?]⟩
  | require path =>
    simp only [step, Prod.mk.injEq] at h
    rw [← h.2]
    exact ⟨by simp [Step.line?], by simp [Step.text?]⟩
  | removeDirectory path =>
    simp only [step] at h
    split at h
    · cases h
      exact ⟨by simp [Step.line?, removeDirectory], by simp [Step.text?, removeDirectory]⟩
    · split at h <;> cases h
      exact ⟨by simp [Step.line?], by simp [Step.text?]⟩

/-- A step that fails shows if it started its program, and else it does not. -/
lemma shows_of_error (h : w.step s = (.error f, w')) : Shows w w' [s] ∨ Shows w w' [] := by
  cases s with
  | say text => cases h
  | start program arguments =>
    simp only [step, start] at h
    split at h
    · cases h
      exact .inr (.nil w)
    · split at h <;> cases h
      exact .inl ⟨by simp [Step.line?], by simp [Step.text?]⟩
  | require path =>
    simp only [step, Prod.mk.injEq] at h
    rw [← h.2]
    exact .inr (.nil w)
  | removeDirectory path =>
    simp only [step] at h
    split at h
    · cases h
    · split at h <;> cases h
      exact .inr (.nil w)

lemma GoesWell.shows (h : GoesWell w ss w') : Shows w w' ss := by
  induction h with
  | nil w => exact .nil w
  | cons first _ ih => exact (shows_of_ok first).append ih

/-- **A run shows a beginning of its plan**: the programs are started and the texts said in the
order of the plan, with none left out before the last one. -/
theorem shows_carryOut (w : Workspace) (ss : List Step) :
    ∃ done, done <+: ss ∧ Shows w (w.carryOut ss).2 done := by
  rcases carryOut_cases w ss with ⟨w', h, hc⟩ | ⟨f, w', h, hc⟩
  · exact ⟨ss, List.prefix_refl ss, hc ▸ h.shows⟩
  · rw [hc]
    obtain ⟨before, after, done, failed⟩ := h
    rcases shows_of_error failed with h | h
    · exact ⟨before ++ [_], ⟨after, by simp⟩, done.shows.append h⟩
    · exact ⟨before, List.prefix_append .., by simpa using done.shows.append h⟩

end Workspace

open Workspace

/-- **The exit code tells how the plan went**: 2 if there is no such task, and then nothing is done;
0 if every step of its plan went well; 1 if one failed, and then that failure is reported. -/
theorem perform_cases (arguments : List String) (w : Workspace) :
    (Command.ofArguments? arguments = none ∧ perform arguments w = (⟨2, none⟩, w)) ∨
      ∃ c, Command.ofArguments? arguments = some c ∧
        ((∃ w', GoesWell w c.plan w' ∧ perform arguments w = (⟨0, some []⟩, w')) ∨
          ∃ f w', FailsAt w c.plan f w' ∧ perform arguments w = (⟨1, some (report f)⟩, w')) := by
  cases hc : Command.ofArguments? arguments with
  | none => exact .inl ⟨rfl, by simp [perform, hc]⟩
  | some c =>
    refine .inr ⟨c, rfl, ?_⟩
    rcases carryOut_cases w c.plan with ⟨w', h, ho⟩ | ⟨f, w', h, ho⟩
    · exact .inl ⟨w', h, by simp [perform, hc, ho]⟩
    · exact .inr ⟨f, w', h, by simp [perform, hc, ho]⟩

example : (perform ["test"] (.new [] [] [101])).1 =
    ⟨1, some ["Error: Command failed: cargo test --workspace"]⟩ := by decide +kernel

end Tipping.Tasks
