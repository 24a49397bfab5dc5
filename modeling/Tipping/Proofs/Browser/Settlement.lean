import Mathlib.Data.List.Basic
import Mathlib.Tactic.ByContra
import Mathlib.Tactic.Lemma
import Tipping.Browser.Calls

/-!
A call settles once, by the first event of its own.

Until then nothing that happens to other calls reaches its promise, and afterwards nothing at all
does. What it settles to depends on that one event and on the global object at that moment, so an
error that is reported to another call, and taken back before, is not taken for its own.
-/

namespace Tipping.Browser

/-! ### Reported errors -/

/-- The error is what `chrome.runtime.lastError` is set to. -/
def Reports (globalObject error : JsValue) : Prop :=
  error.isNullish = false ∧ ∃ chrome runtime,
    globalObject.property "chrome" = .ok chrome ∧ chrome.property "runtime" = .ok runtime ∧
      runtime.property "lastError" = .ok error

lemma lastError?_eq_none {g : JsValue} (h : ∀ error, ¬Reports g error) : lastError? g = none := by
  cases hc : g.property "chrome" with
  | error f => simp only [lastError?, hc, bind, Except.bind]
  | ok chrome =>
    cases hr : chrome.property "runtime" with
    | error f => simp only [lastError?, hc, hr, bind, Except.bind]
    | ok runtime =>
      cases he : runtime.property "lastError" with
      | error f => simp only [lastError?, hc, hr, he, bind, Except.bind]
      | ok error =>
        have hnull : error.isNullish = true := by
          by_contra hn
          exact h error ⟨by simpa using hn, chrome, runtime, hc, hr, he⟩
        simp only [lastError?, hc, hr, he, bind, Except.bind, hnull, if_true]

lemma Reports.lastError?_of_message {g error : JsValue} {message : String} (h : Reports g error)
    (hm : error.property "message" = .ok (.string message)) : lastError? g = some message := by
  obtain ⟨hnull, chrome, runtime, hc, hr, he⟩ := h
  simp only [lastError?, hc, hr, he, bind, Except.bind, hnull, hm, Bool.false_eq_true, if_false]

lemma Reports.lastError?_of_no_message {g error : JsValue} (h : Reports g error)
    (hm : ∀ message, error.property "message" ≠ .ok (.string message)) :
    lastError? g = some error.debug := by
  obtain ⟨hnull, chrome, runtime, hc, hr, he⟩ := h
  simp only [lastError?, hc, hr, he, bind, Except.bind, hnull, Bool.false_eq_true, if_false]

/-! ### Events of a call -/

/-- The callback of the call is run, or the call throws. -/
def HostEvent.isOf (n : Nat) : HostEvent → Bool
  | .calledBack m _ => m = n
  | .threw m _ => m = n
  | _ => false

/-- How the browser brings an event of the call about. -/
def CallEvent.hostEvents (n : Nat) : CallEvent → List HostEvent
  | .calledBack value globalObject => [.globalSet globalObject, .calledBack n value]
  | .threw error => [.threw n error]

/-- A promise that has settled hears nothing more. -/
lemma Call.hear_of_settled {c : Call} {s : Settlement} (h : c.promise = some s) (e : CallEvent) :
    (c.hear e).promise = some s ∧ c.news? e = none := by
  refine ⟨?_, by simp [news?, h]⟩
  cases e <;> simp only [hear, settle] <;> split <;> simp [h]

/-- The event can happen to a call to which nothing has happened. -/
lemma Call.hear_of_pending {c : Call} (hcallable : c.callable = true) (h : c.promise = none)
    {e : CallEvent} (he : ∀ error, e = .threw error → c.running = true) :
    (c.hear e).promise = some e.settlement ∧ c.news? e = some e.settlement := by
  have hp : (c.hear e).promise = some e.settlement := by
    cases e with
    | calledBack value g => simp [hear, settle, hcallable, h]
    | threw error => simp [hear, settle, he error rfl, h]
  exact ⟨hp, by simp [news?, h, hp]⟩

namespace Calls

/-- The call is out and has not settled. -/
structure Pending (w : Calls) (n : Nat) : Prop where
  call : ∃ c, w.calls[n]? = some c ∧ c.promise = none
  never : w.settlementsOf n = []

/-- The promise of the call has this settlement and had no other. -/
structure Settled (w : Calls) (n : Nat) (s : Settlement) : Prop where
  call : ∃ c, w.calls[n]? = some c ∧ c.promise = some s
  once : w.settlementsOf n = [s]

/-- The call has neither returned nor thrown. -/
def Running (w : Calls) (n : Nat) : Prop := ∃ c, w.calls[n]? = some c ∧ c.running = true

/-- Nothing has happened to the call, if it was made. -/
structure Untouched (w : Calls) (n : Nat) : Prop where
  call : ∀ c, w.calls[n]? = some c → c.callable = true ∧ c.promise = none
  never : w.settlementsOf n = []

lemma hear_eq {w : Calls} {n : Nat} {c : Call} (hc : w.calls[n]? = some c) (e : CallEvent) :
    w.hear n e = { w with
      calls := w.calls.set n (c.hear e)
      settled := w.settled ++ (c.news? e).toList.map (n, ·) } := by
  simp only [hear, hc]

lemma calls_hear {w : Calls} {m : Nat} {c : Call} (hc : w.calls[m]? = some c) (e : CallEvent)
    (n : Nat) : (w.hear m e).calls[n]? = if m = n then some (c.hear e) else w.calls[n]? := by
  obtain ⟨hm, -⟩ := List.getElem?_eq_some_iff.mp hc
  rw [hear_eq hc, List.getElem?_set]
  simp only [hm, if_true]

lemma settlementsOf_hear {w : Calls} {m : Nat} {c : Call} (hc : w.calls[m]? = some c)
    (e : CallEvent) (n : Nat) : (w.hear m e).settlementsOf n =
      w.settlementsOf n ++ if m = n then (c.news? e).toList else [] := by
  rw [hear_eq hc]
  by_cases hm : m = n <;> cases c.news? e <;> simp [settlementsOf, hm]

/-! ### One event -/

lemma Untouched.hear {w : Calls} {m n : Nat} (h : Untouched w n) (hm : m ≠ n) (e : CallEvent) :
    Untouched (w.hear m e) n := by
  cases hc : w.calls[m]? with
  | none => simpa only [Calls.hear, hc] using h
  | some c =>
    refine ⟨fun c' hc' => h.call c' ?_, ?_⟩
    · rwa [calls_hear hc, if_neg hm] at hc'
    · rw [settlementsOf_hear hc, if_neg hm, List.append_nil, h.never]

/-- What happens to other calls leaves a call untouched. -/
lemma untouched_step {w : Calls} {n : Nat} (h : Untouched w n) {e : HostEvent}
    (he : e.isOf n = false) : Untouched (w.step e) n := by
  cases e with
  | made =>
    refine ⟨fun c hc => ?_, h.never⟩
    rw [step, List.getElem?_append] at hc
    split at hc
    · exact h.call c hc
    · obtain rfl : c = .new := List.mem_singleton.mp (List.mem_of_getElem? hc)
      exact ⟨rfl, rfl⟩
  | calledBack m value => exact h.hear (by simpa [HostEvent.isOf] using he) _
  | threw m error => exact h.hear (by simpa [HostEvent.isOf] using he) _
  | returned m =>
    refine ⟨fun c hc => ?_, h.never⟩
    rw [step, List.getElem?_modify] at hc
    obtain ⟨c₀, hc₀, rfl⟩ := Option.map_eq_some_iff.mp hc
    obtain ⟨hcallable, hpromise⟩ := h.call c₀ hc₀
    split <;> exact ⟨hcallable, hpromise⟩
  | globalSet g => exact ⟨h.call, h.never⟩

/-- The first event of its own settles a call. -/
lemma Untouched.settled {w : Calls} {n : Nat} (h : Untouched w n) {c : Call}
    (hc : w.calls[n]? = some c) {e : CallEvent}
    (he : ∀ error, e = .threw error → c.running = true) :
    Settled (w.hear n e) n e.settlement := by
  obtain ⟨hcallable, hpromise⟩ := h.call c hc
  obtain ⟨hsettled, hnews⟩ := c.hear_of_pending hcallable hpromise he
  refine ⟨⟨c.hear e, by rw [calls_hear hc, if_pos rfl], hsettled⟩, ?_⟩
  rw [settlementsOf_hear hc, if_pos rfl, h.never, hnews]
  rfl

lemma Settled.hear {w : Calls} {m n : Nat} {s : Settlement} (h : Settled w n s) (e : CallEvent) :
    Settled (w.hear m e) n s := by
  cases hm : w.calls[m]? with
  | none => simpa only [Calls.hear, hm] using h
  | some c =>
    obtain ⟨⟨c', hc', hs⟩, honce⟩ := h
    by_cases hmn : m = n
    · subst hmn
      cases hm.symm.trans hc'
      obtain ⟨hstays, hnews⟩ := c.hear_of_settled hs e
      refine ⟨⟨c.hear e, by rw [calls_hear hm, if_pos rfl], hstays⟩, ?_⟩
      rw [settlementsOf_hear hm, if_pos rfl, hnews, honce]
      rfl
    · refine ⟨⟨c', by rw [calls_hear hm, if_neg hmn, hc'], hs⟩, ?_⟩
      rw [settlementsOf_hear hm, if_neg hmn, honce]
      rfl

/-- Nothing that happens changes what a call has settled to. -/
lemma settled_step {w : Calls} {n : Nat} {s : Settlement} (h : Settled w n s) (e : HostEvent) :
    Settled (w.step e) n s := by
  cases e with
  | made =>
    obtain ⟨⟨c, hc, hs⟩, honce⟩ := h
    obtain ⟨hn, -⟩ := List.getElem?_eq_some_iff.mp hc
    exact ⟨⟨c, by rw [step, List.getElem?_append_left hn, hc], hs⟩, honce⟩
  | calledBack m value => exact h.hear _
  | threw m error => exact h.hear _
  | returned m =>
    obtain ⟨⟨c, hc, hs⟩, honce⟩ := h
    refine ⟨⟨_, by rw [step, List.getElem?_modify, hc]; rfl, ?_⟩, honce⟩
    split <;> exact hs
  | globalSet g => exact ⟨h.call, h.once⟩

/-! ### Runs -/

lemma untouched_run {w : Calls} {n : Nat} (h : Untouched w n) {es : List HostEvent}
    (hes : ∀ e ∈ es, e.isOf n = false) : Untouched (w.run es) n := by
  induction es generalizing w with
  | nil => exact h
  | cons e es ih =>
    rw [List.forall_mem_cons] at hes
    exact ih (untouched_step h hes.1) hes.2

lemma settled_run {w : Calls} {n : Nat} {s : Settlement} (h : Settled w n s)
    (es : List HostEvent) : Settled (w.run es) n s := by
  induction es generalizing w with
  | nil => exact h
  | cons e es ih => exact ih (settled_step h e)

/-- Events as the adapters take them settle a call as the adapters say. -/
lemma Untouched.settlementsOf_hostEvents {w : Calls} {n : Nat} (h : Untouched w n)
    (hrun : w.Running n) (events : List CallEvent) :
    (w.run (events.flatMap (·.hostEvents n))).settlementsOf n =
      (firstSettlement events).toList := by
  obtain ⟨c, hc, hrunning⟩ := hrun
  cases events with
  | nil => exact h.never
  | cons e later =>
    cases e with
    | threw error => exact (settled_run (h.settled hc fun _ _ => hrunning) _).once
    | calledBack value g =>
      have hg : Untouched (w.step (.globalSet g)) n := untouched_step h rfl
      exact (settled_run (hg.settled (e := .calledBack value g) hc fun _ _ => hrunning) _).once

end Calls

open Calls

/-- **A call settles once, by the first event of its own**, whatever other calls are out and in
whatever order the browser runs their callbacks, reports errors and takes them back. Before that
event it is pending. If it throws first, it is rejected with what is thrown. If its callback is run
first, it is rejected with the error that is reported at that moment, by its message or by its
debug text if it has none, and is resolved with the callback's value if no error is reported. What
comes later changes nothing. And so it settles as the adapters take the events of a call. -/
theorem settles_once_by_own_event (globalObject : JsValue) (before after : List HostEvent)
    (n : Nat) (hmade : n < ((Calls.new globalObject).run before).calls.length)
    (hfirst : ∀ e ∈ before, e.isOf n = false) :
    let w := (Calls.new globalObject).run before
    w.Pending n ∧
    (w.Running n → ∀ error, (w.run (.threw n error :: after)).Settled n (.rejected error)) ∧
    (∀ value, ∃ s, (w.run (.calledBack n value :: after)).Settled n s ∧
      ((∀ error, ¬Reports w.globalObject error) → s = .resolved value) ∧
      ∀ error, Reports w.globalObject error →
        (∀ message, error.property "message" = .ok (.string message) →
          s = .rejected (.string message)) ∧
        ((∀ message, error.property "message" ≠ .ok (.string message)) →
          s = .rejected (.string error.debug))) ∧
    (w.Running n → ∀ events : List CallEvent,
      (w.run (events.flatMap (·.hostEvents n))).settlementsOf n =
        (firstSettlement events).toList) := by
  intro w
  have hnew : Untouched (Calls.new globalObject) n := ⟨by simp [Calls.new], rfl⟩
  have h : Untouched w n := untouched_run hnew hfirst
  have hc : w.calls[n]? = some w.calls[n] := List.getElem?_eq_getElem hmade
  refine ⟨⟨⟨_, hc, (h.call _ hc).2⟩, h.never⟩, fun hrun error => ?_, fun value => ?_,
    fun hrun => h.settlementsOf_hostEvents hrun⟩
  · obtain ⟨c, hc, hrunning⟩ := hrun
    exact settled_run (h.settled (e := .threw error) hc fun _ _ => hrunning) after
  · have hsettled : Settled (w.step (.calledBack n value)) n
        (CallEvent.calledBack value w.globalObject).settlement :=
      h.settled hc fun _ he => by cases he
    refine ⟨_, settled_run hsettled after, fun hnone => ?_, fun error herror =>
      ⟨fun message hm => ?_, fun hm => ?_⟩⟩
    · simp only [CallEvent.settlement, lastError?_eq_none hnone]
    · simp only [CallEvent.settlement, herror.lastError?_of_message hm]
    · simp only [CallEvent.settlement, herror.lastError?_of_no_message hm]

/-- Two calls are out. An error is reported to the first and taken back; the second is resolved,
although it throws then and has its callback run again under a report. -/
theorem settles_once_by_own_event_of_two :
    let error : JsValue := .object [("message", .string "out of order")]
    let calm : JsValue := .object [("chrome", .object [("runtime", .object [])])]
    let alarmed : JsValue :=
      .object [("chrome", .object [("runtime", .object [("lastError", error)])])]
    let made : List HostEvent := [.made, .made, .globalSet alarmed]
    let answered : List HostEvent := [.globalSet calm, .calledBack 1 (.bool true),
      .threw 1 .null, .globalSet alarmed, .calledBack 1 .null]
    let w := (Calls.new calm).run (made ++ .calledBack 0 .undefined :: answered)
    w.Settled 0 (.rejected (.string "out of order")) ∧ w.Settled 1 (.resolved (.bool true)) := by
  intro error calm alarmed made answered w
  have hcalm : ∀ e, ¬Reports calm e := by
    rintro e ⟨hnull, chrome, runtime, hc, hr, he⟩
    cases hc
    cases hr
    cases he
    cases hnull
  have halarmed : Reports alarmed error := ⟨rfl, _, _, rfl, rfl, rfl⟩
  constructor
  · obtain ⟨s, hs, -, hreported⟩ :=
      (settles_once_by_own_event calm made answered 0 (by decide) (by decide)).2.2.1 .undefined
    rw [(hreported error halarmed).1 "out of order" rfl] at hs
    exact hs
  · obtain ⟨s, hs, hnone, -⟩ := (settles_once_by_own_event calm
      (made ++ [.calledBack 0 .undefined, .globalSet calm])
      [.threw 1 .null, .globalSet alarmed, .calledBack 1 .null] 1 (by decide)
      (by decide)).2.2.1 (.bool true)
    rw [hnone hcalm] at hs
    exact hs

end Tipping.Browser
