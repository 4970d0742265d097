import Yellowbox.WebServer.Recording

/-!
The order of captured requests. The time of a request is read when its handling
starts, but the request is appended when its handling is done, so the lists are
in the order of arrival as long as no request overtakes an earlier one.
-/
namespace Yellowbox.CaptureOrder

open StepRuns ScopedLog
open WebServerState WebServerCalls WebServerHandlers WebServerSteps WebServerHandlerSteps
open Recording

/-- The readings of the clock at the arrivals of a run. -/
def clockReadings : List Event → List Time :=
  List.filterMap fun
    | .request _ _ now => some now
    | _ => none

/-- Sorted by `time_received`. -/
def Chronological (calls : List RecordedRequest) : Prop :=
  calls.Pairwise fun earlier later => earlier.timeReceived ≤ later.timeReceived

instance (calls : List RecordedRequest) : Decidable (Chronological calls) :=
  inferInstanceAs (Decidable (calls.Pairwise _))

/-- The request of endpoint `i` whose body the event delivers, which completes it. -/
def bodyOf (i : HttpId) (w : World) : Event → Option RecordedRequest
  | .body r true =>
    match w.handlers r with
    | some (.http j t (.body _)) | some (.http j t (.record _)) =>
      if j = i then some ⟨r, t⟩ else none
    | _ => none
  | _ => none

/-- A request of endpoint `i` that is completed while a capture is active does not
leave behind one that was received before it and is still in flight. -/
def NotOvertaking (i : HttpId) (w : World) (ev : Event) : Prop :=
  ∀ a, bodyOf i w ev = some a → w.requestCaptures (.http i) ≠ [] →
    ∀ r t p, w.handlers r = some (.http i t p) → a.timeReceived ≤ t

/-- What the clock has read so far bounds the recorded requests and those in flight. -/
structure TimeInvariant (i : HttpId) (now : Time) (w : World) : Prop where
  chronological : ∀ c, Chronological (w.calls i c)
  recorded_le_now : ∀ c, ∀ a ∈ w.calls i c, a.timeReceived ≤ now
  inFlight_le_now : ∀ r t p, w.handlers r = some (.http i t p) → t ≤ now
  recorded_le_inFlight : ∀ c, ∀ a ∈ w.calls i c, ∀ r t p,
    w.handlers r = some (.http i t p) → a.timeReceived ≤ t

/-- The last reading of the clock after an event. -/
def clockAfter (now : Time) : Event → Time
  | .request _ _ now' => now'
  | _ => now

variable {cfg : Setup} {i : HttpId} {w : World} {now : Time}

theorem fresh_timeInvariant (hw : w.Fresh) : TimeInvariant i 0 w := by
  refine ⟨?_, ?_, ?_, ?_⟩
  · intro c
    rw [hw.calls]
    exact List.Pairwise.nil
  · intro c a ha
    rw [hw.calls] at ha
    cases ha
  · intro r t p h
    rw [hw.handlers] at h
    cases h
  · intro c a ha
    rw [hw.calls] at ha
    cases ha

/-- With a capture active, a request is completed by its body. -/
theorem bodyOf_of_completion {ev : Event} {a : RecordedRequest}
    (ha : completion cfg i w ev = some a) (hactive : w.requestCaptures (.http i) ≠ []) :
    bodyOf i w ev = some a := by
  obtain ⟨o, v, hhandler, ha, -⟩ := handler_of_completion ha
  cases hhandler with
  | unowned | refused | awaiting | raised | dropped | uncaught | disconnected | wsRefused
  | wsAwaiting | wsEnded | wsRaised | wsDropped | wsUncaught => cases ha
  | ignored => cases ev <;> cases ha
  | responded hr howner hclear hf hv | returned hr hv =>
    cases hv with
    | body | record => cases ha
    | done hauto hnone =>
      simp only [completionOf, hr] at ha
      split at ha
      · rename_i hj
        exact absurd (hj ▸ hnone) hactive
      · cases ha
  | recorded hr hp =>
    rcases hp with rfl | rfl <;> simpa only [completionOf, bodyOf, hr] using ha

/-- A completed request was received after everything recorded before it. -/
theorem recorded_le_completed {ev : Event} {a : RecordedRequest} (hinv : TimeInvariant i now w)
    (hclock : now ≤ clockAfter now ev) (ha : completion cfg i w ev = some a) :
    (∀ c, ∀ b ∈ w.calls i c, b.timeReceived ≤ a.timeReceived) ∧
      a.timeReceived ≤ clockAfter now ev := by
  obtain ⟨-, -, ⟨rfl, -⟩ | ⟨p, hr⟩⟩ := completion_spec ha
  · exact ⟨fun c b hb => (hinv.recorded_le_now c b hb).trans hclock, le_refl _⟩
  · exact ⟨fun c b hb => hinv.recorded_le_inFlight c b hb _ _ p hr,
      (hinv.inFlight_le_now _ _ p hr).trans hclock⟩

theorem step_chronological {ev : Event} (hinv : TimeInvariant i now w)
    (hclock : now ≤ clockAfter now ev) (c : CaptureId) :
    Chronological ((step cfg w ev).1.calls i c) := by
  rcases calls_step cfg i w ev with ⟨a, ha, hcalls⟩ | ⟨k, -, hcalls⟩ | ⟨-, hcalls⟩
  · rw [hcalls]
    refine List.pairwise_append.mpr ⟨hinv.chronological c, ?_, ?_⟩
    · exact List.pairwise_replicate.mpr (Or.inr (le_refl _))
    · intro b hb b' hb'
      rw [List.eq_of_mem_replicate hb']
      exact (recorded_le_completed hinv hclock ha).1 c b hb
  · rw [hcalls, Function.update_apply]
    split
    · exact List.Pairwise.nil
    · exact hinv.chronological c
  · rw [hcalls]
    exact hinv.chronological c

theorem step_timeInvariant {ev : Event} (hinv : TimeInvariant i now w)
    (hclock : now ≤ clockAfter now ev) (hev : NotOvertaking i w ev) :
    TimeInvariant i (clockAfter now ev) (step cfg w ev).1 := by
  refine ⟨fun c => step_chronological hinv hclock c, ?_, ?_, ?_⟩
  · intro c b hb
    rcases mem_calls_step hb with hb | ⟨hb, -⟩
    · exact (hinv.recorded_le_now c b hb).trans hclock
    · exact (recorded_le_completed hinv hclock hb).2
  · intro r t p hr
    rcases inFlight_origin hr with ⟨p', hr⟩ | rfl
    · exact (hinv.inFlight_le_now r t p' hr).trans hclock
    · exact le_refl t
  · intro c b hb r t p hr
    rcases inFlight_origin hr with ⟨p', hr'⟩ | rfl
    · rcases mem_calls_step hb with hb | ⟨hb, hactive⟩
      · exact hinv.recorded_le_inFlight c b hb r t p' hr'
      · exact hev b (bodyOf_of_completion hb hactive) hactive r t p' hr'
    · rcases mem_calls_step hb with hb | ⟨hb, -⟩
      · exact (hinv.recorded_le_now c b hb).trans hclock
      · -- the request just arrived and is in flight, so it is not the completed one
        obtain ⟨hown, hover, -⟩ := completion_spec hb
        cases hown
        rw [hover] at hr
        cases hr

theorem exec_timeInvariant {evs : List Event} (hinv : TimeInvariant i now w)
    (hclock : (now :: clockReadings evs).Pairwise (· ≤ ·))
    (horder : Along (step cfg) (NotOvertaking i) w evs) :
    ∃ now', TimeInvariant i now' (exec (step cfg) w evs) := by
  induction evs generalizing w now with
  | nil => exact ⟨now, hinv⟩
  | cons ev evs ih =>
    have hnow : now ≤ clockAfter now ev ∧
        (clockAfter now ev :: clockReadings evs).Pairwise (· ≤ ·) := by
      cases ev with
      | request r j now' =>
        obtain ⟨hle, hrest⟩ := List.pairwise_cons.mp hclock
        exact ⟨hle now' (List.mem_cons_self ..), hrest⟩
      | _ => exact ⟨le_refl now, hclock⟩
    exact ih (step_timeInvariant hinv hnow.1 horder.1) hnow.2 horder.2

/-- In a run in which no request overtakes another one, every list is at every moment
sorted by time, and its last entry is the latest request in it. -/
theorem captured_in_order (cfg : Setup) (i : HttpId) (w : World) (evs : List Event)
    (hw : w.Fresh) (hclock : (clockReadings evs).Pairwise (· ≤ ·))
    (horder : Along (step cfg) (NotOvertaking i) w evs) :
    ∀ pre post, evs = pre ++ post → ∀ c,
      Chronological ((exec (step cfg) w pre).calls i c) ∧
      ∀ last, ((exec (step cfg) w pre).calls i c).getLast? = some last →
        ∀ a ∈ (exec (step cfg) w pre).calls i c, a.timeReceived ≤ last.timeReceived := by
  rintro pre post rfl c
  have horder' := ((along_append (step cfg) _ w pre post).mp horder).1
  have hclock' : (0 :: clockReadings pre).Pairwise (· ≤ ·) := by
    refine List.pairwise_cons.mpr ⟨fun t _ => Nat.zero_le t, hclock.sublist ?_⟩
    exact (List.sublist_append_left pre post).filterMap _
  obtain ⟨now, hinv⟩ := exec_timeInvariant (fresh_timeInvariant hw) hclock' horder'
  have hsorted := hinv.chronological c
  refine ⟨hsorted, ?_⟩
  intro last hlast a ha
  obtain ⟨front, hfront⟩ := List.getLast?_eq_some_iff.mp hlast
  rw [hfront] at ha hsorted
  rcases List.mem_append.mp ha with ha | ha
  · exact (List.pairwise_append.mp hsorted).2.2 a ha last (List.mem_singleton_self last)
  · rw [List.mem_singleton.mp ha]

/-- Two requests in flight at a time, completed as they came in. -/
theorem captured_in_order_pair :
    let w := World.new fun _ => .callable 0
    let evs : List Event := [.call (.addHttpEndpoint 0 0),
      .call (.enterCaptureCalls (.http 0) 0), .request 1 0 0, .request 2 0 1,
      .sideEffect 1 (.ok ⟨200, "a"⟩), .body 1 true, .sideEffect 2 (.ok ⟨200, "b"⟩), .body 2 true]
    (exec (step Setup.plain) w evs).calls 0 0 = [⟨1, 0⟩, ⟨2, 1⟩] ∧
      Chronological ((exec (step Setup.plain) w evs).calls 0 0) := by
  intro w evs
  have hquiet : ∀ v ev, bodyOf 0 v ev = none → NotOvertaking 0 v ev := by
    intro v ev hnone a ha
    rw [hnone] at ha
    cases ha
  have hcalls : (exec (step Setup.plain) w evs).calls 0 0 = [⟨1, 0⟩, ⟨2, 1⟩] := by decide
  have hclock : (clockReadings evs).Pairwise (· ≤ ·) := by decide
  have hfresh : w.Fresh := World.new_fresh _
  have hfirst : NotOvertaking 0 (exec (step Setup.plain) w (evs.take 5)) (.body 1 true) := by
    intro a ha _ r t p _
    have hval : bodyOf 0 (exec (step Setup.plain) w (evs.take 5)) (.body 1 true) =
        some ⟨1, 0⟩ := by decide
    obtain rfl := Option.some.inj (hval.symm.trans ha)
    exact Nat.zero_le t
  have hsecond : NotOvertaking 0 (exec (step Setup.plain) w (evs.take 7)) (.body 2 true) := by
    intro a ha _ r t p hr
    have hval : bodyOf 0 (exec (step Setup.plain) w (evs.take 7)) (.body 2 true) =
        some ⟨2, 1⟩ := by decide
    obtain rfl := Option.some.inj (hval.symm.trans ha)
    have h1 : (exec (step Setup.plain) w (evs.take 7)).handlers 1 = none := by decide
    have h2 : (exec (step Setup.plain) w (evs.take 7)).handlers 2 =
        some (.http 0 1 (.body ⟨200, "b"⟩)) := by decide
    by_cases hr1 : r = 1
    · rw [hr1, h1] at hr
      cases hr
    · by_cases hr2 : r = 2
      · rw [hr2, h2] at hr
        cases hr
        exact le_refl 1
      · have hevs : ∀ ev ∈ evs.take 7, handlerOf ev ≠ some r := by
          simp [evs, handlerOf, Ne.symm hr1, Ne.symm hr2]
        rw [exec_handlers_of_ne hevs] at hr
        cases hr
  have horder : Along (step Setup.plain) (NotOvertaking 0) w evs :=
    ⟨hquiet _ _ rfl, hquiet _ _ rfl, hquiet _ _ rfl, hquiet _ _ rfl, hquiet _ _ rfl, hfirst,
      hquiet _ _ rfl, hsecond, trivial⟩
  have hall := captured_in_order Setup.plain 0 w evs hfresh hclock horder
  exact ⟨hcalls, (hall evs [] (List.append_nil evs).symm 0).1⟩

/-- The second of two requests is answered first. -/
theorem captured_out_of_order :
    let w := World.new fun _ => .callable 0
    let evs : List Event := [.call (.addHttpEndpoint 0 0),
      .call (.enterCaptureCalls (.http 0) 0), .request 1 0 0, .request 2 0 1,
      .sideEffect 2 (.ok ⟨200, "b"⟩), .body 2 true, .sideEffect 1 (.ok ⟨200, "a"⟩), .body 1 true]
    w.Fresh ∧ (clockReadings evs).Pairwise (· ≤ ·) ∧
      ¬ Chronological ((exec (step Setup.plain) w evs).calls 0 0) :=
  ⟨World.new_fresh _, by decide, by decide⟩

theorem late_out_of_order {a : RecordedRequest} {c : CaptureId} {r : RequestId} {t : Time}
    {p : Phase} {ret : Response} (hc : c ∈ w.requestCaptures (.http i)) (ha : a ∈ w.calls i c)
    (hr : w.handlers r = some (.http i t p)) (hp : p = .body ret ∨ p = .record ret)
    (hlate : t < a.timeReceived) :
    ¬ Chronological ((step cfg w (.body r true)).1.calls i c) := by
  rw [calls_of_completion (completion_body cfg hr hp)]
  intro hsorted
  have hcount : (w.requestCaptures (.http i)).count c ≠ 0 := (List.count_pos_iff.mpr hc).ne'
  have hle := (List.pairwise_append.mp hsorted).2.2 a ha ⟨r, t⟩
    (List.mem_replicate.mpr ⟨hcount, rfl⟩)
  exact Nat.not_lt.mpr hle hlate

theorem completion_of_bodyOf (cfg : Setup) {ev : Event} {a : RecordedRequest}
    (ha : bodyOf i w ev = some a) : completion cfg i w ev = some a := by
  cases ev with
  | body r received =>
    cases received with
    | false => cases ha
    | true =>
      simp only [bodyOf] at ha
      split at ha
      · rename_i hr
        split at ha
        · rename_i hj
          subst hj
          exact (completion_body cfg hr (Or.inl rfl)).trans ha
        · cases ha
      · rename_i hr
        split at ha
        · rename_i hj
          subst hj
          exact (completion_body cfg hr (Or.inr rfl)).trans ha
        · cases ha
      · cases ha
  | _ => cases ha

/-- The condition cannot be relaxed: once a request overtook another one in an active
capture, the list is out of order as soon as the other one is completed too. -/
theorem overtaken_out_of_order {ev : Event} (hauto : (cfg.http i).autoReadBody = true)
    (hev : ¬ NotOvertaking i w ev) :
    ∃ c ∈ w.requestCaptures (.http i), ∃ evs,
      ¬ Chronological ((exec (step cfg) w (ev :: evs)).calls i c) := by
  simp only [NotOvertaking, not_forall, Nat.not_le] at hev
  obtain ⟨a, hbody, hactive, r, t, p, hr, hlate⟩ := hev
  have ha := completion_of_bodyOf cfg hbody
  obtain ⟨c, hc⟩ := List.exists_mem_of_ne_nil _ hactive
  obtain ⟨hown, -, horigin⟩ := completion_spec ha
  have hne : handlerOf ev ≠ some r := by
    intro hsame
    have hreq : a.request = r := Option.some.inj (hown.symm.trans hsame)
    rw [hreq, hr] at horigin
    rcases horigin with ⟨-, hnone⟩ | ⟨p', hsome⟩
    · cases hnone
    · cases hsome
      exact Nat.lt_irrefl _ hlate
  have hcount : (w.requestCaptures (.http i)).count c ≠ 0 := (List.count_pos_iff.mpr hc).ne'
  have hin : a ∈ (step cfg w ev).1.calls i c := by
    rw [calls_of_completion ha]
    exact List.mem_append_right _ (List.mem_replicate.mpr ⟨hcount, rfl⟩)
  refine ⟨c, hc, ?_⟩
  rw [← captures_of_completion ha] at hc
  rw [← step_handlers_of_ne cfg hne] at hr
  generalize hv : (step cfg w ev).1 = v at hin hc hr
  cases p with
  | body ret =>
    refine ⟨[.body r true], ?_⟩
    rw [exec_cons, hv]
    exact late_out_of_order hc hin hr (Or.inl rfl) hlate
  | record ret =>
    refine ⟨[.body r true], ?_⟩
    rw [exec_cons, hv]
    exact late_out_of_order hc hin hr (Or.inr rfl) hlate
  | sideEffect =>
    refine ⟨[.sideEffect r (.ok ⟨200, ""⟩), .body r true], ?_⟩
    have hreturned : (step cfg v (.sideEffect r (.ok ⟨200, ""⟩))).1 =
        v.setHandler r (some (.http i t (.body ⟨200, ""⟩))) := by
      simp [step, httpSideEffect, afterSideEffect, hr, hauto]
    rw [exec_cons, hv, exec_cons, hreturned]
    exact late_out_of_order (w := v.setHandler r _) hc hin (Function.update_self ..)
      (Or.inl rfl) hlate

end Yellowbox.CaptureOrder
