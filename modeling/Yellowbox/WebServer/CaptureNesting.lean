import Yellowbox.WebServer.Recording

/-!
Nested `capture_calls` of one HTTP endpoint. The list of a context holds what was
completed between its entry and its exit, so the lists of nested contexts are
segments of one another and those of other contexts have nothing in common.
-/
namespace Yellowbox.CaptureNesting

open StepRuns ScopedLog
open WebServerState WebServerCalls WebServerHandlers WebServerSteps Recording

variable {cfg : Setup} {i : HttpId} {w : World} {evs : List Event}

theorem captureOps_append (cfg : Setup) (i : HttpId) (w : World) (pre post : List Event) :
    captureOps cfg i w (pre ++ post) =
      captureOps cfg i w pre ++ captureOps cfg i (exec (step cfg) w pre) post :=
  visible_append (step cfg) (captureOp cfg i) w pre post

theorem captureOps_exit (cfg : Setup) (i : HttpId) (w : World) (c : CaptureId)
    (post : List Event) :
    captureOps cfg i w (.call (.exitCaptureCalls (.http i) c) :: post) =
      .exit c ::
        captureOps cfg i (step cfg w (.call (.exitCaptureCalls (.http i) c))).1 post := by
  have hview : captureOp cfg i w (.call (.exitCaptureCalls (.http i) c)) = some (.exit c) := by
    simp [captureOp, CaptureScopes.endpointOp]
  exact visible_cons_some (step cfg) (captureOp cfg i) post hview

/-- The list of a context is what was completed in its window. -/
theorem calls_eq_window (hw : w.Fresh) (hnest : WellNested [] (captureOps cfg i w evs))
    (hcaptures : (entered (captureOps cfg i w evs)).Nodup) {c : CaptureId}
    (hc : c ∈ entered (captureOps cfg i w evs)) :
    (exec (step cfg) w evs).calls i c = window c (captureOps cfg i w evs) := by
  have hnone : (capturesOf i w).active = [] := hw.requestCaptures (.http i)
  have hrun := run_entered (capturesOf i w) (captureOps cfg i w evs) (k := c)
    (by rw [hnone]; exact hnest) (by rw [hnone]; exact hcaptures) hc
  rw [← capturesOf_exec] at hrun
  exact hrun

theorem logged_nodup (hw : w.Fresh) (hrequests : (arrivals evs).Nodup) :
    ((logged (captureOps cfg i w evs)).map (·.request)).Nodup := by
  rw [logged_captureOps]
  apply completed_nodup evs hrequests
  intro r _ j t p h
  rw [hw.handlers r] at h
  cases h

/-- Of two contexts, a request is in the window of the one entered first and in that
of the other only if the first encloses the other. -/
theorem windows_disjoint (hw : w.Fresh) (hrequests : (arrivals evs).Nodup)
    (hnest : WellNested [] (captureOps cfg i w evs))
    (hcaptures : (entered (captureOps cfg i w evs)).Nodup)
    {c d : CaptureId} {pre post : List (Op CaptureId RecordedRequest)}
    (hsplit : captureOps cfg i w evs = pre ++ .enter d :: post) (hc : c ∈ entered pre)
    (hnot : ¬ Encloses c d (captureOps cfg i w evs)) :
    ∀ a ∈ window c (captureOps cfg i w evs), ∀ b ∈ window d (captureOps cfg i w evs),
      a.request ≠ b.request := by
  have hsub := window_append_sublist hnest hcaptures hsplit hc hnot
  have hnodup := (logged_nodup hw hrequests).sublist (hsub.map (·.request))
  rw [List.map_append, List.nodup_append] at hnodup
  intro a ha b hb
  exact hnodup.2.2 _ (List.mem_map_of_mem ha) _ (List.mem_map_of_mem hb)

/-- Contexts of which neither encloses the other have no request in common. -/
theorem unrelated_disjoint (hw : w.Fresh) (hrequests : (arrivals evs).Nodup)
    (hnest : WellNested [] (captureOps cfg i w evs))
    (hcaptures : (entered (captureOps cfg i w evs)).Nodup) {c d : CaptureId}
    (hc : c ∈ entered (captureOps cfg i w evs)) (hd : d ∈ entered (captureOps cfg i w evs))
    (hne : c ≠ d) (hcd : ¬ Encloses c d (captureOps cfg i w evs))
    (hdc : ¬ Encloses d c (captureOps cfg i w evs)) :
    ∀ a ∈ window c (captureOps cfg i w evs), ∀ b ∈ window d (captureOps cfg i w evs),
      a.request ≠ b.request := by
  obtain ⟨pre, post, hsplit⟩ := List.append_of_mem (mem_entered.mp hd)
  have hin : c ∈ entered (pre ++ .enter d :: post) := hsplit ▸ hc
  rw [entered_append, entered_enter, List.mem_append, List.mem_cons] at hin
  rcases hin with hpre | hcd' | hpost
  · exact windows_disjoint hw hrequests hnest hcaptures hsplit hpre hcd
  · exact absurd hcd' hne
  · obtain ⟨mid, rest, rfl⟩ := List.append_of_mem (mem_entered.mp hpost)
    have hsplit' : captureOps cfg i w evs = (pre ++ .enter d :: mid) ++ .enter c :: rest := by
      rw [List.append_assoc]
      exact hsplit
    have hdin : d ∈ entered (pre ++ .enter d :: mid) := by simp
    intro a ha b hb
    exact (windows_disjoint hw hrequests hnest hcaptures hsplit' hdin hdc b hb a ha).symm

/-- The list of a context stays as it is at its exit. -/
theorem calls_after_exit {pre post : List Event} {c : CaptureId} (hw : w.Fresh)
    (hnest : WellNested []
      (captureOps cfg i w (pre ++ .call (.exitCaptureCalls (.http i) c) :: post)))
    (hcaptures : (entered
      (captureOps cfg i w (pre ++ .call (.exitCaptureCalls (.http i) c) :: post))).Nodup) :
    (exec (step cfg) w (pre ++ .call (.exitCaptureCalls (.http i) c) :: post)).calls i c =
      (exec (step cfg) w pre).calls i c := by
  have hops := captureOps_append cfg i w pre (.call (.exitCaptureCalls (.http i) c) :: post)
  rw [captureOps_exit] at hops
  have hentered : ∀ {k}, k ∈ entered (captureOps cfg i w pre) → k ∈ entered
      (captureOps cfg i w (pre ++ .call (.exitCaptureCalls (.http i) c) :: post)) := by
    intro k hk
    rw [hops, entered_append]
    exact List.mem_append_left _ hk
  have hnest' := hnest
  have hcaptures' := hcaptures
  rw [hops] at hnest' hcaptures'
  rw [entered_append] at hcaptures'
  have hc : c ∈ entered (captureOps cfg i w pre) :=
    (mem_of_wellNested_exit hnest').resolve_left List.not_mem_nil
  rw [calls_eq_window hw hnest hcaptures (hentered hc),
    calls_eq_window hw (wellNested_append hnest') (List.nodup_append.mp hcaptures').1 hc, hops,
    window_append_exit _ hc]

/-- In a run whose contexts are well nested, each yielding a list of its own, and
whose requests are distinct. -/
theorem nested_captures (cfg : Setup) (i : HttpId) (w : World) (evs : List Event)
    (hw : w.Fresh) (hnest : WellNested [] (captureOps cfg i w evs))
    (hcaptures : (entered (captureOps cfg i w evs)).Nodup) (hrequests : (arrivals evs).Nodup) :
    let ops := captureOps cfg i w evs
    let calls := (exec (step cfg) w evs).calls i
    (∀ c ∈ entered ops, calls c = window c ops ∧ ((calls c).map (·.request)).Nodup) ∧
    (∀ o c, Encloses o c ops → calls c <:+: calls o) ∧
    (∀ c pre post, evs = pre ++ .call (.exitCaptureCalls (.http i) c) :: post →
      calls c = (exec (step cfg) w pre).calls i c) ∧
    (∀ c ∈ entered ops, ∀ d ∈ entered ops, c ≠ d → ¬ Encloses c d ops → ¬ Encloses d c ops →
      ∀ a ∈ calls c, ∀ b ∈ calls d, a.request ≠ b.request) := by
  intro ops calls
  have hcalls : ∀ c ∈ entered ops, calls c = window c ops :=
    fun c hc => calls_eq_window hw hnest hcaptures hc
  refine ⟨?_, ?_, ?_, ?_⟩
  · intro c hc
    refine ⟨hcalls c hc, ?_⟩
    rw [hcalls c hc]
    exact (logged_nodup hw hrequests).sublist ((window_sublist c ops).map (·.request))
  · intro o c hencloses
    have hinfix := window_infix hnest hcaptures hencloses
    obtain ⟨pre, post, hsplit, ho, -⟩ := hencloses
    have hops : ops = pre ++ .enter c :: post := hsplit
    have hc : c ∈ entered ops := by simp [hops]
    have ho : o ∈ entered ops := by simp [hops, mem_entered.mpr ho]
    rw [hcalls c hc, hcalls o ho]
    exact hinfix
  · rintro c pre post rfl
    exact calls_after_exit hw hnest hcaptures
  · intro c hc d hd hne hcd hdc
    rw [hcalls c hc, hcalls d hd]
    exact unrelated_disjoint hw hrequests hnest hcaptures hc hd hne hcd hdc

/-- Two contexts in a row inside a third one, a request in each part. -/
theorem nested_captures_twice :
    let w := World.new fun _ => .response ⟨200, "hi"⟩
    let ask (r : RequestId) : List Event := [.request r 0 r, .body r true]
    let evs : List Event := [.call (.addHttpEndpoint 0 0)] ++ ask 0 ++
      [.call (.enterCaptureCalls (.http 0) 0)] ++ ask 1 ++
      [.call (.enterCaptureCalls (.http 0) 1)] ++ ask 2 ++
      [.call (.exitCaptureCalls (.http 0) 1), .call (.enterCaptureCalls (.http 0) 2)] ++ ask 3 ++
      [.call (.exitCaptureCalls (.http 0) 2)] ++ ask 4 ++
      [.call (.exitCaptureCalls (.http 0) 0)] ++ ask 5
    let calls := (exec (step Setup.plain) w evs).calls 0
    calls 0 = [⟨1, 1⟩, ⟨2, 2⟩, ⟨3, 3⟩, ⟨4, 4⟩] ∧ calls 1 <:+: calls 0 ∧
      (∀ a ∈ calls 1, ∀ b ∈ calls 2, a.request ≠ b.request) := by
  intro w ask evs calls
  have h := nested_captures Setup.plain 0 w evs (World.new_fresh _) (by decide) (by decide)
    (by decide)
  refine ⟨(h.1 0 (by decide)).1.trans (by decide), ?_, ?_⟩
  · refine h.2.1 0 1 ⟨[.log ⟨0, 0⟩, .enter 0, .log ⟨1, 1⟩], [.log ⟨2, 2⟩, .exit 1, .enter 2,
      .log ⟨3, 3⟩, .exit 2, .log ⟨4, 4⟩, .exit 0, .log ⟨5, 5⟩], ?_⟩
    decide
  · decide

end Yellowbox.CaptureNesting
