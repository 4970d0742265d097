import Mathlib.Data.List.Nodup
import Yellowbox.Docker.Containers

/-!
`ContainerService.stop`. The loop is followed container by container: each round
returns, stops a container that is up and removes it when asked to, and leaves
an exited container exactly as it is.
-/
namespace Yellowbox.Docker

open Effects

/-- A `ContainerService`: its containers in starting order, the ones that get
connected to a network, and the `remove` flag. -/
structure ContainerService where
  containers : List ContainerId
  endpointContainers : List ContainerId
  remove : Bool
  nodup : containers.Nodup
  endpoints_sublist : endpointContainers.Sublist containers

namespace ContainerService

def stopContainer (remove : Bool) (signal : String) (c : ContainerId) :
    Act World Error Unit := do
  if !(← isAlive c) then
    return ()
  kill signal c
  wait c
  reload c
  if remove then
    Docker.remove c

/-- `ContainerService.stop(signal)` -/
def stop (service : ContainerService) (signal : String) : Act World Error Unit :=
  Act.forEach (stopContainer service.remove signal) service.containers.reverse

/-- What one round of `stop` asks the daemon for a container that is up. -/
def stopRequests (remove : Bool) (signal : String) (c : ContainerId) : List Request :=
  .kill c signal :: .wait c :: if remove then [.remove c] else []

/-- What `stop` leaves of the containers of `l`, when it finds them in `w`. -/
structure Stopped (remove : Bool) (signal : String) (l : List ContainerId) (w w' : World) :
    Prop where
  reaction : w'.reaction = w.reaction
  untouched : ∀ d, d ∉ l ∨ w.up d = false → w'.status d = w.status d
  down : ∀ d ∈ l, w'.up d = false
  removed : remove = true → ∀ d ∈ l, w.up d = true → w'.status d = none
  requests : w'.requests =
    w.requests ++ (l.filter w.up).flatMap (stopRequests remove signal)

variable {remove : Bool} {signal : String} {w w' : World} {c : ContainerId}

theorem stopContainer_down (hup : w.up c = false) (hcreated : w.status c ≠ some .created) :
    ∃ w', stopContainer remove signal c w = (.ok (), w') ∧ Stopped remove signal [c] w w' := by
  have hkeep : ∀ w' : World, w'.reaction = w.reaction → w'.status = w.status →
      w'.requests = w.requests → Stopped remove signal [c] w w' := by
    intro w' hreaction hstatus hrequests
    refine ⟨hreaction, fun d _ => by rw [hstatus], ?_, ?_, ?_⟩
    · intro d hd
      rw [List.mem_singleton.mp hd, World.up_congr (congrFun hstatus c), hup]
    · intro _ d hd hupd
      rw [List.mem_singleton.mp hd, hup] at hupd
      exact absurd hupd (by simp)
    · simp [hrequests, hup]
  cases hs : w.status c with
  | none => exact ⟨w, Act.bind_ok (isAlive_missing hs), hkeep w rfl rfl rfl⟩
  | some s =>
    have hdead : (s.up || s == .created) = false := by
      simp only [World.up, hs, Option.any_some] at hup
      cases s with
      | created => exact absurd hs hcreated
      | running | paused => simp [Status.up] at hup
      | exited => rfl
    refine ⟨w.load c s, ?_, hkeep _ rfl rfl rfl⟩
    rw [stopContainer, Act.bind_ok (isAlive_present hs), hdead]
    rfl

/-- A container that is up is killed and waited for; what is left is to remove it. -/
theorem stopContainer_killed (remove : Bool) (hup : w.up c = true) (hsignal : w.EndsOn c signal) :
    ∃ reloaded dead,
      stopContainer remove signal c w =
        (if remove then Docker.remove c else pure ()) reloaded ∧
      reloaded.reaction = w.reaction ∧ reloaded.status c = some dead ∧ dead.up = false ∧
      (∀ d, d ≠ c → reloaded.status d = w.status d) ∧
      reloaded.requests = w.requests ++ [.kill c signal, .wait c] := by
  obtain ⟨s, hs, hsup⟩ := World.up_iff.mp hup
  have halive : isAlive c w = (.ok true, w.load c s) := by
    simp only [isAlive_present hs, hsup, Bool.true_or]
  obtain ⟨code, hcode⟩ := hsignal s hsup
  let dead := Status.exited code
  let killed := ((w.load c s).ask (.kill c signal)).setStatus c (some dead)
  have hkill : kill signal c (w.load c s) = (.ok (), killed) := kill_exits hs hsup hcode
  have hkilled : killed.status c = some dead := World.status_setStatus_self ..
  let reloaded := (killed.ask (.wait c)).load c dead
  have hreload : reload c (killed.ask (.wait c)) = (.ok (), reloaded) :=
    reload_present hkilled
  refine ⟨reloaded, dead, ?_, rfl, hkilled, rfl, ?_, ?_⟩
  · rw [stopContainer, Act.bind_ok halive]
    change (kill signal c >>= fun _ => _) _ = _
    rw [Act.bind_ok hkill, Act.bind_ok (wait_down hkilled rfl), Act.bind_ok hreload]
  · intro d hd
    exact World.status_setStatus_of_ne hd _ _
  · simp [reloaded, killed]

theorem stopContainer_up (hup : w.up c = true) (hsignal : w.EndsOn c signal) :
    ∃ w', stopContainer remove signal c w = (.ok (), w') ∧ Stopped remove signal [c] w w' := by
  obtain ⟨reloaded, dead, hstop, hreaction, hdead, hdown, hother, hrequests⟩ :=
    stopContainer_killed remove hup hsignal
  have hne : ∀ d, d ∉ [c] ∨ w.up d = false → d ≠ c := by
    rintro d (hd | hd) rfl
    · simp at hd
    · simp [hup] at hd
  cases remove with
  | false =>
    refine ⟨reloaded, hstop, hreaction, fun d hd => hother d (hne d hd), ?_, nofun, ?_⟩
    · intro d hd
      rw [List.mem_singleton.mp hd, World.up, hdead]
      exact hdown
    · simp [hrequests, stopRequests, hup]
  | true =>
    let gone := (reloaded.ask (.remove c)).setStatus c none
    have hgone : gone.status c = none := World.status_setStatus_self ..
    refine ⟨gone, hstop.trans (remove_down hdead hdown), hreaction, ?_, ?_, ?_, ?_⟩
    · intro d hd
      exact (World.status_setStatus_of_ne (hne d hd) _ _).trans (hother d (hne d hd))
    · intro d hd
      rw [List.mem_singleton.mp hd, World.up, hgone, Option.any_none]
    · intro _ d hd _
      rw [List.mem_singleton.mp hd, hgone]
    · simp [gone, hrequests, stopRequests, hup]

theorem Stopped.cons {l : List ContainerId} {w₁ w₂ : World} (hc : c ∉ l)
    (h₁ : Stopped remove signal [c] w w₁) (h₂ : Stopped remove signal l w₁ w₂) :
    Stopped remove signal (c :: l) w w₂ := by
  have hl : ∀ d ∈ l, w₁.status d = w.status d := by
    intro d hd
    apply h₁.untouched d (Or.inl ?_)
    rintro hdc
    exact hc (List.mem_singleton.mp hdc ▸ hd)
  have hc₂ : w₂.status c = w₁.status c := h₂.untouched c (Or.inl hc)
  have hfilter : l.filter w₁.up = l.filter w.up :=
    List.filter_congr fun d hd => World.up_congr (hl d hd)
  refine ⟨h₂.reaction.trans h₁.reaction, ?_, ?_, ?_, ?_⟩
  · intro d hd
    have hd₁ : d ∉ [c] ∨ w.up d = false := by
      apply hd.imp_left
      intro hnot hdc
      exact hnot (List.mem_singleton.mp hdc ▸ List.mem_cons_self ..)
    have hd₂ : d ∉ l ∨ w₁.up d = false := by
      rw [World.up_congr (h₁.untouched d hd₁)]
      exact hd.imp_left fun hnot hdl => hnot (List.mem_cons_of_mem c hdl)
    rw [h₂.untouched d hd₂, h₁.untouched d hd₁]
  · intro d hd
    rcases List.mem_cons.mp hd with rfl | hdl
    · rw [World.up_congr hc₂]
      exact h₁.down d (List.mem_singleton_self d)
    · exact h₂.down d hdl
  · intro hremove d hd hup
    rcases List.mem_cons.mp hd with rfl | hdl
    · rw [hc₂]
      exact h₁.removed hremove d (List.mem_singleton_self d) hup
    · apply h₂.removed hremove d hdl
      rw [World.up_congr (hl d hdl), hup]
  · rw [h₂.requests, h₁.requests, hfilter, List.append_assoc, ← List.flatMap_append,
      ← List.filter_append, List.singleton_append]

/-- The loop of `stop` over distinct containers that have all been started. -/
theorem forEach_stopContainer (l : List ContainerId) (hnodup : l.Nodup) (w : World)
    (hcreated : ∀ c ∈ l, w.status c ≠ some .created) (hsignal : ∀ c ∈ l, w.EndsOn c signal) :
    ∃ w', Act.forEach (stopContainer remove signal) l w = (.ok (), w') ∧
      Stopped remove signal l w w' := by
  induction l generalizing w with
  | nil => exact ⟨w, Act.forEach_nil, rfl, fun _ _ => rfl, nofun, fun _ => nofun, by simp⟩
  | cons c l ih =>
    obtain ⟨hc, hl⟩ := List.nodup_cons.mp hnodup
    have hround : ∃ w₁, stopContainer remove signal c w = (.ok (), w₁) ∧
        Stopped remove signal [c] w w₁ := by
      cases hup : w.up c with
      | false => exact stopContainer_down hup (hcreated c (List.mem_cons_self ..))
      | true => exact stopContainer_up hup (hsignal c (List.mem_cons_self ..))
    obtain ⟨w₁, hw₁, hstopped⟩ := hround
    have hcreated₁ : ∀ d ∈ l, w₁.status d ≠ some .created := by
      intro d hd
      rw [hstopped.untouched d (Or.inl fun hdc => hc (List.mem_singleton.mp hdc ▸ hd))]
      exact hcreated d (List.mem_cons_of_mem c hd)
    have hsignal₁ : ∀ d ∈ l, w₁.EndsOn d signal := by
      intro d hd
      rw [World.EndsOn, hstopped.reaction]
      exact hsignal d (List.mem_cons_of_mem c hd)
    obtain ⟨w₂, hw₂, hrest⟩ := ih hl w₁ hcreated₁ hsignal₁
    exact ⟨w₂, (Act.forEach_cons_ok hw₁ l).trans hw₂, hstopped.cons hc hrest⟩

theorem stop_contract (service : ContainerService) (signal : String) (w : World)
    (hcreated : ∀ c ∈ service.containers, w.status c ≠ some .created)
    (hsignal : ∀ c ∈ service.containers, w.EndsOn c signal) :
    ∃ w', service.stop signal w = (.ok (), w') ∧
      Stopped service.remove signal service.containers.reverse w w' :=
  forEach_stopContainer _ (List.nodup_reverse.mpr service.nodup) w
    (fun c hc => hcreated c (List.mem_reverse.mp hc))
    fun c hc => hsignal c (List.mem_reverse.mp hc)

/-! ### Everything is removed -/

/-- The container a request kills. -/
def Request.killed : Request → Option ContainerId
  | .kill c _ => some c
  | .start _ | .wait _ | .remove _ => none

/-- `stop` returned, removed every container, and stopped the ones that were up in
reverse order, each of them before it was removed. -/
structure RemovesEverything (service : ContainerService) (signal : String) (w : World) :
    Prop where
  returns : (service.stop signal w).1 = .ok ()
  removed : ∀ c ∈ service.containers, (service.stop signal w).2.status c = none
  stopped : ∃ log, (service.stop signal w).2.requests = w.requests ++ log ∧
    log.filterMap Request.killed = (service.containers.filter w.up).reverse ∧
    ∀ c ∈ service.containers, w.up c = true →
      [.kill c signal, .wait c, .remove c].Sublist log

theorem filterMap_killed_stopRequests (remove : Bool) (signal : String)
    (l : List ContainerId) :
    (l.flatMap (stopRequests remove signal)).filterMap Request.killed = l := by
  induction l with
  | nil => rfl
  | cons c l ih =>
    have hround : (stopRequests remove signal c).filterMap Request.killed = [c] := by
      cases remove <;> rfl
    rw [List.flatMap_cons, List.filterMap_append, hround, ih, List.singleton_append]

/-- `stop` skips a container that is not alive, so it removes everything exactly when
none of the containers has already exited, if they end on its signal. -/
theorem stop_removesEverything_iff (service : ContainerService) (signal : String) (w : World)
    (hremove : service.remove = true)
    (hstatus : ∀ c ∈ service.containers,
      w.status c = some .running ∨ ∃ code, w.status c = some (.exited code))
    (hsignal : ∀ c ∈ service.containers, w.EndsOn c signal) :
    service.RemovesEverything signal w ↔
      ∀ c ∈ service.containers, ∀ code, w.status c ≠ some (.exited code) := by
  have hcreated : ∀ c ∈ service.containers, w.status c ≠ some .created := by
    intro c hc
    rcases hstatus c hc with h | ⟨_, h⟩ <;> simp [h]
  obtain ⟨w', hstop, hstopped⟩ := stop_contract service signal w hcreated hsignal
  constructor
  · intro h c hc code hexited
    have hdown : w.up c = false := by
      rw [World.up, hexited]
      rfl
    have hremoved := h.removed c hc
    rw [hstop, hstopped.untouched c (Or.inr hdown), hexited] at hremoved
    exact absurd hremoved (by simp)
  · intro h
    have hup : ∀ c ∈ service.containers, w.up c = true := by
      intro c hc
      rcases hstatus c hc with hrunning | ⟨code, hexited⟩
      · rw [World.up, hrunning]
        rfl
      · exact absurd hexited (h c hc code)
    refine ⟨by rw [hstop], ?_, ?_⟩
    · intro c hc
      rw [hstop]
      exact hstopped.removed hremove c (List.mem_reverse.mpr hc) (hup c hc)
    · refine ⟨_, by rw [hstop]; exact hstopped.requests, ?_, ?_⟩
      · rw [filterMap_killed_stopRequests, List.filter_reverse]
      · intro c hc hupc
        have hround : stopRequests service.remove signal c ∈
            (service.containers.reverse.filter w.up).map
              (stopRequests service.remove signal) := by
          apply List.mem_map_of_mem
          exact List.mem_filter.mpr ⟨List.mem_reverse.mpr hc, hupc⟩
        have hsub := List.sublist_flatten_of_mem hround
        rw [hremove] at hsub ⊢
        exact hsub

/-- Two containers, `0` started before `1`. -/
def pair : ContainerService where
  containers := [0, 1]
  endpointContainers := [0, 1]
  remove := true
  nodup := by decide
  endpoints_sublist := List.Sublist.refl _

/-- A daemon that has given out the ids below `2`, with the given statuses. -/
def pairWorld (status : ContainerId → Option Status) : World where
  status := status
  attrs := fun _ => .created
  connected := fun _ => false
  reaction := fun _ _ _ => .exits 137
  sigkill := Reaction.exits_killed
  next := 2
  requests := []

theorem pairWorld_endsOn (status : ContainerId → Option Status) :
    ∀ c ∈ pair.containers, (pairWorld status).EndsOn c "SIGTERM" :=
  fun _ _ _ _ => ⟨137, rfl⟩

theorem stop_removesEverything_iff_running :
    pair.RemovesEverything "SIGTERM" (pairWorld fun _ => some .running) ↔
      ∀ c ∈ pair.containers, ∀ code, some Status.running ≠ some (.exited code) :=
  stop_removesEverything_iff pair "SIGTERM" (pairWorld fun _ => some .running) rfl
    (fun _ _ => Or.inl rfl) (pairWorld_endsOn _)

/-- Container `0` has crashed with code `1`; `stop` removes only container `1`. -/
theorem stop_leaves_crashed :
    ¬ ∀ (service : ContainerService) (w : World), service.remove = true →
      (∀ c ∈ service.containers,
        w.status c = some .running ∨ ∃ code, w.status c = some (.exited code)) →
      (∀ c ∈ service.containers, w.EndsOn c "SIGTERM") →
      service.RemovesEverything "SIGTERM" w := by
  intro h
  let crashed := pairWorld fun c => if c = 0 then some (.exited 1) else some .running
  have hstatus : ∀ c ∈ pair.containers,
      crashed.status c = some .running ∨ ∃ code, crashed.status c = some (.exited code) := by
    intro c _
    by_cases hc : c = 0
    · exact Or.inr ⟨1, if_pos hc⟩
    · exact Or.inl (if_neg hc)
  have hremoved := (h pair crashed rfl hstatus (pairWorld_endsOn _)).removed 0 (by decide)
  have hleft : (pair.stop "SIGTERM" crashed).2.status 0 = some (.exited 1) := by
    decide +kernel
  rw [hleft] at hremoved
  cases hremoved

end ContainerService

end Yellowbox.Docker
