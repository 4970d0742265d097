import Yellowbox.Docker.Networks

/-!
`RunMixin.run` and `AsyncRunMixin.arun` from the constructed service to the end of
the context. `start` comes before the `with service` block, so an exception out
of it unwinds the network connection only.
-/
namespace Yellowbox.Docker

open Effects

/-- Something the containers do of themselves, or others do to them. -/
inductive Event
  | exits (c : ContainerId) (code : ℤ)
  | starts (c : ContainerId)
  | pauses (c : ContainerId)
  | unpauses (c : ContainerId)
  | removes (c : ContainerId)
  deriving DecidableEq, Repr

namespace Event

def subject : Event → ContainerId
  | exits c _ | starts c | pauses c | unpauses c | removes c => c

/-- The status after the event; docker ignores an event the status does not allow. -/
def next : Event → Status → Option Status
  | exits _ code, .running | exits _ code, .paused => some (.exited code)
  | starts _, .exited _ => some .running
  | pauses _, .running => some .paused
  | unpauses _, .paused => some .running
  | removes _, .exited _ | removes _, .created => none
  | _, s => some s

def apply (status : ContainerId → Option Status) (event : Event) :
    ContainerId → Option Status :=
  Function.update status event.subject ((status event.subject).bind event.next)

/-- The statuses after a list of events. -/
def replay (events : List Event) (status : ContainerId → Option Status) :
    ContainerId → Option Status :=
  events.foldl apply status

theorem next_ne_created {s : Status} (hs : s ≠ .created) (event : Event) :
    event.next s ≠ some .created := by
  cases event <;> cases s <;> simp_all [next]

/-- No event puts a container back to where it was never started. -/
theorem replay_ne_created (events : List Event) {status : ContainerId → Option Status}
    {c : ContainerId} (h : status c ≠ some .created) :
    replay events status c ≠ some .created := by
  induction events generalizing status with
  | nil => exact h
  | cons event events ih =>
    apply ih
    by_cases hc : c = event.subject
    · subst hc
      simp only [apply, Function.update_self]
      cases hs : status event.subject with
      | none => simp
      | some s => exact next_ne_created (fun hcreated => h (hcreated ▸ hs)) event
    · simpa only [apply, Function.update_of_ne hc] using h

end Event

/-- A part of the run that is not the library's own code: what happens to the
containers in it, and what it raises. -/
structure Episode where
  events : List Event
  raises : Option Error

def Episode.act (episode : Episode) : Act World Error Unit := do
  Act.modify fun w => { w with status := Event.replay episode.events w.status }
  Act.raiseSome episode.raises

theorem Episode.act_snd (episode : Episode) (w : World) :
    (episode.act w).2 = { w with status := Event.replay episode.events w.status } := by
  rw [Episode.act, Act.modify_bind]
  cases episode.raises <;> rfl

/-- Everything about a call of `run` that the library does not decide. `waiting` is
the subclass's part of `start`, which retries until its `RetrySpec` is
exhausted; `beforeStop` is what a subclass's `stop` raises before it comes to
`ContainerService.stop`; `signal` is the subclass's default. -/
structure Scenario where
  network : Bool
  faults : Faults
  waiting : Episode
  body : Episode
  beforeStop : Option Error
  signal : String

namespace ContainerService

def startContainer (faults : Faults) (c : ContainerId) : Act World Error Unit := do
  if ((← Act.get).attrs c).text.toLower == "started" then
    return ()
  Act.raiseSome (faults.start c)
  Docker.start c
  Act.raiseSome (faults.reloadStarted c)
  reload c

/-- `ContainerService.start()` -/
def startContainers (service : ContainerService) (faults : Faults) : Act World Error Unit :=
  Act.forEach (startContainer faults) service.containers

/-- The subclass's `start(retry_spec)`. -/
def start (service : ContainerService) (sc : Scenario) : Act World Error Unit := do
  service.startContainers sc.faults
  sc.waiting.act

/-- The subclass's `astart(retry_spec)`, which waits with `aretry`. -/
def astart (service : ContainerService) (sc : Scenario) : Act World Error Unit := do
  service.startContainers sc.faults
  sc.waiting.act

/-- The subclass's `stop()`. -/
def stopService (service : ContainerService) (sc : Scenario) : Act World Error Unit := do
  Act.raiseSome sc.beforeStop
  service.stop sc.signal

/-- `YellowService.__exit__` -/
def exit (service : ContainerService) (sc : Scenario) : Act World Error Unit :=
  service.stopService sc

/-- `AsyncRunMixin.astop`: `stop` on the executor. -/
def astop (service : ContainerService) (sc : Scenario) : Act World Error Unit :=
  service.stopService sc

/-- `AsyncRunMixin.__aexit__` -/
def aexit (service : ContainerService) (sc : Scenario) : Act World Error Unit :=
  service.astop sc

/-- `with connect_network: ..`, where `connect_network` may be a null context. -/
def withNetwork (service : ContainerService) (sc : Scenario)
    (body : Act World Error Unit) : Act World Error Unit :=
  if sc.network then service.withConnected sc.faults body else body

/-- `with cls.run(docker_client, network=.., retry_spec=..): body`, from the
constructed service on. -/
def run (service : ContainerService) (sc : Scenario) : Act World Error Unit :=
  service.withNetwork sc do
    service.start sc
    Act.ensure sc.body.act (service.exit sc)

/-- `async with cls.arun(docker_client, network=.., retry_spec=..): body`. -/
def arun (service : ContainerService) (sc : Scenario) : Act World Error Unit :=
  service.withNetwork sc do
    service.astart sc
    Act.ensure sc.body.act (service.aexit sc)

/-! ### When nothing is left running -/

def NoneUp (service : ContainerService) (status : ContainerId → Option Status) : Prop :=
  ∀ c ∈ service.containers, (status c).any Status.up = false

/-- The `start` call of this container raises. -/
def StartRefused (faults : Faults) (status : ContainerId → Option Status)
    (c : ContainerId) : Prop :=
  faults.start c ≠ none ∨ status c = none ∨ status c = some .paused

/-- Starting this container raises, in the call or in the reload after it. -/
def StartRaises (faults : Faults) (status : ContainerId → Option Status)
    (c : ContainerId) : Prop :=
  StartRefused faults status c ∨ faults.reloadStarted c ≠ none

/-- Every container of the list running. -/
def started (l : List ContainerId) (status : ContainerId → Option Status) :
    ContainerId → Option Status :=
  fun c => if c ∈ l then some .running else status c

/-- The statuses when the waiting of `start` is over. -/
def waited (service : ContainerService) (sc : Scenario)
    (status : ContainerId → Option Status) : ContainerId → Option Status :=
  Event.replay sc.waiting.events (started service.containers status)

open Classical in
/-- Once connected: either the very first `start` call raises and nothing was running;
or the waiting raises and everything has exited meanwhile; or both succeed, and
`ContainerService.stop` is reached or finds nothing running. -/
def StartsOrStops (service : ContainerService) (sc : Scenario)
    (status : ContainerId → Option Status) : Prop :=
  if ∃ c ∈ service.containers, StartRaises sc.faults status c then
    service.NoneUp status ∧ ∃ c ∈ service.containers.head?, StartRefused sc.faults status c
  else if sc.waiting.raises ≠ none then
    service.NoneUp (service.waited sc status)
  else
    sc.beforeStop = none ∨
      service.NoneUp (Event.replay sc.body.events (service.waited sc status))

open Classical in
/-- Connecting raises and nothing was running; or the rest goes as it should. -/
def StopsInTime (service : ContainerService) (sc : Scenario) (w : World) : Prop :=
  if sc.network = true ∧ ∃ ec ∈ service.endpointContainers, ConnectRefused sc.faults w ec then
    service.NoneUp w.status
  else
    service.StartsOrStops sc w.status

/-! ### Starting -/

section Starting

variable {faults : Faults} {w : World} {c : ContainerId}

/-- Docker has no status `started`: no container is skipped. -/
theorem startContainer_eq (faults : Faults) (c : ContainerId) (w : World) :
    startContainer faults c w =
      (do
        Act.raiseSome (faults.start c)
        Docker.start c
        Act.raiseSome (faults.reloadStarted c)
        reload c : Act World Error Unit) w := by
  have htext : ((w.attrs c).text.toLower == "started") = false := by
    rw [Status.text_toLower]
    cases w.attrs c <;> rfl
  rw [startContainer, Act.get_bind, htext]
  rfl

theorem startContainer_refused (h : StartRefused faults w.status c) :
    ∃ e w', startContainer faults c w = (.error e, w') ∧ w'.status = w.status := by
  rw [startContainer_eq]
  cases hfault : faults.start c with
  | some e => exact ⟨e, w, Act.raiseSome_some_bind e _ w, rfl⟩
  | none =>
    rcases h with h | h | h
    · exact absurd hfault h
    · refine ⟨.notFound, w.ask (.start c), ?_, rfl⟩
      rw [Act.raiseSome_none_bind, Act.bind_error (start_missing h)]
    · refine ⟨.conflict, w.ask (.start c), ?_, rfl⟩
      rw [Act.raiseSome_none_bind, Act.bind_error (start_paused h)]

/-- An accepted `start` leaves the container running, whatever the reload does. -/
theorem startContainer_accepted (h : ¬ StartRefused faults w.status c) :
    ∃ r w', startContainer faults c w = (r, w') ∧ w'.status c = some .running ∧
      (∀ d, d ≠ c → w'.status d = w.status d) ∧ w'.reaction = w.reaction ∧
      (r = .ok () ↔ faults.reloadStarted c = none) := by
  simp only [StartRefused, not_or, not_not] at h
  obtain ⟨hfault, hs, hpaused⟩ := h
  obtain ⟨s, hs⟩ := Option.ne_none_iff_exists'.mp hs
  have hcall := start_present hs fun hp => hpaused (hp ▸ hs)
  let w₁ := (w.ask (.start c)).setStatus c (some .running)
  have hrunning : w₁.status c = some .running := World.status_setStatus_self ..
  have hother : ∀ d, d ≠ c → w₁.status d = w.status d := by
    intro d hd
    exact World.status_setStatus_of_ne hd _ _
  rw [startContainer_eq, hfault, Act.raiseSome_none_bind, Act.bind_ok hcall]
  cases hreload : faults.reloadStarted c with
  | none => exact ⟨.ok (), _, reload_present hrunning, hrunning, hother, rfl, by simp⟩
  | some e =>
    exact ⟨.error e, w₁, Act.raiseSome_some_bind e _ w₁, hrunning, hother, rfl, by simp⟩

theorem startRaises_congr {status status' : ContainerId → Option Status}
    (h : status' c = status c) : StartRaises faults status' c ↔ StartRaises faults status c := by
  simp only [StartRaises, StartRefused, h]

theorem forEach_startContainer_ok (l : List ContainerId) (hnodup : l.Nodup) (w : World)
    (h : ¬ ∃ c ∈ l, StartRaises faults w.status c) :
    ∃ w', Act.forEach (startContainer faults) l w = (.ok (), w') ∧
      w'.status = started l w.status ∧ w'.reaction = w.reaction := by
  induction l generalizing w with
  | nil => exact ⟨w, Act.forEach_nil, by funext d; simp [started], rfl⟩
  | cons c l ih =>
    obtain ⟨hc, hnodup⟩ := List.nodup_cons.mp hnodup
    have hhead : ¬ StartRaises faults w.status c := fun hr => h ⟨c, by simp, hr⟩
    simp only [StartRaises, not_or, not_not] at hhead
    obtain ⟨r, w₁, hcall, hrunning, hother, hreaction, hr⟩ := startContainer_accepted hhead.1
    rw [hr.mpr hhead.2] at hcall
    have htail : ¬ ∃ d ∈ l, StartRaises faults w₁.status d := by
      rintro ⟨d, hd, hraises⟩
      have hstatus := hother d fun hdc => hc (hdc ▸ hd)
      exact h ⟨d, List.mem_cons_of_mem c hd, (startRaises_congr hstatus).mp hraises⟩
    obtain ⟨w₂, hloop, hstatus, hkept⟩ := ih hnodup w₁ htail
    refine ⟨w₂, (Act.forEach_cons_ok hcall l).trans hloop, ?_, hkept.trans hreaction⟩
    rw [hstatus]
    funext d
    by_cases hdc : d = c
    · simp [started, hdc, hc, hrunning]
    · simp [started, hdc, hother d hdc]

/-- Whatever comes after, a first container that was accepted and stays up is not one that was
refused. -/
theorem noneUp_iff_of_accepted {c : ContainerId} {l : List ContainerId} {w w' : World}
    (hup : w'.up c = true) (haccepted : ¬ StartRefused faults w.status c) :
    (∀ d ∈ c :: l, w'.up d = false) ↔
      (∀ d ∈ c :: l, w.up d = false) ∧
        ∃ d ∈ (c :: l).head?, StartRefused faults w.status d := by
  have hleft : ¬ ∀ d ∈ c :: l, w'.up d = false := by
    intro hall
    rw [hall c (List.mem_cons_self ..)] at hup
    cases hup
  exact iff_of_false hleft (by simp [haccepted])

/-- When starting raises, the containers started before stay up. -/
theorem forEach_startContainer_raises (l : List ContainerId) (hnodup : l.Nodup) (w : World)
    (h : ∃ c ∈ l, StartRaises faults w.status c) :
    ∃ e w', Act.forEach (startContainer faults) l w = (.error e, w') ∧
      (∀ d, d ∉ l → w'.status d = w.status d) ∧
      ((∀ c ∈ l, w'.up c = false) ↔
        (∀ c ∈ l, w.up c = false) ∧ ∃ c ∈ l.head?, StartRefused faults w.status c) := by
  induction l generalizing w with
  | nil =>
    obtain ⟨c, hc, -⟩ := h
    cases hc
  | cons c l ih =>
    obtain ⟨hc, hnodup⟩ := List.nodup_cons.mp hnodup
    by_cases hhead : StartRefused faults w.status c
    · obtain ⟨e, w₁, hcall, hstatus⟩ := startContainer_refused hhead
      refine ⟨e, w₁, Act.forEach_cons_error hcall l, fun d _ => congrFun hstatus d, ?_⟩
      have hup : ∀ d, w₁.up d = w.up d := fun d => World.up_congr (congrFun hstatus d)
      simp [hup, hhead]
    · obtain ⟨r, w₁, hcall, hrunning, hother, -, hr⟩ := startContainer_accepted hhead
      have hup : ∀ w' : World, w'.status c = w₁.status c → w'.up c = true := by
        intro w' hw'
        rw [World.up, hw', hrunning]
        rfl
      by_cases hreload : faults.reloadStarted c = none
      · rw [hr.mpr hreload] at hcall
        have htail : ∃ d ∈ l, StartRaises faults w₁.status d := by
          obtain ⟨d, hd, hraises⟩ := h
          rcases List.mem_cons.mp hd with rfl | hdl
          · exact absurd hraises (not_or.mpr ⟨hhead, not_not_intro hreload⟩)
          · have hstatus := hother d fun hdc => hc (hdc ▸ hdl)
            exact ⟨d, hdl, (startRaises_congr hstatus).mpr hraises⟩
        obtain ⟨e, w₂, hloop, hkept, -⟩ := ih hnodup w₁ htail
        refine ⟨e, w₂, (Act.forEach_cons_ok hcall l).trans hloop, ?_,
          noneUp_iff_of_accepted (hup w₂ (hkept c hc)) hhead⟩
        intro d hd
        simp only [List.mem_cons, not_or] at hd
        rw [hkept d hd.2, hother d hd.1]
      · cases r with
        | ok u => exact absurd (hr.mp rfl) hreload
        | error e =>
          refine ⟨e, w₁, Act.forEach_cons_error hcall l, ?_,
            noneUp_iff_of_accepted (hup w₁ rfl) hhead⟩
          intro d hd
          exact hother d fun hdc => hd (hdc ▸ List.mem_cons_self ..)

end Starting

/-! ### The whole run -/

variable {service : ContainerService} {sc : Scenario}

theorem stopService_noneUp {w : World}
    (hcreated : ∀ c ∈ service.containers, w.status c ≠ some .created)
    (hsignal : ∀ c ∈ service.containers, w.EndsOn c sc.signal) :
    service.NoneUp (service.stopService sc w).2.status ↔
      sc.beforeStop = none ∨ service.NoneUp w.status := by
  cases hbefore : sc.beforeStop with
  | some e =>
    rw [stopService, hbefore, Act.raiseSome_some_bind]
    simp
  | none =>
    obtain ⟨w', hstop, hstopped⟩ := stop_contract service sc.signal w hcreated hsignal
    rw [stopService, hbefore, Act.raiseSome_none_bind, hstop]
    simp only [true_or, iff_true]
    intro c hc
    exact hstopped.down c (List.mem_reverse.mpr hc)

/-- What `start` and the `with service` block leave, once connected. -/
theorem start_ensure_noneUp (w : World)
    (hsignal : ∀ c ∈ service.containers, w.EndsOn c sc.signal) :
    service.NoneUp
        ((do service.start sc; Act.ensure sc.body.act (service.exit sc) : Act World Error Unit)
          w).2.status ↔
      service.StartsOrStops sc w.status := by
  by_cases hstart : ∃ c ∈ service.containers, StartRaises sc.faults w.status c
  · obtain ⟨e, w', hloop, -, hup⟩ :=
      forEach_startContainer_raises service.containers service.nodup w hstart
    have hraise : service.start sc w = (.error e, w') := Act.bind_error hloop
    rw [Act.bind_error hraise, StartsOrStops, if_pos hstart]
    exact hup
  · obtain ⟨w₁, hloop, hstarted, hreaction⟩ :=
      forEach_startContainer_ok service.containers service.nodup w hstart
    have hwaiting : service.start sc w = sc.waiting.act w₁ := Act.bind_ok hloop
    let w₂ := { w₁ with status := service.waited sc w.status }
    have hact : sc.waiting.act w₁ =
        (Act.raiseSome sc.waiting.raises : Act World Error Unit) w₂ := by
      rw [Episode.act, Act.modify_bind, hstarted]
      rfl
    rw [StartsOrStops, if_neg hstart]
    cases hraises : sc.waiting.raises with
    | some e =>
      have hraise : service.start sc w = (.error e, w₂) := by
        rw [hwaiting, hact, hraises]
        rfl
      rw [Act.bind_error hraise, if_pos (Option.some_ne_none e)]
    | none =>
      have hok : service.start sc w = (.ok (), w₂) := by
        rw [hwaiting, hact, hraises]
        rfl
      rw [Act.bind_ok hok, if_neg (not_not_intro rfl), Act.ensure_snd, Episode.act_snd]
      apply stopService_noneUp
      · intro c hc
        apply Event.replay_ne_created
        apply Event.replay_ne_created
        rw [started, if_pos hc]
        simp
      · intro c hc
        change ∀ s, s.up = true → ∃ code, w₁.reaction c s sc.signal = .exits code
        rw [hreaction]
        exact hsignal c hc

theorem withNetwork_noneUp (w : World)
    (hsignal : ∀ c ∈ service.containers, w.EndsOn c sc.signal) :
    service.NoneUp
        (service.withNetwork sc
          (do service.start sc; Act.ensure sc.body.act (service.exit sc)) w).2.status ↔
      service.StopsInTime sc w := by
  have hnodup : service.endpointContainers.Nodup :=
    service.endpoints_sublist.nodup service.nodup
  obtain ⟨hrefused, haccepted⟩ :=
    forEach_connectEndpoint sc.faults service.endpointContainers hnodup w
  by_cases hnetwork : sc.network = true
  · rw [withNetwork, if_pos hnetwork]
    by_cases hconnect : ∃ ec ∈ service.endpointContainers, ConnectRefused sc.faults w ec
    · obtain ⟨e, w', hloop, hstatus⟩ := hrefused hconnect
      have hraise : service.connect sc.faults w = (.error e, w') := hloop
      rw [StopsInTime, if_pos ⟨hnetwork, hconnect⟩, withConnected, Act.bind_error hraise,
        hstatus]
    · obtain ⟨w', hloop, hstatus, hreaction⟩ := haccepted hconnect
      have hok : service.connect sc.faults w = (.ok (), w') := hloop
      rw [StopsInTime, if_neg fun h => hconnect h.2, withConnected, Act.bind_ok hok,
        Act.ensure_snd, disconnect_status, ← hstatus]
      refine start_ensure_noneUp w' fun c hc => ?_
      rw [World.EndsOn, hreaction]
      exact hsignal c hc
  · rw [withNetwork, if_neg hnetwork, StopsInTime, if_neg fun h => hnetwork h.1]
    exact start_ensure_noneUp w hsignal

/-- `run` and `arun` leave none of the containers running exactly when the scenario does
not make `start` raise with a container up, and reaches the service's `stop`, whose
signal ends them. -/
theorem run_cleans_up_iff (service : ContainerService) (sc : Scenario) (w : World)
    (hsignal : ∀ c ∈ service.containers, w.EndsOn c sc.signal) :
    (service.NoneUp (service.run sc w).2.status ↔ service.StopsInTime sc w) ∧
      (service.NoneUp (service.arun sc w).2.status ↔ service.StopsInTime sc w) :=
  ⟨withNetwork_noneUp w hsignal, withNetwork_noneUp w hsignal⟩

/-- A scenario in which nothing fails, but for the waiting of `start`. -/
def exhausted : Scenario where
  network := false
  faults := ⟨fun _ => none, fun _ => none, fun _ => none, fun _ => none, fun _ => none,
    fun _ => none⟩
  waiting := ⟨[], some (.raised "ConnectionError")⟩
  body := ⟨[], none⟩
  beforeStop := none
  signal := "SIGTERM"

theorem run_cleans_up_iff_exhausted :
    (pair.NoneUp (pair.run exhausted (pairWorld fun _ => some .created)).2.status ↔
        pair.StopsInTime exhausted (pairWorld fun _ => some .created)) ∧
      (pair.NoneUp (pair.arun exhausted (pairWorld fun _ => some .created)).2.status ↔
        pair.StopsInTime exhausted (pairWorld fun _ => some .created)) :=
  run_cleans_up_iff pair exhausted (pairWorld fun _ => some .created) (pairWorld_endsOn _)

/-- Both containers are still running when the retries of `start` are exhausted. -/
theorem run_leaves_running :
    ¬ ∀ (service : ContainerService) (sc : Scenario) (w : World),
      (∀ c ∈ service.containers, w.EndsOn c sc.signal) →
      service.NoneUp (service.run sc w).2.status := by
  intro h
  have hup : ((pair.run exhausted (pairWorld fun _ => some .created)).2.status 0).any
      Status.up = true := by decide +kernel
  rw [h pair exhausted (pairWorld fun _ => some .created) (pairWorld_endsOn _) 0
    (by decide)] at hup
  cases hup

end ContainerService

end Yellowbox.Docker
