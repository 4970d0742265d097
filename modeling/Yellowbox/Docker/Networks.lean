import Yellowbox.Docker.Stop

/-!
Connecting a `ContainerService` to a network, and the context manager
`networks.connect`. Every single call may be made to fail by its environment.
-/
namespace Yellowbox.Docker

open Effects

/-- What the environment makes the calls on each container raise. -/
structure Faults where
  connect : ContainerId → Option Error
  reloadConnected : ContainerId → Option Error
  start : ContainerId → Option Error
  reloadStarted : ContainerId → Option Error
  disconnect : ContainerId → Option Error
  reloadDisconnected : ContainerId → Option Error

namespace ContainerService

def connectEndpoint (faults : Faults) (ec : ContainerId) : Act World Error Unit := do
  Act.raiseSome (faults.connect ec)
  networkConnect ec
  Act.raiseSome (faults.reloadConnected ec)
  reload ec

/-- `ContainerService.connect(network)` -/
def connect (service : ContainerService) (faults : Faults) : Act World Error Unit :=
  Act.forEach (connectEndpoint faults) service.endpointContainers

def disconnectEndpoint (faults : Faults) (ec : ContainerId) : Act World Error Unit := do
  if !(← isRemoved ec) then
    Act.raiseSome (faults.disconnect ec)
    networkDisconnect ec
    Act.raiseSome (faults.reloadDisconnected ec)
    reload ec

/-- `ContainerService.disconnect(network)` -/
def disconnect (service : ContainerService) (faults : Faults) : Act World Error Unit :=
  Act.forEach (disconnectEndpoint faults) service.endpointContainers.reverse

/-- `with networks.connect(network, service): body` -/
def withConnected (service : ContainerService) (faults : Faults)
    (body : Act World Error Unit) : Act World Error Unit := do
  service.connect faults
  Act.ensure body (service.disconnect faults)

/-- Connecting this endpoint raises. -/
def ConnectRefused (faults : Faults) (w : World) (ec : ContainerId) : Prop :=
  faults.connect ec ≠ none ∨ w.status ec = none ∨ w.connected ec = true ∨
    faults.reloadConnected ec ≠ none

variable {faults : Faults} {w : World} {ec : ContainerId}

theorem connectEndpoint_refused (h : ConnectRefused faults w ec) :
    ∃ e w', connectEndpoint faults ec w = (.error e, w') ∧ w'.status = w.status := by
  cases hfault : faults.connect ec with
  | some e =>
    refine ⟨e, w, ?_, rfl⟩
    rw [connectEndpoint, hfault, Act.raiseSome_some_bind]
  | none =>
    cases hs : w.status ec with
    | none =>
      refine ⟨.notFound, w, ?_, rfl⟩
      rw [connectEndpoint, hfault, Act.raiseSome_none_bind,
        Act.bind_error (networkConnect_missing hs)]
    | some s =>
      cases hc : w.connected ec with
      | true =>
        have hconnect : networkConnect ec w = (.error .conflict, w) := by
          rw [networkConnect_present hs, hc, if_pos rfl]
        refine ⟨.conflict, w, ?_, rfl⟩
        rw [connectEndpoint, hfault, Act.raiseSome_none_bind, Act.bind_error hconnect]
      | false =>
        have hconnect : networkConnect ec w = (.ok (), w.setConnected ec true) := by
          rw [networkConnect_present hs, hc]
          rfl
        simp only [ConnectRefused, hfault, hs, hc] at h
        obtain ⟨e, he⟩ := Option.ne_none_iff_exists'.mp (by simpa using h)
        refine ⟨e, w.setConnected ec true, ?_, rfl⟩
        rw [connectEndpoint, hfault, Act.raiseSome_none_bind, Act.bind_ok hconnect, he,
          Act.raiseSome_some_bind]

theorem connectEndpoint_accepted (h : ¬ ConnectRefused faults w ec) :
    ∃ s, w.status ec = some s ∧
      connectEndpoint faults ec w = (.ok (), (w.setConnected ec true).load ec s) := by
  simp only [ConnectRefused, not_or, not_not, Bool.not_eq_true] at h
  obtain ⟨hfault, hs, hc, hreload⟩ := h
  obtain ⟨s, hs⟩ := Option.ne_none_iff_exists'.mp hs
  have hconnect : networkConnect ec w = (.ok (), w.setConnected ec true) := by
    rw [networkConnect_present hs, hc]
    rfl
  refine ⟨s, hs, ?_⟩
  rw [connectEndpoint, hfault, Act.raiseSome_none_bind, Act.bind_ok hconnect, hreload,
    Act.raiseSome_none_bind]
  exact reload_present hs

/-- Connecting raises exactly when one of the endpoints is refused, and never changes
what runs. -/
theorem forEach_connectEndpoint (faults : Faults) (l : List ContainerId) (hnodup : l.Nodup)
    (w : World) :
    ((∃ ec ∈ l, ConnectRefused faults w ec) →
      ∃ e w', Act.forEach (connectEndpoint faults) l w = (.error e, w') ∧
        w'.status = w.status) ∧
    ((¬ ∃ ec ∈ l, ConnectRefused faults w ec) →
      ∃ w', Act.forEach (connectEndpoint faults) l w = (.ok (), w') ∧
        w'.status = w.status ∧ w'.reaction = w.reaction) := by
  induction l generalizing w with
  | nil => exact ⟨fun ⟨_, h, _⟩ => absurd h (by simp), fun _ => ⟨w, Act.forEach_nil, rfl, rfl⟩⟩
  | cons ec l ih =>
    obtain ⟨hec, hnodup⟩ := List.nodup_cons.mp hnodup
    by_cases hhead : ConnectRefused faults w ec
    · obtain ⟨e, w', hcall, hstatus⟩ := connectEndpoint_refused hhead
      refine ⟨fun _ => ⟨e, w', Act.forEach_cons_error hcall l, hstatus⟩, fun h => ?_⟩
      exact absurd ⟨ec, by simp, hhead⟩ h
    · obtain ⟨s, hs, hcall⟩ := connectEndpoint_accepted hhead
      let w₁ := (w.setConnected ec true).load ec s
      have hstatus : w₁.status = w.status := rfl
      have hreaction : w₁.reaction = w.reaction := rfl
      have htail : ∀ d ∈ l, (ConnectRefused faults w₁ d ↔ ConnectRefused faults w d) := by
        intro d hd
        have hne : d ≠ ec := fun h => hec (h ▸ hd)
        have hconnected : w₁.connected d = w.connected d :=
          World.connected_setConnected_of_ne hne w true
        rw [ConnectRefused, hstatus, hconnected, ← ConnectRefused]
      have hexists : (∃ d ∈ ec :: l, ConnectRefused faults w d) ↔
          ∃ d ∈ l, ConnectRefused faults w₁ d := by
        simp only [List.mem_cons, exists_eq_or_imp, hhead, false_or]
        exact exists_congr fun d => and_congr_right fun hd => (htail d hd).symm
      rw [hexists, Act.forEach_cons_ok hcall, ← hstatus, ← hreaction]
      exact ih hnodup w₁

/-- Disconnecting never changes what runs. -/
theorem disconnect_status (service : ContainerService) (faults : Faults) (w : World) :
    (service.disconnect faults w).2.status = w.status := by
  have hreload : ∀ c, Act.Keeps (fun w' => w'.status = w.status) (reload c) :=
    fun c w' h => reload_status.trans h
  have hremoved : ∀ c, Act.Keeps (fun w' => w'.status = w.status) (isRemoved c) :=
    fun c w' h => isRemoved_status.trans h
  have hdisconnect : ∀ c, Act.Keeps (fun w' => w'.status = w.status) (networkDisconnect c) :=
    fun c w' h => networkDisconnect_status.trans h
  have hround : ∀ ec, Act.Keeps (fun w' => w'.status = w.status)
      (disconnectEndpoint faults ec) := by
    intro ec
    refine Act.keeps_bind (hremoved ec) fun gone => ?_
    cases gone with
    | true => exact Act.keeps_pure ()
    | false =>
      exact Act.keeps_bind (Act.keeps_raiseSome _) fun _ =>
        Act.keeps_bind (hdisconnect ec) fun _ =>
          Act.keeps_bind (Act.keeps_raiseSome _) fun _ => hreload ec
  exact Act.keeps_forEach service.endpointContainers.reverse hround w rfl

end ContainerService

end Yellowbox.Docker
