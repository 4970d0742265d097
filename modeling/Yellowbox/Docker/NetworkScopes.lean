import Yellowbox.Docker.Networks

/-!
`networks.connect` on a service. The endpoints are connected one by one before the
context manager is inside its `try`, and its `finally` disconnects them in reverse.
Any call on the way may fail, except that the calls to disconnect succeed.
-/
namespace Yellowbox.Docker.NetworkScopes

open Effects ContainerService

/-- What the reload of `is_removed` raises: an `HTTPError`, which is caught there, or
another error. -/
inductive ReloadError
  | httpError
  | other (e : Error)

/-- The failing calls, with those of `is_removed`. -/
structure ScopeFaults extends Faults where
  reloadChecked : ContainerId → Option ReloadError

/-- `is_removed(container)` -/
def isRemoved (faults : ScopeFaults) (c : ContainerId) : Act World Error Bool :=
  match faults.reloadChecked c with
  | none => Docker.isRemoved c
  | some .httpError => return true
  | some (.other e) => Act.raise e

section Checks

variable {faults : ScopeFaults} {c : ContainerId}

theorem isRemoved_checked (h : faults.reloadChecked c = none) :
    isRemoved faults c = Docker.isRemoved c := by
  simp only [isRemoved, h]

/-- A check that fails with an `HTTPError` takes the container for a removed one. -/
theorem isRemoved_httpError (h : faults.reloadChecked c = some .httpError) (w : World) :
    isRemoved faults c w = (.ok true, w) := by
  simp only [isRemoved, h]
  rfl

theorem isRemoved_other {e : Error} (h : faults.reloadChecked c = some (.other e)) (w : World) :
    isRemoved faults c w = (.error e, w) := by
  simp only [isRemoved, h]
  rfl

end Checks

/-- `network.disconnect(container)` where it succeeds. -/
def disconnected (c : ContainerId) : Act World Error Unit :=
  Act.modify fun w => w.setConnected c false

def disconnectEndpoint (faults : ScopeFaults) (ec : ContainerId) : Act World Error Unit := do
  if !(← isRemoved faults ec) then
    disconnected ec
    Act.raiseSome (faults.reloadDisconnected ec)
    reload ec

/-- `ContainerService.disconnect(network)` -/
def disconnect (service : ContainerService) (faults : ScopeFaults) : Act World Error Unit :=
  Act.forEach (disconnectEndpoint faults) service.endpointContainers.reverse

/-- `with networks.connect(network, service): body` -/
def connect {α : Type} (service : ContainerService) (faults : ScopeFaults)
    (body : Act World Error α) : Act World Error α :=
  Act.withScope (service.connect faults.toFaults) (disconnect service faults) body

/-- The overrides of `SingleEndpointService` are the loops over its one endpoint. -/
theorem connect_single {service : ContainerService} {single : ContainerId} (faults : ScopeFaults)
    (h : service.endpointContainers = [single]) :
    service.connect faults.toFaults = connectEndpoint faults.toFaults single ∧
      disconnect service faults = disconnectEndpoint faults single := by
  rw [ContainerService.connect, disconnect, h, List.reverse_singleton]
  exact ⟨Act.forEach_singleton _ _, Act.forEach_singleton _ _⟩

/-- The container exists and is connected. -/
def Left (w : World) (c : ContainerId) : Prop := w.status c ≠ none ∧ w.connected c = true

def NoneLeft (service : ContainerService) (w : World) : Prop :=
  ∀ ec ∈ service.endpointContainers, ¬Left w ec

/-! ### What the loops leave alone -/

/-- The containers that exist are the same, and outside of `l` the connections. -/
structure Within (l : List ContainerId) (w t : World) : Prop where
  status : t.status = w.status
  connected : ∀ d ∉ l, t.connected d = w.connected d

section Within

variable {l l' : List ContainerId} {w t u : World} {c d : ContainerId}

theorem Within.refl (l : List ContainerId) (w : World) : Within l w w := ⟨rfl, fun _ _ => rfl⟩

theorem Within.trans (h : Within l w t) (h' : Within l t u) : Within l w u where
  status := h'.status.trans h.status
  connected d hd := (h'.connected d hd).trans (h.connected d hd)

theorem Within.mono (h : Within l w t) (hl : l ⊆ l') : Within l' w t where
  status := h.status
  connected d hd := h.connected d fun hmem => hd (hl hmem)

theorem Within.left_iff (h : Within l w t) (hd : d ∉ l) : Left t d ↔ Left w d := by
  rw [Left, h.status, h.connected d hd, Left]

theorem within_setConnected (w : World) (c : ContainerId) (b : Bool) :
    Within [c] w (w.setConnected c b) where
  status := rfl
  connected _ hd := World.connected_setConnected_of_ne (List.ne_of_not_mem_cons hd) w b

theorem within_load (l : List ContainerId) (w : World) (c : ContainerId) (s : Status) :
    Within l w (w.load c s) := ⟨rfl, fun _ _ => rfl⟩

theorem keeps_reload (c : ContainerId) : Act.Keeps (Within l w) (reload c) := by
  intro t h
  cases hs : t.status c with
  | none => rwa [reload_missing hs]
  | some s =>
    rw [reload_present hs]
    exact h.trans (within_load l t c s)

theorem keeps_networkConnect (c : ContainerId) :
    Act.Keeps (Within [c] w) (networkConnect c) := by
  intro t h
  cases hs : t.status c with
  | none => rwa [networkConnect_missing hs]
  | some s =>
    rw [networkConnect_present hs]
    cases t.connected c with
    | true => exact h
    | false => exact h.trans (within_setConnected t c true)

theorem keeps_isRemoved (faults : ScopeFaults) (c : ContainerId) :
    Act.Keeps (Within l w) (isRemoved faults c) := by
  intro t h
  rcases hfault : faults.reloadChecked c with _ | _ | e
  · rw [isRemoved_checked hfault]
    cases hs : t.status c with
    | none => rwa [isRemoved_missing hs]
    | some s =>
      rw [isRemoved_present hs]
      exact h.trans (within_load l t c s)
  · rwa [isRemoved_httpError hfault]
  · rwa [isRemoved_other hfault]

theorem connectEndpoint_within (faults : Faults) (ec : ContainerId) (w : World) :
    Within [ec] w (connectEndpoint faults ec w).2 := by
  have hkeeps : Act.Keeps (Within [ec] w) (connectEndpoint faults ec) :=
    Act.keeps_bind (Act.keeps_raiseSome _) fun _ =>
      Act.keeps_bind (keeps_networkConnect ec) fun _ =>
        Act.keeps_bind (Act.keeps_raiseSome _) fun _ => keeps_reload ec
  exact hkeeps w (Within.refl _ w)

theorem disconnectEndpoint_within (faults : ScopeFaults) (ec : ContainerId) (w : World) :
    Within [ec] w (disconnectEndpoint faults ec w).2 := by
  have hkeeps : Act.Keeps (Within [ec] w) (disconnectEndpoint faults ec) := by
    refine Act.keeps_bind (keeps_isRemoved faults ec) fun gone => ?_
    cases gone with
    | true => exact Act.keeps_pure ()
    | false =>
      exact Act.keeps_bind (Act.keeps_modify fun t h => h.trans (within_setConnected t ec false))
        fun _ => Act.keeps_bind (Act.keeps_raiseSome _) fun _ => keeps_reload ec
  exact hkeeps w (Within.refl _ w)

/-- A loop whose rounds stay within their own container stays within its list. -/
theorem forEach_within {body : ContainerId → Act World Error Unit}
    (hbody : ∀ c w, Within [c] w (body c w).2) (l : List ContainerId) (w : World) :
    Within l w (Act.forEach body l w).2 := by
  induction l generalizing w with
  | nil => exact Within.refl [] w
  | cons c l ih =>
    have hhead : Within (c :: l) w (body c w).2 :=
      (hbody c w).mono (List.cons_subset_cons c (List.nil_subset l))
    rcases hcall : body c w with ⟨e | _, t⟩ <;> rw [hcall] at hhead
    · rwa [Act.forEach_cons_error hcall]
    · rw [Act.forEach_cons_ok hcall]
      exact hhead.trans ((ih t).mono (List.subset_cons_self c l))

end Within

/-! ### Going in -/

section Entering

variable {w : World} {ec : ContainerId} {l : List ContainerId}

/-- The world once these containers are connected and reloaded. -/
def joined (l : List ContainerId) (w : World) : World :=
  { w with
    connected := fun c => decide (c ∈ l) || w.connected c
    attrs := fun c => if c ∈ l then (w.status c).getD (w.attrs c) else w.attrs c }

theorem joined_cons {s : Status} (h : w.status ec = some s) (l : List ContainerId) :
    joined l ((w.setConnected ec true).load ec s) = joined (ec :: l) w := by
  have hconnected : ∀ c, (decide (c ∈ l) || Function.update w.connected ec true c) =
      (decide (c ∈ ec :: l) || w.connected c) := by
    intro c
    by_cases hc : c = ec
    · simp [hc]
    · simp [hc]
  have hattrs : ∀ c, (if c ∈ l then (w.status c).getD (Function.update w.attrs ec s c)
      else Function.update w.attrs ec s c) =
        if c ∈ ec :: l then (w.status c).getD (w.attrs c) else w.attrs c := by
    intro c
    by_cases hc : c = ec
    · simp [hc, h]
    · simp [hc]
  simp only [joined, World.setConnected, World.load, hconnected, hattrs]

/-- Where no endpoint is refused, all of them are joined. -/
theorem forEach_connectEndpoint_joined {faults : Faults} (hnodup : l.Nodup)
    (h : ¬∃ ec ∈ l, ConnectRefused faults w ec) :
    Act.forEach (connectEndpoint faults) l w = (.ok (), joined l w) := by
  induction l generalizing w with
  | nil => simp [Act.forEach_nil, joined]
  | cons ec l ih =>
    obtain ⟨hec, hnodup⟩ := List.nodup_cons.mp hnodup
    obtain ⟨s, hs, hcall⟩ := connectEndpoint_accepted fun hhead =>
      h ⟨ec, List.mem_cons_self .., hhead⟩
    rw [Act.forEach_cons_ok hcall, ih hnodup ?_, joined_cons hs]
    rintro ⟨d, hd, hrefused⟩
    have hne : d ≠ ec := fun heq => hec (heq ▸ hd)
    refine h ⟨d, List.mem_cons_of_mem ec hd, ?_⟩
    rwa [ConnectRefused, World.status_load,
      show ((w.setConnected ec true).load ec s).connected d = w.connected d from
        World.connected_setConnected_of_ne hne w true] at hrefused

theorem not_left_of_not_connected (h : w.connected ec = false) : ¬Left w ec :=
  fun hleft => Bool.false_ne_true (h.symm.trans hleft.2)

/-- An endpoint is connected unless that call itself fails; the reload does not matter. -/
theorem connectEndpoint_left (faults : Faults) (h : w.connected ec = false) :
    ¬Left (connectEndpoint faults ec w).2 ec ↔
      faults.connect ec ≠ none ∨ w.status ec = none := by
  cases hfault : faults.connect ec with
  | some e =>
    rw [connectEndpoint, hfault, Act.raiseSome_some_bind]
    exact iff_of_true (not_left_of_not_connected h) (Or.inl (Option.some_ne_none e))
  | none =>
    cases hs : w.status ec with
    | none =>
      rw [connectEndpoint, hfault, Act.raiseSome_none_bind,
        Act.bind_error (networkConnect_missing hs)]
      exact iff_of_true (not_left_of_not_connected h) (Or.inr rfl)
    | some s =>
      have hconnect : networkConnect ec w = (.ok (), w.setConnected ec true) := by
        rw [networkConnect_present hs, h]
        rfl
      have hleft : Left (w.setConnected ec true) ec := by
        refine ⟨?_, Function.update_self ..⟩
        change w.status ec ≠ none
        rw [hs]
        exact Option.some_ne_none s
      have hreload : Act.Keeps (fun t => Left t ec)
          (Act.raiseSome (faults.reloadConnected ec) >>= fun _ => reload ec) := by
        refine Act.keeps_bind (Act.keeps_raiseSome _) fun _ t ht => ?_
        exact ((keeps_reload ec t (Within.refl [] t)).left_iff List.not_mem_nil).mpr ht
      rw [connectEndpoint, hfault, Act.raiseSome_none_bind, Act.bind_ok hconnect]
      refine iff_of_false (not_not_intro (hreload _ hleft)) ?_
      rintro (hne | hnone)
      · exact hne rfl
      · exact Option.some_ne_none s hnone

/-- After the loop an endpoint is left unless the very first call has failed. -/
theorem forEach_connectEndpoint_left (faults : Faults) (hnodup : l.Nodup)
    (h : ∀ ec ∈ l, w.connected ec = false) :
    (∀ ec ∈ l, ¬Left (Act.forEach (connectEndpoint faults) l w).2 ec) ↔
      ∀ ec ∈ l.head?, faults.connect ec ≠ none ∨ w.status ec = none := by
  cases l with
  | nil => simp
  | cons ec l =>
    have hec : ec ∉ l := (List.nodup_cons.mp hnodup).1
    have hwithin := connectEndpoint_within faults ec w
    have hleft := connectEndpoint_left faults (h ec (List.mem_cons_self ..))
    simp only [List.head?_cons, Option.mem_some_iff, forall_eq', List.forall_mem_cons, ← hleft]
    constructor
    · rintro ⟨hhead, -⟩ hjoined
      rcases hcall : connectEndpoint faults ec w with ⟨e | _, t⟩ <;> rw [hcall] at hjoined
      · rw [Act.forEach_cons_error hcall] at hhead
        exact hhead hjoined
      · rw [Act.forEach_cons_ok hcall,
          (forEach_within (connectEndpoint_within faults) l t).left_iff hec] at hhead
        exact hhead hjoined
    · intro hhead
      have hrefused : ConnectRefused faults w ec := by
        rcases hleft.mp hhead with hfault | hmissing
        · exact Or.inl hfault
        · exact Or.inr (Or.inl hmissing)
      obtain ⟨e, t, hcall, -⟩ := connectEndpoint_refused hrefused
      rw [hcall] at hhead hwithin
      rw [Act.forEach_cons_error hcall]
      refine ⟨hhead, fun d hd => ?_⟩
      have hne : d ∉ [ec] := by
        rw [List.mem_singleton]
        exact fun heq => hec (heq ▸ hd)
      rw [hwithin.left_iff hne]
      exact not_left_of_not_connected (h d (List.mem_cons_of_mem ec hd))

end Entering

/-! ### Coming out -/

section Leaving

variable {faults : ScopeFaults} {w : World} {ec : ContainerId}

/-- Disconnecting this endpoint raises, in the check or in the reload afterwards. -/
def DisconnectRaises (faults : ScopeFaults) (w : World) (ec : ContainerId) : Prop :=
  (∃ e, faults.reloadChecked ec = some (.other e)) ∨
    faults.reloadChecked ec = none ∧ w.status ec ≠ none ∧ faults.reloadDisconnected ec ≠ none

theorem disconnectEndpoint_found {s : Status} (hchecked : faults.reloadChecked ec = none)
    (hs : w.status ec = some s) :
    disconnectEndpoint faults ec w =
      (Act.raiseSome (faults.reloadDisconnected ec) >>= fun _ => reload ec)
        ((w.load ec s).setConnected ec false) := by
  have hcheck : isRemoved faults ec w = (.ok false, w.load ec s) := by
    rw [isRemoved_checked hchecked, isRemoved_present hs]
  rw [disconnectEndpoint, Act.bind_ok hcheck]
  rfl

theorem disconnectEndpoint_skipped (h : isRemoved faults ec w = (.ok true, w)) :
    disconnectEndpoint faults ec w = (.ok (), w) :=
  Act.bind_ok h

theorem disconnectEndpoint_ok_iff (faults : ScopeFaults) (w : World) (ec : ContainerId) :
    (disconnectEndpoint faults ec w).1 = .ok () ↔ ¬DisconnectRaises faults w ec := by
  rcases hchecked : faults.reloadChecked ec with _ | _ | e
  · cases hs : w.status ec with
    | none =>
      have hcheck : isRemoved faults ec w = (.ok true, w) := by
        rw [isRemoved_checked hchecked, isRemoved_missing hs]
      rw [disconnectEndpoint_skipped hcheck]
      simp [DisconnectRaises, hchecked, hs]
    | some s =>
      have hpresent : ((w.load ec s).setConnected ec false).status ec = some s := hs
      rw [disconnectEndpoint_found hchecked hs]
      cases hreload : faults.reloadDisconnected ec with
      | none =>
        rw [Act.raiseSome_none_bind, reload_present hpresent]
        simp [DisconnectRaises, hchecked, hreload]
      | some e =>
        rw [Act.raiseSome_some_bind]
        simp [DisconnectRaises, hchecked, hs, hreload]
  · rw [disconnectEndpoint_skipped (isRemoved_httpError hchecked w)]
    simp [DisconnectRaises, hchecked]
  · rw [disconnectEndpoint, Act.bind_error (isRemoved_other hchecked w)]
    simp [DisconnectRaises, hchecked]

/-- A round disconnects an endpoint that it finds, and leaves one whose check fails. -/
theorem disconnectEndpoint_left (faults : ScopeFaults) (w : World) (ec : ContainerId) :
    Left (disconnectEndpoint faults ec w).2 ec ↔ Left w ec ∧ faults.reloadChecked ec ≠ none := by
  rcases hchecked : faults.reloadChecked ec with _ | _ | e
  · refine iff_of_false ?_ fun h => h.2 rfl
    cases hs : w.status ec with
    | none =>
      intro hleft
      rw [Left, (disconnectEndpoint_within faults ec w).status] at hleft
      exact hleft.1 hs
    | some s =>
      let v := (w.load ec s).setConnected ec false
      have hv : ¬Left v ec := not_left_of_not_connected (Function.update_self ..)
      have hkeeps : Act.Keeps (Within [] v)
          (Act.raiseSome (faults.reloadDisconnected ec) >>= fun _ => reload ec) :=
        Act.keeps_bind (Act.keeps_raiseSome _) fun _ => keeps_reload ec
      rw [disconnectEndpoint_found hchecked hs,
        (hkeeps v (Within.refl [] v)).left_iff List.not_mem_nil]
      exact hv
  · rw [disconnectEndpoint_skipped (isRemoved_httpError hchecked w)]
    simp
  · rw [disconnectEndpoint, Act.bind_error (isRemoved_other hchecked w)]
    simp

/-- Every endpoint that is left passes its check, and none that raises comes before it
on the way out, which is after it in the list. -/
structure Undoable (faults : ScopeFaults) (l : List ContainerId) (w : World) : Prop where
  checked : ∀ ec ∈ l, Left w ec → faults.reloadChecked ec = none
  later : l.Pairwise fun ec later => Left w ec → ¬DisconnectRaises faults w later

theorem undoable_reverse_cons {l : List ContainerId} :
    Undoable faults (ec :: l).reverse w ↔
      ((Left w ec → faults.reloadChecked ec = none) ∧
        (DisconnectRaises faults w ec → ∀ d ∈ l, ¬Left w d)) ∧ Undoable faults l.reverse w := by
  rw [List.reverse_cons]
  constructor
  · rintro ⟨hchecked, hlater⟩
    obtain ⟨hlater, -, hlast⟩ := List.pairwise_append.mp hlater
    refine ⟨⟨hchecked ec (by simp), fun hraises d hd hleft => ?_⟩,
      fun d hd => hchecked d (List.mem_append_left _ hd), hlater⟩
    exact hlast d (List.mem_reverse.mpr hd) ec (List.mem_singleton_self ec) hleft hraises
  · rintro ⟨⟨hec, hraises⟩, hchecked, hlater⟩
    refine ⟨fun d hd => ?_, List.pairwise_append.mpr ⟨hlater, List.pairwise_singleton _ _, ?_⟩⟩
    · rcases List.mem_append.mp hd with hd | hd
      · exact hchecked d hd
      · rwa [List.mem_singleton.mp hd]
    · intro d hd later hlater hleft hfails
      rw [List.mem_singleton.mp hlater] at hfails
      exact hraises hfails d (List.mem_reverse.mp hd) hleft

/-- Whether endpoints can be undone depends on which of them are left and exist. -/
theorem Undoable.congr {l : List ContainerId} {t : World} (h : Undoable faults l w)
    (hstatus : t.status = w.status) (hleft : ∀ d ∈ l, Left t d ↔ Left w d) :
    Undoable faults l t where
  checked d hd ht := h.checked d hd ((hleft d hd).mp ht)
  later := by
    refine h.later.imp_of_mem fun {d later} hd _ hundo ht => ?_
    rw [DisconnectRaises, hstatus]
    exact hundo ((hleft d hd).mp ht)

theorem undoable_of_noneLeft {l : List ContainerId} (h : ∀ d ∈ l, ¬Left w d) :
    Undoable faults l w where
  checked d hd hleft := absurd hleft (h d hd)
  later := List.pairwise_of_forall_mem_list fun d hd _ _ hleft => absurd hleft (h d hd)

/-- The loop disconnects all that it finds if every endpoint can be undone; one that
raises ends it. -/
theorem forEach_disconnectEndpoint_left (faults : ScopeFaults) {l : List ContainerId}
    (hnodup : l.Nodup) (w : World) :
    (∀ ec ∈ l, ¬Left (Act.forEach (disconnectEndpoint faults) l w).2 ec) ↔
      Undoable faults l.reverse w := by
  induction l generalizing w with
  | nil => exact iff_of_true nofun ⟨nofun, List.Pairwise.nil⟩
  | cons ec l ih =>
    obtain ⟨hec, hnodup⟩ := List.nodup_cons.mp hnodup
    have hok := disconnectEndpoint_ok_iff faults w ec
    have hwithin := disconnectEndpoint_within faults ec w
    have hhead : ¬Left (disconnectEndpoint faults ec w).2 ec ↔
        (Left w ec → faults.reloadChecked ec = none) := by
      rw [disconnectEndpoint_left, not_and, not_not]
    rw [undoable_reverse_cons, List.forall_mem_cons, ← hhead]
    have hothers : ∀ d ∈ l, Left (disconnectEndpoint faults ec w).2 d ↔ Left w d := by
      intro d hd
      refine hwithin.left_iff fun hmem => ?_
      exact hec (List.mem_singleton.mp hmem ▸ hd)
    rcases hcall : disconnectEndpoint faults ec w with ⟨e | _, t⟩ <;>
      rw [hcall] at hok hwithin hothers
    · have hraises : DisconnectRaises faults w ec := by
        by_contra hnot
        exact nomatch hok.mpr hnot
      rw [Act.forEach_cons_error hcall]
      constructor
      · rintro ⟨hleft, hrest⟩
        have hnone : ∀ d ∈ l, ¬Left w d := fun d hd h => hrest d hd ((hothers d hd).mpr h)
        refine ⟨⟨hleft, fun _ => hnone⟩, undoable_of_noneLeft fun d hd => ?_⟩
        exact hnone d (List.mem_reverse.mp hd)
      · rintro ⟨⟨hleft, hnone⟩, -⟩
        exact ⟨hleft, fun d hd h => hnone hraises d hd ((hothers d hd).mp h)⟩
    · have hreturns : ¬DisconnectRaises faults w ec := hok.mp rfl
      have hfinal := forEach_within (disconnectEndpoint_within faults) l t
      have hundo : Undoable faults l.reverse t ↔ Undoable faults l.reverse w := by
        have hreverse : ∀ d ∈ l.reverse, Left t d ↔ Left w d :=
          fun d hd => hothers d (List.mem_reverse.mp hd)
        exact ⟨fun h => h.congr hwithin.status.symm fun d hd => (hreverse d hd).symm,
          fun h => h.congr hwithin.status hreverse⟩
      rw [Act.forEach_cons_ok hcall, hfinal.left_iff hec, ih hnodup t, hundo]
      exact and_congr_left' (and_iff_left fun hraises => absurd hraises hreturns).symm

end Leaving

/-- Nothing is left exactly if: where the entry raises, it is the very first call to
connect that has failed; otherwise what the body leaves connected can be undone. -/
theorem noneLeft_iff {α : Type} (service : ContainerService) (faults : ScopeFaults)
    (body : Act World Error α) (w : World)
    (hw : ∀ ec ∈ service.endpointContainers, w.connected ec = false) :
    NoneLeft service (connect service faults body w).2 ↔
      ((∃ ec ∈ service.endpointContainers, ConnectRefused faults.toFaults w ec) →
        ∀ ec ∈ service.endpointContainers.head?,
          faults.connect ec ≠ none ∨ w.status ec = none) ∧
      ((¬∃ ec ∈ service.endpointContainers, ConnectRefused faults.toFaults w ec) →
        Undoable faults service.endpointContainers
          (body (joined service.endpointContainers w)).2) := by
  have hnodup : service.endpointContainers.Nodup := service.endpoints_sublist.nodup service.nodup
  by_cases hrefused : ∃ ec ∈ service.endpointContainers, ConnectRefused faults.toFaults w ec
  · obtain ⟨e, t, hentry, -⟩ := (forEach_connectEndpoint _ _ hnodup w).1 hrefused
    have hleft := forEach_connectEndpoint_left faults.toFaults hnodup hw
    rw [hentry] at hleft
    rw [connect, ContainerService.connect, Act.withScope_error hentry, NoneLeft, hleft]
    exact ⟨fun h => ⟨fun _ => h, fun hnot => absurd hrefused hnot⟩, fun h => h.1 hrefused⟩
  · have hentry := forEach_connectEndpoint_joined hnodup hrefused
    have hleft := forEach_disconnectEndpoint_left faults (List.nodup_reverse.mpr hnodup)
      (body (joined service.endpointContainers w)).2
    simp only [List.mem_reverse, List.reverse_reverse] at hleft
    rw [connect, ContainerService.connect, Act.withScope_ok hentry, Act.ensure_snd, NoneLeft,
      disconnect, hleft]
    exact ⟨fun h => ⟨fun hnot => absurd hnot hrefused, fun _ => h⟩, fun h => h.2 hrefused⟩

/-- Every call succeeds, except that connecting a container may fail. -/
def faultsConnecting (fails : ContainerId → Bool) : ScopeFaults where
  connect := fun c => if fails c then some .conflict else none
  reloadConnected := fun _ => none
  start := fun _ => none
  reloadStarted := fun _ => none
  disconnect := fun _ => none
  reloadDisconnected := fun _ => none
  reloadChecked := fun _ => none

theorem noneLeft_pair : NoneLeft pair
    (connect pair (faultsConnecting fun _ => false) (pure ())
      (pairWorld fun _ => some .running)).2 := by
  refine (noneLeft_iff pair (faultsConnecting fun _ => false) (pure ()) _ fun _ _ => rfl).mpr
    ⟨?_, fun _ => ⟨fun _ _ _ => rfl, List.pairwise_of_forall fun _ _ _ => ?_⟩⟩
  · rintro ⟨ec, -, hrefused⟩
    simp [ConnectRefused, faultsConnecting, pairWorld] at hrefused
  · simp [DisconnectRaises, faultsConnecting]

/-- The call for container `1` fails and container `0` stays connected. -/
theorem second_refused_leaves_first :
    ¬∀ (service : ContainerService) (faults : ScopeFaults) (body : Act World Error Unit)
      (w : World), (∀ ec ∈ service.endpointContainers, w.connected ec = false) →
        NoneLeft service (connect service faults body w).2 := by
  intro h
  have hnone := h pair (faultsConnecting (· == 1)) (pure ()) (pairWorld fun _ => some .running)
    (fun _ _ => rfl) 0 (by decide)
  have hconnected : (connect pair (faultsConnecting (· == 1)) (pure () : Act World Error Unit)
      (pairWorld fun _ => some .running)).2.connected 0 = true := by
    decide +kernel
  have hexists : (connect pair (faultsConnecting (· == 1)) (pure () : Act World Error Unit)
      (pairWorld fun _ => some .running)).2.status 0 ≠ none := by
    decide +kernel
  exact hnone ⟨hexists, hconnected⟩

end Yellowbox.Docker.NetworkScopes
