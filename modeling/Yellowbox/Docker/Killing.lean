import Yellowbox.Docker.Removing

/-!
`containers.killing`, and containers that are killed and removed by nested contexts.
A container that ends on its signal is down when it comes to be removed, so that depends on
its exit code alone; one that goes on is ended by force or not at all. A container whose
context raises does not keep the others from being cleaned up.
-/
namespace Yellowbox.Docker

open Effects

/-- The `finally` block of `killing`. -/
def exitKilling (signal : String) (c : ContainerId) : Act World Error Unit := do
  if ← isAlive c then
    kill signal c
    wait c

/-- `with killing(container, signal=..): body` -/
def killing {α : Type} (signal : String) (c : ContainerId) (body : Act World Error α) :
    Act World Error α :=
  Act.ensure body (exitKilling signal c)

/-- The status of a container when it has had the signal, which only one that is up gets. -/
def signaled (signal : String) (w : World) (c : ContainerId) : Option Status :=
  (w.status c).map fun s => if s.up then (w.reaction c s signal).next s else s

/-- The code with which a container of this status comes to be removed: its own, or that of
the kill by which `removing` ends it when forced. -/
def codeFrom (force : Bool) (w : World) (c : ContainerId) : Option Status → Option ℤ
  | none => none
  | some (.exited code) => some code
  | some s =>
    if force && s.up then
      match w.reaction c s "SIGKILL" with
      | .exits code => some code
      | .stays _ | .refused => none
    else
      none

/-- What concerns the other containers is the same. -/
structure Apart (c : ContainerId) (w t : World) : Prop where
  reaction : t.reaction = w.reaction
  status : ∀ d ≠ c, t.status d = w.status d

section Apart

variable {c : ContainerId} {w t u : World}

theorem Apart.refl (c : ContainerId) (w : World) : Apart c w w := ⟨rfl, fun _ _ => rfl⟩

theorem Apart.load (h : Apart c w t) (d : ContainerId) (s : Status) : Apart c w (t.load d s) :=
  ⟨h.reaction, h.status⟩

theorem Apart.ask (h : Apart c w t) (r : Request) : Apart c w (t.ask r) :=
  ⟨h.reaction, h.status⟩

theorem Apart.setStatus (h : Apart c w t) (s : Option Status) : Apart c w (t.setStatus c s) where
  reaction := h.reaction
  status d hd := (World.status_setStatus_of_ne hd t s).trans (h.status d hd)

theorem keeps_isRemoved : Act.Keeps (Apart c w) (isRemoved c) := by
  intro t h
  cases hs : t.status c with
  | none => rwa [isRemoved_missing hs]
  | some s =>
    rw [isRemoved_present hs]
    exact h.load c s

theorem keeps_isAlive : Act.Keeps (Apart c w) (isAlive c) := by
  intro t h
  cases hs : t.status c with
  | none => rwa [isAlive_missing hs]
  | some s =>
    rw [isAlive_present hs]
    exact h.load c s

theorem keeps_kill (signal : String) : Act.Keeps (Apart c w) (kill signal c) := by
  intro t h
  cases hs : t.status c with
  | none =>
    simp only [kill, Act.modify_bind, Act.get_bind, World.status_ask, hs]
    exact h.ask _
  | some s =>
    cases hup : s.up with
    | false =>
      rw [kill_down signal hs hup]
      exact h.ask _
    | true =>
      rw [kill_up signal hs hup]
      split
      · exact h.ask _
      · exact (h.ask _).setStatus _

theorem keeps_wait : Act.Keeps (Apart c w) (wait c) := by
  intro t h
  simp only [wait, Act.modify_bind, Act.get_bind, World.status_ask]
  cases t.status c with
  | none => exact h.ask _
  | some s => cases hup : s.up <;> simpa [Act.raiseIf, hup] using h.ask _

theorem keeps_removeExited (expected : ExpectedExitCode) (force : Bool) :
    Act.Keeps (Apart c w) (removeExited expected force c) := by
  have hcode : Act.Keeps (Apart c w) (waitStatusCode c) := by
    refine Act.keeps_bind keeps_wait fun _ t h => ?_
    simp only [Act.get_bind]
    rcases t.status c with _ | _ | _ | _ | code <;> exact h
  refine Act.keeps_bind hcode fun code => Act.keeps_bind ?_ fun _ => ?_
  · intro t h
    unfold Act.raiseIf
    split <;> exact h
  · intro t h
    simp only [removeWith, Act.modify_bind, Act.get_bind, World.status_ask]
    cases t.status c with
    | none => exact h.ask _
    | some s =>
      simp only [Act.raiseIf_bind]
      split
      · exact h.ask _
      · exact (h.ask _).setStatus none

theorem keeps_exitKilling (signal : String) : Act.Keeps (Apart c w) (exitKilling signal c) := by
  refine Act.keeps_bind keeps_isAlive fun alive => ?_
  cases alive with
  | false => exact Act.keeps_pure ()
  | true => exact Act.keeps_bind (keeps_kill signal) fun _ => keeps_wait

theorem keeps_exitRemoving (expected : ExpectedExitCode) (force : Bool) :
    Act.Keeps (Apart c w) (exitRemoving expected force c) := by
  refine Act.keeps_bind keeps_isRemoved fun gone => ?_
  cases gone with
  | true => exact Act.keeps_pure ()
  | false =>
    refine Act.keeps_bind keeps_isAlive fun alive => ?_
    cases alive with
    | false => exact keeps_removeExited expected force
    | true =>
      intro t h
      simp only [if_true, Act.get_bind, Act.raiseIf_bind]
      cases force with
      | false => exact h
      | true => exact Act.keeps_bind (keeps_kill _) (fun _ => keeps_removeExited _ _) t h

end Apart

section Exits

variable {c : ContainerId} {w : World}

theorem reaction_next_down {s : Status} {reaction : Reaction} (hup : s.up = true) :
    (reaction.next s).up = false ↔ ∃ code, reaction = .exits code := by
  cases reaction with
  | exits code => simp [Reaction.next, Status.up]
  | stays paused => cases paused <;> simp [Reaction.next, Status.up]
  | refused => simp [Reaction.next, hup]

theorem reaction_next_exited {s : Status} {reaction : Reaction} (hup : s.up = true) :
    (∃ code, reaction.next s = .exited code) ↔ ∃ code, reaction = .exits code := by
  cases reaction with
  | exits code => simp [Reaction.next]
  | stays paused => cases paused <;> simp [Reaction.next]
  | refused =>
    cases s with
    | exited code => cases hup
    | created | running | paused => simp [Reaction.next]

/-- A container that is up has the signal after the exit of `killing`, which raises unless
the container has exited on it. -/
theorem exitKilling_up {s : Status} (signal : String) (h : w.status c = some s)
    (hup : s.up = true) :
    ∃ r t, exitKilling signal c w = (r, t) ∧
      t.status c = some ((w.reaction c s signal).next s) ∧
      (r = .ok () ↔ ∃ code, w.reaction c s signal = .exits code) := by
  let seen := w.load c s
  have halive : isAlive c w = (.ok true, seen) := by
    rw [isAlive_present h, hup, Bool.true_or]
  have hkill := kill_up signal (w := seen) h hup
  have hreaction : seen.reaction = w.reaction := rfl
  rw [hreaction] at hkill
  rw [exitKilling, Act.bind_ok halive]
  by_cases hrefused : w.reaction c s signal = .refused
  · rw [if_pos hrefused] at hkill
    refine ⟨.error .badRequest, _, Act.bind_error hkill, ?_, by simp [hrefused]⟩
    rw [hrefused]
    exact h
  · rw [if_neg hrefused] at hkill
    let killed := (seen.ask (.kill c signal)).setStatus c (some ((w.reaction c s signal).next s))
    have hkilled : killed.status c = some ((w.reaction c s signal).next s) :=
      World.status_setStatus_self ..
    cases hnext : ((w.reaction c s signal).next s).up with
    | false =>
      have hcode := (reaction_next_down hup).mp hnext
      exact ⟨.ok (), killed.ask (.wait c), (Act.bind_ok hkill).trans (wait_down hkilled hnext),
        hkilled, by simp [hcode]⟩
    | true =>
      have hstays : ¬∃ code, w.reaction c s signal = .exits code := by
        rw [← reaction_next_down hup, hnext]
        exact Bool.noConfusion
      have hwait : wait c killed = (.error .timeout, killed.ask (.wait c)) := by
        simp only [wait, Act.modify_bind, Act.get_bind, World.status_ask, hkilled, hnext]
        rfl
      exact ⟨.error .timeout, killed.ask (.wait c), (Act.bind_ok hkill).trans hwait, hkilled,
        by simp [hstays]⟩

/-- After the exit of `killing` the container is gone or has exited, or the exit raised. -/
theorem exitKilling_spec (signal : String) (c : ContainerId) (w : World) :
    ∃ r t, exitKilling signal c w = (r, t) ∧ t.status c = signaled signal w c ∧
      (r = .ok () ↔ ∀ s, signaled signal w c = some s → ∃ code, s = .exited code) := by
  cases h : w.status c with
  | none =>
    have hexit : exitKilling signal c w = (.ok (), w) := Act.bind_ok (isAlive_missing h)
    exact ⟨_, w, hexit, by simp [signaled, h], by simp [signaled, h]⟩
  | some s =>
    cases hup : s.up with
    | true =>
      obtain ⟨r, t, hexit, ht, hr⟩ := exitKilling_up signal h hup
      refine ⟨r, t, hexit, by simp [signaled, h, hup, ht], ?_⟩
      simp only [signaled, h, hup, if_true, Option.map_some, Option.some.injEq, forall_eq', hr]
      exact (reaction_next_exited hup).symm
    | false =>
      have hsame : signaled signal w c = some s := by simp [signaled, h, hup]
      rw [hsame]
      cases s with
      | running | paused => cases hup
      | exited code =>
        have hexit : exitKilling signal c w = (.ok (), w.load c (.exited code)) :=
          Act.bind_ok (isAlive_present h)
        exact ⟨_, _, hexit, h, by simp⟩
      | created =>
        have halive : isAlive c w = (.ok true, w.load c .created) := by
          rw [isAlive_present h]
          rfl
        have hkill := kill_down signal (w := w.load c .created) h rfl
        have hexit : exitKilling signal c w =
            (.error .conflict, (w.load c .created).ask (.kill c signal)) := by
          rw [exitKilling, Act.bind_ok halive]
          exact Act.bind_error hkill
        exact ⟨_, _, hexit, h, by simp⟩

/-- What the exit of `removing` leaves of a container that it finds in the world `w`: one is
removed if it has a code that is accepted; the exit raises if it is not removed, and leaves it
up only if it was and is not forced. -/
structure RemovalExit (expected : ExpectedExitCode) (force : Bool) (c : ContainerId) (w : World)
    (left : Except Error Unit × World) : Prop where
  gone : left.2.status c = none ↔ w.status c = none ∨
    ∃ code, codeFrom force w c (w.status c) = some code ∧ expected.accepts code = true
  ok : left.1 = .ok () ↔ left.2.status c = none
  up : left.2.up c = true ↔ w.up c = true ∧ force = false

section Removal

variable {expected : ExpectedExitCode} {force : Bool}

/-- A container without a code stays as it is, and the exit raises. -/
theorem removalExit_kept {e : Error} {seen : World} (hseen : seen.status = w.status)
    (hthere : w.status c ≠ none) (hcode : codeFrom force w c (w.status c) = none)
    (hforce : w.up c = true → force = false) :
    RemovalExit expected force c w (.error e, seen) where
  gone := by simp [congrFun hseen c, hthere, hcode]
  ok := by simp [congrFun hseen c, hthere]
  up := by
    rw [World.up_congr (congrFun hseen c)]
    exact ⟨fun hup => ⟨hup, hforce hup⟩, And.left⟩

/-- One that has exited, of itself or because it was killed, is down, and is removed if its
code is accepted. -/
theorem removalExit_ended {code : ℤ} {killed : World}
    (hkilled : killed.status c = some (.exited code))
    (hthere : w.status c ≠ none) (hcode : codeFrom force w c (w.status c) = some code)
    (hforce : w.up c = true → force = true) :
    RemovalExit expected force c w (removeExited expected force c killed) := by
  have hup : ¬(w.up c = true ∧ force = false) := by
    rintro ⟨hup, hno⟩
    rw [hforce hup] at hno
    cases hno
  rw [removeExited_exited hkilled]
  cases haccepts : expected.accepts code with
  | true =>
    exact ⟨by simp [hcode, haccepts], by simp, iff_of_false (by simp [World.up]) hup⟩
  | false =>
    exact ⟨by simp [hkilled, hthere, hcode, haccepts], by simp [hkilled],
      iff_of_false (by simp [World.up, hkilled, Status.up]) hup⟩

/-- A container that is up has a code only if it is forced, that of the kill. -/
theorem exitRemoving_alive {s : Status} (h : w.status c = some s) (hup : s.up = true) :
    RemovalExit expected force c w (exitRemoving expected force c w) := by
  have hthere : w.status c ≠ none := by simp [h]
  cases force with
  | false =>
    obtain ⟨seen, hseen, hexit⟩ := exitRemoving_alive_unforced expected h
      (by rw [hup, Bool.true_or])
    have hcode : codeFrom false w c (some s) = none := by
      cases s with
      | exited code => cases hup
      | created | running | paused => rfl
    rw [hexit]
    exact removalExit_kept hseen hthere (h ▸ hcode) fun _ => rfl
  | true =>
    obtain ⟨code, hkill⟩ := w.sigkill c s
    obtain ⟨killed, hkilled, hexit⟩ := exitRemoving_up expected h hup hkill
    have hcode : codeFrom true w c (some s) = some code := by
      cases s with
      | exited code => cases hup
      | created => cases hup
      | running | paused => simp [codeFrom, Status.up, hkill]
    rw [hexit]
    exact removalExit_ended hkilled hthere (h ▸ hcode) fun _ => rfl

/-- One that was never started counts as alive, and cannot be killed. -/
theorem exitRemoving_notStarted (h : w.status c = some .created) :
    RemovalExit expected force c w (exitRemoving expected force c w) := by
  have hthere : w.status c ≠ none := by simp [h]
  have hcode : codeFrom force w c (w.status c) = none := by simp [h, codeFrom, Status.up]
  have hdown : w.up c = true → force = false := by simp [World.up, h, Status.up]
  cases force with
  | false =>
    obtain ⟨seen, hseen, hexit⟩ := exitRemoving_alive_unforced expected h rfl
    rw [hexit]
    exact removalExit_kept hseen hthere hcode hdown
  | true =>
    obtain ⟨seen, hseen, hexit⟩ := exitRemoving_created expected h
    rw [hexit]
    exact removalExit_kept hseen hthere hcode hdown

theorem exitRemoving_spec (expected : ExpectedExitCode) (force : Bool) (c : ContainerId)
    (w : World) : RemovalExit expected force c w (exitRemoving expected force c w) := by
  cases h : w.status c with
  | none =>
    have hexit : exitRemoving expected force c w = (.ok (), w) :=
      Act.bind_ok (isRemoved_missing h)
    rw [hexit]
    exact ⟨by simp [h], by simp [h], by simp [World.up, h]⟩
  | some s =>
    cases s with
    | running | paused => exact exitRemoving_alive h rfl
    | created => exact exitRemoving_notStarted h
    | exited code =>
      obtain ⟨seen, hseen, hexit⟩ := exitRemoving_exited expected force h
      rw [hexit]
      exact removalExit_ended ((congrFun hseen c).trans h) (by simp [h]) (by simp [h, codeFrom])
        (by simp [World.up, h, Status.up])

end Removal

end Exits

/-- `with removing(c, ..): with killing(c, ..): body`, for one container inside the other. -/
def removingAll {α : Type} (expected : ContainerId → ExpectedExitCode)
    (force : ContainerId → Bool) (signal : ContainerId → String) :
    List ContainerId → Act World Error α → Act World Error α
  | [], body => body
  | c :: cs, body =>
    removing (expected c) (force c) c
      (killing (signal c) c (removingAll expected force signal cs body))

section Nested

variable {α : Type} {expected : ContainerId → ExpectedExitCode} {force : ContainerId → Bool}
  {signal : ContainerId → String} {c : ContainerId} {w : World}

/-- The container is gone, or it is ended by its signal or by force with a code that is
accepted. -/
def Removable (expected : ContainerId → ExpectedExitCode) (force : ContainerId → Bool)
    (signal : ContainerId → String) (w : World) (c : ContainerId) : Prop :=
  w.status c = none ∨ ∃ code, codeFrom (force c) w c (signaled (signal c) w c) = some code ∧
    (expected c).accepts code = true

/-- The container is still up when it has had its signal. -/
def Survives (signal : ContainerId → String) (w : World) (c : ContainerId) : Prop :=
  (signaled (signal c) w c).any Status.up = true

theorem signaled_congr {t : World} (hreaction : t.reaction = w.reaction)
    (hstatus : t.status c = w.status c) (signal : String) :
    signaled signal t c = signaled signal w c := by
  rw [signaled, signaled, hreaction, hstatus]

theorem codeFrom_congr {t : World} (hreaction : t.reaction = w.reaction) (force : Bool)
    (s : Option Status) : codeFrom force t c s = codeFrom force w c s := by
  rcases s with _ | _ | _ | _ | _ <;> simp only [codeFrom, hreaction]

theorem Removable.congr {t : World} (hreaction : t.reaction = w.reaction)
    (hstatus : t.status c = w.status c) :
    Removable expected force signal t c ↔ Removable expected force signal w c := by
  rw [Removable, Removable, signaled_congr hreaction hstatus, hstatus]
  simp only [codeFrom_congr hreaction]

theorem Survives.congr {t : World} (hreaction : t.reaction = w.reaction)
    (hstatus : t.status c = w.status c) : Survives signal t c ↔ Survives signal w c := by
  rw [Survives, Survives, signaled_congr hreaction hstatus]

/-- What the two contexts of one container do at their end. They raise nothing exactly if the
container can be removed without force. -/
theorem exits_spec (expected : ContainerId → ExpectedExitCode) (force : ContainerId → Bool)
    (signal : ContainerId → String) (c : ContainerId) (body : Act World Error α) (w : World) :
    let left := removing (expected c) (force c) c (killing (signal c) c body) w
    Apart c (body w).2 left.2 ∧
    (left.2.up c = true ↔ Survives signal (body w).2 c ∧ force c = false) ∧
    (left.2.status c = none ↔ Removable expected force signal (body w).2 c) ∧
    (Removable expected (fun _ => false) signal (body w).2 c → left.1 = (body w).1) ∧
    (¬Removable expected (fun _ => false) signal (body w).2 c → ∃ e, left.1 = .error e) := by
  intro left
  obtain ⟨r, t, hkilling, ht, hr⟩ := exitKilling_spec (signal c) c (body w).2
  have hapart : Apart c (body w).2 t := by
    have hkeeps := keeps_exitKilling (signal c) (body w).2 (Apart.refl c _)
    rwa [hkilling] at hkeeps
  obtain ⟨hgone, hok, hup⟩ := exitRemoving_spec (expected c) (force c) c t
  have hkilled : (killing (signal c) c body w).2 = t := by
    rw [killing, Act.ensure_snd, hkilling]
  have hleft : left.2 = (exitRemoving (expected c) (force c) c t).2 := by
    simp only [left, removing, Act.ensure_snd, hkilled]
  have hmissing : t.status c = none ↔ (body w).2.status c = none := by
    rw [ht, signaled, Option.map_eq_none_iff]
  rw [hmissing, ht, codeFrom_congr hapart.reaction] at hgone
  have hremovable : left.2.status c = none ↔ Removable expected force signal (body w).2 c := by
    rw [hleft]
    exact hgone
  -- without force only a container that has exited has a code
  have hquiet : Removable expected (fun _ => false) signal (body w).2 c ↔
      r = .ok () ∧ left.2.status c = none := by
    rw [hremovable, hr]
    simp only [Removable]
    rw [← hmissing, ht]
    rcases signaled (signal c) (body w).2 c with _ | _ | _ | _ | code <;> simp [codeFrom]
  refine ⟨?_, ?_, hremovable, ?_, ?_⟩
  · rw [hleft]
    exact keeps_exitRemoving (expected c) (force c) t hapart
  · rw [hleft, hup, World.up, ht]
    rfl
  · intro h
    obtain ⟨rfl, hnone⟩ := hquiet.mp h
    have hbody : killing (signal c) c body w = ((body w).1, t) := Act.ensure_of_ok rfl hkilling
    rw [hleft] at hnone
    have hexit : exitRemoving (expected c) (force c) c t =
        (.ok (), (exitRemoving (expected c) (force c) c t).2) := Prod.ext (hok.mpr hnone) rfl
    simp only [left, removing, Act.ensure_of_ok hbody hexit]
  · intro h
    rcases hexit : exitRemoving (expected c) (force c) c t with ⟨e | _, u⟩
    · exact ⟨e, Act.ensure_error (by rw [hkilled, hexit])⟩
    · have hnone : left.2.status c = none := by
        rw [hleft, ← hok, hexit]
      rw [hquiet, and_iff_left hnone] at h
      rcases r with e | _
      · have hbody : killing (signal c) c body w = (.error e, t) :=
          Act.ensure_of_error rfl hkilling
        exact ⟨e, congrArg Prod.fst (Act.ensure_of_ok hbody hexit)⟩
      · exact absurd rfl h

/-- What concerns containers without a context of their own is left alone. -/
theorem removingAll_others (expected : ContainerId → ExpectedExitCode)
    (force : ContainerId → Bool) (signal : ContainerId → String) (cs : List ContainerId)
    (body : Act World Error α) (w : World) :
    let left := removingAll expected force signal cs body w
    left.2.reaction = (body w).2.reaction ∧
      ∀ d ∉ cs, left.2.status d = (body w).2.status d := by
  induction cs with
  | nil => exact ⟨rfl, fun d _ => rfl⟩
  | cons c cs ih =>
    obtain ⟨hreaction, hothers⟩ := ih
    obtain ⟨hapart, -⟩ :=
      exits_spec expected force signal c (removingAll expected force signal cs body) w
    refine ⟨hapart.reaction.trans hreaction, fun d hd => ?_⟩
    rw [List.mem_cons, not_or] at hd
    exact (hapart.status d hd.1).trans (hothers d hd.2)

/-- Containers that are killed and removed by nested contexts, whatever the body does to
them: one still runs if and only if it stays up on its signal and is not forced, and is gone
if and only if it was already or the code with which it is ended is accepted, whatever becomes
of the others. What the body returned or raised is lost if and only if a container could not
be removed without force. -/
theorem removingAll_spec (expected : ContainerId → ExpectedExitCode) (force : ContainerId → Bool)
    (signal : ContainerId → String) (cs : List ContainerId) (hdistinct : cs.Nodup)
    (body : Act World Error α) (w : World) :
    let left := removingAll expected force signal cs body w
    (∀ c ∈ cs, (left.2.up c = true ↔ Survives signal (body w).2 c ∧ force c = false) ∧
      (left.2.status c = none ↔ Removable expected force signal (body w).2 c)) ∧
    (∀ d ∉ cs, left.2.status d = (body w).2.status d) ∧
    ((∀ c ∈ cs, Removable expected (fun _ => false) signal (body w).2 c) →
      left.1 = (body w).1) ∧
    ((∃ c ∈ cs, ¬Removable expected (fun _ => false) signal (body w).2 c) →
      ∃ e, left.1 = .error e) := by
  induction cs with
  | nil => simp [removingAll]
  | cons c cs ih =>
    intro left
    obtain ⟨hc, hdistinct⟩ := List.nodup_cons.mp hdistinct
    let inner := removingAll expected force signal cs body w
    obtain ⟨hreaction, hothers⟩ := removingAll_others expected force signal cs body w
    obtain ⟨hinside, -, hresult, hraised⟩ := ih hdistinct
    obtain ⟨hapart, hup, hgone, hkeeps, hraises⟩ :=
      exits_spec expected force signal c (removingAll expected force signal cs body) w
    rw [Removable.congr hreaction (hothers c hc)] at hgone hkeeps hraises
    rw [Survives.congr hreaction (hothers c hc)] at hup
    have hsame : ∀ d ∈ cs, left.2.status d = inner.2.status d := by
      intro d hd
      exact hapart.status d (fun hdc => hc (hdc ▸ hd))
    refine ⟨?_, (removingAll_others expected force signal (c :: cs) body w).2, ?_, ?_⟩
    · intro d hd
      rcases List.mem_cons.mp hd with rfl | hd
      · exact ⟨hup, hgone⟩
      · obtain ⟨hinsideUp, hremoved⟩ := hinside d hd
        rw [World.up_congr (hsame d hd), hsame d hd]
        exact ⟨hinsideUp, hremoved⟩
    · intro hquiet
      have hfirst : left.1 = inner.1 := hkeeps (hquiet c List.mem_cons_self)
      exact hfirst.trans (hresult fun d hd => hquiet d (List.mem_cons_of_mem c hd))
    · rintro ⟨d, hd, hloud⟩
      by_cases hfirst : Removable expected (fun _ => false) signal (body w).2 c
      · have hne : d ≠ c := fun hdc => hloud (hdc ▸ hfirst)
        have hd : d ∈ cs := (List.mem_cons.mp hd).resolve_left hne
        obtain ⟨e, he⟩ := hraised ⟨d, hd, hloud⟩
        exact ⟨e, (hkeeps hfirst).trans he⟩
      · exact hraises hfirst

/-- A daemon whose containers run on after every signal but `SIGKILL`. -/
def stubborn : World where
  status := fun _ => some .running
  attrs := fun _ => .created
  connected := fun _ => false
  reaction := fun _ _ signal => if signal = "SIGKILL" then .exits 137 else .stays false
  sigkill := fun _ _ => ⟨137, rfl⟩
  next := 2
  requests := []

def killFirst (c : ContainerId) : String := if c = 0 then "SIGKILL" else "SIGTERM"

theorem stubborn_killFirst :
    Removable (fun _ => .code 137) (fun _ => false) killFirst stubborn 0 ∧
      Survives killFirst stubborn 1 ∧
      ¬Removable (fun _ => .code 137) (fun _ => false) killFirst stubborn 1 := by
  have hended : signaled (killFirst 0) stubborn 0 = some (.exited 137) := by
    simp [signaled, stubborn, killFirst, Status.up, Reaction.next]
  have hgoesOn : signaled (killFirst 1) stubborn 1 = some .running := by
    simp [signaled, stubborn, killFirst, Status.up, Reaction.next]
  refine ⟨Or.inr ⟨137, ?_, rfl⟩, ?_, ?_⟩
  · rw [hended]
    rfl
  · rw [Survives, hgoesOn]
    rfl
  · rintro (hnone | ⟨code, hcode, -⟩)
    · cases hnone
    · rw [hgoesOn] at hcode
      cases hcode

/-- The inner one of two containers is sent `SIGTERM`, and goes on; the outer one is killed
and removed all the same. -/
theorem removingAll_spec_pair :
    let left := removingAll (fun _ => .code 137) (fun _ => false) killFirst [0, 1]
      (pure () : Act World Error Unit) stubborn
    left.2.status 0 = none ∧ left.2.up 1 = true ∧ ∃ e, left.1 = .error e := by
  obtain ⟨hremovable, hsurvives, hstays⟩ := stubborn_killFirst
  obtain ⟨hcontainers, -, -, hraises⟩ := removingAll_spec (fun _ => .code 137) (fun _ => false)
    killFirst [0, 1] (by decide) (pure () : Act World Error Unit) stubborn
  refine ⟨?_, ?_, hraises ⟨1, by decide, hstays⟩⟩
  · exact (hcontainers 0 (by decide)).2.mpr hremovable
  · exact (hcontainers 1 (by decide)).1.mpr ⟨hsurvives, rfl⟩

end Nested

end Yellowbox.Docker
