import Mathlib.Data.List.Nodup
import Yellowbox.Base.StepRuns
import Yellowbox.Docker.Containers

/-!
`SafeContainerCreator` over any sequence of calls. A failing call removes what
the creator has on its list and leaves the list as it is, so what decides a
failing call is whether a container of the list is missing already.
-/
namespace Yellowbox.Docker

open Effects StepRuns

/-- The creator's list of containers, and the daemon. -/
structure SafeContainerCreator where
  created : List ContainerId
  world : World

namespace SafeContainerCreator

/-- What `create_and_pull` raises: an `Exception`, or an exception that is none, such as a
`KeyboardInterrupt` while the image is pulled. -/
inductive Failure
  | exception (e : Error)
  | interrupt (name : String)
  deriving DecidableEq

/-- The outcome of `create_and_pull`: it fails, or gives a new container. -/
abbrev Outcome := Except Failure Unit

def create (outcome : Outcome) : Act World Failure ContainerId := do
  Act.ofExcept outcome
  let c := (← Act.get).next
  Act.modify fun w => { w.setStatus c (some .created) with next := c + 1 }
  return c

/-- `except Exception: for container in reversed(self.created): container.remove(v=True)`
and then `raise`; what a removal raises replaces the exception being handled. -/
def removeAll (created : List ContainerId) (e : Error) : Act World Error ContainerId := do
  Act.forEach remove created.reverse
  Act.raise e

/-- `SafeContainerCreator.create_and_pull` -/
def createAndPull (s : SafeContainerCreator) (outcome : Outcome) :
    SafeContainerCreator × Except Failure ContainerId :=
  match create outcome s.world with
  | (.ok c, w) => ({ created := s.created ++ [c], world := w }, .ok c)
  | (.error (.exception e), w) =>
    match removeAll s.created e w with
    | (r, w') => ({ s with world := w' }, r.mapError .exception)
  | (.error (.interrupt name), w) => ({ s with world := w }, .error (.interrupt name))

/-- A creator just made; the requests are counted from there. -/
def new (w : World) : SafeContainerCreator where
  created := []
  world := { w with requests := [] }

def removedBy : Request → Option ContainerId
  | .remove c => some c
  | .start _ | .kill _ _ | .wait _ => none

/-- The containers that were asked to be removed, in that order. -/
def removals (w : World) : List ContainerId := w.requests.filterMap removedBy

/-- A failing call raises its own exception, leaves none of the created containers
and removes containers in reverse order of creation. -/
def FailureClean (s : SafeContainerCreator) (outcome : Outcome) : Prop :=
  ∀ e, outcome = .error e →
    (s.createAndPull outcome).2 = .error e ∧
    (∀ c ∈ s.created, (s.createAndPull outcome).1.world.status c = none) ∧
    ∃ log, removals (s.createAndPull outcome).1.world = removals s.world ++ log ∧
      log.Sublist s.created.reverse

/-- Every failing call of the run is clean, and nothing is removed twice. -/
structure RemovesOnce (w : World) (outcomes : List Outcome) : Prop where
  clean : Along createAndPull FailureClean (new w) outcomes
  once : (removals (exec createAndPull (new w) outcomes).world).Nodup

/-! ### The loop of removals -/

theorem removals_setStatus (w : World) (c : ContainerId) (s : Option Status) :
    removals (w.setStatus c s) = removals w := rfl

theorem removals_ask_remove (w : World) (c : ContainerId) :
    removals (w.ask (.remove c)) = removals w ++ [c] := by
  simp only [removals, World.requests_ask, List.filterMap_append]
  rfl

/-- The containers of `l` were removed, in that order. -/
structure Cleared (l : List ContainerId) (w w' : World) : Prop where
  gone : ∀ c ∈ l, w'.status c = none
  kept : ∀ c, c ∉ l → w'.status c = w.status c
  next : w'.next = w.next
  log : removals w' = removals w ++ l

theorem forEach_remove (l : List ContainerId) (hnodup : l.Nodup) (w : World)
    (hl : ∀ c ∈ l, w.status c = some .created) :
    ∃ w', Act.forEach remove l w = (.ok (), w') ∧ Cleared l w w' := by
  induction l generalizing w with
  | nil => exact ⟨w, Act.forEach_nil, nofun, fun _ _ => rfl, rfl, by simp⟩
  | cons c l ih =>
    obtain ⟨hc, hnodup⟩ := List.nodup_cons.mp hnodup
    let w₁ := (w.ask (.remove c)).setStatus c none
    have hremove : remove c w = (.ok (), w₁) := remove_down (hl c (by simp)) rfl
    have hother : ∀ d, d ≠ c → w₁.status d = w.status d := by
      intro d hd
      exact World.status_setStatus_of_ne hd _ _
    have hl₁ : ∀ d ∈ l, w₁.status d = some .created := by
      intro d hd
      rw [hother d (fun hdc => hc (hdc ▸ hd))]
      exact hl d (List.mem_cons_of_mem c hd)
    obtain ⟨w₂, hloop, hcleared⟩ := ih hnodup w₁ hl₁
    refine ⟨w₂, (Act.forEach_cons_ok hremove l).trans hloop, ?_, ?_, hcleared.next, ?_⟩
    · intro d hd
      rcases List.mem_cons.mp hd with rfl | hdl
      · rw [hcleared.kept d hc]
        exact World.status_setStatus_self ..
      · exact hcleared.gone d hdl
    · intro d hd
      simp only [List.mem_cons, not_or] at hd
      rw [hcleared.kept d hd.2, hother d hd.1]
    · rw [hcleared.log, removals_setStatus, removals_ask_remove, List.append_assoc,
        List.singleton_append]

/-- Removing stops at the first container that is missing. -/
theorem forEach_remove_missing (l : List ContainerId) (hnodup : l.Nodup) (w : World)
    (hl : ∀ c ∈ l, w.status c = some .created ∨ w.status c = none)
    (hmissing : ∃ c ∈ l, w.status c = none) :
    ∃ pre c post w', l = pre ++ c :: post ∧ w.status c = none ∧ Cleared pre w w' ∧
      Act.forEach remove l w = (.error .notFound, w'.ask (.remove c)) := by
  obtain ⟨c, hfind⟩ : ∃ c, l.find? (fun c => (w.status c).isNone) = some c := by
    apply Option.isSome_iff_exists.mp
    simpa [List.find?_isSome] using hmissing
  obtain ⟨hc, pre, post, rfl, hpre⟩ := List.find?_eq_some_iff_append.mp hfind
  have hexist : ∀ d ∈ pre, w.status d = some .created := by
    intro d hd
    rcases hl d (List.mem_append_left _ hd) with h | h
    · exact h
    · have hsome := hpre d hd
      simp [h] at hsome
  obtain ⟨w', hloop, hcleared⟩ := forEach_remove pre hnodup.of_append_left w hexist
  have hcpre : c ∉ pre := by
    intro h
    simp [hexist c h] at hc
  have hcnone : w'.status c = none := by
    rw [hcleared.kept c hcpre]
    exact Option.isNone_iff_eq_none.mp hc
  refine ⟨pre, c, post, w', rfl, Option.isNone_iff_eq_none.mp hc, hcleared, ?_⟩
  rw [Act.forEach_append_ok hloop, Act.forEach_cons_error (remove_missing hcnone)]

/-! ### One call -/

/-- The listed containers are distinct, older than anything the daemon will give out,
and missing exactly when a removal was asked for. -/
structure Tracked (s : SafeContainerCreator) : Prop where
  nodup : s.created.Nodup
  old : ∀ c ∈ s.created, c < s.world.next
  status : ∀ c ∈ s.created, s.world.status c = some .created ∨ s.world.status c = none
  missing : ∀ c ∈ s.created, s.world.status c = none → c ∈ removals s.world
  removed : ∀ c ∈ removals s.world, c ∈ s.created ∧ s.world.status c = none

/-- Some container of the list is gone already. -/
def Missing (s : SafeContainerCreator) : Prop := ∃ c ∈ s.created, s.world.status c = none

/-- Some container of the list exists. -/
def Present (s : SafeContainerCreator) : Prop := ∃ c ∈ s.created, s.world.status c ≠ none

theorem not_missing_of_nil {s : SafeContainerCreator} (h : s.created = []) : ¬ Missing s := by
  rintro ⟨c, hc, -⟩
  exact absurd (h ▸ hc) List.not_mem_nil

theorem not_present_of_nil {s : SafeContainerCreator} (h : s.created = []) : ¬ Present s := by
  rintro ⟨c, hc, -⟩
  exact absurd (h ▸ hc) List.not_mem_nil

/-- The state after a successful call. -/
def added (s : SafeContainerCreator) : SafeContainerCreator where
  created := s.created ++ [s.world.next]
  world := { s.world.setStatus s.world.next (some .created) with next := s.world.next + 1 }

theorem tracked_new (w : World) : Tracked (new w) :=
  ⟨List.nodup_nil, nofun, nofun, nofun, nofun⟩

theorem added_status {s : SafeContainerCreator} (hs : Tracked s) {c : ContainerId}
    (hc : c ∈ s.created) : s.added.world.status c = s.world.status c :=
  World.status_setStatus_of_ne (Nat.ne_of_lt (hs.old c hc)) _ _

theorem Tracked.added {s : SafeContainerCreator} (hs : Tracked s) : Tracked s.added := by
  have hnew : s.added.world.status s.world.next = some .created :=
    World.status_setStatus_self ..
  have hlog : removals s.added.world = removals s.world := rfl
  have hcases : ∀ c ∈ s.added.created, c ∈ s.created ∨ c = s.world.next := by
    intro c hc
    simpa [SafeContainerCreator.added] using hc
  refine ⟨?_, ?_, ?_, ?_, ?_⟩
  · apply List.nodup_append.mpr ⟨hs.nodup, List.nodup_singleton _, ?_⟩
    intro c hc d hd hcd
    rw [hcd, List.mem_singleton.mp hd] at hc
    exact Nat.lt_irrefl _ (hs.old _ hc)
  · intro c hc
    rcases hcases c hc with hold | rfl
    · exact Nat.lt_succ_of_lt (hs.old c hold)
    · exact Nat.lt_succ_self _
  · intro c hc
    rcases hcases c hc with hold | rfl
    · rw [added_status hs hold]
      exact hs.status c hold
    · exact Or.inl hnew
  · intro c hc hnone
    rcases hcases c hc with hold | rfl
    · rw [added_status hs hold] at hnone
      exact hs.missing c hold hnone
    · rw [hnew] at hnone
      cases hnone
  · intro c hc
    obtain ⟨hmem, hnone⟩ := hs.removed c hc
    exact ⟨List.mem_append_left _ hmem, (added_status hs hmem).trans hnone⟩

/-- Removals among the listed containers keep the list tracked. -/
theorem Tracked.cleared {s : SafeContainerCreator} (hs : Tracked s) {l : List ContainerId}
    {w : World} (extra : List ContainerId) (w' : World) (hl : l ⊆ s.created)
    (hcleared : Cleared l s.world w)
    (hextra : ∀ c ∈ extra, c ∈ s.created ∧ s.world.status c = none)
    (hstatus : w'.status = w.status) (hnext : w'.next = w.next)
    (hlog : removals w' = removals w ++ extra) : Tracked { s with world := w' } := by
  have hnone : ∀ c, s.world.status c = none → w'.status c = none := by
    intro c hc
    rw [hstatus]
    by_cases hcl : c ∈ l
    · exact hcleared.gone c hcl
    · rw [hcleared.kept c hcl, hc]
  have hlog' : removals w' = removals s.world ++ l ++ extra := by
    rw [hlog, hcleared.log]
  refine ⟨hs.nodup, ?_, ?_, ?_, ?_⟩
  · intro c hc
    simp only [hnext, hcleared.next]
    exact hs.old c hc
  · intro c hc
    simp only [hstatus]
    by_cases hcl : c ∈ l
    · exact Or.inr (hcleared.gone c hcl)
    · rw [hcleared.kept c hcl]
      exact hs.status c hc
  · intro c hc hgone
    simp only [hlog', List.mem_append]
    by_cases hcl : c ∈ l
    · exact Or.inl (Or.inr hcl)
    · simp only [hstatus, hcleared.kept c hcl] at hgone
      exact Or.inl (Or.inl (hs.missing c hc hgone))
  · intro c hc
    simp only [hlog', List.mem_append] at hc
    rcases hc with (hold | hcl) | hc
    · obtain ⟨hmem, hgone⟩ := hs.removed c hold
      exact ⟨hmem, hnone c hgone⟩
    · exact ⟨hl hcl, by simp only [hstatus, hcleared.gone c hcl]⟩
    · exact ⟨(hextra c hc).1, hnone c (hextra c hc).2⟩

/-- A failing call that finds every listed container. -/
theorem createAndPull_error_present {s : SafeContainerCreator} (hs : Tracked s)
    (hpresent : ¬ Missing s) (e : Error) :
    ∃ w, s.createAndPull (.error (.exception e)) =
        ({ s with world := w }, .error (.exception e)) ∧
      Cleared s.created.reverse s.world w := by
  have hexist : ∀ c ∈ s.created.reverse, s.world.status c = some .created := by
    intro c hc
    have hmem := List.mem_reverse.mp hc
    exact (hs.status c hmem).resolve_right fun hnone => hpresent ⟨c, hmem, hnone⟩
  obtain ⟨w, hloop, hcleared⟩ :=
    forEach_remove _ (List.nodup_reverse.mpr hs.nodup) s.world hexist
  refine ⟨w, ?_, hcleared⟩
  have hall : removeAll s.created e s.world = (.error e, w) := Act.bind_ok hloop
  change (match removeAll s.created e s.world with
    | (r, w') => ({ s with world := w' }, r.mapError Failure.exception)) = _
  rw [hall]
  rfl

/-- A failing call that comes upon a container which is gone: it asks once more for
its removal and raises what the daemon answers. -/
theorem createAndPull_error_missing {s : SafeContainerCreator} (hs : Tracked s)
    (hmissing : Missing s) (e : Error) :
    ∃ pre c post w, s.createAndPull (.error (.exception e)) =
        ({ s with world := w.ask (.remove c) }, .error (.exception .notFound)) ∧
      s.created.reverse = pre ++ c :: post ∧ s.world.status c = none ∧
      Cleared pre s.world w := by
  obtain ⟨d, hd, hnone⟩ := hmissing
  obtain ⟨pre, c, post, w, hsplit, hc, hcleared, hloop⟩ :=
    forEach_remove_missing _ (List.nodup_reverse.mpr hs.nodup) s.world
      (fun c hc => hs.status c (List.mem_reverse.mp hc)) ⟨d, List.mem_reverse.mpr hd, hnone⟩
  refine ⟨pre, c, post, w, ?_, hsplit, hc, hcleared⟩
  have hall : removeAll s.created e s.world = (.error .notFound, w.ask (.remove c)) :=
    Act.bind_error hloop
  change (match removeAll s.created e s.world with
    | (r, w') => ({ s with world := w' }, r.mapError Failure.exception)) = _
  rw [hall]
  rfl

theorem mem_of_reverse_split {l pre post : List ContainerId} {c : ContainerId}
    (h : l.reverse = pre ++ c :: post) : c ∈ l ∧ pre ⊆ l := by
  constructor
  · apply List.mem_reverse.mp
    rw [h]
    exact List.mem_append_right _ (List.mem_cons_self ..)
  · intro d hd
    apply List.mem_reverse.mp
    rw [h]
    exact List.mem_append_left _ hd

/-- A call that is interrupted removes nothing. -/
theorem createAndPull_interrupt (s : SafeContainerCreator) (name : String) :
    s.createAndPull (.error (.interrupt name)) = (s, .error (.interrupt name)) := rfl

theorem createAndPull_tracked (s : SafeContainerCreator) (outcome : Outcome)
    (hs : Tracked s) : Tracked (s.createAndPull outcome).1 := by
  rcases outcome with (e | name) | u
  · by_cases hmissing : Missing s
    · obtain ⟨pre, c, post, w, hstep, hsplit, hc, hcleared⟩ :=
        createAndPull_error_missing hs hmissing e
      obtain ⟨hmem, hpre⟩ := mem_of_reverse_split hsplit
      rw [hstep]
      apply hs.cleared [c] (w.ask (.remove c)) hpre hcleared ?_ rfl rfl (removals_ask_remove w c)
      intro d hd
      rw [List.mem_singleton.mp hd]
      exact ⟨hmem, hc⟩
    · obtain ⟨w, hstep, hcleared⟩ := createAndPull_error_present hs hmissing e
      rw [hstep]
      exact hs.cleared [] w (fun c hc => List.mem_reverse.mp hc) hcleared nofun rfl rfl
        (List.append_nil _).symm
  · exact hs
  · exact hs.added

/-- A call only adds to the removals asked for. -/
theorem removals_createAndPull (s : SafeContainerCreator) (outcome : Outcome)
    (hs : Tracked s) :
    ∃ log, removals (s.createAndPull outcome).1.world = removals s.world ++ log := by
  rcases outcome with (e | name) | u
  · by_cases hmissing : Missing s
    · obtain ⟨pre, c, post, w, hstep, -, -, hcleared⟩ :=
        createAndPull_error_missing hs hmissing e
      refine ⟨pre ++ [c], ?_⟩
      rw [hstep, ← List.append_assoc, ← hcleared.log]
      exact removals_ask_remove w c
    · obtain ⟨w, hstep, hcleared⟩ := createAndPull_error_present hs hmissing e
      exact ⟨_, by rw [hstep]; exact hcleared.log⟩
  · exact ⟨[], (List.append_nil _).symm⟩
  · exact ⟨[], (List.append_nil _).symm⟩

/-- A call that fails with an `Exception` finds every listed container, and one that is
interrupted finds none. -/
def Ready (s : SafeContainerCreator) : Outcome → Prop
  | .ok _ => True
  | .error (.exception _) => ¬ Missing s
  | .error (.interrupt _) => ¬ Present s

theorem failureClean_of_ready {s : SafeContainerCreator} (hs : Tracked s)
    {outcome : Outcome} (h : Ready s outcome) : FailureClean s outcome := by
  rintro (e | name) rfl
  · obtain ⟨w, hstep, hcleared⟩ := createAndPull_error_present hs h e
    rw [hstep]
    refine ⟨rfl, fun c hc => hcleared.gone c (List.mem_reverse.mpr hc), ?_⟩
    exact ⟨_, hcleared.log, List.Sublist.refl _⟩
  · refine ⟨rfl, fun c hc => ?_, [], (List.append_nil _).symm, List.nil_sublist _⟩
    by_contra hexists
    exact h ⟨c, hc, hexists⟩

theorem once_of_ready {s : SafeContainerCreator} (hs : Tracked s) {outcome : Outcome}
    (h : Ready s outcome) (honce : (removals s.world).Nodup) :
    (removals (s.createAndPull outcome).1.world).Nodup := by
  rcases outcome with (e | name) | u
  · obtain ⟨w, hstep, hcleared⟩ := createAndPull_error_present hs h e
    rw [hstep]
    simp only [hcleared.log]
    apply List.nodup_append.mpr ⟨honce, List.nodup_reverse.mpr hs.nodup, ?_⟩
    intro c hc d hd hcd
    obtain ⟨hmem, hnone⟩ := hs.removed c hc
    exact h ⟨c, hmem, hnone⟩
  · exact honce
  · exact honce

theorem twice_of_missing {s : SafeContainerCreator} (hs : Tracked s) (hmissing : Missing s)
    (e : Error) : ¬ (removals (s.createAndPull (.error (.exception e))).1.world).Nodup := by
  obtain ⟨pre, c, post, w, hstep, hsplit, hc, hcleared⟩ :=
    createAndPull_error_missing hs hmissing e
  have hbefore : c ∈ removals s.world :=
    hs.missing c (mem_of_reverse_split hsplit).1 hc
  have hafter : c ∈ removals w := by
    rw [hcleared.log]
    exact List.mem_append_left _ hbefore
  rw [hstep]
  simp only [removals_ask_remove]
  intro hnodup
  exact (List.nodup_append.mp hnodup).2.2 c hafter c (List.mem_singleton_self c) rfl

theorem tracked_exec (w : World) (outcomes : List Outcome) :
    Tracked (exec createAndPull (new w) outcomes) :=
  exec_invariant createAndPull Tracked createAndPull_tracked outcomes (tracked_new w)

/-- What decides a run: whether each of its failing calls finds every container, or none
where it is interrupted. -/
theorem removesOnce_iff_ready (w : World) (outcomes : List Outcome) :
    RemovesOnce w outcomes ↔ Along createAndPull Ready (new w) outcomes := by
  constructor
  · intro h
    apply (along_iff createAndPull).mpr
    intro pre outcome post hsplit
    rcases outcome with (e | name) | u
    · intro hmissing
      have htwice := twice_of_missing (tracked_exec w pre) hmissing e
      have hlast := exec_invariant createAndPull
        (fun s => Tracked s ∧ ¬ (removals s.world).Nodup)
        (fun s outcome ⟨hs, hnot⟩ => by
          obtain ⟨log, hlog⟩ := removals_createAndPull s outcome hs
          refine ⟨createAndPull_tracked s outcome hs, ?_⟩
          rw [hlog]
          exact fun hnodup => hnot hnodup.of_append_left)
        post ⟨createAndPull_tracked _ _ (tracked_exec w pre), htwice⟩
      apply hlast.2
      have honce := h.once
      rwa [hsplit, exec_append, exec_cons] at honce
    · rintro ⟨c, hc, hexists⟩
      have hclean := (along_iff createAndPull).mp h.clean pre _ post hsplit
      exact hexists ((hclean (.interrupt name) rfl).2.1 c hc)
    · trivial
  · intro h
    refine ⟨?_, ?_⟩
    · apply (along_iff createAndPull).mpr
      intro pre outcome post hsplit
      exact failureClean_of_ready (tracked_exec w pre)
        ((along_iff createAndPull).mp h pre outcome post hsplit)
    · apply And.right (a := Tracked (exec createAndPull (new w) outcomes))
      exact exec_invariant_along createAndPull Ready
        (fun s => Tracked s ∧ (removals s.world).Nodup)
        (fun s outcome hready hs =>
          ⟨createAndPull_tracked s outcome hs.1, once_of_ready hs.1 hready hs.2⟩)
        h ⟨tracked_new w, List.nodup_nil⟩

/-! ### In terms of the outcomes -/

inductive Kind
  | success
  | failure
  | interrupt
  deriving DecidableEq

def kind : Outcome → Kind
  | .ok _ => .success
  | .error (.exception _) => .failure
  | .error (.interrupt _) => .interrupt

theorem success_ne_failure : Kind.success ≠ .failure := nofun

theorem success_ne_interrupt : Kind.success ≠ .interrupt := nofun

theorem interrupt_ne_failure : Kind.interrupt ≠ .failure := nofun

/-- A call is interrupted right after one that succeeded. -/
def InterruptedAfterSuccess (kinds : List Kind) : Prop := [.success, .interrupt] <:+: kinds

theorem along_ready_cons (s : SafeContainerCreator) (outcome : Outcome) (rest : List Outcome) :
    Along createAndPull Ready s (outcome :: rest) ↔
      Ready s outcome ∧ Along createAndPull Ready (s.createAndPull outcome).1 rest := Iff.rfl

theorem interruptedAfterSuccess_cons {k : Kind} (hk : .success ≠ k) (kinds : List Kind) :
    InterruptedAfterSuccess (k :: kinds) ↔ InterruptedAfterSuccess kinds := by
  simp [InterruptedAfterSuccess, List.infix_cons_iff, List.cons_prefix_cons, hk]

theorem interruptedAfterSuccess_cons_cons {k : Kind} (hk : .interrupt ≠ k) (kinds : List Kind) :
    InterruptedAfterSuccess (.success :: k :: kinds) ↔ InterruptedAfterSuccess (k :: kinds) := by
  unfold InterruptedAfterSuccess
  rw [List.infix_cons_iff, List.cons_prefix_cons, List.cons_prefix_cons]
  exact or_iff_right fun h => hk h.2.1

theorem interruptedAfterSuccess_head (kinds : List Kind) :
    InterruptedAfterSuccess (.success :: .interrupt :: kinds) :=
  List.IsPrefix.isInfix (List.prefix_append [Kind.success, .interrupt] kinds)

theorem missing_added {s : SafeContainerCreator} (hs : Tracked s) :
    Missing s.added ↔ Missing s := by
  constructor
  · rintro ⟨c, hc, hnone⟩
    rcases List.mem_append.mp hc with hold | hnew
    · exact ⟨c, hold, (added_status hs hold).symm.trans hnone⟩
    · rw [List.mem_singleton.mp hnew] at hnone
      have hcreated : s.added.world.status s.world.next = some .created :=
        World.status_setStatus_self ..
      rw [hcreated] at hnone
      cases hnone
  · rintro ⟨c, hc, hnone⟩
    exact ⟨c, List.mem_append_left _ hc, (added_status hs hc).trans hnone⟩

theorem present_added (s : SafeContainerCreator) : Present s.added := by
  refine ⟨s.world.next, List.mem_append_right _ (List.mem_singleton_self _), ?_⟩
  have hcreated : s.added.world.status s.world.next = some .created :=
    World.status_setStatus_self ..
  rw [hcreated]
  exact Option.some_ne_none _

theorem sublist_cons_of_ne {a b : Kind} (h : a ≠ b) (l l' : List Kind) :
    (a :: l).Sublist (b :: l') ↔ (a :: l).Sublist l' := by
  simp [List.sublist_cons_iff, h]

/-- Once a listed container is gone, the next failing call comes upon it. -/
theorem along_ready_missing (outcomes : List Outcome) (s : SafeContainerCreator)
    (hs : Tracked s) (hmissing : Missing s) :
    (Present s → (Along createAndPull Ready s outcomes ↔
      ¬ [Kind.failure].Sublist (outcomes.map kind) ∧
        ¬ InterruptedAfterSuccess (.success :: outcomes.map kind))) ∧
    (¬ Present s → (Along createAndPull Ready s outcomes ↔
      ¬ [Kind.failure].Sublist (outcomes.map kind) ∧
        ¬ InterruptedAfterSuccess (outcomes.map kind))) := by
  induction outcomes generalizing s with
  | nil => simp [InterruptedAfterSuccess, List.infix_cons_iff, Along]
  | cons outcome rest ih =>
    rcases outcome with (e | name) | u
    · have hfound : [Kind.failure].Sublist ((.error (.exception e) :: rest).map kind) :=
        List.singleton_sublist.mpr List.mem_cons_self
      have hbad : ¬ Along createAndPull Ready s (.error (.exception e) :: rest) :=
        fun h => h.1 hmissing
      exact ⟨fun _ => iff_of_false hbad fun h => h.1 hfound,
        fun _ => iff_of_false hbad fun h => h.1 hfound⟩
    · refine ⟨fun hpresent => ?_, fun hgone => ?_⟩
      · exact iff_of_false (fun h => h.1 hpresent)
          fun h => h.2 (interruptedAfterSuccess_head (rest.map kind))
      · rw [along_ready_cons, createAndPull_interrupt, (ih s hs hmissing).2 hgone, List.map_cons,
          kind, interruptedAfterSuccess_cons success_ne_interrupt,
          sublist_cons_of_ne interrupt_ne_failure.symm]
        exact and_iff_right hgone
    · have hrest := (ih s.added hs.added ((missing_added hs).mpr hmissing)).1 (present_added s)
      rw [List.map_cons, kind, along_ready_cons,
        interruptedAfterSuccess_cons_cons success_ne_interrupt.symm,
        sublist_cons_of_ne success_ne_failure.symm]
      have hall := (and_iff_right (a := Ready s (.ok u)) trivial).trans hrest
      exact ⟨fun _ => hall, fun _ => hall⟩

/-- With containers listed and all of them there, one failing call is fine. -/
theorem along_ready_present (outcomes : List Outcome) (s : SafeContainerCreator)
    (hs : Tracked s) (hall : ¬ Missing s) (hpresent : Present s) :
    Along createAndPull Ready s outcomes ↔
      ¬ [Kind.failure, .failure].Sublist (outcomes.map kind) ∧
        ¬ InterruptedAfterSuccess (.success :: outcomes.map kind) := by
  induction outcomes generalizing s with
  | nil => simp [InterruptedAfterSuccess, List.infix_cons_iff, Along]
  | cons outcome rest ih =>
    rcases outcome with (e | name) | u
    · obtain ⟨w, hstep, hcleared⟩ := createAndPull_error_present hs hall e
      have hnext : Tracked (s.createAndPull (.error (.exception e))).1 :=
        createAndPull_tracked s _ hs
      have hgone : ∀ c ∈ s.created,
          (s.createAndPull (.error (.exception e))).1.world.status c = none := by
        intro c hc
        rw [hstep]
        exact hcleared.gone c (List.mem_reverse.mpr hc)
      have hcreated : (s.createAndPull (.error (.exception e))).1.created = s.created := by
        rw [hstep]
      have hmissing : Missing (s.createAndPull (.error (.exception e))).1 := by
        obtain ⟨c, hc, -⟩ := hpresent
        exact ⟨c, hcreated ▸ hc, hgone c hc⟩
      have hnone : ¬ Present (s.createAndPull (.error (.exception e))).1 := by
        rintro ⟨c, hc, hexists⟩
        exact hexists (hgone c (hcreated ▸ hc))
      rw [along_ready_cons, (along_ready_missing rest _ hnext hmissing).2 hnone, List.map_cons,
        kind, interruptedAfterSuccess_cons_cons interrupt_ne_failure,
        interruptedAfterSuccess_cons success_ne_failure, List.cons_sublist_cons]
      exact and_iff_right hall
    · exact iff_of_false (fun h => h.1 hpresent)
        fun h => h.2 (interruptedAfterSuccess_head (rest.map kind))
    · have hrest := ih s.added hs.added (mt (missing_added hs).mp hall) (present_added s)
      rw [along_ready_cons, List.map_cons, kind,
        interruptedAfterSuccess_cons_cons success_ne_interrupt.symm,
        sublist_cons_of_ne success_ne_failure.symm]
      exact (and_iff_right (a := Ready s (.ok u)) trivial).trans hrest

/-- Before the first successful call there is nothing to remove. -/
theorem along_ready_empty (outcomes : List Outcome) (s : SafeContainerCreator)
    (hs : Tracked s) (hempty : s.created = []) :
    Along createAndPull Ready s outcomes ↔
      ¬ [Kind.success, .failure, .failure].Sublist (outcomes.map kind) ∧
        ¬ InterruptedAfterSuccess (outcomes.map kind) := by
  induction outcomes generalizing s with
  | nil => simp [InterruptedAfterSuccess, Along]
  | cons outcome rest ih =>
    rcases outcome with (e | name) | u
    · have hall := not_missing_of_nil hempty
      obtain ⟨w, hstep, hcleared⟩ := createAndPull_error_present hs hall e
      have hnil : (s.createAndPull (.error (.exception e))).1.created = [] := by
        rw [hstep]
        exact hempty
      have hnext := createAndPull_tracked s (.error (.exception e)) hs
      rw [along_ready_cons, ih _ hnext hnil, List.map_cons, kind,
        interruptedAfterSuccess_cons success_ne_failure, sublist_cons_of_ne success_ne_failure]
      exact and_iff_right hall
    · rw [along_ready_cons, createAndPull_interrupt, ih s hs hempty, List.map_cons, kind,
        interruptedAfterSuccess_cons success_ne_interrupt,
        sublist_cons_of_ne success_ne_interrupt]
      exact and_iff_right (not_present_of_nil hempty)
    · rw [along_ready_cons, List.map_cons, kind, List.cons_sublist_cons]
      exact (and_iff_right (a := Ready s (.ok u)) trivial).trans
        (along_ready_present rest s.added hs.added
          (mt (missing_added hs).mp (not_missing_of_nil hempty)) (present_added s))

/-- The creator never takes a removed container off its list, and cleans up after an
`Exception` only: it removes each container once exactly when no call that fails comes after
an earlier one that itself came after a successful one, and none is interrupted right after a
successful one. -/
theorem removesOnce_iff (w : World) (outcomes : List Outcome) :
    RemovesOnce w outcomes ↔
      ¬ [Kind.success, .failure, .failure].Sublist (outcomes.map kind) ∧
        ¬ InterruptedAfterSuccess (outcomes.map kind) := by
  rw [removesOnce_iff_ready]
  exact along_ready_empty outcomes (new w) (tracked_new w) rfl

/-- One container is created. The second failing call asks again for its removal and raises
the daemon's answer instead of its own exception; a call that is interrupted leaves it. -/
theorem second_failure_removes_again :
    let w : World := ⟨fun _ => none, fun _ => .created, fun _ => false, fun _ _ _ => .exits 0,
      fun _ _ => ⟨0, rfl⟩, 0, []⟩
    let failure : Outcome := .error (.exception (.raised "ImageNotFound"))
    ¬ RemovesOnce w [.ok (), failure, failure] ∧
      removals (exec createAndPull (new w) [.ok (), failure, failure]).world = [0, 0] ∧
    ¬ RemovesOnce w [.ok (), .error (.interrupt "KeyboardInterrupt")] ∧
      (exec createAndPull (new w)
        [.ok (), .error (.interrupt "KeyboardInterrupt")]).world.status 0 = some .created := by
  intro w failure
  have hlog : removals (exec createAndPull (new w) [.ok (), failure, failure]).world =
      [0, 0] := by decide
  have hleft : (exec createAndPull (new w)
      [.ok (), .error (.interrupt "KeyboardInterrupt")]).world.status 0 = some .created := by
    decide
  refine ⟨fun h => ?_, hlog, fun h => ?_, hleft⟩
  · have honce := h.once
    rw [hlog] at honce
    exact absurd honce (by decide)
  · have hclean := h.clean.2.1 (.interrupt "KeyboardInterrupt") rfl
    exact absurd (hclean.2.1 0 (by decide)) (by decide)

end SafeContainerCreator

end Yellowbox.Docker
