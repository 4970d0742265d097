import Yellowbox.Logstash.Rounds

/-!
Runs of the background thread. As long as no shutdown fails in a clean-up a run goes
on until the sentinel, and every connection is in the state that its own input
brings it to, whatever the others sent.
-/
namespace Yellowbox.LogstashRuns

open Effects StepRuns StreamSplit LogstashService LogstashConnection LogstashRounds

variable {ρ : Type} {cfg : Setup ρ}

/-- In this round no shutdown fails in a clean-up. -/
def RoundHolds (cfg : Setup ρ) (loop : Loop ρ) (ready : Ready) : Prop :=
  loop.status = .serving → ∀ key ∈ beforeSentinel (select loop.service ready),
    ShutdownHolds cfg loop.service key

instance (cfg : Setup ρ) (loop : Loop ρ) (ready : Ready) : Decidable (RoundHolds cfg loop ready) :=
  inferInstanceAs (Decidable (_ → _))

/-- `stop` writes the sentinel to the shutdown socket, and nothing else does. -/
def OnlySentinel (ready : Ready) : Prop :=
  ∀ received, .rshutdown received ∈ ready.keys → received = closeSentinel

/-- The close sentinel is received. -/
def closes (ready : Ready) : Bool := ready.keys.any isSentinel

/-- What is read from connection `c` in a run, from the round after its acceptance
on and up to the sentinel; `n` connections are accepted before the run. -/
def inputs (c : ℕ) : ℕ → List Ready → List (Except OSError Bytes)
  | _, [] => []
  | n, ready :: batches =>
    (if c < n then (recvOf c (beforeSentinel ready.keys)).toList else []) ++
      if closes ready then []
      else inputs c (n + accepts (beforeSentinel ready.keys)) batches

section Round

variable {loop : Loop ρ} {ready : Ready}

theorem select_roundKeys (s : Service ρ) (hready : OnlySentinel ready) :
    RoundKeys s (select s ready) := by
  constructor
  · exact ready.distinct.sublist (List.filter_sublist.map _)
  · intro key hkey
    obtain ⟨hin, hfilter⟩ := List.mem_filter.mp hkey
    cases key with
    | rshutdown received => exact hready received hin
    | root => trivial
    | socket c io => exact hfilter

theorem roundKeys_beforeSentinel {s : Service ρ} {keys : List Key} (h : RoundKeys s keys) :
    RoundKeys s (beforeSentinel keys) := by
  have hsub : (beforeSentinel keys).Sublist keys := List.takeWhile_sublist _
  exact ⟨h.distinct.sublist (hsub.map _), fun key hkey => h.selected key (hsub.subset hkey)⟩

theorem round_holds (hnum : Numbered loop.service) (hready : OnlySentinel ready)
    (hserving : loop.status = .serving) (hholds : RoundHolds cfg loop ready) :
    (backgroundRound cfg loop ready).1 =
      ⟨(beforeSentinel (select loop.service ready)).foldl (keyAfter cfg) loop.service,
        if (select loop.service ready).any isSentinel then .returned else .serving⟩ := by
  have hkeys := handleKeys_holds hnum (select_roundKeys loop.service hready) (hholds hserving)
  unfold backgroundRound
  rw [hserving]
  dsimp only
  rw [hkeys]
  cases (select loop.service ready).any isSentinel <;> rfl

theorem round_fails (hnum : Numbered loop.service) (hready : OnlySentinel ready)
    (hnot : ¬ RoundHolds cfg loop ready) :
    ∃ err, (backgroundRound cfg loop ready).1.status = .crashed err := by
  obtain ⟨hserving, hfails⟩ := Classical.not_imp.mp hnot
  have hfails : ∃ key ∈ beforeSentinel (select loop.service ready),
      ¬ ShutdownHolds cfg loop.service key := by
    simpa using hfails
  obtain ⟨err, t, herr⟩ := handleKeys_fails hnum (select_roundKeys loop.service hready) hfails
  refine ⟨err, ?_⟩
  unfold backgroundRound
  rw [hserving]
  dsimp only
  rw [herr]

theorem round_numbered (hnum : Numbered loop.service) (hready : OnlySentinel ready)
    (hholds : RoundHolds cfg loop ready) : Numbered (backgroundRound cfg loop ready).1.service := by
  by_cases hserving : loop.status = .serving
  · rw [round_holds hnum hready hserving hholds]
    exact foldl_numbered hnum
      (roundKeys_beforeSentinel (select_roundKeys loop.service hready))
  · unfold backgroundRound
    split
    · exact absurd ‹loop.status = .serving› hserving
    · exact hnum

/-- A thread that ended does nothing more. -/
theorem exec_ended (cfg : Setup ρ) (batches : List Ready) (h : loop.status ≠ .serving) :
    exec (backgroundRound cfg) loop batches = loop := by
  induction batches with
  | nil => rfl
  | cons ready batches ih =>
    have hround : (backgroundRound cfg loop ready).1 = loop := by
      unfold backgroundRound
      split
      · exact absurd ‹loop.status = .serving› h
      · rfl
    rw [exec_cons, hround, ih]

end Round

section Select

variable (s : Service ρ) (keys : List Key)

@[simp] theorem reported_root : Reported s .root = true := rfl

@[simp] theorem reported_rshutdown (received : Bytes) :
    Reported s (.rshutdown received) = true := rfl

@[simp] theorem reported_socket (c : ℕ) (io : SocketIO) :
    Reported s (.socket c io) = s.registered c := rfl

theorem accepts_reported : accepts (keys.filter (Reported s)) = accepts keys := by
  unfold accepts
  rw [List.countP_filter]
  apply List.countP_congr
  intro key _
  cases key <;> simp

/-- What is read from a registered connection passes the selector. -/
theorem recvOf_reported {c : ℕ} (hreg : s.registered c = true) :
    recvOf c (keys.filter (Reported s)) = recvOf c keys := by
  unfold recvOf
  induction keys with
  | nil => rfl
  | cons key keys ih =>
    cases key with
    | rshutdown received => simpa [List.filter_cons] using ih
    | root => simpa [List.filter_cons] using ih
    | socket c' io =>
      by_cases hc : c' = c
      · simp [hc, hreg]
      · by_cases hreg' : s.registered c' = true
        · simpa [List.filter_cons, hc, hreg'] using ih
        · simpa [List.filter_cons, hc, hreg'] using ih

theorem after_reported (c : ℕ) :
    (connOf s c).after cfg c s.accepted (keys.filter (Reported s)) =
      (connOf s c).after cfg c s.accepted keys := by
  unfold Conn.after
  rw [accepts_reported]
  cases hreg : s.registered c with
  | true => rw [recvOf_reported s keys hreg]
  | false =>
    have hunreg : (connOf s c).registered = false := hreg
    rw [foldl_read_unregistered hunreg, foldl_read_unregistered hunreg]

theorem beforeSentinel_reported :
    beforeSentinel (keys.filter (Reported s)) = (beforeSentinel keys).filter (Reported s) := by
  unfold beforeSentinel
  induction keys with
  | nil => rfl
  | cons key keys ih =>
    cases key with
    | rshutdown received => rfl
    | root => simpa [List.filter_cons, isSentinel] using ih
    | socket c io =>
      cases hreg : s.registered c <;> simpa [List.filter_cons, isSentinel, hreg] using ih

theorem any_reported : (keys.filter (Reported s)).any isSentinel = keys.any isSentinel := by
  rw [List.any_filter]
  congr 1
  funext key
  cases key <;> simp [isSentinel]

end Select

/-- A round in which no shutdown fails. -/
theorem round_conn {loop : Loop ρ} {ready : Ready} (hnum : Numbered loop.service)
    (hready : OnlySentinel ready) (hserving : loop.status = .serving)
    (hholds : RoundHolds cfg loop ready) (c : ℕ) :
    let next := (backgroundRound cfg loop ready).1
    next.status = (if closes ready then .returned else .serving) ∧
      next.service.accepted = loop.service.accepted + accepts (beforeSentinel ready.keys) ∧
      connOf next.service c =
        (connOf loop.service c).after cfg c loop.service.accepted (beforeSentinel ready.keys) := by
  intro next
  have hround := round_holds hnum hready hserving hholds
  have hkeys := roundKeys_beforeSentinel (select_roundKeys loop.service hready)
  rw [select, any_reported, beforeSentinel_reported] at hround
  rw [select, beforeSentinel_reported] at hkeys
  refine ⟨?_, ?_, ?_⟩
  · simp only [next, hround]
    rfl
  · simp only [next, hround]
    rw [foldl_accepted, accepts_reported]
  · simp only [next, hround]
    rw [foldl_conn hnum hkeys, after_reported]

/-- A run in which no shutdown fails goes on until the sentinel is received, and what
it does to a connection depends on the input of that connection only. -/
theorem exec_holds {loop final : Loop ρ} {batches : List Ready} (hnum : Numbered loop.service)
    (hserving : loop.status = .serving) (honly : ∀ ready ∈ batches, OnlySentinel ready)
    (hholds : Along (backgroundRound cfg) (RoundHolds cfg) loop batches)
    (hexec : exec (backgroundRound cfg) loop batches = final) (c : ℕ) :
    final.status = (if batches.any closes then .returned else .serving) ∧
      loop.service.accepted ≤ final.service.accepted ∧
      connOf final.service c =
      if c < loop.service.accepted then
        (inputs c loop.service.accepted batches).foldl (Conn.read cfg) (connOf loop.service c)
      else if c < final.service.accepted then
        (inputs c loop.service.accepted batches).foldl (Conn.read cfg) .fresh
      else connOf loop.service c := by
  induction batches generalizing loop with
  | nil =>
    subst hexec
    refine ⟨hserving, le_refl _, ?_⟩
    by_cases hc : c < loop.service.accepted
    · simp [inputs, hc]
    · simp [hc]
  | cons ready batches ih =>
    have hready := honly ready (List.mem_cons_self ..)
    obtain ⟨hstatus, haccepted, hconn⟩ := round_conn hnum hready hserving hholds.1 c
    rw [exec_cons] at hexec
    rw [inputs, List.any_cons]
    cases hcloses : closes ready with
    | true =>
      rw [hcloses, if_pos rfl] at hstatus
      rw [exec_ended cfg batches (by simp [hstatus])] at hexec
      subst hexec
      rw [haccepted, hconn]
      refine ⟨hstatus, Nat.le_add_right _ _, ?_⟩
      unfold Conn.after
      by_cases hlt : c < loop.service.accepted
      · simp [hlt]
      · simp [hlt]
    | false =>
      rw [hcloses, if_neg (by simp)] at hstatus
      obtain ⟨hfinal, hmono, hafter⟩ := ih (round_numbered hnum hready hholds.1) hstatus
        (fun ready' hready' => honly ready' (List.mem_cons_of_mem ready hready')) hholds.2 hexec
      rw [haccepted] at hmono
      refine ⟨hfinal, Nat.le_of_add_right_le hmono, ?_⟩
      rw [hafter, hconn, haccepted, List.foldl_append]
      unfold Conn.after
      by_cases hlt : c < loop.service.accepted
      · rw [if_pos hlt, if_pos hlt, if_pos (by omega), if_pos hlt]
        rfl
      · rw [if_neg hlt, if_neg hlt, if_neg hlt]
        by_cases hnew : c < loop.service.accepted + accepts (beforeSentinel ready.keys)
        · rw [if_pos hnew, if_pos hnew, if_pos (by omega)]
          rfl
        · rw [if_neg hnew, if_neg hnew]
          rfl

theorem started_numbered : Numbered (started : Loop ρ).service :=
  ⟨fun _ h => Bool.noConfusion h, fun _ h => by cases h⟩

/-- The run of a service from its start. -/
theorem exec_started {final : Loop ρ} {batches : List Ready}
    (honly : ∀ ready ∈ batches, OnlySentinel ready)
    (hholds : Along (backgroundRound cfg) (RoundHolds cfg) started batches)
    (hexec : exec (backgroundRound cfg) started batches = final) :
    final.status = (if batches.any closes then .returned else .serving) ∧
      ∀ c, c < final.service.accepted →
      connOf final.service c = (inputs c 0 batches).foldl (Conn.read cfg) .fresh := by
  have hrun := exec_holds started_numbered rfl honly hholds hexec
  have hzero : (started : Loop ρ).service.accepted = 0 := rfl
  refine ⟨(hrun 0).1, ?_⟩
  intro c hc
  have hconn := (hrun c).2.2
  rw [hzero, if_neg (Nat.not_lt_zero c), if_pos hc] at hconn
  exact hconn

end Yellowbox.LogstashRuns
