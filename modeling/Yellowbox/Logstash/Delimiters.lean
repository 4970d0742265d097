import Mathlib.Algebra.BigOperators.Group.List.Basic
import Mathlib.Data.List.Nodup
import Yellowbox.Base.SplitCounts
import Yellowbox.Logstash.Runs
import Yellowbox.Logstash.Survival

/-!
Delimiters of any length. A chunk is split by itself, so a delimiter is found as long as
it does not straddle the end of a chunk; every delimiter of two bytes or more can be cut
so that it is missed.
-/
namespace Yellowbox.LogstashDelimiters

open Effects StepRuns StreamSplit SplitCounts
open LogstashService LogstashConnection LogstashRounds LogstashRuns LogstashSurvival

variable {ρ : Type} {cfg : Setup ρ}

/-- The state of a connection that stands after the stream `xs`. -/
structure Stands (cfg : Setup ρ) (xs : Bytes) (conn : Conn ρ) : Prop where
  registered : conn.registered = true
  buffer : conn.partialChunks.flatten = remainder cfg.delimiter xs
  records : conn.records = parsed cfg.parse (completeLines cfg.delimiter xs)
  parses : Parses cfg.parse (completeLines cfg.delimiter xs)

/-- The connection was dropped at a line of `xs` that does not parse. -/
structure Dropped (cfg : Setup ρ) (xs : Bytes) (conn : Conn ρ) : Prop where
  registered : conn.registered = false
  records : conn.records = parsed cfg.parse (completeLines cfg.delimiter xs)
  fails : ¬ Parses cfg.parse (completeLines cfg.delimiter xs)

theorem stands_fresh (cfg : Setup ρ) : Stands cfg [] (.fresh : Conn ρ) := by
  have hsplit : splitAt cfg.delimiter [] = [] ++ [[]] := rfl
  obtain ⟨hlines, hremainder⟩ := eq_of_splitAt hsplit
  refine ⟨rfl, ?_, ?_, ?_⟩
  · rw [hremainder]
    rfl
  · rw [hlines]
    rfl
  · rw [hlines]
    intro line hline
    cases hline

variable {xs data : Bytes} {conn : Conn ρ}

theorem read_ok (hdelimiter : cfg.delimiter ≠ []) (hregistered : conn.registered = true)
    (hdata : data ≠ []) : conn.read cfg (.ok data) =
      let rd := readPieces cfg conn.partialChunks (splitAt cfg.delimiter data)
      ⟨rd.ending.isNone, rd.partialChunks, conn.records ++ rd.records⟩ := by
  rw [Conn.read, if_pos hregistered, LogstashConnection.read, if_neg hdata, if_neg hdelimiter]

/-- A chunk that is read moves the connection past it, or drops it. -/
theorem read_data (hdelimiter : cfg.delimiter ≠ []) (h : Stands cfg xs conn) (hdata : data ≠ [])
    (hstraddles : ¬ Straddles cfg.delimiter xs data) :
    Stands cfg (xs ++ data) (conn.read cfg (.ok data)) ∨
      Dropped cfg (xs ++ data) (conn.read cfg (.ok data)) := by
  rw [read_ok hdelimiter h.registered hdata]
  cases hpieces : splitAt cfg.delimiter data with
  | nil => exact absurd hpieces (splitAt_ne_nil _ data)
  | cons first others =>
    cases others with
    | nil =>
      obtain ⟨hlines, hrest⟩ := completeLines_append_single hstraddles hpieces
      refine Or.inl ⟨rfl, ?_, ?_, ?_⟩
      · simp [readPieces, h.buffer, hrest]
      · simp [readPieces, h.records, hlines]
      · rw [hlines]
        exact h.parses
    | cons second others =>
      obtain ⟨hlines, hrest⟩ :=
        completeLines_append_cons hstraddles hpieces (List.cons_ne_nil _ _)
      have hfirst : (conn.partialChunks ++ [first]).flatten =
          remainder cfg.delimiter xs ++ first := by
        simp [h.buffer]
      simp only [readPieces, hfirst]
      generalize (remainder cfg.delimiter xs ++ first) :: (second :: others).dropLast = ls at hlines
      have hrecords : conn.records ++ parsed cfg.parse ls =
          parsed cfg.parse (completeLines cfg.delimiter (xs ++ data)) := by
        rw [hlines, parsed_append cfg.parse ls h.parses, h.records]
      by_cases hall : Parses cfg.parse ls
      · refine Or.inl ⟨by simp [hall], by simp [hrest], hrecords, ?_⟩
        rw [hlines]
        exact (parses_append cfg.parse _ _).mpr ⟨h.parses, hall⟩
      · refine Or.inr ⟨by simp [hall], hrecords, ?_⟩
        rw [hlines, parses_append]
        exact fun hboth => hall hboth.2

/-- Chunks that no delimiter straddles, while the lines parse. -/
theorem records_of_noneStraddles (hdelimiter : cfg.delimiter ≠ []) {chunks : List Bytes}
    (h : Stands cfg xs conn) (hchunks : ∀ chunk ∈ chunks, chunk ≠ [])
    (hstraddles : ∀ before after, chunks = before ++ after →
      ¬ Straddles cfg.delimiter (xs ++ before.flatten) after.flatten)
    (hparses : Parses cfg.parse (completeLines cfg.delimiter (xs ++ chunks.flatten))) :
    ((chunks.map .ok).foldl (Conn.read cfg) conn).records =
      parsed cfg.parse (completeLines cfg.delimiter (xs ++ chunks.flatten)) := by
  induction chunks generalizing xs conn with
  | nil =>
    rw [List.flatten_nil, List.append_nil]
    exact h.records
  | cons data chunks ih =>
    have hnow : ¬ Straddles cfg.delimiter xs data := by
      intro hnow
      apply hstraddles [] (data :: chunks) rfl
      rw [List.flatten_nil, List.append_nil, List.flatten_cons]
      exact hnow.mono (List.prefix_append data chunks.flatten)
    have hlater : ∀ before after, chunks = before ++ after →
        ¬ Straddles cfg.delimiter (xs ++ data ++ before.flatten) after.flatten := by
      intro before after heq
      rw [List.append_assoc, ← List.flatten_cons]
      exact hstraddles (data :: before) after (by rw [heq, List.cons_append])
    rw [List.flatten_cons, ← List.append_assoc] at hparses ⊢
    rw [List.map_cons, List.foldl_cons]
    have hdata := hchunks data List.mem_cons_self
    rcases read_data hdelimiter h hdata hnow with hstands | hdropped
    · exact ih hstands (fun chunk hchunk => hchunks chunk (List.mem_cons_of_mem _ hchunk)) hlater
        hparses
    · have hend := hlater [] chunks rfl
      rw [List.flatten_nil, List.append_nil] at hend
      obtain ⟨ls, hls⟩ := completeLines_prefix_append hend
      rw [← hls, parses_append] at hparses
      exact absurd hparses.1 hdropped.fails

/-- A chunk adds at most one record for each delimiter found in it. -/
theorem length_records_read_le (hdelimiter : cfg.delimiter ≠ []) (data : Bytes) :
    (conn.read cfg (.ok data)).records.length ≤ conn.records.length + count cfg.delimiter data := by
  by_cases hregistered : conn.registered = true
  · by_cases hdata : data = []
    · simp [Conn.read, LogstashConnection.read, hregistered, hdata]
    · rw [read_ok hdelimiter hregistered hdata]
      simp only [List.length_append]
      apply Nat.add_le_add_left
      have hcount := length_splitAt cfg.delimiter data
      rcases hpieces : splitAt cfg.delimiter data with _ | ⟨first, _ | ⟨second, others⟩⟩
      · exact Nat.zero_le _
      · exact Nat.zero_le _
      · rw [hpieces] at hcount
        refine (length_parsed_le cfg.parse _).trans ?_
        simp only [List.length_cons, List.length_dropLast] at hcount ⊢
        omega
  · rw [Conn.read, if_neg hregistered]
    exact Nat.le_add_right _ _

theorem length_foldl_read_le (hdelimiter : cfg.delimiter ≠ []) (chunks : List Bytes) :
    ((chunks.map .ok).foldl (Conn.read cfg) conn).records.length ≤
      conn.records.length + (chunks.map (count cfg.delimiter)).sum := by
  induction chunks generalizing conn with
  | nil => exact Nat.le_refl _
  | cons data chunks ih =>
    have hread : (conn.read cfg (.ok data)).records.length ≤
        conn.records.length + count cfg.delimiter data := length_records_read_le hdelimiter data
    have hrest :
        ((chunks.map .ok).foldl (Conn.read cfg) (conn.read cfg (.ok data))).records.length ≤
        (conn.read cfg (.ok data)).records.length + (chunks.map (count cfg.delimiter)).sum := ih
    rw [List.map_cons, List.foldl_cons, List.map_cons, List.sum_cons]
    omega

/-- A run of the service, while no clean-up fails in it, in which a connection receives the
stream `xs` in non-empty chunks. -/
structure Delivery (cfg : Setup ρ) (xs : Bytes) where
  batches : List Ready
  connection : ℕ
  chunks : List Bytes
  onlySentinel : ∀ ready ∈ batches, OnlySentinel ready
  holds : Along (backgroundRound cfg) (RoundHolds cfg) started batches
  accepted : connection < (exec (backgroundRound cfg) started batches).service.accepted
  received : inputs connection 0 batches = chunks.map .ok
  chunks_ne : ∀ chunk ∈ chunks, chunk ≠ []
  stream : chunks.flatten = xs

def Delivery.records (delivery : Delivery cfg xs) : List ρ :=
  recordsOf (exec (backgroundRound cfg) started delivery.batches).service delivery.connection

/-- The parses of the lines of the whole stream. -/
def RecordsLines (delivery : Delivery cfg xs) : Prop :=
  delivery.records = parsed cfg.parse (completeLines cfg.delimiter xs)

def FragmentationIndependent (cfg : Setup ρ) (xs : Bytes) : Prop :=
  ∀ delivery delivery' : Delivery cfg xs,
    delivery.records = delivery'.records ∧ RecordsLines delivery

theorem Delivery.records_eq (delivery : Delivery cfg xs) :
    delivery.records = ((delivery.chunks.map .ok).foldl (Conn.read cfg) .fresh).records := by
  have hconn := (exec_started delivery.onlySentinel delivery.holds rfl).2 _ delivery.accepted
  rw [delivery.received] at hconn
  exact congrArg Conn.records hconn

theorem Delivery.length_records_le (hdelimiter : cfg.delimiter ≠ [])
    (delivery : Delivery cfg xs) :
    delivery.records.length ≤ (delivery.chunks.map (count cfg.delimiter)).sum := by
  have hbound : ((delivery.chunks.map .ok).foldl (Conn.read cfg) .fresh).records.length ≤
      0 + (delivery.chunks.map (count cfg.delimiter)).sum :=
    length_foldl_read_le hdelimiter delivery.chunks
  rw [delivery.records_eq]
  rwa [Nat.zero_add] at hbound

theorem recordsLines_of_noneStraddles (hdelimiter : cfg.delimiter ≠ [])
    (hparses : Parses cfg.parse (completeLines cfg.delimiter xs)) {delivery : Delivery cfg xs}
    (h : NoneStraddles cfg.delimiter delivery.chunks) : RecordsLines delivery := by
  have hstraddles : ∀ before after, delivery.chunks = before ++ after →
      ¬ Straddles cfg.delimiter ([] ++ before.flatten) after.flatten := h
  have hrecords := records_of_noneStraddles hdelimiter (stands_fresh cfg) delivery.chunks_ne
    hstraddles
  rw [List.nil_append, delivery.stream] at hrecords
  exact delivery.records_eq.trans (hrecords hparses)

/-- Each line that is missed is missing from the records. -/
theorem noneStraddles_of_recordsLines (hdelimiter : cfg.delimiter ≠ [])
    (hparses : Parses cfg.parse (completeLines cfg.delimiter xs))
    (hunbordered : Unbordered cfg.delimiter) {delivery : Delivery cfg xs}
    (h : RecordsLines delivery) : NoneStraddles cfg.delimiter delivery.chunks := by
  by_contra hstraddles
  have hmissed := sum_count_lt hunbordered hstraddles
  have hbound := delivery.length_records_le hdelimiter
  have hlength : delivery.records.length = count cfg.delimiter xs := by
    rw [h, length_parsed cfg.parse hparses]
    rfl
  rw [delivery.stream] at hmissed
  omega

section Chunks

/-- One connection that is accepted and read chunk by chunk. -/
def rounds (chunks : List Bytes) : List Ready :=
  ⟨[.root], List.nodup_singleton _⟩ ::
    chunks.map fun chunk => ⟨[.socket 0 ⟨.ok chunk, .ok ()⟩], List.nodup_singleton _⟩

theorem mem_rounds {chunks : List Bytes} {ready : Ready} (h : ready ∈ rounds chunks) {key : Key}
    (hkey : key ∈ ready.keys) : key = .root ∨ ∃ chunk, key = .socket 0 ⟨.ok chunk, .ok ()⟩ := by
  rcases List.mem_cons.mp h with rfl | h
  · exact .inl (List.mem_singleton.mp hkey)
  · obtain ⟨chunk, -, rfl⟩ := List.mem_map.mp h
    exact .inr ⟨chunk, List.mem_singleton.mp hkey⟩

theorem inputs_rounds (chunks : List Bytes) : inputs 0 0 (rounds chunks) = chunks.map .ok := by
  have hsockets : inputs 0 1 (chunks.map fun chunk =>
      (⟨[.socket 0 ⟨.ok chunk, .ok ()⟩], List.nodup_singleton _⟩ : Ready)) = chunks.map .ok := by
    induction chunks with
    | nil => rfl
    | cons chunk chunks ih =>
      rw [List.map_cons, inputs, List.map_cons]
      exact congrArg (.ok chunk :: ·) ih
  exact hsockets

theorem onlySentinel_rounds (chunks : List Bytes) :
    ∀ ready ∈ rounds chunks, OnlySentinel ready := by
  intro ready hready received hin
  rcases mem_rounds hready hin with heq | ⟨chunk, heq⟩
  · cases heq
  · cases heq

theorem holds_rounds (cfg : Setup ρ) (chunks : List Bytes) :
    Along (backgroundRound cfg) (RoundHolds cfg) started (rounds chunks) := by
  apply along_of_forall (backgroundRound cfg) started
  intro ready hready loop _ key hkey
  have hin : key ∈ ready.keys := (List.mem_filter.mp ((List.takeWhile_sublist _).subset hkey)).1
  rcases mem_rounds hready hin with rfl | ⟨chunk, rfl⟩
  · trivial
  · exact fun _ => rfl

theorem accepted_rounds (cfg : Setup ρ) (chunks : List Bytes) :
    0 < (exec (backgroundRound cfg) started (rounds chunks)).service.accepted := by
  have honly := onlySentinel_rounds chunks
  have hholds := holds_rounds cfg chunks
  have hroot := honly _ List.mem_cons_self
  obtain ⟨hstatus, haccepted, -⟩ := round_conn started_numbered hroot rfl hholds.1 0
  have hrun := exec_holds (round_numbered started_numbered hroot hholds.1) hstatus
    (fun ready hready => honly ready (List.mem_cons_of_mem _ hready)) hholds.2 rfl 0
  exact Nat.lt_of_lt_of_le (by rw [haccepted]; exact Nat.one_pos) hrun.2.1

/-- Every split of a stream is delivered in some run. -/
def deliver (cfg : Setup ρ) (chunks : List Bytes) (hchunks : ∀ chunk ∈ chunks, chunk ≠ [])
    (hstream : chunks.flatten = xs) : Delivery cfg xs where
  batches := rounds chunks
  connection := 0
  chunks := chunks
  onlySentinel := onlySentinel_rounds chunks
  holds := holds_rounds cfg chunks
  accepted := accepted_rounds cfg chunks
  received := inputs_rounds chunks
  chunks_ne := hchunks
  stream := hstream

/-- One byte at a time. -/
def deliverBytes (cfg : Setup ρ) (xs : Bytes) : Delivery cfg xs :=
  deliver cfg (xs.map fun b => [b])
    (by
      intro chunk hchunk
      obtain ⟨b, -, rfl⟩ := List.mem_map.mp hchunk
      exact List.cons_ne_nil b [])
    (List.flatMap_singleton' xs)

/-- No chunk of one byte holds a delimiter of two bytes or more. -/
theorem records_deliverBytes (hdelimiter : 2 ≤ cfg.delimiter.length) :
    (deliverBytes cfg xs).records = [] := by
  have hne : cfg.delimiter ≠ [] := List.ne_nil_of_length_pos (by omega)
  have hnone : ((xs.map fun b => [b]).map (count cfg.delimiter)).sum = 0 := by
    apply List.sum_eq_zero
    intro n hn
    rw [List.map_map] at hn
    obtain ⟨b, -, rfl⟩ := List.mem_map.mp hn
    exact count_of_shorter (Nat.lt_of_lt_of_le Nat.one_lt_two hdelimiter)
  have hbound : (deliverBytes cfg xs).records.length ≤
      ((xs.map fun b => [b]).map (count cfg.delimiter)).sum :=
    (deliverBytes cfg xs).length_records_le hne
  rw [hnone] at hbound
  exact List.eq_nil_of_length_eq_zero (Nat.le_zero.mp hbound)

end Chunks

/-- For a delimiter of two bytes or more and a stream whose lines parse: however the stream
is split, the records are those of its lines, exactly when no delimiter occurs in it. One
split in which no delimiter straddles the end of a chunk is recorded right, and no other,
unless the delimiter overlaps itself. -/
theorem fragmentation_independent_iff (cfg : Setup ρ) (xs : Bytes)
    (hdelimiter : 2 ≤ cfg.delimiter.length)
    (hparses : Parses cfg.parse (completeLines cfg.delimiter xs)) :
    (FragmentationIndependent cfg xs ↔ ¬ cfg.delimiter <:+: xs) ∧
      ∀ delivery : Delivery cfg xs,
        (NoneStraddles cfg.delimiter delivery.chunks → RecordsLines delivery) ∧
          (Unbordered cfg.delimiter → RecordsLines delivery →
            NoneStraddles cfg.delimiter delivery.chunks) := by
  have hne : cfg.delimiter ≠ [] := List.ne_nil_of_length_pos (by omega)
  refine ⟨?_, fun delivery => ⟨recordsLines_of_noneStraddles hne hparses,
    fun hunbordered => noneStraddles_of_recordsLines hne hparses hunbordered⟩⟩
  constructor
  · intro h
    have hbytewise := (h (deliverBytes cfg xs) (deliverBytes cfg xs)).2
    rw [RecordsLines, records_deliverBytes hdelimiter] at hbytewise
    have hlength := length_parsed cfg.parse hparses
    rw [← hbytewise] at hlength
    exact (count_eq_zero_iff hne).mp hlength.symm
  · intro hnot delivery delivery'
    have hlines : ∀ delivery : Delivery cfg xs, RecordsLines delivery := by
      intro delivery
      apply recordsLines_of_noneStraddles hne hparses
      intro before after heq hstraddles
      apply hnot
      rw [← delivery.stream, heq, List.flatten_append]
      exact hstraddles.infix
    exact ⟨(hlines delivery).trans (hlines delivery').symm, hlines delivery⟩

/-- The stream `1\r\n2` and the delimiter `\r\n`. -/
theorem fragmentation_independent_iff_crlf :
    let cfg : Setup ℕ := ⟨[13, 10], parseDigit⟩
    ¬ FragmentationIndependent cfg [49, 13, 10, 50] ∧
      ∀ delivery : Delivery cfg [49, 13, 10, 50],
        delivery.chunks = [[49, 13, 10, 50]] → RecordsLines delivery := by
  intro cfg
  obtain ⟨hindependent, hsplits⟩ :=
    fragmentation_independent_iff cfg [49, 13, 10, 50] (by decide) (by decide)
  refine ⟨fun h => hindependent.mp h ⟨[49], [50], rfl⟩, fun delivery hchunks => ?_⟩
  apply (hsplits delivery).1
  rw [hchunks]
  exact noneStraddles_singleton _ _

/-- One record when the line arrives whole, and none when it is cut inside its delimiter. -/
theorem cut_delimiter_missed :
    let cfg : Setup ℕ := ⟨[13, 10], parseDigit⟩
    2 ≤ cfg.delimiter.length ∧ Parses cfg.parse (completeLines cfg.delimiter [49, 13, 10]) ∧
      (deliver cfg [[49, 13, 10]] (by decide) rfl : Delivery cfg [49, 13, 10]).records = [1] ∧
      (deliver cfg [[49, 13], [10]] (by decide) rfl : Delivery cfg [49, 13, 10]).records = [] ∧
      ¬ FragmentationIndependent cfg [49, 13, 10] := by
  intro cfg
  have hwhole : (deliver cfg [[49, 13, 10]] (by decide) rfl : Delivery cfg [49, 13, 10]).records =
      [1] := by decide
  have hcut : (deliver cfg [[49, 13], [10]] (by decide) rfl : Delivery cfg [49, 13, 10]).records =
      [] := by decide
  refine ⟨by decide, by decide, hwhole, hcut, fun h => ?_⟩
  have hsame := (h (deliver cfg [[49, 13, 10]] (by decide) rfl)
    (deliver cfg [[49, 13], [10]] (by decide) rfl)).1
  rw [hwhole, hcut] at hsame
  cases hsame

end Yellowbox.LogstashDelimiters
