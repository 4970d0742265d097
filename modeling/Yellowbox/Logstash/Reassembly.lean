import Yellowbox.Logstash.Delimiters

/-!
Reassembly of the lines of a connection. The buffer of the callback is what
follows the last delimiter of the stream so far, so the records are those of the
complete lines of the stream, however it was split into chunks.
-/
namespace Yellowbox.LogstashReassembly

open Effects StepRuns StreamSplit
open LogstashService LogstashConnection LogstashRounds LogstashRuns LogstashSurvival
open LogstashDelimiters

variable {ρ : Type} {cfg : Setup ρ}

/-- The bytes of a connection up to its close. -/
def streamOf : List (Except OSError Bytes) → Bytes
  | [] => []
  | .ok (b :: bs) :: recvs => (b :: bs) ++ streamOf recvs
  | .ok [] :: _ | .error _ :: _ => []

/-- The state of a connection that stands after the stream `xs`. -/
structure StandsAfter (cfg : Setup ρ) (d : UInt8) (xs : Bytes) (conn : Conn ρ) : Prop where
  registered : conn.registered = true
  buffer : conn.partialChunks.flatten = rest d xs
  records : conn.records = parsed cfg.parse (lines d xs)
  parses : Parses cfg.parse (lines d xs)

/-- The connection was dropped at a line of `xs` that does not parse. -/
structure DroppedIn (cfg : Setup ρ) (d : UInt8) (xs : Bytes) (conn : Conn ρ) : Prop where
  registered : conn.registered = false
  records : conn.records = parsed cfg.parse (lines d xs)
  fails : ¬ Parses cfg.parse (lines d xs)

variable {d : UInt8} {xs : Bytes} {conn : Conn ρ}

theorem standsAfter_iff (hdelimiter : cfg.delimiter = [d]) :
    StandsAfter cfg d xs conn ↔ Stands cfg xs conn := by
  constructor
  · intro h
    refine ⟨h.registered, ?_, ?_, ?_⟩
    · rw [hdelimiter, remainder_singleton, h.buffer]
    · rw [hdelimiter, completeLines_singleton, h.records]
    · rw [hdelimiter, completeLines_singleton]
      exact h.parses
  · rintro ⟨hregistered, hbuffer, hrecords, hparses⟩
    rw [hdelimiter, remainder_singleton] at hbuffer
    rw [hdelimiter, completeLines_singleton] at hrecords hparses
    exact ⟨hregistered, hbuffer, hrecords, hparses⟩

theorem droppedIn_of_dropped (hdelimiter : cfg.delimiter = [d]) (h : Dropped cfg xs conn) :
    DroppedIn cfg d xs conn := by
  obtain ⟨hregistered, hrecords, hfails⟩ := h
  rw [hdelimiter, completeLines_singleton] at hrecords hfails
  exact ⟨hregistered, hrecords, hfails⟩

/-- A chunk that is read moves the connection past it, or drops it. -/
theorem read_chunk (hdelimiter : cfg.delimiter = [d]) (h : StandsAfter cfg d xs conn)
    {data : Bytes} (hdata : data ≠ []) :
    StandsAfter cfg d (xs ++ data) (conn.read cfg (.ok data)) ∨
      DroppedIn cfg d (xs ++ data) (conn.read cfg (.ok data)) := by
  have hne : cfg.delimiter ≠ [] := by simp [hdelimiter]
  have hstraddles : ¬ Straddles cfg.delimiter xs data := by
    rw [hdelimiter]
    exact not_straddles_singleton d xs data
  rcases read_data hne ((standsAfter_iff hdelimiter).mp h) hdata hstraddles with hstands | hdropped
  · exact .inl ((standsAfter_iff hdelimiter).mpr hstands)
  · exact .inr (droppedIn_of_dropped hdelimiter hdropped)

/-- What is sent after the line at which a connection was dropped changes nothing. -/
theorem droppedIn_append (h : DroppedIn cfg d xs conn) (ys : Bytes) :
    DroppedIn cfg d (xs ++ ys) conn := by
  obtain ⟨ls, hls⟩ := lines_prefix_append d xs ys
  refine ⟨h.registered, ?_, ?_⟩
  · rw [← hls, parsed_append_of_not cfg.parse ls h.fails, h.records]
  · rw [← hls, parses_append]
    exact fun hboth => h.fails hboth.1

/-- A connection read to the end of a list of chunks, that perhaps ends by a close. -/
theorem reads_stream (hdelimiter : cfg.delimiter = [d]) (recvs : List (Except OSError Bytes))
    (hrecvs : ∀ recv ∈ recvs, ∃ data, recv = .ok data) (h : StandsAfter cfg d xs conn) :
    (recvs.foldl (Conn.read cfg) conn).records =
        parsed cfg.parse (lines d (xs ++ streamOf recvs)) ∧
      ((recvs.foldl (Conn.read cfg) conn).registered = false ↔
        ¬ Parses cfg.parse (lines d (xs ++ streamOf recvs)) ∨ .ok [] ∈ recvs) := by
  induction recvs generalizing xs conn with
  | nil =>
    rw [List.foldl_nil, streamOf, List.append_nil]
    refine ⟨h.records, ?_⟩
    simp [h.registered, h.parses]
  | cons recv recvs ih =>
    obtain ⟨data, rfl⟩ := hrecvs recv (List.mem_cons_self ..)
    have hrest := fun recv hrecv => hrecvs recv (List.mem_cons_of_mem _ hrecv)
    rw [List.foldl_cons]
    cases data with
    | nil =>
      have hclosed : (conn.read cfg (.ok [])).registered = false ∧
          (conn.read cfg (.ok [])).records = conn.records := by
        simp [Conn.read, h.registered, LogstashConnection.read]
      rw [foldl_read_unregistered hclosed.1, streamOf, List.append_nil]
      refine ⟨hclosed.2.trans h.records, ?_⟩
      simp [hclosed.1]
    | cons b bs =>
      have hstream : xs ++ streamOf (.ok (b :: bs) :: recvs) =
          (xs ++ (b :: bs)) ++ streamOf recvs := by
        rw [streamOf, List.append_assoc]
      have hmem : .ok [] ∈ Except.ok (b :: bs) :: recvs ↔
          (.ok [] : Except OSError Bytes) ∈ recvs := by simp
      rw [hstream, hmem]
      rcases read_chunk hdelimiter h (List.cons_ne_nil b bs) with hstands | hdropped
      · exact ih hrest hstands
      · have hend := droppedIn_append hdropped (streamOf recvs)
        rw [foldl_read_unregistered hdropped.registered]
        exact ⟨hend.records, iff_of_true hend.registered (Or.inl hend.fails)⟩

theorem mem_inputs {c n : ℕ} {batches : List Ready} {recv : Except OSError Bytes}
    (h : recv ∈ inputs c n batches) :
    ∃ ready ∈ batches, ∃ io, .socket c io ∈ ready.keys ∧ io.recv = recv := by
  induction batches generalizing n with
  | nil => cases h
  | cons ready batches ih =>
    rw [inputs, List.mem_append] at h
    rcases h with h | h
    · split at h
      · obtain ⟨key, hkey, hrecv⟩ := List.exists_of_findSome?_eq_some (Option.mem_toList.mp h)
        cases key with
        | rshutdown received => cases hrecv
        | root => cases hrecv
        | socket c' io =>
          by_cases hc : c' = c
          · subst hc
            refine ⟨ready, List.mem_cons_self .., io, (List.takeWhile_sublist _).subset hkey, ?_⟩
            simpa using hrecv
          · simp [hc] at hrecv
      · cases h
    · split at h
      · cases h
      · obtain ⟨ready', hready', hin⟩ := ih h
        exact ⟨ready', List.mem_cons_of_mem ready hready', hin⟩

/-- For a delimiter of one byte, and while shutdown and close do not raise: the records
of a connection are the parses of the longest prefix of the complete lines of its
stream that all parse, and it is unregistered exactly when one of them does not or
its peer closed it. -/
theorem stream_reassembly (cfg : Setup ρ) (d : UInt8) (batches : List Ready) (c : ℕ)
    (hdelimiter : cfg.delimiter = [d]) (honly : ∀ ready ∈ batches, OnlySentinel ready)
    (hio : ∀ ready ∈ batches, ∀ c io, .socket c io ∈ ready.keys →
      (∃ data, io.recv = .ok data) ∧ io.shutdown = .ok ())
    (hc : c < (exec (backgroundRound cfg) started batches).service.accepted) :
    let service := (exec (backgroundRound cfg) started batches).service
    let recvs := inputs c 0 batches
    recordsOf service c = parsed cfg.parse (lines d (streamOf recvs)) ∧
      (service.registered c = false ↔
        (∃ line ∈ lines d (streamOf recvs), (cfg.parse line).isOk = false) ∨ .ok [] ∈ recvs) := by
  intro service recvs
  have hholds : Along (backgroundRound cfg) (RoundHolds cfg) started batches := by
    apply along_of_forall (backgroundRound cfg) started
    intro ready hready loop _ key hkey
    have hin : key ∈ ready.keys :=
      (List.mem_filter.mp ((List.takeWhile_sublist _).subset hkey)).1
    cases key with
    | rshutdown received => trivial
    | root => trivial
    | socket c' io => exact fun _ => (hio ready hready c' io hin).2
  have hrecvs : ∀ recv ∈ recvs, ∃ data, recv = .ok data := by
    intro recv hrecv
    obtain ⟨ready, hready, io, hin, rfl⟩ := mem_inputs hrecv
    exact (hio ready hready c io hin).1
  have hfresh : StandsAfter cfg d [] (.fresh : Conn ρ) :=
    ⟨rfl, rfl, rfl, fun line hline => by cases hline⟩
  have hconn := (exec_started honly hholds rfl).2 c hc
  obtain ⟨hrecords, hregistered⟩ := reads_stream hdelimiter recvs hrecvs hfresh
  rw [← hconn, List.nil_append] at hrecords hregistered
  refine ⟨hrecords, hregistered.trans ?_⟩
  simp [Parses]

/-- Two connections whose chunks alternate; the second line of one is not JSON. -/
theorem stream_reassembly_two :
    let cfg : Setup ℕ := ⟨[10], parseDigit⟩
    let batches : List Ready := [⟨[.root], by decide⟩, ⟨[.root], by decide⟩,
      ⟨[.socket 0 ⟨.ok [49], .ok ()⟩, .socket 1 ⟨.ok [50, 10, 51], .ok ()⟩], by decide⟩,
      ⟨[.socket 0 ⟨.ok [10, 123, 10, 52, 10], .ok ()⟩, .socket 1 ⟨.ok [10, 53], .ok ()⟩],
        by decide⟩]
    let service := (exec (backgroundRound cfg) started batches).service
    recordsOf service 0 = [1] ∧ service.registered 0 = false ∧
      recordsOf service 1 = [2, 3] := by
  intro cfg batches service
  have honly : ∀ ready ∈ batches, OnlySentinel ready := by
    simp [batches, OnlySentinel]
  have hio : ∀ ready ∈ batches, ∀ c io, .socket c io ∈ ready.keys →
      (∃ data, io.recv = .ok data) ∧ io.shutdown = .ok () := by
    intro ready hready c io hin
    simp only [batches, List.mem_cons, List.not_mem_nil, or_false] at hready
    rcases hready with rfl | rfl | rfl | rfl
    · simp at hin
    · simp at hin
    · simp only [List.mem_cons, Key.socket.injEq, List.not_mem_nil, or_false] at hin
      rcases hin with ⟨-, rfl⟩ | ⟨-, rfl⟩ <;> exact ⟨⟨_, rfl⟩, rfl⟩
    · simp only [List.mem_cons, Key.socket.injEq, List.not_mem_nil, or_false] at hin
      rcases hin with ⟨-, rfl⟩ | ⟨-, rfl⟩ <;> exact ⟨⟨_, rfl⟩, rfl⟩
  have hfirst := stream_reassembly cfg 10 batches 0 rfl honly hio (by decide)
  have hsecond := stream_reassembly cfg 10 batches 1 rfl honly hio (by decide)
  refine ⟨?_, ?_, ?_⟩
  · rw [hfirst.1]
    decide
  · rw [hfirst.2]
    left
    have hline : [123] ∈ lines 10 (streamOf (inputs 0 0 batches)) := by decide
    exact ⟨[123], hline, rfl⟩
  · rw [hsecond.1]
    decide

end Yellowbox.LogstashReassembly
