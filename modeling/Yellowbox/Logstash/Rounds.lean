import Yellowbox.Logstash.Connection

/-!
A round of the background thread, and runs of it. As long as no shutdown fails in
a clean-up, a round does what each of its keys does on its own, so every
connection goes its own way: its state is a fold over what was read from it.
-/
namespace Yellowbox.LogstashRounds

open Effects StepRuns StreamSplit LogstashService LogstashConnection

/-- One connection as the thread sees it. -/
structure Conn (ρ : Type) where
  registered : Bool
  partialChunks : List Bytes
  records : List ρ

variable {ρ : Type} {cfg : Setup ρ}

/-- A connection that was just accepted. -/
def Conn.fresh : Conn ρ := ⟨true, [], []⟩

/-- A call of `recv` on a connection on its own; one that is not registered is not read. -/
def Conn.read (cfg : Setup ρ) (conn : Conn ρ) (recv : Except OSError Bytes) : Conn ρ :=
  if conn.registered then
    let rd := LogstashConnection.read cfg conn.partialChunks recv
    ⟨rd.ending.isNone, rd.partialChunks, conn.records ++ rd.records⟩
  else conn

theorem foldl_read_unregistered {conn : Conn ρ} (h : conn.registered = false)
    (recvs : List (Except OSError Bytes)) : recvs.foldl (Conn.read cfg) conn = conn := by
  induction recvs with
  | nil => rfl
  | cons recv recvs ih =>
    have hsame : conn.read cfg recv = conn := by
      rw [Conn.read, if_neg (by simp [h])]
    rw [List.foldl_cons, hsame, ih]

/-- The records appended on behalf of connection `c`. -/
def recordsOf (s : Service ρ) (c : ℕ) : List ρ :=
  s.records.filterMap fun entry => if entry.1 = c then some entry.2 else none

def connOf (s : Service ρ) (c : ℕ) : Conn ρ :=
  ⟨s.registered c, s.partialChunks c, recordsOf s c⟩

def isSentinel : Key → Bool
  | .rshutdown _ => true
  | _ => false

/-- The lines that a chunk completes, the first of them begun in the buffer. -/
def completed (cfg : Setup ρ) (buffer : List Bytes) (data : Bytes) : List Bytes :=
  match splitAt cfg.delimiter data with
  | first :: second :: others => (buffer ++ [first]).flatten :: (second :: others).dropLast
  | _ => []

/-- `recv` raises, or `split` does for want of a delimiter, or a line does not parse. -/
def ReadFails (cfg : Setup ρ) (buffer : List Bytes) : Except OSError Bytes → Prop
  | .error _ => True
  | .ok data =>
    data ≠ [] ∧ (cfg.delimiter = [] ∨ ¬ Parses cfg.parse (completed cfg buffer data))

instance (cfg : Setup ρ) (buffer : List Bytes) :
    ∀ recv, Decidable (ReadFails cfg buffer recv)
  | .error _ => isTrue trivial
  | .ok _ => inferInstanceAs (Decidable (_ ∧ _))

theorem read_failed_iff (buffer : List Bytes) (recv : Except OSError Bytes) :
    (read cfg buffer recv).ending = some .failed ↔ ReadFails cfg buffer recv := by
  cases recv with
  | error e => exact iff_of_true rfl trivial
  | ok data =>
    unfold LogstashConnection.read ReadFails completed
    dsimp only
    by_cases hdata : data = []
    · simp [hdata]
    · by_cases hdelimiter : cfg.delimiter = []
      · simp [hdata, hdelimiter]
      · rw [if_neg hdata, if_neg hdelimiter, and_iff_right hdata, or_iff_right hdelimiter]
        rcases splitAt cfg.delimiter data with _ | ⟨first, _ | ⟨second, others⟩⟩
        · simp [readPieces, Parses]
        · simp [readPieces, Parses]
        · dsimp only [readPieces]
          split
          · exact iff_of_false (fun h => by cases h) (fun hnot => hnot ‹_›)
          · exact iff_of_true rfl ‹_›

/-- If reading the connection of the key fails, its shutdown does not. -/
def ShutdownHolds (cfg : Setup ρ) (s : Service ρ) : Key → Prop
  | .socket c io => ReadFails cfg (s.partialChunks c) io.recv → io.shutdown = .ok ()
  | _ => True

instance (cfg : Setup ρ) (s : Service ρ) (key : Key) : Decidable (ShutdownHolds cfg s key) := by
  cases key <;> unfold ShutdownHolds <;> infer_instance

/-- The service after a key that is handled without an exception. -/
def keyAfter (cfg : Setup ρ) (s : Service ρ) : Key → Service ρ
  | .rshutdown _ => s
  | .root => s.accept
  | .socket c io => afterRead s c (read cfg (s.partialChunks c) io.recv)

/-- What may be among the keys of a round: connections that are registered, and
nothing but the sentinel on the shutdown socket. -/
def Selected (s : Service ρ) : Key → Prop
  | .socket c _ => s.registered c = true
  | .root => True
  | .rshutdown received => received = closeSentinel

/-- Connections are registered, and have records, once they are accepted. -/
structure Numbered (s : Service ρ) : Prop where
  registered : ∀ c, s.registered c = true → c < s.accepted
  records : ∀ entry ∈ s.records, entry.1 < s.accepted

section Keys

variable {s : Service ρ} {key : Key}

theorem handleKey_holds (hkey : Selected s key) (hsafe : ShutdownHolds cfg s key) :
    handleKey cfg key s = (.ok (isSentinel key), keyAfter cfg s key) := by
  cases key with
  | root => rfl
  | rshutdown received =>
    have hreceived : received = closeSentinel := hkey
    subst hreceived
    rfl
  | socket c io =>
    have hout := handleKey_socket_outcome cfg io hkey
    unfold outcome at hout
    split at hout
    · rename_i e hfailed hio
      rw [hsafe ((read_failed_iff _ _).mp hfailed)] at hio
      cases hio
    · exact hout

theorem handleKey_fails (hkey : Selected s key) (hsafe : ¬ ShutdownHolds cfg s key) :
    ∃ err t, handleKey cfg key s = (.error err, t) := by
  cases key with
  | root => exact absurd trivial hsafe
  | rshutdown received => exact absurd trivial hsafe
  | socket c io =>
    have hout := handleKey_socket_outcome cfg io hkey
    obtain ⟨hfailed, hio⟩ := Classical.not_imp.mp hsafe
    cases hshutdown : io.shutdown with
    | ok u => exact absurd hshutdown hio
    | error e =>
      unfold outcome at hout
      rw [(read_failed_iff _ _).mpr hfailed, hshutdown] at hout
      obtain ⟨err, herr⟩ := hout
      exact ⟨err, _, Prod.ext herr rfl⟩

theorem afterRead_other (c c' : ℕ) (rd : Read ρ) (hne : c' ≠ c) :
    connOf (afterRead s c rd) c' = connOf s c' := by
  have hne' : c ≠ c' := Ne.symm hne
  unfold afterRead
  split <;> simp [connOf, recordsOf, Service.append, Service.setPartialChunks,
    Service.setRegistered, Service.setClosed, hne, hne']

theorem afterRead_self (c : ℕ) (rd : Read ρ) (hreg : s.registered c = true) :
    connOf (afterRead s c rd) c =
      ⟨rd.ending.isNone, rd.partialChunks, recordsOf s c ++ rd.records⟩ := by
  have hrecords : recordsOf ((s.setPartialChunks c rd.partialChunks).append c rd.records) c =
      recordsOf s c ++ rd.records := by
    simp [recordsOf, Service.append, Service.setPartialChunks, List.filterMap_map]
  unfold afterRead
  split <;> simp_all [connOf, recordsOf, Service.append, Service.setPartialChunks,
    Service.setRegistered, Service.setClosed]

theorem socket_conn {c : ℕ} (io : SocketIO) (hreg : s.registered c = true) :
    connOf (keyAfter cfg s (.socket c io)) c = (connOf s c).read cfg io.recv := by
  have hconn : (connOf s c).registered = true := hreg
  rw [keyAfter, afterRead_self c _ hreg, Conn.read, if_pos hconn]
  rfl

theorem afterRead_accepted (c : ℕ) (rd : Read ρ) :
    (afterRead s c rd).accepted = s.accepted := by
  unfold afterRead
  split <;> rfl

theorem afterRead_records (c : ℕ) (rd : Read ρ) :
    (afterRead s c rd).records = s.records ++ rd.records.map (Prod.mk c) := by
  unfold afterRead
  split <;> rfl

theorem accept_conn (hnum : Numbered s) (c : ℕ) :
    connOf s.accept c = if c = s.accepted then .fresh else connOf s c := by
  have hsame : recordsOf s.accept c = recordsOf s c := rfl
  by_cases hc : c = s.accepted
  · have hnone : recordsOf s c = [] := by
      rw [recordsOf, List.filterMap_eq_nil_iff]
      intro entry hentry
      have hne : entry.1 ≠ c := hc ▸ Nat.ne_of_lt (hnum.records entry hentry)
      simp [hne]
    rw [if_pos hc, connOf, hsame, hnone]
    simp [Service.accept, Service.setRegistered, Service.setPartialChunks, hc, Conn.fresh]
  · rw [if_neg hc, connOf, hsame]
    simp [Service.accept, Service.setRegistered, Service.setPartialChunks, hc, connOf]

theorem keyAfter_numbered (hnum : Numbered s) (hkey : Selected s key) :
    Numbered (keyAfter cfg s key) := by
  cases key with
  | rshutdown received => exact hnum
  | root =>
    constructor
    · intro c hc
      by_cases heq : c = s.accepted
      · rw [heq]
        exact Nat.lt_succ_self _
      · have hc : s.registered c = true := by
          simpa [keyAfter, Service.accept, Service.setRegistered, Service.setPartialChunks,
            heq] using hc
        exact Nat.lt_succ_of_lt (hnum.registered c hc)
    · intro entry hentry
      exact Nat.lt_succ_of_lt (hnum.records entry hentry)
  | socket c io =>
    have hc : c < s.accepted := hnum.registered c hkey
    constructor
    · intro c' hc'
      rw [keyAfter, afterRead_accepted]
      by_cases heq : c' = c
      · rw [heq]
        exact hc
      · have hother := congrArg Conn.registered
          (afterRead_other (s := s) c c' (read cfg (s.partialChunks c) io.recv) heq)
        exact hnum.registered c' (hother.symm.trans hc')
    · intro entry hentry
      rw [keyAfter, afterRead_accepted]
      rw [keyAfter, afterRead_records] at hentry
      rcases List.mem_append.mp hentry with hin | hin
      · exact hnum.records entry hin
      · obtain ⟨r, -, rfl⟩ := List.mem_map.mp hin
        exact hc

end Keys

/-- What the keys read from connection `c`. -/
def recvOf (c : ℕ) (keys : List Key) : Option (Except OSError Bytes) :=
  keys.findSome? fun
    | .socket c' io => if c' = c then some io.recv else none
    | _ => none

/-- How many connections the keys accept. -/
def accepts (keys : List Key) : ℕ :=
  keys.countP fun
    | .root => true
    | _ => false

/-- A connection after a round that handles `keys`, when `n` were accepted before. -/
def Conn.after (cfg : Setup ρ) (c : ℕ) (n : ℕ) (keys : List Key) (conn : Conn ρ) : Conn ρ :=
  if c < n then (recvOf c keys).toList.foldl (Conn.read cfg) conn
  else if c < n + accepts keys then .fresh
  else conn

/-- The first sentinel among the keys ends the round. -/
def beforeSentinel (keys : List Key) : List Key := keys.takeWhile fun key => !isSentinel key

/-- The keys of a round: what select reports, each file object once. -/
structure RoundKeys (s : Service ρ) (keys : List Key) : Prop where
  distinct : (keys.map Key.fileobj).Nodup
  selected : ∀ key ∈ keys, Selected s key

theorem selected_after {s : Service ρ} {key key' : Key} (hnum : Numbered s)
    (hkey : Selected s key) (hkey' : Selected s key') (hne : key'.fileobj ≠ key.fileobj) :
    Selected (keyAfter cfg s key) key' ∧
      (ShutdownHolds cfg (keyAfter cfg s key) key' ↔ ShutdownHolds cfg s key') := by
  cases key' with
  | rshutdown received => exact ⟨hkey', Iff.rfl⟩
  | root => exact ⟨trivial, Iff.rfl⟩
  | socket c io =>
    have hconn : connOf (keyAfter cfg s key) c = connOf s c := by
      cases key with
      | rshutdown received => rfl
      | root =>
        have hc : c < s.accepted := hnum.registered c hkey'
        exact (accept_conn hnum c).trans (if_neg (Nat.ne_of_lt hc))
      | socket c' io' =>
        have hcc : c ≠ c' := fun heq => hne (by rw [heq]; rfl)
        exact afterRead_other c' c _ hcc
    have hreg := congrArg Conn.registered hconn
    have hchunks : (keyAfter cfg s key).partialChunks c = s.partialChunks c :=
      congrArg Conn.partialChunks hconn
    refine ⟨hreg.trans hkey', ?_⟩
    simp only [ShutdownHolds, hchunks]

theorem roundKeys_tail (cfg : Setup ρ) {s : Service ρ} {key : Key} {keys : List Key}
    (hnum : Numbered s) (h : RoundKeys s (key :: keys)) :
    RoundKeys (keyAfter cfg s key) keys ∧ ∀ key' ∈ keys,
      (ShutdownHolds cfg (keyAfter cfg s key) key' ↔ ShutdownHolds cfg s key') := by
  have hdistinct := List.nodup_cons.mp h.distinct
  have hafter : ∀ key' ∈ keys, Selected (keyAfter cfg s key) key' ∧
      (ShutdownHolds cfg (keyAfter cfg s key) key' ↔ ShutdownHolds cfg s key') := by
    intro key' hkey'
    refine selected_after hnum (h.selected key (List.mem_cons_self ..))
      (h.selected key' (List.mem_cons_of_mem key hkey')) ?_
    intro heq
    exact hdistinct.1 (heq ▸ List.mem_map_of_mem hkey')
  exact ⟨⟨hdistinct.2, fun key' hkey' => (hafter key' hkey').1⟩,
    fun key' hkey' => (hafter key' hkey').2⟩

/-- A round in which no shutdown fails handles its keys one by one up to a sentinel. -/
theorem handleKeys_holds {s : Service ρ} {keys : List Key} (hnum : Numbered s)
    (hkeys : RoundKeys s keys) (hsafe : ∀ key ∈ beforeSentinel keys, ShutdownHolds cfg s key) :
    handleKeys cfg keys s =
      (.ok (keys.any isSentinel), (beforeSentinel keys).foldl (keyAfter cfg) s) := by
  induction keys generalizing s with
  | nil => rfl
  | cons key keys ih =>
    have hkey := hkeys.selected key (List.mem_cons_self ..)
    rw [handleKeys]
    by_cases hsentinel : isSentinel key = true
    · have hhandled : ShutdownHolds cfg s key := by
        cases key with
        | socket c io => cases hsentinel
        | rshutdown received => trivial
        | root => trivial
      have hsame : keyAfter cfg s key = s := by
        cases key with
        | rshutdown received => rfl
        | socket c io => cases hsentinel
        | root => cases hsentinel
      rw [Act.bind_ok (handleKey_holds hkey hhandled), if_pos hsentinel, hsame]
      simp only [beforeSentinel, List.takeWhile_cons, hsentinel, List.any_cons]
      rfl
    · have hfront : beforeSentinel (key :: keys) = key :: beforeSentinel keys := by
        simp [beforeSentinel, hsentinel]
      rw [hfront] at hsafe
      obtain ⟨htail, hsame⟩ := roundKeys_tail cfg hnum hkeys
      have hsafe' : ∀ key' ∈ beforeSentinel keys,
          ShutdownHolds cfg (keyAfter cfg s key) key' := by
        intro key' hkey'
        exact (hsame key' ((List.takeWhile_sublist _).subset hkey')).mpr
          (hsafe key' (List.mem_cons_of_mem key hkey'))
      rw [Act.bind_ok (handleKey_holds hkey (hsafe key (List.mem_cons_self ..))),
        if_neg hsentinel, ih (keyAfter_numbered hnum hkey) htail hsafe', hfront]
      simp [hsentinel]

/-- A shutdown that fails in a clean-up ends the thread. -/
theorem handleKeys_fails {s : Service ρ} {keys : List Key} (hnum : Numbered s)
    (hkeys : RoundKeys s keys)
    (hfails : ∃ key ∈ beforeSentinel keys, ¬ ShutdownHolds cfg s key) :
    ∃ err t, handleKeys cfg keys s = (.error err, t) := by
  induction keys generalizing s with
  | nil =>
    obtain ⟨key, hkey, -⟩ := hfails
    cases hkey
  | cons key keys ih =>
    have hkey := hkeys.selected key (List.mem_cons_self ..)
    obtain ⟨bad, hbad, hnot⟩ := hfails
    have hsentinel : isSentinel key = false := by
      cases hkind : isSentinel key with
      | false => rfl
      | true => simp [beforeSentinel, hkind] at hbad
    have hfront : beforeSentinel (key :: keys) = key :: beforeSentinel keys := by
      simp [beforeSentinel, hsentinel]
    rw [handleKeys]
    by_cases hsafe : ShutdownHolds cfg s key
    · have hbad : bad ∈ beforeSentinel keys := by
        rw [hfront] at hbad
        rcases List.mem_cons.mp hbad with rfl | hbad
        · exact absurd hsafe hnot
        · exact hbad
      obtain ⟨htail, hsame⟩ := roundKeys_tail cfg hnum hkeys
      have hnot' := mt (hsame bad ((List.takeWhile_sublist _).subset hbad)).mp hnot
      obtain ⟨err, t, hrest⟩ := ih (keyAfter_numbered hnum hkey) htail ⟨bad, hbad, hnot'⟩
      refine ⟨err, t, ?_⟩
      rw [Act.bind_ok (handleKey_holds hkey hsafe), if_neg (by simp [hsentinel]), hrest]
    · obtain ⟨err, t, herr⟩ := handleKey_fails hkey hsafe
      exact ⟨err, t, Act.bind_error herr⟩

theorem recvOf_none {s : Service ρ} {keys : List Key} {c : ℕ} (hc : s.registered c = false)
    (hkeys : ∀ key ∈ keys, Selected s key) : recvOf c keys = none := by
  rw [recvOf, List.findSome?_eq_none_iff]
  intro key hkey
  cases key with
  | rshutdown received => rfl
  | root => rfl
  | socket c' io =>
    have hreg : s.registered c' = true := hkeys _ hkey
    have hne : c' ≠ c := by
      rintro rfl
      rw [hreg] at hc
      cases hc
    simp [hne]

theorem recvOf_none_of_fileobj {keys : List Key} {c : ℕ} (h : .socket c ∉ keys.map Key.fileobj) :
    recvOf c keys = none := by
  rw [recvOf, List.findSome?_eq_none_iff]
  intro key hkey
  cases key with
  | rshutdown received => rfl
  | root => rfl
  | socket c' io =>
    have hne : c' ≠ c := by
      rintro rfl
      exact h (List.mem_map_of_mem hkey)
    simp [hne]

theorem keyAfter_accepted (s : Service ρ) (key : Key) :
    (keyAfter cfg s key).accepted = s.accepted + accepts [key] := by
  cases key with
  | rshutdown received => rfl
  | root => rfl
  | socket c io => exact afterRead_accepted c _

theorem accepts_cons (key : Key) (keys : List Key) :
    accepts (key :: keys) = accepts [key] + accepts keys := by
  simp only [accepts, List.countP_cons, List.countP_nil]
  omega

theorem foldl_accepted (s : Service ρ) (keys : List Key) :
    (keys.foldl (keyAfter cfg) s).accepted = s.accepted + accepts keys := by
  induction keys generalizing s with
  | nil => rfl
  | cons key keys ih =>
    rw [List.foldl_cons, ih, keyAfter_accepted, accepts_cons key keys]
    omega

theorem foldl_numbered {s : Service ρ} {keys : List Key} (hnum : Numbered s)
    (hkeys : RoundKeys s keys) : Numbered (keys.foldl (keyAfter cfg) s) := by
  induction keys generalizing s with
  | nil => exact hnum
  | cons key keys ih =>
    have hkey := hkeys.selected key (List.mem_cons_self ..)
    exact ih (keyAfter_numbered hnum hkey) (roundKeys_tail cfg hnum hkeys).1

theorem after_none {c n : ℕ} {keys : List Key} {conn : Conn ρ} (hrecv : recvOf c keys = none)
    (haccepts : accepts keys = 0) : conn.after cfg c n keys = conn := by
  unfold Conn.after
  rw [hrecv, haccepts]
  by_cases hlt : c < n
  · rw [if_pos hlt]
    rfl
  · rw [if_neg hlt, if_neg (by omega)]

/-- What one key does to a connection. -/
theorem keyAfter_conn {s : Service ρ} {key : Key} (hnum : Numbered s) (hkey : Selected s key)
    (c : ℕ) : connOf (keyAfter cfg s key) c = (connOf s c).after cfg c s.accepted [key] := by
  cases key with
  | rshutdown received => exact (after_none rfl rfl).symm
  | root =>
    have hone : accepts [Key.root] = 1 := rfl
    have hnone : recvOf c [Key.root] = none := rfl
    rw [keyAfter, accept_conn hnum]
    unfold Conn.after
    rw [hone, hnone]
    by_cases hlt : c < s.accepted
    · rw [if_neg (by omega), if_pos hlt]
      rfl
    · by_cases heq : c = s.accepted
      · rw [if_pos heq, if_neg hlt, if_pos (by omega)]
      · rw [if_neg heq, if_neg hlt, if_neg (by omega)]
  | socket c' io =>
    by_cases hc : c = c'
    · subst hc
      have hrecv : recvOf c [Key.socket c io] = some io.recv := by simp [recvOf]
      have hlt : c < s.accepted := hnum.registered c hkey
      unfold Conn.after
      rw [if_pos hlt, hrecv]
      exact socket_conn io hkey
    · have hne : c' ≠ c := Ne.symm hc
      have hnone : recvOf c [Key.socket c' io] = none := by simp [recvOf, hne]
      rw [after_none hnone rfl]
      exact afterRead_other c' c _ hc

/-- The keys of a round one after the other; a connection is read by one of them only,
and not in the round that accepts it. -/
theorem after_cons {c n : ℕ} {key : Key} {keys : List Key} (conn : Conn ρ)
    (honce : recvOf c [key] = none ∨ recvOf c keys = none)
    (hnew : n ≤ c → recvOf c keys = none) :
    (conn.after cfg c n [key]).after cfg c (n + accepts [key]) keys =
      conn.after cfg c n (key :: keys) := by
  have hrecv : recvOf c (key :: keys) = (recvOf c [key]).or (recvOf c keys) := by
    unfold recvOf
    rw [← List.findSome?_append, List.singleton_append]
  have haccepts := accepts_cons key keys
  unfold Conn.after
  rw [hrecv, haccepts]
  by_cases hlt : c < n
  · rw [if_pos hlt, if_pos hlt, if_pos (by omega)]
    rcases honce with hnone | hnone
    · rw [hnone, Option.none_or]
      rfl
    · rw [hnone, Option.or_none]
      rfl
  · rw [if_neg hlt, if_neg hlt, hnew (Nat.le_of_not_lt hlt)]
    by_cases hkey : c < n + accepts [key]
    · rw [if_pos hkey, if_pos hkey, if_pos (by omega)]
      rfl
    · rw [if_neg hkey, if_neg hkey, Nat.add_assoc]

/-- In a round every connection goes its own way. -/
theorem foldl_conn {s : Service ρ} {keys : List Key} (hnum : Numbered s)
    (hkeys : RoundKeys s keys) (c : ℕ) :
    connOf (keys.foldl (keyAfter cfg) s) c = (connOf s c).after cfg c s.accepted keys := by
  induction keys generalizing s with
  | nil => exact (after_none rfl rfl).symm
  | cons key keys ih =>
    have hkey := hkeys.selected key (List.mem_cons_self ..)
    have honce : recvOf c [key] = none ∨ recvOf c keys = none := by
      by_cases hobj : key.fileobj = .socket c
      · refine Or.inr (recvOf_none_of_fileobj ?_)
        rw [← hobj]
        exact (List.nodup_cons.mp hkeys.distinct).1
      · refine Or.inl (recvOf_none_of_fileobj ?_)
        simpa [eq_comm] using hobj
    have hnew : s.accepted ≤ c → recvOf c keys = none := by
      intro hle
      have hunreg : s.registered c = false := by
        cases hreg : s.registered c with
        | false => rfl
        | true => exact absurd (hnum.registered c hreg) (Nat.not_lt_of_le hle)
      exact recvOf_none hunreg (fun key' hkey' =>
        hkeys.selected key' (List.mem_cons_of_mem key hkey'))
    rw [List.foldl_cons, ih (keyAfter_numbered hnum hkey) (roundKeys_tail cfg hnum hkeys).1,
      keyAfter_conn hnum hkey, keyAfter_accepted, after_cons _ honce hnew]

end Yellowbox.LogstashRounds
