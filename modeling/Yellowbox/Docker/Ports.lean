import Yellowbox.Base.Cuts
import Yellowbox.Base.Decimals
import Yellowbox.Base.Overwrites

/-!
`get_ports`, through which the services look up the ports they connect to. Docker
reports its ports by number and protocol, and the loop keeps the number alone: where a
number is published for two protocols, the entry that comes last overwrites the other.
-/
namespace Yellowbox.Docker.Ports

open Cuts Dicts

/-- An address on the host that a port is published at. -/
structure HostBinding where
  hostPort : String
  deriving DecidableEq, Repr

/-- Entries `number/protocol`, with `None` for a port that is not published. -/
abbrev PortMap := Dict String (Option (List HostBinding))

structure NetworkSettings where
  ports : PortMap

structure Attrs where
  networkSettings : NetworkSettings

structure Container where
  attrs : Attrs

inductive Error
  | assertion
  | invalidLiteral (text : String)
  | key (port : ℤ)
  deriving DecidableEq, Repr

def int (text : String) : Except Error ℤ :=
  match Decimals.int text.toList with
  | some n => .ok n
  | none => .error (.invalidLiteral text)

/-- `port_num, *_ = port.partition("/")` -/
def portNum (port : String) : String := String.ofList (cut '/' port.toList).1

/-- A round of the loop over the port map. -/
def addPort (ports : Dict ℤ ℤ) (entry : String × Option (List HostBinding)) :
    Except Error (Dict ℤ ℤ) :=
  match entry.2 with
  | none => .ok ports
  | some [] => .error .assertion
  | some (address :: _) =>
    int address.hostPort >>= fun externalPort =>
      int (portNum entry.1) >>= fun number => .ok (ports.set number externalPort)

def getPorts (container : Container) : Except Error (Dict ℤ ℤ) :=
  container.attrs.networkSettings.ports.entries.foldlM addPort Dict.empty

/-- `get_ports(container)[port]`, as the services look their port up. -/
def connectionPort (container : Container) (port : ℤ) : Except Error ℤ :=
  getPorts container >>= fun ports =>
    match ports.get? port with
    | some hostPort => .ok hostPort
    | none => .error (.key port)

/-! ### What docker reports -/

/-- An entry as docker writes it: a number in front of the protocol, and no addresses, or
at least one. -/
structure Reported (entry : String × Option (List HostBinding)) : Prop where
  number : ∃ number, int (portNum entry.1) = .ok number
  addresses : ∀ addresses, entry.2 = some addresses →
    addresses ≠ [] ∧ ∀ address ∈ addresses, ∃ hostPort, int address.hostPort = .ok hostPort

namespace Container

def entries (container : Container) : List (String × Option (List HostBinding)) :=
  container.attrs.networkSettings.ports.entries

def WellFormed (container : Container) : Prop := ∀ entry ∈ container.entries, Reported entry

/-- Some entry of the number is published, at this host port first. -/
def Publishes (container : Container) (number hostPort : ℤ) : Prop :=
  ∃ port address others, (port, some (address :: others)) ∈ container.entries ∧
    int (portNum port) = .ok number ∧ int address.hostPort = .ok hostPort

/-- No number is published at two host ports, say for two protocols. -/
def OneHostPort (container : Container) : Prop :=
  ∀ number hostPort hostPort', container.Publishes number hostPort →
    container.Publishes number hostPort' → hostPort = hostPort'

/-- The same entries in another order. -/
def Reordered (container container' : Container) : Prop :=
  container'.entries.Perm container.entries

end Container

/-- What an entry adds to the ports. -/
def published (entry : String × Option (List HostBinding)) : Option (ℤ × ℤ) :=
  match entry.2 with
  | some (address :: _) =>
    match int (portNum entry.1), int address.hostPort with
    | .ok number, .ok hostPort => some (number, hostPort)
    | _, _ => none
  | _ => none

theorem published_eq_some_iff {entry : String × Option (List HostBinding)}
    {number hostPort : ℤ} : published entry = some (number, hostPort) ↔
      ∃ address others, entry.2 = some (address :: others) ∧
        int (portNum entry.1) = .ok number ∧ int address.hostPort = .ok hostPort := by
  constructor
  · intro h
    unfold published at h
    split at h
    · rename_i address others haddresses
      split at h
      · rename_i hnumber hhost
        cases h
        exact ⟨address, others, haddresses, hnumber, hhost⟩
      · cases h
    · cases h
  · rintro ⟨address, others, haddresses, hnumber, hhost⟩
    simp only [published, haddresses, hnumber, hhost]

theorem Container.publishes_iff {container : Container} {number hostPort : ℤ} :
    container.Publishes number hostPort ↔
      (number, hostPort) ∈ container.entries.filterMap published := by
  rw [List.mem_filterMap]
  constructor
  · rintro ⟨port, address, others, hmem, hread⟩
    exact ⟨_, hmem, published_eq_some_iff.mpr ⟨address, others, rfl, hread⟩⟩
  · rintro ⟨⟨port, addresses⟩, hmem, hpublished⟩
    obtain ⟨address, others, rfl, hread⟩ := published_eq_some_iff.mp hpublished
    exact ⟨port, address, others, hmem, hread⟩

/-- What is published, with the last entry of a number over the ones before. -/
def Container.publishedPorts (container : Container) : Dict ℤ ℤ :=
  Dict.ofPairs (container.entries.filterMap published)

theorem Container.mem_keys_publishedPorts {container : Container} {number : ℤ} :
    number ∈ container.publishedPorts.keys ↔
      ∃ hostPort, container.Publishes number hostPort := by
  rw [publishedPorts, Dict.mem_keys_ofPairs, List.mem_map]
  constructor
  · rintro ⟨⟨_, hostPort⟩, hmem, rfl⟩
    exact ⟨hostPort, publishes_iff.mpr hmem⟩
  · rintro ⟨hostPort, hpublishes⟩
    exact ⟨_, publishes_iff.mp hpublishes, rfl⟩

theorem Container.publishes_of_get? {container : Container} {number hostPort : ℤ}
    (h : container.publishedPorts.get? number = some hostPort) :
    container.Publishes number hostPort :=
  publishes_iff.mpr (Dict.mem_of_get?_ofPairs h)

theorem Container.singleValued_iff {container : Container} :
    SingleValued (container.entries.filterMap published) ↔ container.OneHostPort := by
  simp only [SingleValued, Container.OneHostPort, Container.publishes_iff]

/-- What a round raises on an entry. -/
def entryError (entry : String × Option (List HostBinding)) : Option Error :=
  match entry.2 with
  | none => none
  | some [] => some .assertion
  | some (address :: _) =>
    match int address.hostPort, int (portNum entry.1) with
    | .error err, _ => some err
    | .ok _, .error err => some err
    | .ok _, .ok _ => none

theorem entryError_of_reported {entry : String × Option (List HostBinding)}
    (h : Reported entry) : entryError entry = none := by
  obtain ⟨number, hnumber⟩ := h.number
  cases haddresses : entry.2 with
  | none => simp only [entryError, haddresses]
  | some addresses =>
    obtain ⟨hne, hread⟩ := h.addresses addresses haddresses
    obtain ⟨address, others, rfl⟩ := List.exists_cons_of_ne_nil hne
    obtain ⟨hostPort, hhost⟩ := hread address List.mem_cons_self
    simp only [entryError, haddresses, hhost, hnumber]

/-! ### The loop -/

/-- A round raises or adds what is published, and does nothing else. -/
theorem addPort_eq (ports : Dict ℤ ℤ) (entry : String × Option (List HostBinding)) :
    addPort ports entry =
      match entryError entry with
      | some err => .error err
      | none => .ok ((published entry).elim ports fun pair => ports.set pair.1 pair.2) := by
  obtain ⟨port, addresses⟩ := entry
  match addresses with
  | none => rfl
  | some [] => rfl
  | some (address :: others) =>
    simp only [addPort, entryError, published]
    cases int address.hostPort with
    | error err => rfl
    | ok hostPort => cases int (portNum port) <;> rfl

/-- The first entry that cannot be read ends the loop. Without one, the published ports are
written in their order. -/
theorem foldlM_addPort (entries : List (String × Option (List HostBinding))) (ports : Dict ℤ ℤ) :
    entries.foldlM addPort ports =
      match entries.findSome? entryError with
      | some err => .error err
      | none => .ok ((entries.filterMap published).foldl
          (fun d pair => d.set pair.1 pair.2) ports) := by
  induction entries generalizing ports with
  | nil => rfl
  | cons entry entries ih =>
    rw [List.foldlM_cons, addPort_eq, List.findSome?_cons]
    cases entryError entry with
    | some err => rfl
    | none =>
      change entries.foldlM addPort _ = _
      rw [ih]
      cases hpublished : published entry with
      | none => rw [List.filterMap_cons_none hpublished, Option.elim_none]
      | some pair =>
        rw [List.filterMap_cons_some hpublished, Option.elim_some, List.foldl_cons]

/-- The loop over a map of docker's never raises. -/
theorem getPorts_of_wellFormed {container : Container} (h : container.WellFormed) :
    getPorts container = .ok container.publishedPorts := by
  have hnone : container.entries.findSome? entryError = none :=
    List.findSome?_eq_none_iff.mpr fun entry hentry => entryError_of_reported (h entry hentry)
  change container.entries.foldlM addPort Dict.empty = _
  rw [foldlM_addPort, hnone]
  rfl

/-! ### One protocol -/

/-- The text of a port, as in `6379/tcp`. -/
def portText (number : ℕ) (protocol : String) : String := number.repr ++ "/" ++ protocol

theorem int_repr (n : ℕ) : int n.repr = .ok (n : ℤ) := by
  rw [int, Nat.toList_repr, Decimals.int_toDigits]

theorem portNum_portText (number : ℕ) (protocol : String) :
    portNum (portText number protocol) = number.repr := by
  have hdigits : '/' ∉ Nat.toDigits 10 number := by
    intro hmem
    exact absurd (Nat.isDigit_of_mem_toDigits (by decide) (by decide) hmem) (by decide)
  have htext : (portText number protocol).toList =
      Nat.toDigits 10 number ++ '/' :: protocol.toList := by
    rw [portText, String.toList_append, String.toList_append, Nat.toList_repr,
      List.append_assoc]
    rfl
  rw [portNum, htext, cut_append hdigits, ← Nat.repr_eq_ofList_toDigits]

/-- An entry with a number and host ports as docker writes them is read without an error. -/
theorem reported_portText {number : ℕ} {protocol : String}
    {addresses : Option (List HostBinding)}
    (h : ∀ bindings, addresses = some bindings →
      bindings ≠ [] ∧ ∀ address ∈ bindings, ∃ n : ℕ, address.hostPort = n.repr) :
    Reported (portText number protocol, addresses) where
  number := by
    rw [portNum_portText]
    exact ⟨number, int_repr number⟩
  addresses := by
    intro bindings hbindings
    obtain ⟨hne, hports⟩ := h bindings hbindings
    refine ⟨hne, fun address haddress => ?_⟩
    obtain ⟨n, hn⟩ := hports address haddress
    exact ⟨n, hn ▸ int_repr n⟩

/-- Ports that are published for one protocol only are read in any order. -/
theorem oneHostPort_of_protocol {container : Container} (protocol : String)
    (h : ∀ port addresses, (port, some addresses) ∈ container.entries →
      ∃ number, port = portText number protocol) : container.OneHostPort := by
  rintro number hostPort hostPort' ⟨port, address, others, hmem, hnumber, hhost⟩
    ⟨port', address', others', hmem', hnumber', hhost'⟩
  obtain ⟨n, rfl⟩ := h port _ hmem
  obtain ⟨n', rfl⟩ := h port' _ hmem'
  rw [portNum_portText, int_repr] at hnumber hnumber'
  have hn : n = n' := by
    have heq := hnumber.trans hnumber'.symm
    exact Int.ofNat_inj.mp (Except.ok.inj heq)
  subst hn
  have haddresses := List.inj_on_of_nodup_map
    container.attrs.networkSettings.ports.nodup hmem hmem' rfl
  cases haddresses
  exact Except.ok.inj (hhost.symm.trans hhost')

/-! ### The ports in every order -/

theorem Container.WellFormed.reordered {container container' : Container}
    (h : container.WellFormed) (hperm : container.Reordered container') :
    container'.WellFormed := fun entry hentry => h entry (hperm.mem_iff.mp hentry)

/-- Every order of the entries is that of some port map. -/
theorem Container.exists_reordered {container : Container}
    {entries : List (String × Option (List HostBinding))}
    (h : entries.Perm container.entries) :
    ∃ container' : Container, container.Reordered container' ∧ container'.entries = entries :=
  ⟨⟨⟨entries, (h.map Prod.fst).nodup_iff.mpr container.attrs.networkSettings.ports.nodup⟩⟩, h, rfl⟩

/-- The ports do not depend on the order of the entries exactly when no number is published
at two host ports. -/
theorem getPorts_reordered_iff {container : Container} (h : container.WellFormed) :
    (∃ ports, getPorts container = .ok ports ∧
      (∀ number, number ∈ ports.keys ↔ ∃ hostPort, container.Publishes number hostPort) ∧
      ∀ container', container.Reordered container' →
        ∃ ports', getPorts container' = .ok ports' ∧ Dict.eqBy (· == ·) ports' ports = true) ↔
      container.OneHostPort := by
  rw [← Container.singleValued_iff, ← Dict.ofPairs_perm_iff]
  constructor
  · rintro ⟨ports, hports, -, hsame⟩ entries hperm number
    obtain ⟨container', hreordered, rfl⟩ := Container.exists_reordered hperm
    obtain ⟨ports', hports', heq⟩ := hsame container' hreordered
    rw [getPorts_of_wellFormed h] at hports
    rw [getPorts_of_wellFormed (h.reordered hreordered)] at hports'
    cases hports
    cases hports'
    exact Dict.eqBy_beq_iff.mp heq number
  · intro hsame
    refine ⟨_, getPorts_of_wellFormed h, fun _ => Container.mem_keys_publishedPorts, ?_⟩
    intro container' hreordered
    refine ⟨_, getPorts_of_wellFormed (h.reordered hreordered), ?_⟩
    exact Dict.eqBy_beq_iff.mpr (hsame _ hreordered)

/-- A database on one port, bound for two address families, and a port that is not
published. -/
def redis : Container where
  attrs.networkSettings.ports :=
    ⟨[(portText 6379 "tcp", some [⟨"49153"⟩, ⟨"49153"⟩]), (portText 8001 "tcp", none)],
      by decide +kernel⟩

theorem getPorts_redis_reordered : ∃ ports, getPorts redis = .ok ports ∧
    (∀ number, number ∈ ports.keys ↔ ∃ hostPort, redis.Publishes number hostPort) ∧
    ∀ container', redis.Reordered container' →
      ∃ ports', getPorts container' = .ok ports' ∧ Dict.eqBy (· == ·) ports' ports = true := by
  have hport : "49153" = Nat.repr 49153 := by decide +kernel
  have hwell : redis.WellFormed := by
    refine List.forall_mem_cons.mpr ⟨?_, List.forall_mem_singleton.mpr ?_⟩
    · apply reported_portText
      rintro bindings ⟨⟩
      refine ⟨List.cons_ne_nil _ _, List.forall_mem_cons.mpr ⟨⟨49153, hport⟩, ?_⟩⟩
      exact List.forall_mem_singleton.mpr ⟨49153, hport⟩
    · apply reported_portText
      rintro bindings ⟨⟩
  have hone : redis.OneHostPort := by
    refine oneHostPort_of_protocol "tcp" fun port addresses hmem => ?_
    rcases List.mem_cons.mp hmem with heq | hmem
    · exact ⟨6379, congrArg Prod.fst heq⟩
    · exact ⟨8001, congrArg Prod.fst (List.mem_singleton.mp hmem)⟩
  exact (getPorts_reordered_iff hwell).mpr hone

/-- A nameserver on one port for two protocols. -/
def dns : Container where
  attrs.networkSettings.ports :=
    ⟨[(portText 53 "tcp", some [⟨"1053"⟩]), (portText 53 "udp", some [⟨"2053"⟩])],
      by decide +kernel⟩

/-- The entries of `dns` in the other order. -/
def dnsSwapped : Container where
  attrs.networkSettings.ports :=
    ⟨[(portText 53 "udp", some [⟨"2053"⟩]), (portText 53 "tcp", some [⟨"1053"⟩])],
      by decide +kernel⟩

theorem getPorts_dns_swapped : dns.WellFormed ∧ dns.Reordered dnsSwapped ∧
    ∃ ports ports', getPorts dns = .ok ports ∧ getPorts dnsSwapped = .ok ports' ∧
      ports.get? 53 = some 2053 ∧ ports'.get? 53 = some 1053 ∧
      Dict.eqBy (· == ·) ports' ports = false := by
  have htcp : "1053" = Nat.repr 1053 := by decide +kernel
  have hudp : "2053" = Nat.repr 2053 := by decide +kernel
  have hwell : dns.WellFormed := by
    refine List.forall_mem_cons.mpr ⟨?_, List.forall_mem_singleton.mpr ?_⟩
    · apply reported_portText
      rintro bindings ⟨⟩
      exact ⟨List.cons_ne_nil _ _, List.forall_mem_singleton.mpr ⟨1053, htcp⟩⟩
    · apply reported_portText
      rintro bindings ⟨⟩
      exact ⟨List.cons_ne_nil _ _, List.forall_mem_singleton.mpr ⟨2053, hudp⟩⟩
  have hswap : dns.Reordered dnsSwapped := List.Perm.swap _ _ _
  refine ⟨hwell, hswap, _, _, getPorts_of_wellFormed hwell,
    getPorts_of_wellFormed (hwell.reordered hswap), ?_, ?_, ?_⟩
  · decide +kernel
  · decide +kernel
  · decide +kernel

/-! ### The port a service connects to -/

theorem connectionPort_of_wellFormed {container : Container} (h : container.WellFormed)
    (port : ℤ) : connectionPort container port =
      match container.publishedPorts.get? port with
      | some hostPort => .ok hostPort
      | none => .error (.key port) := by
  rw [connectionPort, getPorts_of_wellFormed h]
  rfl

/-- A service never connects to a port that was not published for its number. -/
theorem publishes_of_connectionPort {container : Container} (h : container.WellFormed)
    {port hostPort : ℤ} (hport : connectionPort container port = .ok hostPort) :
    container.Publishes port hostPort := by
  rw [connectionPort_of_wellFormed h] at hport
  split at hport
  · rename_i found hfound
    cases hport
    exact Container.publishes_of_get? hfound
  · cases hport

theorem connectionPort_eq_ok_iff {container : Container} (h : container.WellFormed)
    (hone : container.OneHostPort) {port hostPort : ℤ} :
    connectionPort container port = .ok hostPort ↔ container.Publishes port hostPort := by
  constructor
  · exact publishes_of_connectionPort h
  · intro hpublishes
    have hvalue : container.publishedPorts.get? port = some hostPort :=
      (Dict.get?_ofPairs_eq_some_iff (Container.singleValued_iff.mpr hone)).mpr
        (Container.publishes_iff.mp hpublishes)
    rw [connectionPort_of_wellFormed h, hvalue]

/-- A service connects to each host port of its number, for some order of the entries. -/
theorem exists_reordered_connectionPort {container : Container} (h : container.WellFormed)
    {port hostPort : ℤ} (hpublishes : container.Publishes port hostPort) :
    ∃ container', container.Reordered container' ∧
      connectionPort container' port = .ok hostPort := by
  obtain ⟨entries, hperm, hlast⟩ :=
    Dict.exists_perm_get?_ofPairs (Container.publishes_iff.mp hpublishes)
  obtain ⟨container', hreordered, rfl⟩ := Container.exists_reordered hperm
  refine ⟨container', hreordered, ?_⟩
  change container'.publishedPorts.get? port = some hostPort at hlast
  rw [connectionPort_of_wellFormed (h.reordered hreordered), hlast]

/-- The lookup fails only for a number that is not published. -/
theorem connectionPort_eq_error_iff {container : Container} (h : container.WellFormed)
    {port : ℤ} {err : Error} : connectionPort container port = .error err ↔
      err = .key port ∧ ∀ hostPort, ¬ container.Publishes port hostPort := by
  rw [connectionPort_of_wellFormed h, ← not_exists, ← Container.mem_keys_publishedPorts,
    Dict.mem_keys_iff]
  cases container.publishedPorts.get? port with
  | some hostPort => simp
  | none => simp [eq_comm]

end Yellowbox.Docker.Ports
