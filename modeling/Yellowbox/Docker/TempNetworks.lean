import Mathlib.Algebra.Order.Group.Nat
import Mathlib.Data.List.Nodup
import Yellowbox.Base.ScopePrograms
import Yellowbox.Docker.Containers

/-!
`temp_network`, `disconnecting` and `connect` on a container, over a daemon with any number
of networks. A network lists the containers connected to it, which the inspection of it
shows only while their processes are there; so leaving `disconnecting` passes over a
container that is stopped, and this is no obstacle to removing the network.
-/
namespace Yellowbox.Docker.TempNetworks

open Effects ScopePrograms

abbrev NetworkId := ℕ

structure Network where
  name : String
  connected : List ContainerId
  deriving DecidableEq

/-- The network with only those of its containers that meet the test. -/
def Network.within (keeps : ContainerId → Bool) (network : Network) : Network :=
  { network with connected := network.connected.filter keeps }

inductive ApiError
  | notFound
  | conflict
  | forbidden
  deriving DecidableEq

/-- The daemon gives out ids in order. `bridge` is its default network, `uuids` counts the
calls of `uuid1`, and `opened` has the `network` of each `temp_network` in progress,
innermost first. The last two are the networks that the program makes itself and those it
handles: it gives them to a call of its own or to `disconnecting`, makes a container in them,
or gives them to a `connect` of a container that they have already. -/
structure Daemon where
  containers : ContainerId → Option Status
  networks : NetworkId → Option Network
  bridge : NetworkId
  nextContainer : ContainerId
  nextNetwork : NetworkId
  uuids : ℕ
  opened : List NetworkId
  made : List NetworkId
  handled : List NetworkId

namespace Daemon

def exists? (w : Daemon) (c : ContainerId) : Bool := (w.containers c).isSome

def up (w : Daemon) (c : ContainerId) : Bool := (w.containers c).any Status.up

def setNetwork (w : Daemon) (n : NetworkId) (network : Option Network) : Daemon :=
  { w with networks := Function.update w.networks n network }

def setContainer (w : Daemon) (c : ContainerId) (status : Option Status) : Daemon :=
  { w with containers := Function.update w.containers c status }

def addNetwork (w : Daemon) (name : String) : Daemon :=
  { w with
    networks := Function.update w.networks w.nextNetwork (some ⟨name, []⟩)
    nextNetwork := w.nextNetwork + 1 }

def addContainer (w : Daemon) : Daemon :=
  { w with
    containers := Function.update w.containers w.nextContainer (some .created)
    nextContainer := w.nextContainer + 1 }

/-- The network with one container more, if the network is there. -/
def put (w : Daemon) (n : NetworkId) (c : ContainerId) : Daemon :=
  w.setNetwork n ((w.networks n).map fun network => ⟨network.name, network.connected ++ [c]⟩)

def connects (w : Daemon) (n : NetworkId) (c : ContainerId) : Bool :=
  (w.networks n).any fun network => decide (c ∈ network.connected)

/-- The networks with only those of their containers that are there. -/
def prune (w : Daemon) : Daemon :=
  { w with networks := fun n => (w.networks n).map (Network.within w.exists?) }

def takesName (w : Daemon) (name : String) : Bool :=
  (List.range w.nextNetwork).any fun n => (w.networks n).any fun network => network.name == name

def countUuid (w : Daemon) : Daemon := { w with uuids := w.uuids + 1 }

def setOpened (w : Daemon) (opened : List NetworkId) : Daemon := { w with opened }

def noteMade (w : Daemon) (n : NetworkId) : Daemon := { w with made := n :: w.made }

def noteHandled (w : Daemon) (n : NetworkId) : Daemon := { w with handled := n :: w.handled }

def noteConnect (w : Daemon) (n : NetworkId) (c : ContainerId) : Daemon :=
  if w.connects n c then w.noteHandled n else w

/-- A container is made in the default network unless it is told another. If that one is
not there, this comes out when the container is started. -/
def newContainer (w : Daemon) (network : Option NetworkId) : Daemon :=
  ((w.noteHandled (network.getD w.bridge)).addContainer).put (network.getD w.bridge)
    w.nextContainer

end Daemon

/-! ### The calls of the daemon -/

abbrev Call (α : Type) := Act Daemon ApiError α

def findNetwork (n : NetworkId) : Call Network := do
  match (← Act.get).networks n with
  | none => Act.raise .notFound
  | some network => return network

/-- `client.containers.get(c)`, or a `reload` -/
def findContainer (c : ContainerId) : Call Unit := do
  Act.raiseIf (!(← Act.get).exists? c) .notFound

/-- `client.networks.create(name)` -/
def create (name : String) : Call NetworkId := do
  let w ← Act.get
  Act.raiseIf (w.takesName name) .conflict
  Act.modify fun w => w.addNetwork name
  return w.nextNetwork

/-- `network.connect(container)`; of the containers that the network has already, one that
is up is refused. -/
def networkConnect (n : NetworkId) (c : ContainerId) : Call Unit := do
  let network ← findNetwork n
  findContainer c
  if c ∈ network.connected then Act.raiseIf ((← Act.get).up c) .conflict
  else Act.modify fun w => w.setNetwork n (some ⟨network.name, network.connected ++ [c]⟩)

/-- `network.disconnect(container)` -/
def networkDisconnect (n : NetworkId) (c : ContainerId) : Call Unit := do
  let network ← findNetwork n
  findContainer c
  Act.raiseIf (decide (c ∉ network.connected)) .conflict
  Act.modify fun w => w.setNetwork n (some (network.within (· ≠ c)))

/-- `network.reload()`; what it gives is `network.attrs["Containers"]`. -/
def inspect (n : NetworkId) : Call (List ContainerId) := do
  let network ← findNetwork n
  return network.connected.filter (← Act.get).up

/-- `network.remove()`; the default network stays. -/
def networkRemove (n : NetworkId) : Call Unit := do
  let network ← findNetwork n
  Act.raiseIf (n == (← Act.get).bridge) .forbidden
  Act.raiseIf (network.connected.any (← Act.get).up) .conflict
  Act.modify fun w => w.setNetwork n none

/-- `container.start()`, `container.stop()` and the like, with what the daemon makes of it: a
container does not start, for one, when a network that it was in is gone. -/
def setStatus (c : ContainerId) (result : Except ApiError Status) : Call Unit := do
  findContainer c
  match result with
  | .error e => Act.raise e
  | .ok status => Act.modify fun w => w.setContainer c (some status)

/-! ### The functions of the module -/

/-- `anonymous_network(client)` -/
def anonymousNetwork (uuid1 : ℕ → String) : Call NetworkId := do
  let w ← Act.get
  Act.modify Daemon.countUuid
  create ("yellowbox-" ++ uuid1 w.uuids)

/-- The network of `temp_network(client, name)`: an empty name counts as none. -/
def newNetwork (uuid1 : ℕ → String) : Option String → Call NetworkId
  | none | some "" => anonymousNetwork uuid1
  | some name => create name

/-- The `finally` of `disconnecting(network, remove=remove)`. -/
def disconnectAll (n : NetworkId) (remove : Bool) : Call Unit := do
  let containers ← inspect n
  Act.forEach findContainer containers
  Act.forEach (networkDisconnect n) containers
  if remove then networkRemove n else return ()

/-- `connect(network, container)` up to its `yield`. -/
def enterConnect (n : NetworkId) (c : ContainerId) : Call Unit := do
  networkConnect n c
  findContainer c

/-- The `finally` of `connect(network, container)`. -/
def leaveConnect (n : NetworkId) (c : ContainerId) : Call Unit := do
  if (← Act.get).exists? c then networkDisconnect n c else return ()

/-! ### Programs -/

/-- What comes out of a statement, of an entry, of the exit of a scope of this network, or is
an error of the program's own. -/
inductive Exc (E : Type)
  | statement (e : ApiError)
  | entering (e : ApiError)
  | leaving (n : NetworkId) (e : ApiError)
  | own (e : E)

def raising {E α : Type} (wrap : ApiError → Exc E) (call : Call α) : Act Daemon (Exc E) α :=
  fun w => ((call w).1.mapError wrap, (call w).2)

inductive Scope
  | tempNetwork (name : Option String)
  | disconnecting (n : NetworkId) (remove : Bool)
  | connect (n : NetworkId) (c : ContainerId)

inductive Statement (E : Type)
  | newNetwork (name : Option String)
  | networkConnect (n : NetworkId) (c : ContainerId)
  | networkDisconnect (n : NetworkId) (c : ContainerId)
  | networkRemove (n : NetworkId)
  | newContainer (network : Option NetworkId)
  | setStatus (c : ContainerId) (result : Except ApiError Status)
  | removeContainer (c : ContainerId)
  | raise (e : E)

/-- The daemon drops the connections of a container that it removes. -/
def Statement.exec {E : Type} (uuid1 : ℕ → String) : Statement E → Act Daemon (Exc E) Unit
  | .newNetwork name => do
    let n ← raising .statement (TempNetworks.newNetwork uuid1 name)
    Act.modify fun w => w.noteMade n
  | .networkConnect n c => do
    Act.modify fun w => w.noteHandled n
    raising .statement (TempNetworks.networkConnect n c)
  | .networkDisconnect n c => do
    Act.modify fun w => w.noteHandled n
    raising .statement (TempNetworks.networkDisconnect n c)
  | .networkRemove n => do
    Act.modify fun w => w.noteHandled n
    raising .statement (TempNetworks.networkRemove n)
  | .newContainer network => Act.modify fun w => w.newContainer network
  | .setStatus c result => raising .statement (TempNetworks.setStatus c result)
  | .removeContainer c => do
    raising .statement (findContainer c)
    Act.modify fun w => (w.setContainer c none).prune
  | .raise e => Act.raise (.own e)

def Scope.enter {E : Type} (uuid1 : ℕ → String) : Scope → Act Daemon (Exc E) Unit
  | .tempNetwork name => do
    let n ← raising .entering (TempNetworks.newNetwork uuid1 name)
    Act.modify fun w => w.setOpened (n :: w.opened)
  | .disconnecting n _ => Act.modify fun w => w.noteHandled n
  | .connect n c => do
    Act.modify fun w => w.noteConnect n c
    raising .entering (enterConnect n c)

/-- The exit of `temp_network` is that of `disconnecting` with `remove`. -/
def Scope.exit {E : Type} : Scope → Act Daemon (Exc E) Unit
  | .tempNetwork _ => do
    match (← Act.get).opened with
    | [] => return ()
    | n :: opened =>
      Act.modify fun w => w.setOpened opened
      raising (.leaving n) (disconnectAll n true)
  | .disconnecting n remove => raising (.leaving n) (disconnectAll n remove)
  | .connect n c => raising (.leaving n) (leaveConnect n c)

def meaning {E : Type} (uuid1 : ℕ → String) : Meaning (Statement E) Scope Daemon (Exc E) where
  exec := Statement.exec uuid1
  enter := Scope.enter uuid1
  exit := Scope.exit

/-! ### What each call does -/

section Calls

variable {w : Daemon} {n : NetworkId} {c : ContainerId} {network : Network}

theorem networks_setNetwork_self (w : Daemon) (n : NetworkId) (x : Option Network) :
    (w.setNetwork n x).networks n = x := Function.update_self ..

theorem networks_setNetwork_of_ne {m : NetworkId} (h : m ≠ n) (w : Daemon) (x : Option Network) :
    (w.setNetwork n x).networks m = w.networks m := Function.update_of_ne h ..

theorem networks_addNetwork_self (w : Daemon) (name : String) :
    (w.addNetwork name).networks w.nextNetwork = some ⟨name, []⟩ := Function.update_self ..

theorem networks_addNetwork_of_ne {m : NetworkId} {w : Daemon} (h : m ≠ w.nextNetwork)
    (name : String) : (w.addNetwork name).networks m = w.networks m := Function.update_of_ne h ..

theorem containers_setContainer_self (w : Daemon) (c : ContainerId) (x : Option Status) :
    (w.setContainer c x).containers c = x := Function.update_self ..

theorem containers_setContainer_of_ne {d : ContainerId} (h : d ≠ c) (w : Daemon)
    (x : Option Status) : (w.setContainer c x).containers d = w.containers d :=
  Function.update_of_ne h ..

theorem setNetwork_setNetwork (w : Daemon) (n : NetworkId) (x y : Option Network) :
    (w.setNetwork n x).setNetwork n y = w.setNetwork n y := by
  simp only [Daemon.setNetwork, Function.update_idem]

theorem findNetwork_missing (h : w.networks n = none) :
    findNetwork n w = (.error .notFound, w) := by
  simp only [findNetwork, Act.get_bind, h]
  rfl

theorem findNetwork_present (h : w.networks n = some network) :
    findNetwork n w = (.ok network, w) := by
  simp only [findNetwork, Act.get_bind, h]
  rfl

theorem findContainer_missing (h : w.exists? c = false) :
    findContainer c w = (.error .notFound, w) := by
  simp only [findContainer, Act.get_bind, h]
  rfl

theorem findContainer_present (h : w.exists? c = true) : findContainer c w = (.ok (), w) := by
  simp only [findContainer, Act.get_bind, h]
  rfl

theorem connects_present (hn : w.networks n = some network) (c : ContainerId) :
    w.connects n c = decide (c ∈ network.connected) := by
  rw [Daemon.connects, hn]
  rfl

/-- A call on a network is refused, or has nothing to do, or has found what it needs. -/
theorem networkConnect_cases (n : NetworkId) (c : ContainerId) (w : Daemon) :
    (∃ e, networkConnect n c w = (.error e, w)) ∨
      (w.connects n c = true ∧ w.exists? c = true ∧ networkConnect n c w = (.ok (), w)) ∨
      ∃ network, w.networks n = some network ∧ w.exists? c = true ∧ c ∉ network.connected ∧
        networkConnect n c w =
          (.ok (), w.setNetwork n (some ⟨network.name, network.connected ++ [c]⟩)) := by
  cases hn : w.networks n with
  | none => exact Or.inl ⟨_, Act.bind_error (findNetwork_missing hn)⟩
  | some network =>
    rw [networkConnect, Act.bind_ok (findNetwork_present hn), connects_present hn]
    cases hc : w.exists? c with
    | false => exact Or.inl ⟨_, Act.bind_error (findContainer_missing hc)⟩
    | true =>
      rw [Act.bind_ok (findContainer_present hc)]
      by_cases hmem : c ∈ network.connected
      · rw [if_pos hmem, Act.get_bind]
        cases w.up c with
        | true => exact Or.inl ⟨_, rfl⟩
        | false => exact Or.inr (Or.inl ⟨decide_eq_true hmem, rfl, rfl⟩)
      · rw [if_neg hmem]
        exact Or.inr (Or.inr ⟨network, rfl, rfl, hmem, rfl⟩)

theorem networkDisconnect_cases (n : NetworkId) (c : ContainerId) (w : Daemon) :
    (∃ e, networkDisconnect n c w = (.error e, w) ∧
        ∀ network, w.networks n = some network → w.exists? c = true → c ∉ network.connected) ∨
      ∃ network, w.networks n = some network ∧
        networkDisconnect n c w = (.ok (), w.setNetwork n (some (network.within (· ≠ c)))) := by
  cases hn : w.networks n with
  | none => exact Or.inl ⟨_, Act.bind_error (findNetwork_missing hn), fun _ h => by cases h⟩
  | some network =>
    rw [networkDisconnect, Act.bind_ok (findNetwork_present hn)]
    cases hc : w.exists? c with
    | false => exact Or.inl ⟨_, Act.bind_error (findContainer_missing hc), fun _ _ h => by cases h⟩
    | true =>
      rw [Act.bind_ok (findContainer_present hc), Act.raiseIf_bind]
      by_cases hmem : c ∈ network.connected
      · rw [if_neg (by simpa using hmem)]
        exact Or.inr ⟨network, rfl, rfl⟩
      · rw [if_pos (decide_eq_true hmem)]
        refine Or.inl ⟨_, rfl, fun network' h _ => ?_⟩
        rwa [← Option.some.inj h]

theorem networkDisconnect_found (hn : w.networks n = some network) (hc : w.exists? c = true)
    (hmem : c ∈ network.connected) :
    networkDisconnect n c w = (.ok (), w.setNetwork n (some (network.within (· ≠ c)))) := by
  rcases networkDisconnect_cases n c w with ⟨e, -, hrefused⟩ | ⟨network', hn', hcall⟩
  · exact absurd hmem (hrefused network hn hc)
  · obtain rfl := Option.some.inj (hn.symm.trans hn')
    exact hcall

theorem setStatus_cases (c : ContainerId) (result : Except ApiError Status) (w : Daemon) :
    (∃ e, setStatus c result w = (.error e, w)) ∨
      ∃ status, w.exists? c = true ∧
        setStatus c result w = (.ok (), w.setContainer c (some status)) := by
  cases hc : w.exists? c with
  | false => exact Or.inl ⟨_, Act.bind_error (findContainer_missing hc)⟩
  | true =>
    have hfound := findContainer_present hc
    cases result with
    | error e => exact Or.inl ⟨e, Act.bind_ok hfound⟩
    | ok status => exact Or.inr ⟨status, rfl, Act.bind_ok hfound⟩

theorem forEach_findContainer {l : List ContainerId} (h : ∀ c ∈ l, w.exists? c = true) :
    Act.forEach findContainer l w = (.ok (), w) := by
  induction l with
  | nil => rfl
  | cons c l ih =>
    rw [Act.forEach_cons_ok (findContainer_present (h c (List.mem_cons_self ..)))]
    exact ih fun d hd => h d (List.mem_cons_of_mem c hd)

theorem forEach_networkDisconnect {l : List ContainerId} (hnodup : l.Nodup)
    (hn : w.networks n = some network) (hl : ∀ c ∈ l, c ∈ network.connected ∧ w.exists? c = true) :
    Act.forEach (networkDisconnect n) l w =
      (.ok (), w.setNetwork n (some (network.within fun c => decide (c ∉ l)))) := by
  induction l generalizing w network with
  | nil =>
    have hall : network.within (fun c => decide (c ∉ ([] : List ContainerId))) = network := by
      simp [Network.within]
    rw [hall, ← hn]
    exact congrArg _ (by simp [Daemon.setNetwork])
  | cons c l ih =>
    obtain ⟨hc, hnodup⟩ := List.nodup_cons.mp hnodup
    obtain ⟨hmem, hexists⟩ := hl c (List.mem_cons_self ..)
    rw [Act.forEach_cons_ok (networkDisconnect_found hn hexists hmem)]
    have hrest : ∀ d ∈ l, d ∈ (network.within (· ≠ c)).connected ∧
        (w.setNetwork n (some (network.within (· ≠ c)))).exists? d = true := by
      intro d hd
      obtain ⟨hdmem, hdexists⟩ := hl d (List.mem_cons_of_mem c hd)
      have hne : d ≠ c := fun h => hc (h ▸ hd)
      exact ⟨List.mem_filter.mpr ⟨hdmem, decide_eq_true hne⟩, hdexists⟩
    rw [ih hnodup (networks_setNetwork_self ..) hrest, setNetwork_setNetwork]
    have hfilter : (network.within (· ≠ c)).within (fun d => decide (d ∉ l)) =
        network.within fun d => decide (d ∉ c :: l) := by
      simp only [Network.within, List.filter_filter]
      congr 2
      funext d
      simp [Bool.and_comm]
    rw [hfilter]

theorem networkRemove_bridge (hn : w.networks n = some network) (hbridge : n = w.bridge) :
    networkRemove n w = (.error .forbidden, w) := by
  rw [networkRemove, Act.bind_ok (findNetwork_present hn), Act.get_bind, Act.raiseIf_bind,
    beq_iff_eq.mpr hbridge]
  rfl

theorem networkRemove_idle (hn : w.networks n = some network) (hbridge : n ≠ w.bridge)
    (hidle : network.connected.any w.up = false) :
    networkRemove n w = (.ok (), w.setNetwork n none) := by
  rw [networkRemove, Act.bind_ok (findNetwork_present hn), Act.get_bind, Act.raiseIf_bind,
    beq_false_of_ne hbridge, if_neg Bool.false_ne_true, Act.get_bind, Act.raiseIf_bind, hidle]
  rfl

theorem networkRemove_cases (n : NetworkId) (w : Daemon) :
    (∃ e, networkRemove n w = (.error e, w)) ∨
      networkRemove n w = (.ok (), w.setNetwork n none) := by
  cases hn : w.networks n with
  | none => exact Or.inl ⟨_, Act.bind_error (findNetwork_missing hn)⟩
  | some network =>
    by_cases hbridge : n = w.bridge
    · exact Or.inl ⟨_, networkRemove_bridge hn hbridge⟩
    · cases hidle : network.connected.any w.up with
      | false => exact Or.inr (networkRemove_idle hn hbridge hidle)
      | true =>
        rw [networkRemove, Act.bind_ok (findNetwork_present hn), Act.get_bind, Act.raiseIf_bind,
          beq_false_of_ne hbridge, if_neg Bool.false_ne_true, Act.get_bind, Act.raiseIf_bind, hidle]
        exact Or.inl ⟨_, rfl⟩

theorem disconnectAll_missing (h : w.networks n = none) (remove : Bool) :
    disconnectAll n remove w = (.error .notFound, w) :=
  Act.bind_error (Act.bind_error (findNetwork_missing h))

/-- Every connected container that is up is disconnected. -/
theorem disconnectAll_present (hn : w.networks n = some network)
    (hnodup : network.connected.Nodup) (hexists : ∀ c ∈ network.connected, w.exists? c = true)
    (remove : Bool) :
    disconnectAll n remove w = (if remove then networkRemove n else return ())
      (w.setNetwork n (some (network.within fun c => !w.up c))) := by
  have hinspect : inspect n w = (.ok (network.connected.filter w.up), w) := by
    rw [inspect, Act.bind_ok (findNetwork_present hn)]
    rfl
  have hup : ∀ c ∈ network.connected.filter w.up, c ∈ network.connected ∧ w.exists? c = true := by
    intro c hc
    have hmem := (List.mem_filter.mp hc).1
    exact ⟨hmem, hexists c hmem⟩
  have hwithin : network.within (fun c => decide (c ∉ network.connected.filter w.up)) =
      network.within fun c => !w.up c := by
    rw [Network.within, Network.within]
    congr 1
    refine List.filter_congr fun c hc => ?_
    cases hcup : w.up c <;> simp [hc, hcup]
  have hloop := forEach_networkDisconnect (hnodup.filter _) hn hup
  rw [hwithin] at hloop
  rw [disconnectAll, Act.bind_ok hinspect,
    Act.bind_ok (forEach_findContainer fun c hc => (hup c hc).2), Act.bind_ok hloop]

/-- None of the containers that are left keeps the network from being removed. -/
theorem networkRemove_down (hbridge : n ≠ w.bridge) (network : Network) :
    networkRemove n (w.setNetwork n (some (network.within fun c => !w.up c))) =
      (.ok (), w.setNetwork n none) := by
  have hidle : (network.within fun c => !w.up c).connected.any w.up = false := by
    refine List.any_eq_false.mpr fun c hc hup => ?_
    have hdown := (List.mem_filter.mp hc).2
    rw [hup] at hdown
    cases hdown
  rw [networkRemove_idle (networks_setNetwork_self ..) hbridge hidle, setNetwork_setNetwork]

/-- The name may be taken; the network is a new one. -/
theorem newNetwork_cases (uuid1 : ℕ → String) (name : Option String) (w : Daemon) :
    ∃ v, (v = w ∨ v = w.countUuid) ∧
      ((∃ e, newNetwork uuid1 name w = (.error e, v)) ∨
        ∃ text, newNetwork uuid1 name w = (.ok v.nextNetwork, v.addNetwork text)) := by
  have hcreate : ∀ (text : String) (v : Daemon),
      (∃ e, create text v = (.error e, v)) ∨
        create text v = (.ok v.nextNetwork, v.addNetwork text) := by
    intro text v
    rw [create, Act.get_bind, Act.raiseIf_bind]
    cases v.takesName text with
    | true => exact Or.inl ⟨_, rfl⟩
    | false => exact Or.inr rfl
  have hanonymous : ∃ v, (v = w ∨ v = w.countUuid) ∧
      ((∃ e, anonymousNetwork uuid1 w = (.error e, v)) ∨
        ∃ text, anonymousNetwork uuid1 w = (.ok v.nextNetwork, v.addNetwork text)) := by
    refine ⟨w.countUuid, Or.inr rfl, ?_⟩
    rcases hcreate ("yellowbox-" ++ uuid1 w.uuids) w.countUuid with ⟨e, he⟩ | hok
    · exact Or.inl ⟨e, he⟩
    · exact Or.inr ⟨_, hok⟩
  cases name with
  | none => exact hanonymous
  | some text =>
    by_cases hempty : text = ""
    · subst hempty
      exact hanonymous
    · have hnamed : newNetwork uuid1 (some text) = create text := by
        rw [newNetwork]
        exact hempty
      rw [hnamed]
      refine ⟨w, Or.inl rfl, ?_⟩
      rcases hcreate text w with ⟨e, he⟩ | hok
      · exact Or.inl ⟨e, he⟩
      · exact Or.inr ⟨text, hok⟩

end Calls

/-! ### Moving from one state to another -/

structure Valid (w : Daemon) : Prop where
  nodup : ∀ n network, w.networks n = some network → network.connected.Nodup
  connected : ∀ n network, w.networks n = some network →
    ∀ c ∈ network.connected, w.exists? c = true
  networks : ∀ n, w.nextNetwork ≤ n → w.networks n = none
  containers : ∀ c, w.nextContainer ≤ c → w.containers c = none
  bridge : w.bridge < w.nextNetwork

/-- What a program does to the networks that were there, and to those it makes. -/
structure Moved (s t : Daemon) : Prop where
  valid : Valid t
  bridge : t.bridge = s.bridge
  opened : t.opened = s.opened
  nextNetwork : s.nextNetwork ≤ t.nextNetwork
  nextContainer : s.nextContainer ≤ t.nextContainer
  made : s.made ⊆ t.made
  handled : s.handled ⊆ t.handled
  gone : ∀ c < s.nextContainer, t.exists? c = true → s.exists? c = true
  removed : ∀ n < s.nextNetwork, s.networks n = none → t.networks n = none
  new : ∀ n, s.nextNetwork ≤ n → n ∉ t.made → t.networks n = none
  old : ∀ n < s.nextNetwork, n ∉ t.handled →
    t.networks n = (s.networks n).map (Network.within t.exists?)

section Moving

variable {s t u : Daemon} {n : NetworkId} {c : ContainerId} {network : Network}

theorem exists?_lt (hs : Valid s) (h : s.exists? c = true) : c < s.nextContainer := by
  by_contra hc
  rw [Daemon.exists?, hs.containers c (Nat.le_of_not_lt hc)] at h
  cases h

theorem within_self {keeps : ContainerId → Bool} (h : ∀ c ∈ network.connected, keeps c = true) :
    network.within keeps = network := by
  rw [Network.within, List.filter_eq_self.mpr h]

/-- A container that was put last goes if it is filtered out, or is not there. -/
theorem within_join (keeps : ContainerId → Bool) (hmem : c ∉ network.connected) :
    (Network.within keeps ⟨network.name, network.connected ++ [c]⟩).within (· ≠ c) =
      network.within keeps := by
  have hothers : (network.connected.filter keeps).filter (fun d => decide (d ≠ c)) =
      network.connected.filter keeps := by
    refine List.filter_eq_self.mpr fun d hd => decide_eq_true ?_
    rintro rfl
    exact hmem (List.mem_filter.mp hd).1
  have hlast : ([c].filter keeps).filter (fun d => decide (d ≠ c)) = [] := by
    refine List.filter_eq_nil_iff.mpr fun d hd => ?_
    rw [List.mem_singleton.mp (List.mem_filter.mp hd).1]
    simp
  simp only [Network.within, List.filter_append, hothers, hlast, List.append_nil]

theorem within_join_gone {keeps : ContainerId → Bool} (hc : keeps c = false) :
    Network.within keeps ⟨network.name, network.connected ++ [c]⟩ = network.within keeps := by
  have hlast : [c].filter keeps = [] := by simp [hc]
  simp only [Network.within, List.filter_append, hlast, List.append_nil]

theorem Moved.refl (hs : Valid s) : Moved s s where
  valid := hs
  bridge := rfl
  opened := rfl
  nextNetwork := le_rfl
  nextContainer := le_rfl
  made := List.Subset.refl _
  handled := List.Subset.refl _
  gone _ _ h := h
  removed _ _ h := h
  new n hn _ := hs.networks n hn
  old n _ _ := by
    cases hnetwork : s.networks n with
    | none => rfl
    | some network => exact congrArg some (within_self (hs.connected n network hnetwork)).symm

theorem Moved.trans (hs : Valid s) (h : Moved s t) (h' : Moved t u) : Moved s u where
  valid := h'.valid
  bridge := h'.bridge.trans h.bridge
  opened := h'.opened.trans h.opened
  nextNetwork := h.nextNetwork.trans h'.nextNetwork
  nextContainer := h.nextContainer.trans h'.nextContainer
  made := List.Subset.trans h.made h'.made
  handled := List.Subset.trans h.handled h'.handled
  gone c hc hu := h.gone c hc (h'.gone c (hc.trans_le h.nextContainer) hu)
  removed n hn hnone := h'.removed n (hn.trans_le h.nextNetwork) (h.removed n hn hnone)
  new n hn hmade := by
    by_cases hlt : n < t.nextNetwork
    · exact h'.removed n hlt (h.new n hn fun hmem => hmade (h'.made hmem))
    · exact h'.new n (not_lt.mp hlt) hmade
  old n hn hhandled := by
    rw [h'.old n (hn.trans_le h.nextNetwork) hhandled,
      h.old n hn fun hmem => hhandled (h'.handled hmem), Option.map_map]
    cases hnetwork : s.networks n with
    | none => rfl
    | some network =>
      have hkeeps : ∀ c ∈ network.connected, u.exists? c = true → t.exists? c = true := by
        intro c hc hu
        have hlt := exists?_lt hs (hs.connected n network hnetwork c hc)
        exact h'.gone c (hlt.trans_le h.nextContainer) hu
      refine congrArg some ?_
      simp only [Function.comp_apply, Network.within, List.filter_filter]
      congr 1
      refine List.filter_congr fun c hc => ?_
      cases hu : u.exists? c with
      | false => rfl
      | true => rw [hkeeps c hc hu]; rfl

/-- What changes none of the networks but `n`, and does not bring it back. -/
theorem Moved.setNetwork (h : Moved s t) (hhandled : n ∈ t.handled) {x : Option Network}
    (hx : t.networks n = none → x = none) (hvalid : Valid (t.setNetwork n x)) :
    Moved s (t.setNetwork n x) where
  valid := hvalid
  bridge := h.bridge
  opened := h.opened
  nextNetwork := h.nextNetwork
  nextContainer := h.nextContainer
  made := h.made
  handled := h.handled
  gone := h.gone
  removed m hm hnone := by
    have hbefore := h.removed m hm hnone
    by_cases hmn : m = n
    · subst hmn
      rw [networks_setNetwork_self, hx hbefore]
    · rwa [networks_setNetwork_of_ne hmn]
  new m hm hmade := by
    have hbefore := h.new m hm hmade
    by_cases hmn : m = n
    · subst hmn
      rw [networks_setNetwork_self, hx hbefore]
    · rwa [networks_setNetwork_of_ne hmn]
  old m hm hnot := by
    have hmn : m ≠ n := fun heq => hnot (heq ▸ hhandled)
    rw [networks_setNetwork_of_ne hmn]
    exact h.old m hm hnot

/-- Changing what a network lists keeps it a list of containers that are there. -/
theorem Valid.setNetwork (hs : Valid s) {x : Option Network}
    (hx : ∀ network, x = some network → n < s.nextNetwork ∧ network.connected.Nodup ∧
      ∀ c ∈ network.connected, s.exists? c = true) : Valid (s.setNetwork n x) where
  nodup m network hm := by
    by_cases hmn : m = n
    · subst hmn
      rw [networks_setNetwork_self] at hm
      exact (hx network hm).2.1
    · rw [networks_setNetwork_of_ne hmn] at hm
      exact hs.nodup m network hm
  connected m network hm := by
    by_cases hmn : m = n
    · subst hmn
      rw [networks_setNetwork_self] at hm
      exact (hx network hm).2.2
    · rw [networks_setNetwork_of_ne hmn] at hm
      exact hs.connected m network hm
  networks m hm := by
    by_cases hmn : m = n
    · subst hmn
      rw [networks_setNetwork_self]
      cases hnone : x with
      | none => rfl
      | some network => exact absurd hm (not_le.mpr (hx network hnone).1)
    · rw [networks_setNetwork_of_ne hmn]
      exact hs.networks m hm
  containers := hs.containers
  bridge := hs.bridge

theorem lt_nextNetwork (hs : Valid s) (hn : s.networks n = some network) : n < s.nextNetwork := by
  by_contra hlt
  rw [hs.networks n (Nat.le_of_not_lt hlt)] at hn
  cases hn

theorem Valid.within (hs : Valid s) (hn : s.networks n = some network)
    (keeps : ContainerId → Bool) : Valid (s.setNetwork n (some (network.within keeps))) := by
  refine hs.setNetwork fun network' heq => ?_
  obtain rfl := Option.some.inj heq
  refine ⟨lt_nextNetwork hs hn, (hs.nodup n network hn).filter _, fun c hc => ?_⟩
  exact hs.connected n network hn c (List.mem_filter.mp hc).1

theorem Valid.setNone (hs : Valid s) (n : NetworkId) : Valid (s.setNetwork n none) :=
  hs.setNetwork fun _ heq => by cases heq

theorem Valid.join (hs : Valid s) (hn : s.networks n = some network) (hc : s.exists? c = true)
    (hmem : c ∉ network.connected) :
    Valid (s.setNetwork n (some ⟨network.name, network.connected ++ [c]⟩)) := by
  refine hs.setNetwork fun network' heq => ?_
  obtain rfl := Option.some.inj heq
  refine ⟨lt_nextNetwork hs hn, ?_, fun d hd => ?_⟩
  · refine (hs.nodup n network hn).append (List.nodup_singleton c) ?_
    exact List.disjoint_singleton.mpr hmem
  · rcases List.mem_append.mp hd with hd | hd
    · exact hs.connected n network hn d hd
    · rw [List.mem_singleton.mp hd]
      exact hc

theorem Valid.addNetwork (hs : Valid s) (name : String) : Valid (s.addNetwork name) where
  nodup m network hm := by
    by_cases hnew : m = s.nextNetwork
    · rw [hnew, networks_addNetwork_self] at hm
      obtain rfl := Option.some.inj hm
      exact List.nodup_nil
    · rw [networks_addNetwork_of_ne hnew] at hm
      exact hs.nodup m network hm
  connected m network hm := by
    by_cases hnew : m = s.nextNetwork
    · rw [hnew, networks_addNetwork_self] at hm
      obtain rfl := Option.some.inj hm
      exact List.forall_mem_nil _
    · rw [networks_addNetwork_of_ne hnew] at hm
      exact hs.connected m network hm
  networks m hm := by
    have hlt : s.nextNetwork < m := hm
    rw [networks_addNetwork_of_ne hlt.ne']
    exact hs.networks m hlt.le
  containers := hs.containers
  bridge := Nat.lt_succ_of_lt hs.bridge

theorem map_within_self (hs : Valid s) {keeps : ContainerId → Bool}
    (h : ∀ c, s.exists? c = true → keeps c = true) (n : NetworkId) :
    (s.networks n).map (Network.within keeps) = s.networks n := by
  cases hn : s.networks n with
  | none => rfl
  | some network =>
    exact congrArg some (within_self fun c hc => h c (hs.connected n network hn c hc))

/-- A step that changes which containers are there, and the networks accordingly. -/
theorem moved_of_containers (hs : Valid s)
    (hnetworks : ∀ n, t.networks n = (s.networks n).map (Network.within t.exists?))
    (hgone : ∀ c < s.nextContainer, t.exists? c = true → s.exists? c = true)
    (hcontainers : ∀ c, t.nextContainer ≤ c → t.containers c = none)
    (hnextContainer : s.nextContainer ≤ t.nextContainer)
    (hnextNetwork : t.nextNetwork = s.nextNetwork) (hbridge : t.bridge = s.bridge)
    (hopened : t.opened = s.opened) (hmade : s.made ⊆ t.made)
    (hhandled : s.handled ⊆ t.handled) : Moved s t := by
  have hnone : ∀ n, s.networks n = none → t.networks n = none := by
    intro n hn
    rw [hnetworks, hn]
    rfl
  refine ⟨⟨?_, ?_, ?_, hcontainers, ?_⟩, hbridge, hopened, hnextNetwork.ge, hnextContainer, hmade,
    hhandled, hgone, fun n _ => hnone n, fun n hn _ => hnone n (hs.networks n hn),
    fun n _ _ => hnetworks n⟩
  · intro n network hn
    rw [hnetworks] at hn
    obtain ⟨network', hn', rfl⟩ := Option.map_eq_some_iff.mp hn
    exact (hs.nodup n network' hn').filter _
  · intro n network hn c hc
    rw [hnetworks] at hn
    obtain ⟨network', hn', rfl⟩ := Option.map_eq_some_iff.mp hn
    exact (List.mem_filter.mp hc).2
  · intro n hn
    exact hnone n (hs.networks n (hnextNetwork ▸ hn))
  · rw [hbridge, hnextNetwork]
    exact hs.bridge

theorem moved_countUuid (hs : Valid s) : Moved s s.countUuid :=
  moved_of_containers hs (fun n => (map_within_self hs (fun _ h => h) n).symm) (fun _ _ h => h)
    hs.containers le_rfl rfl rfl rfl (List.Subset.refl _) (List.Subset.refl _)

theorem moved_noteHandled (hs : Valid s) (n : NetworkId) : Moved s (s.noteHandled n) :=
  moved_of_containers hs (fun n => (map_within_self hs (fun _ h => h) n).symm) (fun _ _ h => h)
    hs.containers le_rfl rfl rfl rfl (List.Subset.refl _) (List.subset_cons_self ..)

theorem moved_addContainer (hs : Valid s) : Moved s s.addContainer := by
  have hother : ∀ c, c ≠ s.nextContainer → s.addContainer.containers c = s.containers c :=
    fun c hc => Function.update_of_ne hc ..
  have hkeeps : ∀ c, s.exists? c = true → s.addContainer.exists? c = true := by
    intro c hc
    rw [Daemon.exists?, hother c (exists?_lt hs hc).ne]
    exact hc
  refine moved_of_containers hs (fun n => (map_within_self hs hkeeps n).symm) ?_ ?_
    (Nat.le_succ _) rfl rfl rfl (List.Subset.refl _) (List.Subset.refl _)
  · intro c hc h
    rwa [Daemon.exists?, hother c hc.ne] at h
  · intro c hc
    have hlt : s.nextContainer < c := hc
    rw [hother c hlt.ne']
    exact hs.containers c hlt.le

theorem moved_newContainer (hs : Valid s) (network : Option NetworkId) :
    Moved s (s.newContainer network) := by
  have hnoted := moved_noteHandled hs (network.getD s.bridge)
  have hadded := moved_addContainer hnoted.valid
  refine (hnoted.trans hs hadded).setNetwork (List.mem_cons_self ..) ?_ ?_
  · intro hnone
    rw [hnone]
    rfl
  · cases hn : ((s.noteHandled (network.getD s.bridge)).addContainer).networks
        (network.getD s.bridge) with
    | none => exact hadded.valid.setNone _
    | some joined =>
      refine hadded.valid.join hn ?_ fun hmem => ?_
      · have hnew := Function.update_self s.nextContainer (some Status.created) s.containers
        exact congrArg Option.isSome hnew
      · exact (exists?_lt hs (hs.connected _ joined hn _ hmem)).ne rfl

theorem moved_setStatus (hs : Valid s) (hc : s.exists? c = true) (status : Status) :
    Moved s (s.setContainer c (some status)) := by
  have hexists : (s.setContainer c (some status)).exists? = s.exists? := by
    funext d
    by_cases hd : d = c
    · rw [hd, hc, Daemon.exists?, containers_setContainer_self]
      rfl
    · rw [Daemon.exists?, Daemon.exists?, containers_setContainer_of_ne hd]
  refine moved_of_containers hs ?_ ?_ ?_ le_rfl rfl rfl rfl (List.Subset.refl _)
    (List.Subset.refl _)
  · intro n
    rw [hexists]
    exact (map_within_self hs (fun _ h => h) n).symm
  · rw [hexists]
    exact fun _ _ h => h
  · intro d hd
    have hne : d ≠ c := by
      rintro rfl
      exact absurd (exists?_lt hs hc) (not_lt.mpr hd)
    rw [containers_setContainer_of_ne hne]
    exact hs.containers d hd

theorem moved_removeContainer (hs : Valid s) (c : ContainerId) :
    Moved s (s.setContainer c none).prune := by
  have hcontainers : ∀ d, s.containers d = none →
      (s.setContainer c none).prune.containers d = none := by
    intro d hd
    by_cases hdc : d = c
    · subst hdc
      exact containers_setContainer_self s d none
    · exact (containers_setContainer_of_ne hdc s none).trans hd
  refine moved_of_containers hs (fun _ => rfl) ?_ ?_ le_rfl rfl rfl rfl (List.Subset.refl _)
    (List.Subset.refl _)
  · intro d _ hd
    by_contra hnot
    have hnone : s.containers d = none := by simpa [Daemon.exists?] using hnot
    rw [Daemon.exists?, hcontainers d hnone] at hd
    cases hd
  · exact fun d hd => hcontainers d (hs.containers d hd)

/-- A network that the program makes itself. -/
theorem moved_made (hs : Valid s) (name : String) :
    Moved s ((s.addNetwork name).noteMade s.nextNetwork) := by
  have hvalid := hs.addNetwork name
  have h := Moved.refl hs
  refine ⟨⟨hvalid.nodup, hvalid.connected, hvalid.networks, hvalid.containers, hvalid.bridge⟩, rfl,
    rfl, Nat.le_succ _, le_rfl, List.subset_cons_self .., List.Subset.refl _, fun _ _ h => h,
    ?_, ?_, ?_⟩
  · intro n hn hnone
    exact (networks_addNetwork_of_ne hn.ne name).trans hnone
  · intro n hn hmade
    have hne : n ≠ s.nextNetwork := fun heq => hmade (heq ▸ List.mem_cons_self ..)
    exact (networks_addNetwork_of_ne hne name).trans (hs.networks n hn)
  · intro n hn hnot
    exact (networks_addNetwork_of_ne hn.ne name).trans (h.old n hn hnot)

/-- Behind a `temp_network` its network is gone, whatever the body made of it. -/
theorem moved_temp (name : String)
    (h : Moved ((s.addNetwork name).setOpened (s.nextNetwork :: s.opened)) t) :
    Moved s ((t.setOpened s.opened).setNetwork s.nextNetwork none) := by
  have hvalid : Valid (t.setOpened s.opened) :=
    ⟨h.valid.nodup, h.valid.connected, h.valid.networks, h.valid.containers, h.valid.bridge⟩
  have hbefore : s.nextNetwork < t.nextNetwork := h.nextNetwork
  refine ⟨hvalid.setNone _, h.bridge, rfl, hbefore.le, h.nextContainer, h.made, h.handled, h.gone,
    ?_, ?_, ?_⟩
  · intro n hn hnone
    rw [networks_setNetwork_of_ne hn.ne]
    refine h.removed n (Nat.lt_succ_of_lt hn) ?_
    exact (networks_addNetwork_of_ne hn.ne name).trans hnone
  · intro n hn hmade
    by_cases hself : n = s.nextNetwork
    · rw [hself, networks_setNetwork_self]
    · rw [networks_setNetwork_of_ne hself]
      have hlt : s.nextNetwork < n := lt_of_le_of_ne hn (Ne.symm hself)
      exact h.new n hlt hmade
  · intro n hn hnot
    rw [networks_setNetwork_of_ne hn.ne]
    refine (h.old n (Nat.lt_succ_of_lt hn) hnot).trans ?_
    exact congrArg _ (networks_addNetwork_of_ne hn.ne name)

/-- Unless the body has handled it itself, a network that a container was connected to is
left with that container as its last one, if it is still there. -/
theorem joined_old (hn : s.networks n = some network) (hvalid : Valid s)
    (h : Moved (s.setNetwork n (some ⟨network.name, network.connected ++ [c]⟩)) t)
    (hnot : n ∉ t.handled) : t.networks n =
      some (Network.within t.exists? ⟨network.name, network.connected ++ [c]⟩) := by
  have hlt : n < s.nextNetwork := lt_nextNetwork hvalid hn
  rw [h.old n hlt hnot, networks_setNetwork_self]
  rfl

theorem moved_joined (hs : Valid s) (hn : s.networks n = some network)
    (h : Moved (s.setNetwork n (some ⟨network.name, network.connected ++ [c]⟩)) t)
    {x : Option Network} (hvalid : Valid (t.setNetwork n x))
    (hx : t.networks n = none → x = none)
    (hrestored : n ∉ t.handled → x = some (network.within t.exists?)) :
    Moved s (t.setNetwork n x) := by
  have hlt := lt_nextNetwork hs hn
  refine ⟨hvalid, h.bridge, h.opened, h.nextNetwork, h.nextContainer, h.made, h.handled, h.gone,
    ?_, ?_, ?_⟩
  · intro m hm hnone
    have hmn : m ≠ n := by
      rintro rfl
      rw [hn] at hnone
      cases hnone
    rw [networks_setNetwork_of_ne hmn]
    exact h.removed m hm ((networks_setNetwork_of_ne hmn s _).trans hnone)
  · intro m hm hmade
    have hmn : m ≠ n := (hlt.trans_le hm).ne'
    rw [networks_setNetwork_of_ne hmn]
    exact h.new m hm hmade
  · intro m hm hnot
    by_cases hmn : m = n
    · subst hmn
      rw [networks_setNetwork_self, hrestored hnot, hn]
      rfl
    · rw [networks_setNetwork_of_ne hmn]
      refine (h.old m hm hnot).trans ?_
      exact congrArg _ (networks_setNetwork_of_ne hmn s _)

theorem setNetwork_self (s : Daemon) (n : NetworkId) : s.setNetwork n (s.networks n) = s := by
  rw [Daemon.setNetwork, Function.update_eq_self]

end Moving

/-! ### The scopes -/

section Scopes

variable {E : Type} {uuid1 : ℕ → String} {s t u v : Daemon} {r : Except (Exc E) Unit}

theorem raising_ok {α : Type} {wrap : ApiError → Exc E} {call : Call α} {a : α}
    (h : call s = (.ok a, t)) : raising wrap call s = (.ok a, t) := by
  simp only [raising, h]
  rfl

theorem raising_error {α : Type} {wrap : ApiError → Exc E} {call : Call α} {e : ApiError}
    (h : call s = (.error e, t)) : raising wrap call s = (.error (wrap e), t) := by
  simp only [raising, h]
  rfl

/-- Where a program comes out: the exits raise only for a network it has handled. -/
def Ends (E : Type) : ScopePrograms.Ends Scope Daemon (Exc E) := fun _ s r t =>
  Valid s → Moved s t ∧ ∀ n e, r = .error (.leaving n e) → n ∈ t.handled

theorem exec_ends (a : Statement E) (live : List Scope) (s : Daemon) :
    Ends E live s (a.exec uuid1 s).1 (a.exec uuid1 s).2 := by
  intro hs
  cases a with
  | newNetwork name =>
    obtain ⟨w, hw, hcall⟩ := newNetwork_cases uuid1 name s
    have hmoved : Moved s w := by
      rcases hw with rfl | rfl
      · exact Moved.refl hs
      · exact moved_countUuid hs
    rcases hcall with ⟨e, hcall⟩ | ⟨text, hcall⟩
    · rw [Statement.exec, Act.bind_error (raising_error hcall)]
      exact ⟨hmoved, fun n e h => by cases h⟩
    · rw [Statement.exec, Act.bind_ok (raising_ok hcall)]
      exact ⟨hmoved.trans hs (moved_made hmoved.valid text), fun n e h => by cases h⟩
  | networkConnect n c =>
    have hmoved := moved_noteHandled hs n
    rw [Statement.exec, Act.modify_bind]
    rcases networkConnect_cases n c (s.noteHandled n) with
      ⟨e, hcall⟩ | ⟨-, -, hcall⟩ | ⟨network, hn, hc, hmem, hcall⟩
    · rw [raising_error hcall]
      exact ⟨hmoved, fun n e h => by cases h⟩
    · rw [raising_ok hcall]
      exact ⟨hmoved, fun n e h => by cases h⟩
    · rw [raising_ok hcall]
      refine ⟨hmoved.setNetwork (List.mem_cons_self ..) ?_ (hmoved.valid.join hn hc hmem),
        fun n e h => by cases h⟩
      intro hnone
      rw [hn] at hnone
      cases hnone
  | networkDisconnect n c =>
    have hmoved := moved_noteHandled hs n
    rw [Statement.exec, Act.modify_bind]
    rcases networkDisconnect_cases n c (s.noteHandled n) with ⟨e, hcall, -⟩ | ⟨network, hn, hcall⟩
    · rw [raising_error hcall]
      exact ⟨hmoved, fun n e h => by cases h⟩
    · rw [raising_ok hcall]
      refine ⟨hmoved.setNetwork (List.mem_cons_self ..) ?_ (hmoved.valid.within hn _),
        fun n e h => by cases h⟩
      intro hnone
      rw [hn] at hnone
      cases hnone
  | networkRemove n =>
    have hmoved := moved_noteHandled hs n
    rw [Statement.exec, Act.modify_bind]
    rcases networkRemove_cases n (s.noteHandled n) with ⟨e, hcall⟩ | hcall
    · rw [raising_error hcall]
      exact ⟨hmoved, fun n e h => by cases h⟩
    · rw [raising_ok hcall]
      exact ⟨hmoved.setNetwork (List.mem_cons_self ..) (fun _ => rfl) (hmoved.valid.setNone n),
        fun n e h => by cases h⟩
  | newContainer network => exact ⟨moved_newContainer hs network, fun n e h => by cases h⟩
  | setStatus c result =>
    rw [Statement.exec]
    rcases setStatus_cases c result s with ⟨e, hcall⟩ | ⟨status, hc, hcall⟩
    · rw [raising_error hcall]
      exact ⟨Moved.refl hs, fun n e h => by cases h⟩
    · rw [raising_ok hcall]
      exact ⟨moved_setStatus hs hc status, fun n e h => by cases h⟩
  | removeContainer c =>
    cases hc : s.exists? c with
    | false =>
      rw [Statement.exec, Act.bind_error (raising_error (findContainer_missing hc))]
      exact ⟨Moved.refl hs, fun n e h => by cases h⟩
    | true =>
      rw [Statement.exec, Act.bind_ok (raising_ok (findContainer_present hc))]
      exact ⟨moved_removeContainer hs c, fun n e h => by cases h⟩
  | raise e => exact ⟨Moved.refl hs, fun n e h => by cases h⟩

/-- Leaving a network that is gone, or is there and not to be removed, or can be. -/
theorem disconnectAll_cases (hs : Valid s) (n : NetworkId) (remove : Bool) :
    (s.networks n = none ∧ disconnectAll n remove s = (.error .notFound, s)) ∨
      ∃ network, s.networks n = some network ∧
        ((∃ r, (r = .ok () ∧ remove = false ∨ r = .error .forbidden ∧ n = s.bridge) ∧
          disconnectAll n remove s =
            (r, s.setNetwork n (some (network.within fun c => !s.up c)))) ∨
        disconnectAll n remove s = (.ok (), s.setNetwork n none)) := by
  cases hn : s.networks n with
  | none => exact Or.inl ⟨rfl, disconnectAll_missing hn remove⟩
  | some network =>
    refine Or.inr ⟨network, rfl, ?_⟩
    rw [disconnectAll_present hn (hs.nodup n network hn) (hs.connected n network hn) remove]
    cases remove with
    | false => exact Or.inl ⟨_, Or.inl ⟨rfl, rfl⟩, rfl⟩
    | true =>
      by_cases hbridge : n = s.bridge
      · exact Or.inl ⟨_, Or.inr ⟨rfl, hbridge⟩,
          networkRemove_bridge (networks_setNetwork_self ..) hbridge⟩
      · exact Or.inr (networkRemove_down hbridge network)

theorem enter_temp (uuid1 : ℕ → String) (name : Option String) (hs : Valid s) :
    (∃ e t, Scope.enter (E := E) uuid1 (.tempNetwork name) s = (.error (.entering e), t) ∧
        Moved s t) ∨
      ∃ w text, Moved s w ∧ Scope.enter (E := E) uuid1 (.tempNetwork name) s =
        (.ok (), (w.addNetwork text).setOpened (w.nextNetwork :: w.opened)) := by
  obtain ⟨w, hw, hcall⟩ := newNetwork_cases uuid1 name s
  have hmoved : Moved s w := by
    rcases hw with rfl | rfl
    · exact Moved.refl hs
    · exact moved_countUuid hs
  rcases hcall with ⟨e, hcall⟩ | ⟨text, hcall⟩
  · exact Or.inl ⟨e, w, Act.bind_error (raising_error hcall), hmoved⟩
  · refine Or.inr ⟨w, text, hmoved, ?_⟩
    rw [Scope.enter, Act.bind_ok (raising_ok hcall)]
    rfl

theorem moved_noteConnect (hs : Valid s) (n : NetworkId) (c : ContainerId) :
    Moved s (s.noteConnect n c) := by
  rw [Daemon.noteConnect]
  split_ifs
  · exact moved_noteHandled hs n
  · exact Moved.refl hs

theorem enter_connect (uuid1 : ℕ → String) (n : NetworkId) (c : ContainerId) (s : Daemon) :
    (∃ e, Scope.enter (E := E) uuid1 (.connect n c) s = (.error (.entering e), s.noteConnect n c)) ∨
      (n ∈ (s.noteConnect n c).handled ∧
        Scope.enter (E := E) uuid1 (.connect n c) s = (.ok (), s.noteConnect n c)) ∨
      ∃ network, s.networks n = some network ∧ s.exists? c = true ∧ c ∉ network.connected ∧
        Scope.enter (E := E) uuid1 (.connect n c) s =
          (.ok (), s.setNetwork n (some ⟨network.name, network.connected ++ [c]⟩)) := by
  have henter : Scope.enter (E := E) uuid1 (.connect n c) s =
      raising .entering (enterConnect n c) (s.noteConnect n c) := rfl
  rw [henter]
  rcases networkConnect_cases n c (s.noteConnect n c) with
    ⟨e, hcall⟩ | ⟨hconnects, hc, hcall⟩ | ⟨network, hn, hc, hmem, hcall⟩
  · exact Or.inl ⟨e, raising_error (Act.bind_error hcall)⟩
  · refine Or.inr (Or.inl ⟨?_, raising_ok ((Act.bind_ok hcall).trans (findContainer_present hc))⟩)
    have hbefore : s.connects n c = true := by
      rw [Daemon.noteConnect] at hconnects
      split_ifs at hconnects with hif
      · exact hif
      · exact hconnects
    rw [Daemon.noteConnect, if_pos hbefore]
    exact List.mem_cons_self ..
  · have hnot : s.noteConnect n c = s := by
      rw [Daemon.noteConnect, if_neg]
      intro hconnects
      rw [Daemon.noteConnect, if_pos hconnects] at hn
      have hsame : s.networks n = some network := hn
      rw [connects_present hsame] at hconnects
      exact hmem (of_decide_eq_true hconnects)
    rw [hnot] at hn hc hcall ⊢
    refine Or.inr (Or.inr ⟨network, hn, hc, hmem, raising_ok ?_⟩)
    rw [enterConnect, Act.bind_ok hcall]
    exact findContainer_present hc

/-- Coming out of a `temp_network`. -/
theorem temp_left {w : Daemon} {text : String} {live : List Scope}
    (hbody : Ends E live ((w.addNetwork text).setOpened (w.nextNetwork :: w.opened)) r u)
    (hw : Valid w) (name : Option String) :
    ∃ r', Scope.exit (E := E) (.tempNetwork name) u =
        (r', (u.setOpened w.opened).setNetwork w.nextNetwork none) ∧
      (r' = .ok () ∨ w.nextNetwork ∈ u.handled ∧
        r' = .error (.leaving w.nextNetwork .notFound)) := by
  have hvalid := hw.addNetwork text
  obtain ⟨hmoved, -⟩ :=
    hbody ⟨hvalid.nodup, hvalid.connected, hvalid.networks, hvalid.containers, hvalid.bridge⟩
  have hopened : u.opened = w.nextNetwork :: w.opened := hmoved.opened
  have hvalid' : Valid (u.setOpened w.opened) :=
    ⟨hmoved.valid.nodup, hmoved.valid.connected, hmoved.valid.networks, hmoved.valid.containers,
      hmoved.valid.bridge⟩
  rw [Scope.exit, Act.get_bind, hopened]
  rcases disconnectAll_cases hvalid' w.nextNetwork true with
    ⟨hn, hcall⟩ | ⟨network, hn, ⟨r', hr', -⟩ | hcall⟩
  · refine ⟨_, ?_, Or.inr ⟨?_, rfl⟩⟩
    · rw [← hn, setNetwork_self]
      exact raising_error hcall
    · by_contra hnot
      have hold := hmoved.old w.nextNetwork (Nat.lt_succ_self _) hnot
      have hthere : u.networks w.nextNetwork = some _ :=
        hold.trans (congrArg _ (networks_addNetwork_self w text))
      have hgone : u.networks w.nextNetwork = none := hn
      rw [hgone] at hthere
      cases hthere
  · rcases hr' with ⟨-, hkept⟩ | ⟨-, hbridge⟩
    · cases hkept
    · have hsame : u.bridge = w.bridge := hmoved.bridge
      exact absurd (hbridge.trans hsame) hw.bridge.ne'
  · exact ⟨_, raising_ok hcall, Or.inl rfl⟩

/-- Coming out of a `connect` of a container that was in the network already. -/
theorem reconnect_left {n : NetworkId} (hmoved : Moved s u) (hhandled : n ∈ u.handled)
    (c : ContainerId) : ∃ r' v, Scope.exit (E := E) (.connect n c) u = (r', v) ∧ Moved s v ∧
      v.handled = u.handled ∧ (r' = .ok () ∨ ∃ e, r' = .error (.leaving n e)) := by
  rw [Scope.exit]
  cases hcu : u.exists? c with
  | false =>
    have hcall : leaveConnect n c u = (.ok (), u) := by
      rw [leaveConnect, Act.get_bind, hcu]
      rfl
    exact ⟨_, u, raising_ok hcall, hmoved, rfl, Or.inl rfl⟩
  | true =>
    have hleave : leaveConnect n c u = networkDisconnect n c u := by
      rw [leaveConnect, Act.get_bind, hcu]
      rfl
    rcases networkDisconnect_cases n c u with ⟨e, hcall, -⟩ | ⟨network, hn, hcall⟩
    · exact ⟨_, u, raising_error (hleave.trans hcall), hmoved, rfl, Or.inr ⟨e, rfl⟩⟩
    · refine ⟨_, _, raising_ok (hleave.trans hcall),
        hmoved.setNetwork hhandled ?_ (hmoved.valid.within hn _), rfl, Or.inl rfl⟩
      intro hnone
      rw [hn] at hnone
      cases hnone

/-- Coming out of a `connect` that has connected its container. -/
theorem connect_left {n : NetworkId} {c : ContainerId} {network : Network} {live : List Scope}
    (hs : Valid s) (hn : s.networks n = some network) (hc : s.exists? c = true)
    (hmem : c ∉ network.connected)
    (hbody : Ends E live (s.setNetwork n (some ⟨network.name, network.connected ++ [c]⟩)) r u) :
    ∃ r' v, Scope.exit (E := E) (.connect n c) u = (r', v) ∧ Moved s v ∧
      v.handled = u.handled ∧ (r' = .ok () ∨ n ∈ u.handled ∧ ∃ e, r' = .error (.leaving n e)) := by
  obtain ⟨hmoved, -⟩ := hbody (hs.join hn hc hmem)
  have hold := joined_old hn hs hmoved
  have hstays : (n ∉ u.handled → u.networks n = some (network.within u.exists?)) → Moved s u := by
    intro hrestored
    have h := moved_joined hs hn hmoved (x := u.networks n) ?_ (fun h => h) hrestored
    · rwa [setNetwork_self] at h
    · rw [setNetwork_self]
      exact hmoved.valid
  rw [Scope.exit]
  cases hcu : u.exists? c with
  | false =>
    have hcall : leaveConnect n c u = (.ok (), u) := by
      rw [leaveConnect, Act.get_bind, hcu]
      rfl
    refine ⟨_, u, raising_ok hcall, hstays fun hnot => ?_, rfl, Or.inl rfl⟩
    rw [hold hnot, within_join_gone hcu]
  | true =>
    have hleave : leaveConnect n c u = networkDisconnect n c u := by
      rw [leaveConnect, Act.get_bind, hcu]
      rfl
    rcases networkDisconnect_cases n c u with ⟨e, hcall, hrefused⟩ | ⟨network', hn', hcall⟩
    · have hhandled : n ∈ u.handled := by
        by_contra hnot
        refine hrefused _ (hold hnot) hcu (List.mem_filter.mpr ⟨?_, hcu⟩)
        exact List.mem_append_right _ (List.mem_singleton_self c)
      exact ⟨_, u, raising_error (hleave.trans hcall), hstays fun hnot => absurd hhandled hnot, rfl,
        Or.inr ⟨hhandled, e, rfl⟩⟩
    · refine ⟨_, _, raising_ok (hleave.trans hcall),
        moved_joined hs hn hmoved (hmoved.valid.within hn' _) ?_ ?_, rfl, Or.inl rfl⟩
      · intro hnone
        rw [hn'] at hnone
        cases hnone
      · intro hnot
        have heq := Option.some.inj (hn'.symm.trans (hold hnot))
        rw [heq, within_join u.exists? hmem]

/-- An entry that raises leaves the networks alone. -/
theorem enter_refused {i : Scope} {e : Exc E} (hs : Valid s)
    (h : Scope.enter uuid1 i s = (.error e, t)) : Moved s t ∧ ∃ e', e = .entering e' := by
  cases i with
  | tempNetwork name =>
    rcases enter_temp (E := E) uuid1 name hs with ⟨e', w, hcall, hmoved⟩ | ⟨w, text, -, hcall⟩
    · cases hcall.symm.trans h
      exact ⟨hmoved, e', rfl⟩
    · cases hcall.symm.trans h
  | disconnecting n remove => cases h
  | connect n c =>
    rcases enter_connect (E := E) uuid1 n c s with
      ⟨e', hcall⟩ | ⟨-, hcall⟩ | ⟨network, -, -, -, hcall⟩
    · cases hcall.symm.trans h
      exact ⟨moved_noteConnect hs n c, e', rfl⟩
    · cases hcall.symm.trans h
    · cases hcall.symm.trans h

/-- Every scope that was entered is left with its own network restored, or handled. -/
theorem scope_left {i : Scope} {live : List Scope} (hs : Valid s)
    (henter : Scope.enter (E := E) uuid1 i s = (.ok (), t)) (hbody : Ends E live t r u) :
    (∀ n e, r = .error (.leaving n e) → n ∈ u.handled) ∧
      ∃ r' v, Scope.exit (E := E) i u = (r', v) ∧ Moved s v ∧ v.handled = u.handled ∧
        (r' = .ok () ∨ ∃ n e, n ∈ u.handled ∧ r' = .error (.leaving n e)) := by
  cases i with
  | tempNetwork name =>
    rcases enter_temp (E := E) uuid1 name hs with ⟨e', w, hcall, -⟩ | ⟨w, text, hmoved, hcall⟩
    · cases hcall.symm.trans henter
    · cases hcall.symm.trans henter
      have hvalid := hmoved.valid.addNetwork text
      obtain ⟨hinside, herrors⟩ :=
        hbody ⟨hvalid.nodup, hvalid.connected, hvalid.networks, hvalid.containers, hvalid.bridge⟩
      obtain ⟨r', hexit, hr'⟩ := temp_left hbody hmoved.valid name
      refine ⟨herrors, r', _, hexit, hmoved.trans hs (moved_temp text hinside), rfl, ?_⟩
      rcases hr' with hok | ⟨hhandled, herror⟩
      · exact Or.inl hok
      · exact Or.inr ⟨_, _, hhandled, herror⟩
  | disconnecting n remove =>
    cases henter
    have hnoted := moved_noteHandled hs n
    obtain ⟨hinside, herrors⟩ := hbody hnoted.valid
    refine ⟨herrors, ?_⟩
    have hmoved := hnoted.trans hs hinside
    have hhandled : n ∈ u.handled := hinside.handled (List.mem_cons_self ..)
    rcases disconnectAll_cases hinside.valid n remove with
      ⟨-, hcall⟩ | ⟨network, hn, ⟨r', hr', hcall⟩ | hcall⟩
    · exact ⟨_, u, raising_error hcall, hmoved, rfl, Or.inr ⟨n, _, hhandled, rfl⟩⟩
    · have hkept : Moved s (u.setNetwork n (some (network.within fun c => !u.up c))) := by
        refine hmoved.setNetwork hhandled ?_ (hinside.valid.within hn _)
        intro hnone
        rw [hn] at hnone
        cases hnone
      rcases hr' with ⟨rfl, -⟩ | ⟨rfl, -⟩
      · exact ⟨_, _, raising_ok hcall, hkept, rfl, Or.inl rfl⟩
      · exact ⟨_, _, raising_error hcall, hkept, rfl, Or.inr ⟨n, _, hhandled, rfl⟩⟩
    · exact ⟨_, _, raising_ok hcall,
        hmoved.setNetwork hhandled (fun _ => rfl) (hinside.valid.setNone n), rfl, Or.inl rfl⟩
  | connect n c =>
    rcases enter_connect (E := E) uuid1 n c s with
      ⟨e', hcall⟩ | ⟨hhandled, hcall⟩ | ⟨network, hn, hc, hmem, hcall⟩
    · cases hcall.symm.trans henter
    · cases hcall.symm.trans henter
      have hnoted := moved_noteConnect hs n c
      obtain ⟨hinside, herrors⟩ := hbody hnoted.valid
      obtain ⟨r', v, hexit, hmoved, hsame, hr'⟩ := reconnect_left (E := E)
        (hnoted.trans hs hinside) (hinside.handled hhandled) c
      refine ⟨herrors, r', v, hexit, hmoved, hsame, ?_⟩
      rcases hr' with hok | ⟨e, herror⟩
      · exact Or.inl hok
      · exact Or.inr ⟨n, e, hinside.handled hhandled, herror⟩
    · cases hcall.symm.trans henter
      obtain ⟨r', v, hexit, hmoved, hsame, hr'⟩ := connect_left hs hn hc hmem hbody
      refine ⟨(hbody (hs.join hn hc hmem)).2, r', v, hexit, hmoved, hsame, ?_⟩
      rcases hr' with hok | ⟨hhandled, e, herror⟩
      · exact Or.inl hok
      · exact Or.inr ⟨n, e, hhandled, herror⟩

theorem ends_rules (E : Type) (uuid1 : ℕ → String) :
    Rules (meaning uuid1) (fun _ _ => True) (Ends E) where
  pass hs := ⟨Moved.refl hs, fun _ _ h => by cases h⟩
  act {live s} a := exec_ends a live s
  next h h' hs := by
    obtain ⟨hmoved, -⟩ := h hs
    obtain ⟨hmoved', herror⟩ := h' hmoved.valid
    exact ⟨hmoved.trans hs hmoved', herror⟩
  handled h h' hs := by
    obtain ⟨hmoved, -⟩ := h hs
    obtain ⟨hmoved', herror⟩ := h' hmoved.valid
    exact ⟨hmoved.trans hs hmoved', herror⟩
  refused _ henter hs := by
    obtain ⟨hmoved, e', rfl⟩ := enter_refused hs henter
    exact ⟨hmoved, fun _ _ h => by cases h⟩
  left _ henter hbody hexit hs := by
    obtain ⟨herrors, r', v', hexit', hmoved, hsame, -⟩ := scope_left hs henter hbody
    cases hexit'.symm.trans hexit
    refine ⟨hmoved, fun n e h => ?_⟩
    rw [hsame]
    exact herrors n e h
  leftRaising _ henter hbody hexit hs := by
    obtain ⟨-, r', v', hexit', hmoved, hsame, hr'⟩ := scope_left hs henter hbody
    cases hexit'.symm.trans hexit
    refine ⟨hmoved, fun n e h => ?_⟩
    rcases hr' with hok | ⟨m, e', hhandled, herror⟩
    · cases hok
    · cases herror.symm.trans h
      rw [hsame]
      exact hhandled

end Scopes

/-- Whatever a program does that nests `temp_network`, `disconnecting` and `connect`: behind
it every network made for one of its scopes is gone, a network that was there before and
that the program has not handled itself is as it was, but for containers that are gone, and
an exit has raised only for a network that the program has handled itself. -/
theorem networks_spec {E : Type} (uuid1 : ℕ → String)
    (p : Program (Statement E) Scope Daemon (Exc E)) (w t : Daemon) (r : Except (Exc E) Unit)
    (hvalid : Valid w) (hrun : p.run (meaning uuid1) w = (r, t)) :
    (∀ n, w.nextNetwork ≤ n → n ∉ t.made → t.networks n = none) ∧
    (∀ n < w.nextNetwork, n ∉ t.handled →
      t.networks n = (w.networks n).map (Network.within t.exists?)) ∧
    ∀ n e, r = .error (.leaving n e) → n ∈ t.handled := by
  have hends := (ends_rules E uuid1).run (p.scoped_trivial []) w hvalid
  rw [hrun] at hends
  exact ⟨hends.1.new, hends.1.old, hends.2⟩

/-- One running container, which the default network and another one have. -/
def twoNetworks : Daemon where
  containers := fun c => if c = 0 then some .running else none
  networks := fun n => [⟨"bridge", [0]⟩, ⟨"back", [0]⟩][n]?
  bridge := 0
  nextContainer := 1
  nextNetwork := 2
  uuids := 0
  opened := []
  made := []
  handled := []

/-- A temporary network that the container is connected to, and a new container, while the
body raises. -/
def raisingInside : Program (Statement Unit) Scope Daemon (Exc Unit) :=
  .withScope (.tempNetwork none) (.look fun w => .withScope (.connect w.nextNetwork.pred 0)
    (.seq (.act (.newContainer none)) (.act (.raise ()))))

theorem networks_spec_raisingInside : ∃ t,
    raisingInside.run (meaning fun _ => "0") twoNetworks = (.error (.own ()), t) ∧
      t.networks 2 = none ∧ t.networks 1 = some ⟨"back", [0]⟩ := by
  have hvalid : Valid twoNetworks := by
    have hconnected : ∀ n network, twoNetworks.networks n = some network →
        network.connected = [0] := by
      intro n network hn
      have hmem := List.mem_of_getElem? hn
      rcases List.mem_pair.mp hmem with rfl | rfl <;> rfl
    refine ⟨fun n network hn => ?_, fun n network hn c hc => ?_, fun n hn => ?_, fun c hc => ?_,
      by decide⟩
    · rw [hconnected n network hn]
      exact List.nodup_singleton 0
    · rw [hconnected n network hn] at hc
      rw [List.mem_singleton.mp hc]
      rfl
    · exact List.getElem?_eq_none hn
    · exact if_neg (Nat.one_le_iff_ne_zero.mp hc)
  obtain ⟨hnew, hold, -⟩ := networks_spec (fun _ => "0") raisingInside twoNetworks _ _ hvalid rfl
  exact ⟨_, rfl, hnew 2 le_rfl (by decide), (hold 1 (by decide) (by decide)).trans rfl⟩

end Yellowbox.Docker.TempNetworks
