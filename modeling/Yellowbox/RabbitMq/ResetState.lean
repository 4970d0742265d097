import Yellowbox.Base.Effects
import Yellowbox.Base.PercentQuoting

/-!
`RabbitMQService.reset_state`. The queues that the management API lists are deleted one
by one, each by a path of its own: the names of the virtual host and of the queue are
quoted, so that they may hold any characters, also slashes and percent signs. The first
queue that the API refuses to delete ends the loop.
-/
namespace Yellowbox.RabbitMq

open Effects PercentEncoding

/-- A queue; one that has consumers is in use. -/
structure Queue where
  vhost : List Char
  name : List Char
  used : Bool
  deriving DecidableEq

def Queue.key (q : Queue) : List Char × List Char := (q.vhost, q.name)

/-- The container: the external port of the management API if it is published, whether the
plugin is enabled, who may use it, and the queues in the order in which they are listed. -/
structure Broker where
  managementPort : Option ℕ
  managementEnabled : Bool
  credentials : String × String
  queues : List Queue
  deriving DecidableEq

inductive Error
  | runtimeError (message : String)
  | connectionError
  | httpError (status : ℕ)
  deriving DecidableEq

/-- A URL on the exposed host. -/
structure Url where
  port : ℕ
  path : List Char
  deriving DecidableEq

/-- What answers the requests: `GET` of a list of queues, which is read as JSON, and
`DELETE`, possibly with `if-unused`. A status of failure is an exception. -/
structure ManagementApi where
  get : String × String → Url → Act Broker Error (List (List Char × List Char))
  delete : String × String → Url → Bool → Act Broker Error Unit

/-- `self.user` and `self.password` -/
structure Service where
  user : String
  password : String

def Service.auth (service : Service) : String × String := (service.user, service.password)

/-- `management_url` -/
def managementUrl : Act Broker Error Url := do
  match (← Act.get).managementPort with
  | none => Act.raise (.runtimeError "Management is not enabled.")
  | some port => return { port, path := ['/'] }

/-- `management_url + "api/queues"` -/
def queuesUrl (managementUrl : Url) : Url :=
  { managementUrl with path := managementUrl.path ++ "api/queues".toList }

/-- `management_url + f"api/queues/{vhost}/{name}"`, with both of them quoted -/
def queueUrl (managementUrl : Url) (queue : List Char × List Char) : Url :=
  { managementUrl with
    path := managementUrl.path ++ "api/queues/".toList ++ quote queue.1 ++ '/' :: quote queue.2 }

/-- The loop body of `reset_state`. -/
def ManagementApi.deleteQueue (api : ManagementApi) (auth : String × String) (managementUrl : Url)
    (ifUnused : Bool) (queue : List Char × List Char) : Act Broker Error Unit :=
  api.delete auth (queueUrl managementUrl queue) ifUnused

/-- `reset_state` -/
def Service.resetState (service : Service) (api : ManagementApi) (forceQueueDeletion : Bool) :
    Act Broker Error Unit := do
  let url ← Act.handle managementUrl
    fun _ => Act.raise (.runtimeError "management must be enabled for clean_slate")
  let extantQueues ← api.get service.auth (queuesUrl url)
  let ifUnused := !forceQueueDeletion
  Act.forEach (api.deleteQueue service.auth url ifUnused) extantQueues

/-! ### The management API -/

/-- A part of a path that reaches the API as it is: a client takes out dot segments. -/
def Segment (text : List Char) : Prop := '/' ∉ text ∧ text ≠ ['.'] ∧ text ≠ ['.', '.']

/-- The API as it is documented: it is there once the plugin is enabled, it tells the
names of the queues, and it takes the last two segments of a path, once they are
unquoted, for the virtual host and the name of the queue to be deleted. -/
structure ManagementApi.Documented (api : ManagementApi) : Prop where
  get_disabled : ∀ {w : Broker} {auth : String × String} {url : Url},
    w.managementEnabled = false → api.get auth url w = (.error .connectionError, w)
  get_unauthorized : ∀ {w : Broker} {auth : String × String} {url : Url},
    w.managementPort = some url.port → w.managementEnabled = true → auth ≠ w.credentials →
      api.get auth url w = (.error (.httpError 401), w)
  get_queues : ∀ {w : Broker} {url : Url},
    w.managementPort = some url.port → w.managementEnabled = true →
      url.path = "/api/queues".toList →
        api.get w.credentials url w = (.ok (w.queues.map Queue.key), w)
  delete_queue : ∀ {w : Broker} {url : Url} {vhost name : List Char} {q : Queue}
    (ifUnused : Bool), w.managementPort = some url.port → w.managementEnabled = true →
      Segment vhost → Segment name →
      url.path = "/api/queues/".toList ++ vhost ++ '/' :: name →
      w.queues.find? (fun q => q.key = (unquote vhost, unquote name)) = some q →
        api.delete w.credentials url ifUnused w =
          if ifUnused && q.used then (.error (.httpError 400), w)
          else (.ok (), { w with queues := w.queues.filter fun q' => q'.key ≠ q.key })

/-! ### One request -/

/-- Neither name is a dot segment. -/
def Queue.Addressable (q : Queue) : Prop :=
  q.vhost ≠ ['.'] ∧ q.vhost ≠ ['.', '.'] ∧ q.name ≠ ['.'] ∧ q.name ≠ ['.', '.']

theorem quote_dots : quote ['.'] = ['.'] ∧ quote ['.', '.'] = ['.', '.'] := by decide

/-- Quoting makes a name a segment, whatever its characters. -/
theorem segment_quote {text : List Char} (hdot : text ≠ ['.']) (hdots : text ≠ ['.', '.']) :
    Segment (quote text) := by
  refine ⟨slash_not_mem_quote text, fun h => hdot ?_, fun h => hdots ?_⟩
  · exact quote_injective (h.trans quote_dots.1.symm)
  · exact quote_injective (h.trans quote_dots.2.symm)

def Broker.withQueues (w : Broker) (queues : List Queue) : Broker := { w with queues }

/-- What `reset_state` may delete. -/
def Queue.deletable (force : Bool) (q : Queue) : Bool := force || !q.used

section Requests

variable {api : ManagementApi} {w : Broker} {port : ℕ} {q : Queue} {queues : List Queue}

/-- The request for the first of the queues meets that queue and no other. -/
theorem delete_first (hapi : api.Documented) (hport : w.managementPort = some port)
    (henabled : w.managementEnabled = true) (haddress : q.Addressable)
    (hkeys : ((q :: queues).map Queue.key).Nodup) (force : Bool) :
    api.deleteQueue w.credentials ⟨port, ['/']⟩ (!force) q.key (w.withQueues (q :: queues)) =
      if q.deletable force then (.ok (), w.withQueues queues)
      else (.error (.httpError 400), w.withQueues (q :: queues)) := by
  obtain ⟨hvhost, hvhost', hname, hname'⟩ := haddress
  have hfirst : (q :: queues).find? (fun q' => q'.key =
      (unquote (quote q.vhost), unquote (quote q.name))) = some q := by
    rw [unquote_quote, unquote_quote]
    exact List.find?_cons_of_pos (decide_eq_true rfl)
  have hothers : (q :: queues).filter (fun q' => q'.key ≠ q.key) = queues := by
    rw [List.map_cons, List.nodup_cons] at hkeys
    rw [List.filter_cons_of_neg (by simp)]
    refine List.filter_eq_self.mpr fun q' hq' => decide_eq_true fun heq => hkeys.1 ?_
    exact heq ▸ List.mem_map_of_mem hq'
  have hpath : (queueUrl ⟨port, ['/']⟩ q.key).path =
      "/api/queues/".toList ++ quote q.vhost ++ '/' :: quote q.name := rfl
  have hlisten : (w.withQueues (q :: queues)).managementPort =
      some (queueUrl ⟨port, ['/']⟩ q.key).port := hport
  have hdelete := hapi.delete_queue (!force) hlisten henabled
    (segment_quote hvhost hvhost') (segment_quote hname hname') hpath hfirst
  have hrefused : (!force && q.used) = !q.deletable force := by
    cases force <;> cases hused : q.used <;> simp [Queue.deletable, hused]
  refine hdelete.trans ?_
  rw [hrefused]
  cases hdeletable : q.deletable force with
  | false => rfl
  | true => exact congrArg (fun rest => (Except.ok (), w.withQueues rest)) hothers

/-- The loop over the queues stops at the first that may not be deleted. -/
theorem delete_all (hapi : api.Documented) (hport : w.managementPort = some port)
    (henabled : w.managementEnabled = true) (haddress : ∀ q ∈ queues, q.Addressable)
    (hkeys : (queues.map Queue.key).Nodup) (force : Bool) :
    Act.forEach (api.deleteQueue w.credentials ⟨port, ['/']⟩ (!force)) (queues.map Queue.key)
        (w.withQueues queues) =
      (if queues.all (Queue.deletable force) then .ok () else .error (.httpError 400),
        w.withQueues (queues.dropWhile (Queue.deletable force))) := by
  induction queues with
  | nil => rfl
  | cons q queues ih =>
    have hone := delete_first hapi hport henabled (haddress q List.mem_cons_self) hkeys force
    have hrest := ih (fun q' hq' => haddress q' (List.mem_cons_of_mem _ hq'))
      (List.nodup_cons.mp (List.map_cons ▸ hkeys)).2
    cases hdeletable : q.deletable force with
    | true =>
      rw [hdeletable, if_pos rfl] at hone
      rw [List.map_cons, Act.forEach_cons_ok hone, hrest, List.all_cons, hdeletable,
        List.dropWhile_cons_of_pos hdeletable, Bool.true_and]
    | false =>
      rw [hdeletable, if_neg Bool.false_ne_true] at hone
      rw [List.map_cons, Act.forEach_cons_error hone, List.all_cons, hdeletable,
        List.dropWhile_cons_of_neg (by simp [hdeletable]), Bool.false_and,
        if_neg Bool.false_ne_true]

end Requests

/-! ### The whole reset -/

/-- Without the management API nothing is deleted; with it, all queues up to the first
that may not be. -/
theorem resetState_spec {api : ManagementApi} (hapi : api.Documented) {w : Broker}
    (haddress : ∀ q ∈ w.queues, q.Addressable) (hkeys : (w.queues.map Queue.key).Nodup)
    (service : Service) (force : Bool) :
    (w.managementPort = none → service.resetState api force w =
      (.error (.runtimeError "management must be enabled for clean_slate"), w)) ∧
    (w.managementPort ≠ none → w.managementEnabled = false →
      service.resetState api force w = (.error .connectionError, w)) ∧
    (w.managementPort ≠ none → w.managementEnabled = true → service.auth ≠ w.credentials →
      service.resetState api force w = (.error (.httpError 401), w)) ∧
    (w.managementPort ≠ none → w.managementEnabled = true → service.auth = w.credentials →
      service.resetState api force w =
        (if w.queues.all (Queue.deletable force) then .ok () else .error (.httpError 400),
          w.withQueues (w.queues.dropWhile (Queue.deletable force)))) := by
  have hnone : w.managementPort = none → managementUrl w =
      (.error (.runtimeError "Management is not enabled."), w) := by
    intro hport
    rw [managementUrl, Act.get_bind, hport]
    rfl
  have hsome : ∀ {port}, w.managementPort = some port →
      managementUrl w = (.ok ⟨port, ['/']⟩, w) := by
    intro port hport
    rw [managementUrl, Act.get_bind, hport]
    rfl
  have hget : w.managementPort ≠ none → ∃ port, w.managementPort = some port :=
    Option.ne_none_iff_exists'.mp
  refine ⟨fun hport => ?_, fun hport henabled => ?_, fun hport henabled hauth => ?_,
    fun hport henabled hauth => ?_⟩
  · exact Act.bind_error (Act.handle_error (hnone hport))
  · obtain ⟨port, hport⟩ := hget hport
    exact (Act.bind_ok (Act.handle_ok (hsome hport))).trans
      (Act.bind_error (hapi.get_disabled henabled))
  · obtain ⟨port, hport⟩ := hget hport
    exact (Act.bind_ok (Act.handle_ok (hsome hport))).trans
      (Act.bind_error (hapi.get_unauthorized hport henabled hauth))
  · obtain ⟨port, hport⟩ := hget hport
    have hall := delete_all hapi hport henabled haddress hkeys force
    refine (Act.bind_ok (Act.handle_ok (hsome hport))).trans ?_
    rw [hauth]
    exact (Act.bind_ok (hapi.get_queues hport henabled rfl)).trans hall

def authorize (auth : String × String) : Act Broker Error Unit := do
  let w ← Act.get
  Act.raiseIf (!w.managementEnabled) .connectionError
  Act.raiseIf (auth ≠ w.credentials) (.httpError 401)

def deleteKey (ifUnused : Bool) (key : List Char × List Char) : Act Broker Error Unit := do
  match (← Act.get).queues.find? fun q => q.key = key with
  | none => Act.raise (.httpError 404)
  | some q =>
    Act.raiseIf (ifUnused && q.used) (.httpError 400)
    Act.modify fun w => { w with queues := w.queues.filter fun q' => q'.key ≠ q.key }

/-- An API that takes the path of each request apart. -/
def pathApi : ManagementApi where
  get auth url := do
    authorize auth
    Act.raiseIf (url.path ≠ "/api/queues".toList) (.httpError 404)
    return (← Act.get).queues.map Queue.key
  delete auth url ifUnused := do
    authorize auth
    match url.path.splitOn '/' with
    | [[], ['a', 'p', 'i'], ['q', 'u', 'e', 'u', 'e', 's'], vhost, name] =>
      deleteKey ifUnused (unquote vhost, unquote name)
    | _ => Act.raise (.httpError 405)

theorem authorize_of_enabled {w : Broker} (henabled : w.managementEnabled = true)
    (auth : String × String) :
    authorize auth w = (if auth = w.credentials then .ok () else .error (.httpError 401), w) := by
  rw [authorize, Act.get_bind, henabled, Act.raiseIf_bind]
  by_cases hauth : auth = w.credentials <;> simp [Act.raiseIf, hauth]

theorem splitOn_queue_path {vhost name : List Char} (hvhost : '/' ∉ vhost) (hname : '/' ∉ name) :
    ("/api/queues/".toList ++ vhost ++ '/' :: name).splitOn '/' =
      [[], "api".toList, "queues".toList, vhost, name] := by
  have hpath : "/api/queues/".toList ++ vhost ++ '/' :: name =
      ['/'].intercalate [[], "api".toList, "queues".toList, vhost, name] := by
    simp [List.intercalate]
  rw [hpath]
  refine List.splitOn_intercalate '/' (fun l hl => ?_) (by simp)
  simp only [List.mem_cons, List.not_mem_nil, or_false] at hl
  rcases hl with rfl | rfl | rfl | rfl | rfl
  · exact List.not_mem_nil
  · decide
  · decide
  · exact hvhost
  · exact hname

theorem pathApi_documented : pathApi.Documented where
  get_disabled := by
    intro w auth url henabled
    refine Act.bind_error ?_
    rw [authorize, Act.get_bind, henabled, Act.raiseIf_bind]
    rfl
  get_unauthorized := by
    intro w auth url _ henabled hauth
    refine Act.bind_error ?_
    rw [authorize_of_enabled henabled, if_neg hauth]
  get_queues := by
    intro w url _ henabled hpath
    have hauthorized := authorize_of_enabled henabled w.credentials
    rw [if_pos rfl] at hauthorized
    refine (Act.bind_ok hauthorized).trans ?_
    rw [Act.raiseIf_bind, hpath, decide_eq_false (not_not_intro rfl)]
    rfl
  delete_queue := by
    intro w url vhost name q ifUnused _ henabled hvhost hname hpath hfind
    have hauthorized := authorize_of_enabled henabled w.credentials
    rw [if_pos rfl] at hauthorized
    refine (Act.bind_ok hauthorized).trans ?_
    rw [hpath, splitOn_queue_path hvhost.1 hname.1]
    change deleteKey ifUnused (unquote vhost, unquote name) w = _
    rw [deleteKey, Act.get_bind, hfind]
    exact Act.raiseIf_bind (ifUnused && q.used) (Error.httpError 400) _ w

/-- A queue with a slash in its name and one that is in use, of which the first goes. -/
theorem resetState_spec_in_use :
    let w : Broker := ⟨some 49153, true, ("guest", "guest"),
      [⟨"/".toList, "a/b%".toList, false⟩, ⟨"/".toList, "jobs".toList, true⟩]⟩
    Service.resetState ⟨"guest", "guest"⟩ pathApi false w =
      (.error (.httpError 400), w.withQueues [⟨"/".toList, "jobs".toList, true⟩]) := by
  intro w
  have haddress : ∀ q ∈ w.queues, q.Addressable := by
    simp only [w, Queue.Addressable]
    decide
  exact (resetState_spec pathApi_documented (w := w) haddress (by decide) ⟨"guest", "guest"⟩
    false).2.2.2 (by simp [w]) rfl rfl

end Yellowbox.RabbitMq
