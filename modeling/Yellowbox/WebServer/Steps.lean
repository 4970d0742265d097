import Yellowbox.Base.StepRuns
import Yellowbox.WebServer.Handlers

/-!
One step of the whole system: a main-thread call, or a handler of the server
thread that runs from one `await` to the next. A run is a list of such events
in any order. An event for a handler that is not at the named place is ignored.
-/
namespace Yellowbox.WebServerSteps

open Effects WebServerState WebServerCalls WebServerHandlers

inductive Event
  | call (c : Call)
  | request (r : RequestId) (i : HttpId) (now : Time)
  | sideEffect (r : RequestId) (result : Except Exc Response)
  | body (r : RequestId) (received : Bool)
  | connect (r : RequestId) (i : WsId)
  | wsSideEffect (r : RequestId) (result : Except Exc (Option ℕ))

def step (cfg : Setup) (w : World) : Event → World × Obs
  | .call c =>
    match runCall cfg c w with
    | (.ok (), w') => (w', .returned)
    | (.error err, w') => (w', .raised err)
  | .request r i now =>
    match w.handlers r with
    | none => httpGet cfg r i now w
    | some _ => (w, .ignored)
  | .sideEffect r result =>
    match w.handlers r with
    | some (.http i t .sideEffect) => httpSideEffect cfg r i t result w
    | _ => (w, .ignored)
  | .body r received =>
    match w.handlers r with
    | some (.http i t (.body ret)) | some (.http i t (.record ret)) =>
      if received then afterBody r i t ret w
      else (w.setHandler r none, .failed .clientDisconnect)
    | _ => (w, .ignored)
  | .connect r i =>
    match w.handlers r with
    | none => wsGet r i w
    | some _ => (w, .ignored)
  | .wsSideEffect r result =>
    match w.handlers r with
    | some (.ws i) => wsSideEffect cfg r i result w
    | _ => (w, .ignored)

end Yellowbox.WebServerSteps
