import Yellowbox.WebServer.Recording

/-!
Whether a request that is handled while a capture is active ends up in the list
of the capture. It is recorded in the `else` branch of the handler, so once when
the side effect returns and not at all when it raises.
-/
namespace Yellowbox.CaptureCompleteness

open StepRuns ScopedLog
open WebServerState WebServerCalls WebServerHandlers WebServerSteps Recording

/-- While request `r` is being handled: it is not another one, its body can be
read, and `c` is active and not a list that is only just made. -/
structure Undisturbed (cfg : Setup) (i : HttpId) (c : CaptureId) (r : RequestId) (w : World)
    (ev : Event) : Prop where
  arrives : arrival ev ≠ some r
  entered : captureOp cfg i w ev ≠ some (.enter c)
  active : w.handlers r ≠ none → (w.requestCaptures (.http i)).count c = 1
  body : ev ≠ .body r false

variable {cfg : Setup} {i : HttpId} {w : World} {c : CaptureId} {r : RequestId} {ev : Event}

end Yellowbox.CaptureCompleteness
