import Yellowbox.Base.Dicts

/-!
Pairs that are collected in a `dict` of lists, each under its key. What a key gets is
the second components of its pairs, in their order.
-/
namespace Yellowbox.Dicts

variable {K V : Type*} [DecidableEq K]

namespace Dict

/-- `d[k]` with `v` appended, and `[v]` for a new key. -/
def push (d : Dict K (List V)) (k : K) (v : V) : Dict K (List V) :=
  d.set k ((d.get? k).getD [] ++ [v])

variable {d : Dict K (List V)} {pairs : List (K × V)} {k : K}

end Dict

end Yellowbox.Dicts
