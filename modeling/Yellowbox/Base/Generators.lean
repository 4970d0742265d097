import Mathlib.Tactic.Common

/-!
Python generators and `yield from`. A generator body is given by its one-step view:
from a suspension point, being resumed with a value or an exception either
yields, returns or raises. A generator object adds the life cycle, and
delegation the rules by which `yield from` forwards a resumption to an iterator
that may or may not be a generator.
-/
namespace Yellowbox.Generators

variable {σ I Y R E : Type}

/-- How a generator is resumed. `send none` is `next(..)`. -/
inductive Resume (I E : Type)
  | send (value : Option I)
  | throw (error : E)

/-- How a resumption ends: at the next suspension point, with a return value, or with an
exception. -/
inductive Reply (σ Y R E : Type)
  | yielded (value : Y) (next : σ)
  | returned (value : R)
  | raised (error : E)

/-- The errors the protocol itself raises, and the test for the one that closes. -/
class ProtocolErrors (E : Type) where
  attributeError : E
  typeError : E
  runtimeError : E
  generatorExit : E
  isExit : E → Bool

/-- A generator body over its suspension points `σ`, the start being one of them. -/
structure Body (σ I Y R E : Type) where
  resume : σ → Resume I E → Reply σ Y R E

/-- A generator object. -/
inductive Generator (σ : Type)
  | created (start : σ)
  | suspended (point : σ)
  | finished

namespace Generator

/-- The object after a resumption that ended so. -/
def after : Reply σ Y R E → Generator σ
  | .yielded _ point => suspended point
  | .returned _ | .raised _ => finished

/-- `generator.send(value)`. A return is a `StopIteration` with the value; resuming a
finished generator is one with `stop`, Python's `None`. -/
def send [ProtocolErrors E] (body : Body σ I Y R E) (stop : R) (generator : Generator σ)
    (value : Option I) : Reply σ Y R E × Generator σ :=
  match generator, value with
  | created start, none =>
    let reply := body.resume start (.send none)
    (reply, after reply)
  | created start, some _ => (.raised ProtocolErrors.typeError, created start)
  | suspended point, value =>
    let reply := body.resume point (.send value)
    (reply, after reply)
  | finished, _ => (.returned stop, finished)

/-- `generator.throw(error)`; a generator that has not begun or has ended is not resumed. -/
def throw (body : Body σ I Y R E) (generator : Generator σ) (error : E) :
    Reply σ Y R E × Generator σ :=
  match generator with
  | suspended point =>
    let reply := body.resume point (.throw error)
    (reply, after reply)
  | created _ | finished => (.raised error, finished)

/-- `generator.close()` and what it raises, if anything: the error of a generator that
yields again, or another one than `GeneratorExit` that it raises itself. -/
def close [ProtocolErrors E] (body : Body σ I Y R E) (generator : Generator σ) :
    Option E × Generator σ :=
  match generator.throw body ProtocolErrors.generatorExit with
  | (.yielded _ _, generator') => (some ProtocolErrors.runtimeError, generator')
  | (.returned _, generator') => (none, generator')
  | (.raised e, generator') =>
    (if ProtocolErrors.isExit e then none else some e, generator')

theorem send_created [ProtocolErrors E] (body : Body σ I Y R E) (stop : R) (start : σ) :
    send body stop (created start) none =
      (body.resume start (.send none), after (body.resume start (.send none))) := rfl

theorem send_suspended [ProtocolErrors E] (body : Body σ I Y R E) (stop : R) (point : σ)
    (value : Option I) :
    send body stop (suspended point) value =
      (body.resume point (.send value), after (body.resume point (.send value))) := rfl

theorem close_of_raised [ProtocolErrors E] {body : Body σ I Y R E}
    {generator generator' : Generator σ} {e : E}
    (h : generator.throw body ProtocolErrors.generatorExit = (.raised e, generator')) :
    generator.close body =
      (if ProtocolErrors.isExit e then none else some e, generator') := by
  rw [close, h]

end Generator

/-- What `yield from` can be given: a plain iterator with the values still to come, which
has `__next__` only, or a generator object. -/
inductive Iter (σ Y : Type)
  | plain (rest : List Y)
  | generator (object : Generator σ)

/-- One resumption of `yield from`: `send(None)` is forwarded as `next(it)`, any other
value as `it.send(value)`; an exception goes to `it.throw` if there is one and is raised
at the `yield from` otherwise, and `GeneratorExit` is raised there once `it` is closed. -/
def delegate [ProtocolErrors E] (body : Body σ I Y R E) (stop : R) :
    Iter σ Y → Resume I E → Reply (Iter σ Y) Y R E
  | .plain [], .send none => .returned stop
  | .plain (y :: ys), .send none => .yielded y (.plain ys)
  | .plain _, .send (some _) => .raised ProtocolErrors.attributeError
  | .plain _, .throw e => .raised e
  | .generator object, .send value =>
    match object.send body stop value with
    | (.yielded y _, object') => .yielded y (.generator object')
    | (.returned r, _) => .returned r
    | (.raised e, _) => .raised e
  | .generator object, .throw e =>
    if ProtocolErrors.isExit e then .raised ((object.close body).1.getD e)
    else
      match object.throw body e with
      | (.yielded y _, object') => .yielded y (.generator object')
      | (.returned r, _) => .returned r
      | (.raised e', _) => .raised e'

section Delegation

variable [ProtocolErrors E] (body : Body σ I Y R E) (stop : R)

/-- A plain iterator cannot be sent a value, whatever it has left. -/
theorem delegate_value (ys : List Y) (value : I) :
    delegate body stop (.plain ys) (.send (some value)) =
      .raised ProtocolErrors.attributeError := by
  cases ys <;> rfl

end Delegation

end Yellowbox.Generators
