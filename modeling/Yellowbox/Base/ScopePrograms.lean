import Yellowbox.Base.Effects

/-!
Programs whose scopes are nested by their syntax: each is entered, its body is run, and it
is left however the body ends. A statement about how such programs end is proved by one
rule for each thing that they can do, among them two for leaving a scope.
-/
namespace Yellowbox.ScopePrograms

open Effects

/-- Programs over the scopes `ι` and statements `α`, which may raise. What one does next may
depend on the state, and on what was raised if it is caught. -/
inductive Program (α ι σ ε : Type)
  | pass
  | act (a : α)
  | look (next : σ → Program α ι σ ε)
  | seq (first second : Program α ι σ ε)
  | tryExcept (body : Program α ι σ ε) (catches : ε → Bool) (handler : ε → Program α ι σ ε)
  | withScope (i : ι) (body : Program α ι σ ε)

/-- What statements do, and the two ends of a scope. -/
structure Meaning (α ι σ ε : Type) where
  exec : α → Act σ ε Unit
  enter : ι → Act σ ε Unit
  exit : ι → Act σ ε Unit

variable {α ι σ ε : Type}

namespace Program

def run (m : Meaning α ι σ ε) : Program α ι σ ε → Act σ ε Unit
  | pass => pure ()
  | act a => m.exec a
  | look next => Act.get >>= fun s => (next s).run m
  | seq first second => first.run m >>= fun _ => second.run m
  | tryExcept body catches handler =>
    Act.handle (body.run m) fun e => if catches e then (handler e).run m else Act.raise e
  | withScope i body => Act.withScope (m.enter i) (m.exit i) (body.run m)

/-- Every scope is allowed among those around it, the innermost of which comes first. -/
def Scoped (Allowed : List ι → ι → Prop) : List ι → Program α ι σ ε → Prop
  | _, pass | _, act _ => True
  | live, look next => ∀ s, (next s).Scoped Allowed live
  | live, seq first second => first.Scoped Allowed live ∧ second.Scoped Allowed live
  | live, tryExcept body _ handler =>
    body.Scoped Allowed live ∧ ∀ e, (handler e).Scoped Allowed live
  | live, withScope i body => Allowed live i ∧ body.Scoped Allowed (i :: live)

theorem scoped_trivial (p : Program α ι σ ε) (live : List ι) :
    p.Scoped (fun _ _ => True) live := by
  induction p generalizing live with
  | pass | act => trivial
  | look next ih => exact fun s => ih s live
  | seq first second ihfirst ihsecond => exact ⟨ihfirst live, ihsecond live⟩
  | tryExcept body catches handler ihbody ihhandler =>
    exact ⟨ihbody live, fun e => ihhandler e live⟩
  | withScope i body ih => exact ⟨trivial, ih (i :: live)⟩

end Program

/-- Inside the scopes `live`, what relates a state to how a program ends in it. -/
abbrev Ends (ι σ ε : Type) := List ι → σ → Except ε Unit → σ → Prop

/-- The relation holds of all that a program can do if it holds of its parts. -/
structure Rules (m : Meaning α ι σ ε) (Allowed : List ι → ι → Prop) (R : Ends ι σ ε) : Prop where
  pass : ∀ {live s}, R live s (.ok ()) s
  act : ∀ {live s} a, R live s (m.exec a s).1 (m.exec a s).2
  next : ∀ {live s t u r}, R live s (.ok ()) t → R live t r u → R live s r u
  handled : ∀ {live s t u e r}, R live s (.error e) t → R live t r u → R live s r u
  refused : ∀ {live i s t e}, Allowed live i → m.enter i s = (.error e, t) →
    R live s (.error e) t
  left : ∀ {live i s t u v r}, Allowed live i → m.enter i s = (.ok (), t) →
    R (i :: live) t r u → m.exit i u = (.ok (), v) → R live s r v
  leftRaising : ∀ {live i s t u v r e}, Allowed live i → m.enter i s = (.ok (), t) →
    R (i :: live) t r u → m.exit i u = (.error e, v) → R live s (.error e) v

theorem Rules.run {m : Meaning α ι σ ε} {Allowed : List ι → ι → Prop} {R : Ends ι σ ε}
    (h : Rules m Allowed R) {p : Program α ι σ ε} {live : List ι} (hp : p.Scoped Allowed live)
    (s : σ) : R live s (p.run m s).1 (p.run m s).2 := by
  induction p generalizing live s with
  | pass => exact h.pass
  | act a => exact h.act a
  | look next ih => exact ih s (hp s) s
  | seq first second ihfirst ihsecond =>
    have hfirst := ihfirst hp.1 s
    rw [Program.run]
    rcases hrun : first.run m s with ⟨e | _, t⟩
    · rw [hrun] at hfirst
      rw [Act.bind_error hrun]
      exact hfirst
    · rw [hrun] at hfirst
      rw [Act.bind_ok hrun]
      exact h.next hfirst (ihsecond hp.2 t)
  | tryExcept body catches handler ihbody ihhandler =>
    have hbody := ihbody hp.1 s
    rw [Program.run]
    rcases hrun : body.run m s with ⟨e | _, t⟩
    · rw [hrun] at hbody
      rw [Act.handle_error hrun]
      cases catches e with
      | true => exact h.handled hbody (ihhandler e (hp.2 e) t)
      | false => exact hbody
    · rw [hrun] at hbody
      rw [Act.handle_ok hrun]
      exact hbody
  | withScope i body ih =>
    rw [Program.run]
    rcases henter : m.enter i s with ⟨e | _, t⟩
    · rw [Act.withScope_error henter]
      exact h.refused hp.1 henter
    · rw [Act.withScope_ok henter]
      have hbody := ih hp.2 t
      rcases hrun : body.run m t with ⟨r, u⟩
      rw [hrun] at hbody
      rcases hexit : m.exit i u with ⟨e | _, v⟩
      · rw [Act.ensure_of_error hrun hexit]
        exact h.leftRaising hp.1 henter hbody hexit
      · rw [Act.ensure_of_ok hrun hexit]
        exact h.left hp.1 henter hbody hexit

end Yellowbox.ScopePrograms
