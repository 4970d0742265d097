import Mathlib.Tactic.Common

/-!
Computations that read and write a state and may raise. Unlike in `StateT` over
`Except`, what was written before an exception stays written, so a handler and
a clean-up see the state as the exception left it.
-/
namespace Yellowbox.Effects

/-- A computation over state `σ` that returns an `α` or raises an `ε`. -/
def Act (σ ε α : Type) := σ → Except ε α × σ

namespace Act

variable {σ ε α β : Type}

protected def pure (a : α) : Act σ ε α := fun s => (.ok a, s)

protected def bind (x : Act σ ε α) (f : α → Act σ ε β) : Act σ ε β := fun s =>
  match x s with
  | (.ok a, t) => f a t
  | (.error e, t) => (.error e, t)

instance : Monad (Act σ ε) where
  pure := Act.pure
  bind := Act.bind

def raise (e : ε) : Act σ ε α := fun s => (.error e, s)

def raiseIf (c : Bool) (e : ε) : Act σ ε Unit := fun s =>
  if c then (.error e, s) else (.ok (), s)

/-- A call that raises what its environment makes it raise, if anything. -/
def raiseSome : Option ε → Act σ ε Unit
  | none => Act.pure ()
  | some e => raise e

def get : Act σ ε σ := fun s => (.ok s, s)

def modify (g : σ → σ) : Act σ ε Unit := fun s => (.ok (), g s)

def ofExcept (x : Except ε α) : Act σ ε α := fun s => (x, s)

/-- `try: x except Exception as e: handler(e)`. -/
def handle (x : Act σ ε α) (handler : ε → Act σ ε α) : Act σ ε α := fun s =>
  match x s with
  | (.ok a, t) => (.ok a, t)
  | (.error e, t) => handler e t

/-- `try: x finally: cleanup`, also a `with` block whose exit is `cleanup`. -/
def ensure (x : Act σ ε α) (cleanup : Act σ ε Unit) : Act σ ε α := fun s =>
  match x s with
  | (r, t) =>
    match cleanup t with
    | (.ok (), u) => (r, u)
    | (.error e, u) => (.error e, u)

/-- `with enter: body`, for a context manager whose `__exit__` is `exit`. -/
def withScope (enter : Act σ ε α) (exit : Act σ ε Unit) (body : Act σ ε β) : Act σ ε β :=
  Act.bind enter fun _ => ensure body exit

/-- `for a in l: body(a)` -/
def forEach (body : α → Act σ ε Unit) : List α → Act σ ε Unit
  | [] => Act.pure ()
  | a :: l => Act.bind (body a) fun _ => forEach body l

theorem get_bind (f : σ → Act σ ε β) (s : σ) : (get >>= f) s = f s s := rfl

theorem modify_bind (g : σ → σ) (f : Unit → Act σ ε β) (s : σ) :
    (modify g >>= f) s = f () (g s) := rfl

theorem raiseIf_bind (c : Bool) (e : ε) (f : Unit → Act σ ε β) (s : σ) :
    (raiseIf c e >>= f) s = if c then (.error e, s) else f () s := by
  cases c <;> rfl

theorem raiseSome_none_bind (f : Unit → Act σ ε β) (s : σ) :
    (raiseSome none >>= f) s = f () s := rfl

theorem raiseSome_some_bind (e : ε) (f : Unit → Act σ ε β) (s : σ) :
    (raiseSome (some e) >>= f) s = (.error e, s) := rfl

theorem ofExcept_bind (x : Except ε α) (f : α → Act σ ε β) (s : σ) :
    (ofExcept x >>= f) s =
      match x with
      | .ok a => f a s
      | .error e => (.error e, s) := by
  cases x <;> rfl

theorem bind_ok {x : Act σ ε α} {f : α → Act σ ε β} {s t : σ} {a : α}
    (h : x s = (.ok a, t)) : (x >>= f) s = f a t := by
  change Act.bind x f s = f a t
  simp only [Act.bind, h]

theorem bind_error {x : Act σ ε α} {f : α → Act σ ε β} {s t : σ} {e : ε}
    (h : x s = (.error e, t)) : (x >>= f) s = (.error e, t) := by
  change Act.bind x f s = (.error e, t)
  simp only [Act.bind, h]

theorem bind_assoc {γ : Type} (x : Act σ ε α) (f : α → Act σ ε β) (g : β → Act σ ε γ) :
    (x >>= f) >>= g = x >>= fun a => f a >>= g := by
  funext s
  change Act.bind (Act.bind x f) g s = Act.bind x (fun a => Act.bind (f a) g) s
  simp only [Act.bind]
  rcases x s with ⟨_ | _, _⟩ <;> rfl

theorem bind_raise (x : Act σ ε α) (e : ε) (s : σ) :
    ∃ err, (x >>= fun _ => raise e : Act σ ε β) s = (.error err, (x s).2) := by
  rcases hxs : x s with ⟨err | a, t⟩
  · exact ⟨err, bind_error hxs⟩
  · exact ⟨e, bind_ok hxs⟩

theorem discard_apply (x : Act σ ε α) (s : σ) :
    discard x s = ((x s).1.map (fun _ => ()), (x s).2) := by
  change Act.bind x (fun _ => Act.pure ()) s = _
  simp only [Act.bind]
  rcases x s with ⟨_ | _, _⟩ <;> rfl

theorem handle_ok {x : Act σ ε α} {handler : ε → Act σ ε α} {s t : σ} {a : α}
    (h : x s = (.ok a, t)) : handle x handler s = (.ok a, t) := by
  simp only [handle, h]

theorem handle_error {x : Act σ ε α} {handler : ε → Act σ ε α} {s t : σ} {e : ε}
    (h : x s = (.error e, t)) : handle x handler s = handler e t := by
  simp only [handle, h]

theorem ensure_snd (x : Act σ ε α) (cleanup : Act σ ε Unit) (s : σ) :
    (ensure x cleanup s).2 = (cleanup (x s).2).2 := by
  simp only [ensure]
  rcases cleanup (x s).2 with ⟨_ | _, _⟩ <;> rfl

theorem ensure_of_ok {x : Act σ ε α} {cleanup : Act σ ε Unit} {s t u : σ} {r : Except ε α}
    (hx : x s = (r, t)) (hclean : cleanup t = (.ok (), u)) : ensure x cleanup s = (r, u) := by
  simp only [ensure, hx, hclean]

theorem ensure_of_error {x : Act σ ε α} {cleanup : Act σ ε Unit} {s t u : σ} {r : Except ε α}
    {e : ε} (hx : x s = (r, t)) (hclean : cleanup t = (.error e, u)) :
    ensure x cleanup s = (.error e, u) := by
  simp only [ensure, hx, hclean]

/-- What a clean-up raises replaces the outcome. -/
theorem ensure_error {x : Act σ ε α} {cleanup : Act σ ε Unit} {s : σ} {e : ε}
    (h : (cleanup (x s).2).1 = .error e) : (ensure x cleanup s).1 = .error e := by
  simp only [ensure]
  rcases hclean : cleanup (x s).2 with ⟨e' | _, t⟩
  · rw [hclean] at h
    cases h
    rfl
  · rw [hclean] at h
    cases h

theorem withScope_error {enter : Act σ ε α} {s t : σ} {e : ε} (h : enter s = (.error e, t))
    (exit : Act σ ε Unit) (body : Act σ ε β) : withScope enter exit body s = (.error e, t) :=
  bind_error h

theorem withScope_ok {enter : Act σ ε α} {s t : σ} {a : α} (h : enter s = (.ok a, t))
    (exit : Act σ ε Unit) (body : Act σ ε β) :
    withScope enter exit body s = ensure body exit t :=
  bind_ok h

/-- Running `x` keeps `Inv`, whether it returns or raises. -/
def Keeps (Inv : σ → Prop) (x : Act σ ε α) : Prop := ∀ s, Inv s → Inv (x s).2

section Keeps

variable {Inv : σ → Prop}

theorem keeps_pure (a : α) : Keeps Inv (pure a : Act σ ε α) := fun _ h => h

theorem keeps_raise (e : ε) : Keeps Inv (raise e : Act σ ε α) := fun _ h => h

theorem keeps_ofExcept (x : Except ε α) : Keeps Inv (ofExcept x : Act σ ε α) := fun _ h => h

theorem keeps_modify {g : σ → σ} (h : ∀ s, Inv s → Inv (g s)) :
    Keeps Inv (modify g : Act σ ε Unit) := h

theorem keeps_ite {p : Prop} [Decidable p] {x y : Act σ ε α} (hx : Keeps Inv x)
    (hy : Keeps Inv y) : Keeps Inv (if p then x else y) := by
  by_cases h : p
  · rwa [if_pos h]
  · rwa [if_neg h]

theorem keeps_raiseSome (fault : Option ε) : Keeps Inv (raiseSome fault : Act σ ε Unit) := by
  cases fault with
  | none => exact fun _ h => h
  | some e => exact fun _ h => h

theorem keeps_bind {x : Act σ ε α} {f : α → Act σ ε β} (hx : Keeps Inv x)
    (hf : ∀ a, Keeps Inv (f a)) : Keeps Inv (x >>= f) := by
  intro s hs
  have hkeep := hx s hs
  rcases hxs : x s with ⟨e | a, t⟩
  · rw [bind_error hxs]
    simpa only [hxs] using hkeep
  · rw [bind_ok hxs]
    rw [hxs] at hkeep
    exact hf a t hkeep

theorem keeps_handle {x : Act σ ε α} {handler : ε → Act σ ε α} (hx : Keeps Inv x)
    (hhandler : ∀ e, Keeps Inv (handler e)) : Keeps Inv (handle x handler) := by
  intro s hs
  have hkeep := hx s hs
  rcases hxs : x s with ⟨e | a, t⟩
  · rw [handle_error hxs]
    rw [hxs] at hkeep
    exact hhandler e t hkeep
  · rw [handle_ok hxs]
    simpa only [hxs] using hkeep

/-- A scope keeps what a raising entry keeps, and what holds again after the exit of
each body that was entered. -/
theorem keeps_withScope {enter : Act σ ε α} {exit : Act σ ε Unit} {body : Act σ ε β}
    (hraise : ∀ s e t, Inv s → enter s = (.error e, t) → Inv t)
    (hleave : ∀ s a t, Inv s → enter s = (.ok a, t) → Inv (exit (body t).2).2) :
    Keeps Inv (withScope enter exit body) := by
  intro s hs
  rcases hentry : enter s with ⟨e | a, t⟩
  · rw [withScope_error hentry]
    exact hraise s e t hs hentry
  · rw [withScope_ok hentry, ensure_snd]
    exact hleave s a t hs hentry

theorem keeps_forEach {body : α → Act σ ε Unit} (l : List α)
    (hbody : ∀ a, Keeps Inv (body a)) : Keeps Inv (forEach body l) := by
  induction l with
  | nil => exact fun _ h => h
  | cons a l ih => exact keeps_bind (hbody a) fun _ => ih

end Keeps

section Loops

variable {body : α → Act σ ε Unit} {a : α} {s t : σ}

theorem forEach_nil : forEach body [] s = (.ok (), s) := rfl

theorem forEach_cons_ok (h : body a s = (.ok (), t)) (l : List α) :
    forEach body (a :: l) s = forEach body l t := bind_ok h

theorem forEach_cons_error {e : ε} (h : body a s = (.error e, t)) (l : List α) :
    forEach body (a :: l) s = (.error e, t) := bind_error h

theorem forEach_singleton (body : α → Act σ ε Unit) (a : α) : forEach body [a] = body a := by
  funext s
  rcases hba : body a s with ⟨e | _, t⟩
  · exact forEach_cons_error hba []
  · exact forEach_cons_ok hba []

theorem forEach_append_ok {l : List α} (h : forEach body l s = (.ok (), t)) (l' : List α) :
    forEach body (l ++ l') s = forEach body l' t := by
  induction l generalizing s with
  | nil =>
    cases h
    rfl
  | cons a l ih =>
    rcases hba : body a s with ⟨e | _, u⟩
    · rw [forEach_cons_error hba] at h
      cases h
    · rw [forEach_cons_ok hba] at h
      rw [List.cons_append, forEach_cons_ok hba, ih h]

theorem forEach_append_error {l : List α} {e : ε} (h : forEach body l s = (.error e, t))
    (l' : List α) : forEach body (l ++ l') s = (.error e, t) := by
  induction l generalizing s with
  | nil => cases h
  | cons a l ih =>
    rcases hba : body a s with ⟨e' | _, u⟩
    · rw [forEach_cons_error hba] at h
      rw [List.cons_append, forEach_cons_error hba, h]
    · rw [forEach_cons_ok hba] at h
      rw [List.cons_append, forEach_cons_ok hba, ih h]

theorem forEach_map (body : β → Act σ ε Unit) (f : α → β) (l : List α) :
    forEach body (l.map f) = forEach (fun a => body (f a)) l := by
  induction l with
  | nil => rfl
  | cons a l ih => rw [List.map_cons, forEach, forEach, ih]

/-- A loop inside a loop is one loop over all the inner items. -/
theorem forEach_flatMap {body : β → Act σ ε Unit} (f : α → List β) (l : List α) (s : σ) :
    forEach (fun a => forEach body (f a)) l s = forEach body (l.flatMap f) s := by
  induction l generalizing s with
  | nil => rfl
  | cons a l ih =>
    rw [List.flatMap_cons]
    cases hinner : forEach body (f a) s with
    | mk r t =>
      cases r with
      | error e =>
        exact (bind_error hinner).trans (forEach_append_error hinner _).symm
      | ok u =>
        calc
          forEach (fun a => forEach body (f a)) (a :: l) s
            = forEach (fun a => forEach body (f a)) l t := bind_ok hinner
          _ = forEach body (l.flatMap f) t := ih t
          _ = forEach body (f a ++ l.flatMap f) s := (forEach_append_ok hinner _).symm

end Loops

end Act

end Yellowbox.Effects
