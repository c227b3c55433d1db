import TrustTunnel.Lib.System

/-!
# Lib.Action

Imperative code on a state: an action may change the state, raise outputs, and end with a value or
with a fault, after which nothing of it is done any more.

* `Act` — actions, with `get`, `modify`, `raise` and `fail`; `forEach` is a loop.
* `Runs R F m P` — the rule format. From the given state and outputs, `m` ends where the invariant `R`
  holds of outputs and state; a value it ends with satisfies `P`, a fault it ends with satisfies `F`.
* `Runs.bind`, `Runs.forEach` — sequencing and loops. `Runs.get`, `Runs.modify`, `Runs.raise` and
  `Runs.of_ok_bind` take an action whose result is known off the front of a sequence.
* `Each P` — every output is justified by those before it.
-/

namespace TrustTunnel.Lib

open List

/-- From a state and the outputs raised so far to the end of the action. -/
def Act (σ ω φ α : Type) := σ → List ω → Except φ α × σ × List ω

namespace Act

variable {σ ω φ α β ε : Type}

instance : Monad (Act σ ω φ) where
  pure a := fun s l => (.ok a, s, l)
  bind m f := fun s l =>
    match m s l with
    | (.ok a, s', l') => f a s' l'
    | (.error e, s', l') => (.error e, s', l')

def get : Act σ ω φ σ := fun s l => (.ok s, s, l)

def modify (g : σ → σ) : Act σ ω φ Unit := fun s l => (.ok (), g s, l)

def raise (o : ω) : Act σ ω φ Unit := fun s l => (.ok (), s, l ++ [o])

def fail (f : φ) : Act σ ω φ α := fun s l => (.error f, s, l)

/-- A computation that does not touch the state. -/
def lift (g : ε → φ) : Except ε α → Act σ ω φ α
  | .ok a => pure a
  | .error e => fail (g e)

def forEach (f : α → Act σ ω φ Unit) : List α → Act σ ω φ Unit
  | [] => pure ()
  | a :: as => do
    f a
    forEach f as

section Bind

variable {f : α → Act σ ω φ β} {m : Act σ ω φ α} {s s' : σ} {l l' : List ω}

theorem bind_ok {a : α} (h : m s l = (.ok a, s', l')) : (m >>= f) s l = f a s' l' := by
  show (match m s l with
    | (.ok a, s', l') => f a s' l'
    | (.error e, s', l') => (.error e, s', l')) = _
  rw [h]

theorem get_bind (f : σ → Act σ ω φ α) (s : σ) (l : List ω) : (get >>= f) s l = f s s l := rfl

theorem bind_error {e : φ} (h : m s l = (.error e, s', l')) : (m >>= f) s l = (.error e, s', l') := by
  show (match m s l with
    | (.ok a, s', l') => f a s' l'
    | (.error e, s', l') => (.error e, s', l')) = _
  rw [h]

end Bind

/-! ## Invariants, faults and results -/

structure Ends (R : List ω → σ → Prop) (F : φ → Prop) (P : α → σ → Prop)
    (r : Except φ α × σ × List ω) : Prop where
  inv : R r.2.2 r.2.1
  fault : ∀ f, r.1 = .error f → F f
  value : ∀ a, r.1 = .ok a → P a r.2.1

def Runs (R : List ω → σ → Prop) (F : φ → Prop) (m : Act σ ω φ α) (s : σ) (l : List ω)
    (P : α → σ → Prop) : Prop :=
  Ends R F P (m s l)

section Rules

variable {R : List ω → σ → Prop} {F : φ → Prop} {s : σ} {l : List ω}

variable {a : α} {P : α → σ → Prop} {m : Act σ ω φ α} {s' : σ} {l' : List ω} {f : α → Act σ ω φ β}

theorem Runs.pure (hR : R l s) (hP : P a s) : Runs R F (Pure.pure a) s l P :=
  ⟨hR, fun _ h => (by cases h), fun _ h => by cases h; exact hP⟩

theorem Runs.fail {f : φ} (hR : R l s) (hF : F f) : Runs R F (Act.fail f) s l P :=
  ⟨hR, fun _ h => (by cases h; exact hF), fun _ h => by cases h⟩

theorem Runs.get {f : σ → Act σ ω φ α} (h : Runs R F (f s) s l P) : Runs R F (Act.get >>= f) s l P := h

theorem Runs.modify {g : σ → σ} {f : Unit → Act σ ω φ α} (h : Runs R F (f ()) (g s) l P) :
    Runs R F (Act.modify g >>= f) s l P := h

theorem Runs.raise {o : ω} {f : Unit → Act σ ω φ α} (h : Runs R F (f ()) s (l ++ [o]) P) :
    Runs R F (Act.raise o >>= f) s l P := h

theorem Runs.of_ok (h : m s l = (.ok a, s', l')) (hR : R l' s') (hP : P a s') : Runs R F m s l P := by
  show Ends R F P (m s l)
  rw [h]
  exact ⟨hR, fun _ h => (by cases h), fun _ h => by cases h; exact hP⟩

theorem Runs.of_ok_bind {P : β → σ → Prop} (h : m s l = (.ok a, s', l')) (hf : Runs R F (f a) s' l' P) :
    Runs R F (m >>= f) s l P := by
  show Ends R F P ((m >>= f) s l)
  rw [bind_ok h]
  exact hf

theorem Runs.of_error_bind {e : φ} {P : β → σ → Prop} (h : m s l = (.error e, s', l')) (hR : R l' s')
    (hF : F e) : Runs R F (m >>= f) s l P := by
  show Ends R F P ((m >>= f) s l)
  rw [bind_error h]
  exact ⟨hR, fun _ h => (by cases h; exact hF), fun _ h => by cases h⟩

theorem Runs.bind {Q : β → σ → Prop} (hm : Runs R F m s l P)
    (hf : ∀ a s' l', R l' s' → P a s' → Runs R F (f a) s' l' Q) : Runs R F (m >>= f) s l Q := by
  rcases hr : m s l with ⟨_ | a, s', l'⟩
  · rename_i e
    have hend : Ends R F P (.error e, s', l') := hr ▸ hm
    show Ends R F Q ((m >>= f) s l)
    rw [bind_error hr]
    exact ⟨hend.inv, fun f h => by cases h; exact hend.fault e rfl, fun _ h => by cases h⟩
  · have hend : Ends R F P (.ok a, s', l') := hr ▸ hm
    show Ends R F Q ((m >>= f) s l)
    rw [bind_ok hr]
    exact hf a s' l' hend.inv (hend.value a rfl)

/-- Where two actions do the same, so do the sequences that begin with them. -/
theorem Runs.congr_bind {m' : Act σ ω φ α} {P : β → σ → Prop} (h : m s l = m' s l)
    (hm : Runs R F (m' >>= f) s l P) : Runs R F (m >>= f) s l P := by
  rcases hr : m' s l with ⟨_ | a, s', l'⟩
  · have hm' : Ends R F P ((m' >>= f) s l) := hm
    show Ends R F P ((m >>= f) s l)
    rw [bind_error hr] at hm'
    rw [bind_error (h.trans hr)]
    exact hm'
  · have hm' : Ends R F P ((m' >>= f) s l) := hm
    show Ends R F P ((m >>= f) s l)
    rw [bind_ok hr] at hm'
    rw [bind_ok (h.trans hr)]
    exact hm'

theorem Runs.congr {m' : Act σ ω φ α} (h : m s l = m' s l) (hm : Runs R F m' s l P) : Runs R F m s l P := by
  show Ends R F P (m s l)
  rw [h]
  exact hm

theorem Runs.of_bind_pure (h : Runs R F (m >>= Pure.pure) s l P) : Runs R F m s l P := by
  have heq : (m >>= Pure.pure) s l = m s l := by
    rcases hr : m s l with ⟨_ | a, s', l'⟩
    · exact bind_error hr
    · exact bind_ok hr
  exact Runs.congr heq.symm h

theorem Runs.mono {Q : α → σ → Prop} (h : Runs R F m s l P) (hPQ : ∀ a s' l', R l' s' → P a s' → Q a s') :
    Runs R F m s l Q :=
  ⟨h.inv, h.fault, fun a ha => hPQ a _ _ h.inv (h.value a ha)⟩

theorem Runs.forEach {f : α → Act σ ω φ Unit} {J : σ → Prop} {as : List α} (hR : R l s) (hJ : J s)
    (hf : ∀ a ∈ as, ∀ s l, R l s → J s → Runs R F (f a) s l fun _ s' => J s') :
    Runs R F (Act.forEach f as) s l fun _ s' => J s' := by
  induction as generalizing s l with
  | nil => exact Runs.pure hR hJ
  | cons a as ih =>
    refine Runs.bind (hf a (by simp) s l hR hJ) fun _ s' l' hR' hJ' => ?_
    exact ih hR' hJ' fun b hb => hf b (by simp [hb])

end Rules

end Act

/-! ## Outputs in order -/

section Order

variable {ω : Type} {P : List ω → ω → Prop} {l : List ω}

/-- Every output satisfies `P` with the outputs before it. -/
def Each (P : List ω → ω → Prop) (l : List ω) : Prop :=
  ∀ pre o post, l = pre ++ o :: post → P pre o

theorem Each.nil : Each P [] := fun pre o post h => absurd h (by simp)

theorem Each.snoc {o : ω} (h : Each P l) (ho : P l o) : Each P (l ++ [o]) := by
  intro pre o' post heq
  rcases eq_nil_or_concat post with rfl | ⟨post', b, rfl⟩
  · obtain ⟨rfl, hsame⟩ := append_inj' heq rfl
    cases hsame
    exact ho
  · rw [concat_eq_append, ← cons_append, ← append_assoc] at heq
    obtain ⟨rfl, -⟩ := append_inj' heq rfl
    exact h pre o' post' rfl

/-- Outputs that need no justification. -/
theorem Each.append {outs : List ω} (h : Each P l) (houts : ∀ o ∈ outs, ∀ pre,
    P pre o) : Each P (l ++ outs) := by
  induction outs generalizing l with
  | nil => rwa [append_nil]
  | cons o outs ih =>
    rw [append_cons]
    exact ih (h.snoc (houts o (by simp) l)) fun o' ho' => houts o' (by simp [ho'])

end Order

end TrustTunnel.Lib
