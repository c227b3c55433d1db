import Mathlib.Algebra.Ring.Int.Defs
import Mathlib.Algebra.Ring.Nat
import Mathlib.Data.List.Induction

/-!
# Lib.System

Runs of a deterministic component that is driven by calls: each call takes the state to the next
one and raises outputs.

* `exec` — the state after a list of calls.
* `trace` — one `Record` per call: the call, the state before and after it, what it raised.
* `Meets C` — every call of the run satisfies `C` in the state it is made in.
* `forEach` — a loop inside a call, with its invariant rule `forEach_inv`.
* `inv_from`, `inv_run` — the run rule: a property of the history and the state that holds at the
  start and is kept by every call satisfying `C` holds after every run that meets `C`.
* `meets_iff_forall_take` — the rule for exact conditions: a run meets `C` if and only if a property
  holds at each of its points.
* `countP_le` — the rule for bounds: how many calls of a run lower a potential.
* `served` — progress of a queue in the state: an element is reached after those before it.

Properties of single states and properties of whole histories (how often an event was raised,
whether an identifier was reported) are both instances of `inv_run`.
-/

namespace TrustTunnel.Lib

open List

structure Record (σ ε ω : Type) where
  before : σ
  call : ε
  outs : List ω
  after : σ
  deriving DecidableEq

/-! ## Calls made of parts -/

section Parts

variable {σ ω α : Type}

/-- Go on with `g` where the part `r` left off. -/
def andDo (r : σ × List ω) (g : σ → σ × List ω) : σ × List ω :=
  ((g r.1).1, r.2 ++ (g r.1).2)

@[simp] theorem andDo_fst (r : σ × List ω) (g : σ → σ × List ω) : (andDo r g).1 = (g r.1).1 := rfl

@[simp] theorem andDo_snd (r : σ × List ω) (g : σ → σ × List ω) : (andDo r g).2 = r.2 ++ (g r.1).2 := rfl

def forEach (f : α → σ → σ × List ω) : List α → σ → σ × List ω
  | [], s => (s, [])
  | a :: l, s => andDo (f a s) (forEach f l)

/-- What every pass keeps, with the outputs raised so far, holds after the loop. -/
theorem forEach_inv {f : α → σ → σ × List ω} {J : List ω → σ → Prop} {l : List α} {s : σ}
    {o : List ω} (h0 : J o s) (hstep : ∀ a ∈ l, ∀ o s, J o s → J (o ++ (f a s).2) (f a s).1) :
    J (o ++ (forEach f l s).2) (forEach f l s).1 := by
  induction l generalizing s o with
  | nil => simpa [forEach] using h0
  | cons a l ih =>
    have hnext := ih (hstep a (by simp) o s h0) fun b hb => hstep b (by simp [hb])
    simpa only [forEach, andDo, append_assoc] using hnext

section

variable {f : α → σ → σ × List ω} {I : σ → Prop}

theorem forEach_state {l : List α} {s : σ} (h0 : I s) (hstep : ∀ a ∈ l, ∀ s, I s → I (f a s).1) :
    I (forEach f l s).1 :=
  forEach_inv (o := []) h0 fun a ha _ s h => hstep a ha s h

/-- What the pass for an element makes so, and no pass undoes, holds for each of them after the loop. -/
theorem forEach_each {P : α → σ → Prop} {l : List α} {s : σ} (h0 : I s)
    (hstep : ∀ a ∈ l, ∀ s, I s → I (f a s).1 ∧ P a (f a s).1 ∧ ∀ b, P b s → P b (f a s).1) :
    I (forEach f l s).1 ∧ ∀ a ∈ l, P a (forEach f l s).1 := by
  induction l generalizing s with
  | nil => exact ⟨h0, by simp⟩
  | cons a l ih =>
    obtain ⟨hI, hP, -⟩ := hstep a (by simp) s h0
    have hrest := fun b hb => hstep b (mem_cons_of_mem a hb)
    obtain ⟨hI', hall⟩ := ih hI hrest
    refine ⟨hI', fun b hb => ?_⟩
    rcases mem_cons.mp hb with rfl | hb
    · have hkept := forEach_state (I := fun s => I s ∧ P b s) ⟨hI, hP⟩ fun c hc s hs =>
        ⟨(hrest c hc s hs.1).1, (hrest c hc s hs.1).2.2 b hs.2⟩
      exact hkept.2
    · exact hall b hb

/-- What the pass for `a` raises in every state that the loop can be in is raised by the loop. -/
theorem mem_forEach {l : List α} {s : σ} {a : α} {w : ω} (h0 : I s)
    (hstep : ∀ b ∈ l, ∀ s, I s → I (f b s).1) (ha : a ∈ l) (hw : ∀ s, I s → w ∈ (f a s).2) :
    w ∈ (forEach f l s).2 := by
  induction l generalizing s with
  | nil => cases ha
  | cons b l ih =>
    rw [forEach, andDo_snd, mem_append]
    rcases mem_cons.mp ha with rfl | hl
    · exact .inl (hw s h0)
    · exact .inr (ih (hstep b (by simp) s h0) (fun c hc => hstep c (by simp [hc])) hl)

end

end Parts

structure System (σ ε ω : Type) where
  init : σ
  step : σ → ε → σ × List ω

namespace System

variable {σ ε ω : Type} (S : System σ ε ω)

def exec (s : σ) : List ε → σ
  | [] => s
  | e :: es => exec (S.step s e).1 es

def record (s : σ) (e : ε) : Record σ ε ω := ⟨s, e, (S.step s e).2, (S.step s e).1⟩

def trace (s : σ) : List ε → List (Record σ ε ω)
  | [] => []
  | e :: es => S.record s e :: trace (S.step s e).1 es

/-- Everything a history raised, in order. -/
def outputs (h : List (Record σ ε ω)) : List ω := h.flatMap Record.outs

/-- Every call of `es` satisfies `C` in the state in which it is made. -/
def Meets (C : σ → ε → Prop) (s : σ) : List ε → Prop
  | [] => True
  | e :: es => C s e ∧ Meets C (S.step s e).1 es

instance decidableMeets (C : σ → ε → Prop) [∀ s e, Decidable (C s e)] :
    ∀ (s : σ) (es : List ε), Decidable (S.Meets C s es)
  | _, [] => isTrue trivial
  | s, e :: es =>
    have := decidableMeets C (S.step s e).1 es
    inferInstanceAs (Decidable (C s e ∧ S.Meets C (S.step s e).1 es))

theorem exec_append (s : σ) (es fs : List ε) : S.exec s (es ++ fs) = S.exec (S.exec s es) fs := by
  induction es generalizing s with
  | nil => rfl
  | cons e es ih => exact ih _

theorem trace_append (s : σ) (es fs : List ε) : S.trace s (es ++ fs) = S.trace s es ++ S.trace (S.exec s es) fs := by
  induction es generalizing s with
  | nil => rfl
  | cons e es ih => simp [trace, exec, ih]

@[simp] theorem map_call_trace (s : σ) (es : List ε) : (S.trace s es).map Record.call = es := by
  induction es generalizing s with
  | nil => rfl
  | cons e es ih => simp [trace, record, ih]

theorem meets_append (C : σ → ε → Prop) (s : σ) (es fs : List ε) :
    S.Meets C s (es ++ fs) ↔ S.Meets C s es ∧ S.Meets C (S.exec s es) fs := by
  induction es generalizing s with
  | nil => simp [Meets, exec]
  | cons e es ih => simp [Meets, exec, ih, and_assoc]

variable {I : σ → Prop} {s : σ} {C : σ → ε → Prop}

/-- Calls that satisfy `P` are made in states that satisfy what such calls keep. -/
theorem meets_of_inv {P : ε → Prop} (hstep : ∀ s e, I s → P e → I (S.step s e).1) (hs : I s) (es : List ε)
    (h : ∀ e ∈ es, P e) : S.Meets (fun s e => I s ∧ P e) s es := by
  induction es generalizing s with
  | nil => trivial
  | cons e es ih =>
    have he := h e (by simp)
    exact ⟨⟨hs, he⟩, ih (hstep s e hs he) fun e he => h e (by simp [he])⟩

/-- A condition on the calls alone is a condition on the run. -/
theorem meets_of_forall {P : ε → Prop} (s : σ) (es : List ε) (h : ∀ e ∈ es,
    P e) : S.Meets (fun _ e => P e) s es := by
  induction es generalizing s with
  | nil => trivial
  | cons e es ih => exact ⟨h e (by simp), ih _ fun e he => h e (by simp [he])⟩

theorem meets_true (s : σ) (es : List ε) : S.Meets (fun _ _ => True) s es :=
  S.meets_of_forall s es fun _ _ => trivial

@[simp] theorem outputs_nil : outputs ([] : List (Record σ ε ω)) = [] := rfl

@[simp] theorem outputs_append (h k : List (Record σ ε ω)) : outputs (h ++ k) = outputs h ++ outputs k := by
  simp [outputs]

@[simp] theorem outputs_record (s : σ) (e : ε) : outputs [S.record s e] = (S.step s e).2 := by
  simp [outputs, record]

/-- The run rule. `J` relates the history so far and the current state. -/
theorem inv_from {J : List (Record σ ε ω) → σ → Prop} (h0 : J [] s)
    (hstep : ∀ h s e, J h s → C s e → J (h ++ [S.record s e]) (S.step s e).1) :
    ∀ es, S.Meets C s es → J (S.trace s es) (S.exec s es) := by
  intro es
  -- snoc induction: the history grows at its end, one record per call
  induction es using List.reverseRecOn with
  | nil => intro _; exact h0
  | append_singleton es e ih =>
    intro hm
    rw [meets_append] at hm
    obtain ⟨hes, he, _⟩ := hm
    rw [trace_append, exec_append]
    exact hstep _ _ e (ih hes) he

theorem inv_run {J : List (Record σ ε ω) → σ → Prop} (h0 : J [] S.init)
    (hstep : ∀ h s e, J h s → C s e → J (h ++ [S.record s e]) (S.step s e).1) :
    ∀ es, S.Meets C S.init es → J (S.trace S.init es) (S.exec S.init es) :=
  S.inv_from h0 hstep

/-- The run rule for a property of the state alone, under no condition on the calls. -/
theorem inv_exec (h0 : I S.init) (hstep : ∀ s e, I s → I (S.step s e).1) (es : List ε) : I (S.exec S.init es) :=
  S.inv_run h0 (fun _ s e h _ => hstep s e h) es (S.meets_true _ _)

/-- The run rule for single calls: an invariant holds before each of them. -/
theorem inv_records (hs : I s) (hstep : ∀ s e, I s → C s e → I (S.step s e).1) {es : List ε}
    (hes : S.Meets C s es) :
    ∀ r ∈ S.trace s es, I r.before ∧ C r.before r.call ∧ r = S.record r.before r.call := by
  induction es generalizing s with
  | nil => exact fun r hr => by cases hr
  | cons e es ih =>
    intro r hr
    rcases mem_cons.mp hr with rfl | hr
    · exact ⟨hs, hes.1, rfl⟩
    · exact ih (hstep s e hs hes.1) hes.2 r hr

/-! ## Exact conditions -/

theorem meets_iff_forall_take {P : List ε → Prop} (h0 : P [])
    (hstep : ∀ es e, S.Meets C s es → P es → (P (es ++ [e]) ↔ C (S.exec s es) e)) (es : List ε) :
    S.Meets C s es ↔ ∀ n, P (es.take n) := by
  induction es using List.reverseRecOn with
  | nil =>
    refine ⟨fun _ n => ?_, fun _ => trivial⟩
    rw [take_nil]
    exact h0
  | append_singleton es e ih =>
    have hwhole : ∀ n, es.length < n → (es ++ [e]).take n = es ++ [e] := fun n hn =>
      take_of_length_le (by rw [length_append, length_singleton]; omega)
    rw [meets_append]
    constructor
    · rintro ⟨hes, he, -⟩ n
      have hall := ih.mp hes
      rcases Nat.lt_or_ge es.length n with hlt | hle
      · have hP := hall es.length
        rw [take_length] at hP
        rw [hwhole n hlt, hstep es e hes hP]
        exact he
      · rw [take_append_of_le_length hle]
        exact hall n
    · intro hall
      have hbefore : ∀ n, P (es.take n) := by
        intro n
        have hmin := hall (min n es.length)
        rw [take_append_of_le_length (Nat.min_le_right _ _)] at hmin
        rwa [← take_eq_take_min] at hmin
      have hes := ih.mpr hbefore
      have hP := hbefore es.length
      rw [take_length] at hP
      have hlast := hall (es.length + 1)
      rw [hwhole _ (Nat.lt_succ_self _), hstep es e hes hP] at hlast
      exact ⟨hes, hlast, trivial⟩

/-! ## Potentials -/

theorem countP_le {lowers : σ → ε → Bool} {Φ : σ → Nat} (hinv : ∀ s e, I s → C s e → I (S.step s e).1)
    (hpay : ∀ s e, I s → C s e → (lowers s e).toNat + Φ (S.step s e).1 ≤ Φ s) (hs : I s) :
    ∀ es, S.Meets C s es → (S.trace s es).countP (fun r => lowers r.before r.call) + Φ (S.exec s es) ≤ Φ s := by
  intro es
  induction es generalizing s with
  | nil => simp [trace, exec]
  | cons e es ih =>
    rintro ⟨he, hes⟩
    have hrest := ih (hinv s e hs he) hes
    have hfirst := hpay s e hs he
    simp only [trace, record, exec, countP_cons]
    cases hl : lowers s e with
    | false => simp only [Bool.false_eq_true, if_false] at hfirst ⊢; omega
    | true => simp only [hl, Bool.toNat_true, if_true] at hfirst ⊢; omega

/-! ## Two runs -/

/-! ## Queues

A part of the state is a queue: the calls for which `pops` holds take its first element, and nothing
else is ever done but to add elements at the end. -/

theorem served {τ : Type} {q : σ → List τ} {pops : ε → Bool}
    (happend : ∀ s e, C s e → pops e = false → ∃ l, q (S.step s e).1 = q s ++ l)
    (hpop : ∀ s e t rest, C s e → pops e = true → q s = t :: rest → ∃ l, q (S.step s e).1 = rest ++ l)
    {before after : List τ} {t : τ} (hq : q s = before ++ t :: after) (es : List ε) (hes : S.Meets C s es)
    (hn : before.length < es.countP pops) : ∃ r ∈ S.trace s es, pops r.call = true ∧ C r.before r.call ∧
      (∃ rest, q r.before = t :: rest) ∧ r = S.record r.before r.call := by
  induction es generalizing s before after with
  | nil => simp at hn
  | cons e es ih =>
    obtain ⟨he, hes⟩ := hes
    cases hp : pops e with
    | false =>
      obtain ⟨l, hl⟩ := happend s e he hp
      rw [hq, append_assoc] at hl
      obtain ⟨r, hr, hrest⟩ := ih hl hes (by simpa [hp] using hn)
      exact ⟨r, mem_cons_of_mem _ hr, hrest⟩
    | true =>
      cases before with
      | nil => exact ⟨S.record s e, mem_cons_self, hp, he, ⟨after, hq⟩, rfl⟩
      | cons b before =>
        obtain ⟨l, hl⟩ := hpop s e b (before ++ t :: after) he hp hq
        rw [append_assoc] at hl
        obtain ⟨r, hr, hrest⟩ := ih hl hes (by simpa [hp] using hn)
        exact ⟨r, mem_cons_of_mem _ hr, hrest⟩

end System

end TrustTunnel.Lib
