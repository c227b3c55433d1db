import Mathlib.Data.List.Basic
import Mathlib.Tactic.Ring

/-!
# Lib.Stream

Read loops that keep their position in the stream between calls.

A `ReadLoop` is given the bytes that have arrived and makes passes over them until none is left;
one pass takes some bytes off the front, updates the state and raises outputs. `none` is a pass
that aborts. A pass may leave the bytes alone (it only moves the state on), so termination is by
`cost`: the bytes left, then the rank of the state.

* `feed` — the whole loop over one chunk; `feed_cons` is its unfolding.
* `Resumable` — the local condition on a pass: more input behind the chunk either stays behind,
  or the pass had used the chunk up and goes on from where it stopped.
* `feed_append`, `feedAll_flatten` — from it: the way a stream is cut into chunks does not matter.
* `feed_project` — a loop over a larger state whose passes project onto another's.
-/

namespace TrustTunnel.Lib

/-- Put the outputs `o` before those of a result. -/
def emit {σ ω : Type} (o : List ω) : Option (σ × List ω) → Option (σ × List ω)
  | none => none
  | some (s, o') => some (s, o ++ o')

variable {σ ω : Type}

@[simp] theorem emit_some (o o' : List ω) (s : σ) : emit o (some (s, o')) = some (s, o ++ o') := rfl

@[simp] theorem emit_nil (r : Option (σ × List ω)) : emit [] r = r := by
  cases r <;> rfl

theorem emit_emit (o o' : List ω) (r : Option (σ × List ω)) : emit o (emit o' r) = emit (o ++ o') r := by
  cases r with
  | none => rfl
  | some p => obtain ⟨s, o''⟩ := p; simp

theorem map_emit {τ γ : Type} (f : σ → τ) (g : ω → Option γ) (o : List ω) (r : Option (σ × List ω)) :
    (emit o r).map (fun p => (f p.1, p.2.filterMap g))
      = emit (o.filterMap g) (r.map fun p => (f p.1, p.2.filterMap g)) := by
  cases r with
  | none => rfl
  | some p => obtain ⟨s, o'⟩ := p; simp

/-- Go on from a result with `f`, keeping the outputs so far in front. -/
def andThen {σ ω : Type} (r : Option (σ × List ω)) (f : σ → Option (σ × List ω)) : Option (σ × List ω) :=
  match r with
  | none => none
  | some (s, o) => emit o (f s)

theorem andThen_emit (o : List ω) (r : Option (σ × List ω)) (f : σ → Option (σ × List ω)) :
    andThen (emit o r) f = emit o (andThen r f) := by
  cases r with
  | none => rfl
  | some p => obtain ⟨s, o'⟩ := p; simp [andThen, emit_emit]

@[simp] theorem andThen_pure (r : Option (σ × List ω)) : andThen r (fun s => some (s, [])) = r := by
  cases r with
  | none => rfl
  | some p => simp [andThen]

structure ReadLoop (σ β ω : Type) where
  /-- One pass over the (nonempty) bytes at hand: state, outputs, bytes left. -/
  pass : σ → List β → Option (σ × List ω × List β)
  rank : σ → Nat
  width : Nat
  rank_le : ∀ s, rank s ≤ width
  /-- A pass takes bytes, or lowers the rank. -/
  progress : ∀ s d s' o r, d ≠ [] → pass s d = some (s', o, r) →
    r.length < d.length ∨ (r.length = d.length ∧ rank s' < rank s)

namespace ReadLoop

variable {σ β ω : Type} (L : ReadLoop σ β ω)

def cost (s : σ) (d : List β) : Nat := d.length * (L.width + 1) + L.rank s

variable {s : σ} {d : List β}

theorem cost_lt {s' : σ} {r : List β} {o : List ω} (hd : d ≠ []) (h : L.pass s d = some (s', o, r)) :
    L.cost s' r < L.cost s d := by
  unfold cost
  rcases L.progress s d s' o r hd h with hlt | ⟨heq, hrank⟩
  · have hw := L.rank_le s'
    have hmul : (r.length + 1) * (L.width + 1) ≤ d.length * (L.width + 1) :=
      Nat.mul_le_mul_right _ hlt
    have hring : (r.length + 1) * (L.width + 1) = r.length * (L.width + 1) + (L.width + 1) := by
      ring
    omega
  · rw [heq]; omega

/-- The loop with a bound on the number of passes; `none` also when the bound is too small. -/
def loop : Nat → σ → List β → Option (σ × List ω)
  | _, s, [] => some (s, [])
  | 0, _, _ :: _ => none
  | n + 1, s, b :: bs =>
    match L.pass s (b :: bs) with
    | none => none
    | some (s', o, r) => emit o (loop n s' r)

def feed (s : σ) (d : List β) : Option (σ × List ω) := L.loop (L.cost s d) s d

/-- `cost` passes are enough: a larger bound changes nothing. -/
theorem loop_eq_feed : ∀ (n : Nat) (s : σ) (d : List β), L.cost s d ≤ n → L.loop n s d = L.feed s d := by
  suffices h : ∀ (c n m : Nat) (s : σ) (d : List β), L.cost s d ≤ c → c ≤ n → c ≤ m →
    L.loop n s d = L.loop m s d from
    fun n s d hn => h (L.cost s d) n (L.cost s d) s d (Nat.le_refl _) hn (Nat.le_refl _)
  intro c
  induction c with
  | zero =>
    intro n m s d hc _ _
    cases d with
    | nil => cases n <;> cases m <;> rfl
    | cons b bs => simp only [cost, List.length_cons, Nat.add_mul] at hc; omega
  | succ c ih =>
    intro n m s d hc hn hm
    cases d with
    | nil => cases n <;> cases m <;> rfl
    | cons b bs =>
      obtain ⟨n, rfl⟩ : ∃ k, n = k + 1 := ⟨n - 1, by omega⟩
      obtain ⟨m, rfl⟩ : ∃ k, m = k + 1 := ⟨m - 1, by omega⟩
      simp only [loop]
      cases hp : L.pass s (b :: bs) with
      | none => rfl
      | some p =>
        obtain ⟨s', o, r⟩ := p
        have := L.cost_lt (by simp) hp
        simp [ih n m s' r (by omega) (by omega) (by omega)]

@[simp] theorem feed_nil (s : σ) : L.feed s [] = some (s, []) := by
  unfold feed
  cases L.cost s [] <;> rfl

/-- The loop unfolds: one pass, then the loop on what is left. -/
theorem feed_cons (hd : d ≠ []) : L.feed s d = match L.pass s d with
      | none => none
      | some (s', o, r) => emit o (L.feed s' r) := by
  cases d with
  | nil => exact absurd rfl hd
  | cons b bs =>
    have hone : 0 < L.cost s (b :: bs) := by
      simp only [cost, List.length_cons, Nat.add_mul]; omega
    obtain ⟨n, hn⟩ : ∃ n, L.cost s (b :: bs) = n + 1 := ⟨L.cost s (b :: bs) - 1, by omega⟩
    rw [feed, hn, loop]
    cases hp : L.pass s (b :: bs) with
    | none => rfl
    | some p =>
      obtain ⟨s', o, r⟩ := p
      have := L.cost_lt (by simp) hp
      simp [L.loop_eq_feed n s' r (by omega)]

theorem feed_of_pass {s' : σ} {r : List β} {o : List ω} (hd : d ≠ []) (h : L.pass s d = some (s', o, r)) :
    L.feed s d = emit o (L.feed s' r) := by
  rw [L.feed_cons hd, h]

/-- Input behind the chunk does not disturb a pass: it stays behind, or the pass used the chunk
up silently and is the same as stopping there and starting again on the rest. -/
structure Resumable : Prop where
  abort : ∀ s a b, a ≠ [] → L.pass s a = none → L.pass s (a ++ b) = none
  resume : ∀ s a b s' o r, a ≠ [] → b ≠ [] → L.pass s a = some (s', o, r) →
    L.pass s (a ++ b) = some (s', o, r ++ b) ∨ (r = [] ∧ o = [] ∧ L.pass s (a ++ b) = L.pass s' b)

variable {L}

theorem feed_append (hL : L.Resumable) (s : σ) (a b : List β) :
    L.feed s (a ++ b) = andThen (L.feed s a) fun s' => L.feed s' b := by
  -- on the passes the loop still has to make over `a`
  induction hc : L.cost s a using Nat.strongRecOn generalizing s a with
  | _ c ih =>
    by_cases ha : a = []
    · subst ha; simp [andThen]
    by_cases hb : b = []
    · subst hb; simp
    have hab : a ++ b ≠ [] := by simp [ha]
    cases hp : L.pass s a with
    | none => rw [L.feed_cons hab, L.feed_cons ha, hp, hL.abort s a b ha hp]; rfl
    | some p =>
      obtain ⟨s', o, r⟩ := p
      rw [L.feed_of_pass ha hp, andThen_emit]
      rcases hL.resume s a b s' o r ha hb hp with hstay | ⟨rfl, rfl, hgo⟩
      · rw [L.feed_of_pass hab hstay, ih _ (hc ▸ L.cost_lt ha hp) s' r rfl]
      · rw [L.feed_cons hab, hgo, ← L.feed_cons hb]
        simp [andThen]

variable (L) in
def feedAll (s : σ) : List (List β) → Option (σ × List ω)
  | [] => some (s, [])
  | c :: cs => andThen (L.feed s c) fun s' => feedAll s' cs

theorem feedAll_flatten (hL : L.Resumable) (s : σ) (cs : List (List β)) : L.feedAll s cs = L.feed s cs.flatten := by
  induction cs generalizing s with
  | nil => simp [feedAll]
  | cons c cs ih => simp [feedAll, ih, List.flatten_cons, feed_append hL]

variable (L) in
/-- What every pass keeps, with the outputs raised so far, is kept by the loop; then no pass aborts. -/
theorem feed_inv {J : List ω → σ → Prop}
    (hpass : ∀ o s d, J o s → d ≠ [] → ∃ s' o' r, L.pass s d = some (s', o', r) ∧ J (o ++ o') s')
    (o : List ω) (s : σ) (d : List β) (hs : J o s) : ∃ s' o', L.feed s d = some (s', o') ∧ J (o ++ o') s' := by
  induction hc : L.cost s d using Nat.strongRecOn generalizing o s d with
  | _ c ih =>
    by_cases hd : d = []
    · subst hd; exact ⟨s, [], by simp, by simpa using hs⟩
    obtain ⟨s1, o1, r, hp, h1⟩ := hpass o s d hs hd
    obtain ⟨s2, o2, hf, h2⟩ := ih _ (hc ▸ L.cost_lt hd hp) (o ++ o1) s1 r h1 rfl
    refine ⟨s2, o1 ++ o2, by rw [L.feed_of_pass hd hp, hf]; rfl, ?_⟩
    rwa [← List.append_assoc]

/-- If the passes of `K` project onto those of `L` along `π`, so does the whole loop. The part of
the state that `π` forgets may be kept to an invariant `I`. -/
theorem feed_project {τ : Type} {K : ReadLoop τ β ω} {π : τ → σ} {I : τ → Prop}
    (hpass : ∀ t d, I t → d ≠ [] →
      (K.pass t d).map (fun p => (π p.1, p.2)) = L.pass (π t) d ∧ ∀ t' o r, K.pass t d = some (t', o, r) → I t')
    (t : τ) (d : List β) (ht : I t) :
    (K.feed t d).map (fun p => (π p.1, p.2)) = L.feed (π t) d ∧ ∀ t' o, K.feed t d = some (t', o) → I t' := by
  induction hc : K.cost t d using Nat.strongRecOn generalizing t d with
  | _ c ih =>
    by_cases hd : d = []
    · subst hd
      refine ⟨by simp, fun t' o h => ?_⟩
      simp only [feed_nil, Option.some.injEq, Prod.mk.injEq] at h
      exact h.1 ▸ ht
    obtain ⟨hproj, hkeep⟩ := hpass t d ht hd
    cases hp : K.pass t d with
    | none =>
      rw [hp] at hproj
      rw [K.feed_cons hd, hp, L.feed_cons hd, ← hproj]
      exact ⟨rfl, fun t' o h => by cases h⟩
    | some p =>
      obtain ⟨t', o, r⟩ := p
      rw [hp] at hproj
      obtain ⟨hfeed, hinv⟩ := ih _ (hc ▸ K.cost_lt hd hp) t' r (hkeep t' o r hp) rfl
      rw [K.feed_of_pass hd hp, L.feed_of_pass hd hproj.symm, ← hfeed]
      cases hf : K.feed t' r with
      | none => exact ⟨rfl, fun t' o h => by cases h⟩
      | some q =>
        obtain ⟨t2, o2⟩ := q
        refine ⟨rfl, fun t3 o3 h => ?_⟩
        simp only [emit_some, Option.some.injEq, Prod.mk.injEq] at h
        exact h.1 ▸ hinv t2 o2 hf

end ReadLoop

end TrustTunnel.Lib
