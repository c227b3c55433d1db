import TrustTunnel.Lib.System

/-!
# Lib.Fsm

State machines given by a table of rows. An event takes the first row whose source state, event and
condition fit: the row's action is run, the state changes to the row's target, the action that
follows is run. An event no row fits is ignored.

* `perform` — what an event does.
* `perform_cases` — the event was ignored, or a row of the table was taken.
* `not_holds_of_shadowed` — a row is only taken when the conditions of the rows for the same source
  and event above it fail.
* `exists_taken` — where a row without a condition fits, the event is not ignored.
-/

namespace TrustTunnel.Lib

/-- A row of a table over states `Q`, events `E`, conditions `G` and actions `A`. -/
structure Row (Q E G A : Type) where
  /-- `none` fits every state -/
  source : Option Q
  event : E
  /-- `none` always holds -/
  condition : Option G
  before : Option A
  /-- `none` keeps the state -/
  target : Option Q
  after : Option A
  deriving DecidableEq

/-- A table with the meaning of its conditions and actions on a context `σ`, for event data `δ`. -/
structure Machine (Q E G A σ δ ω : Type) where
  table : List (Row Q E G A)
  state : σ → Q
  setState : Q → σ → σ
  holds : G → δ → σ → Bool
  run : A → δ → σ → σ × List ω

namespace Machine

variable {Q E G A σ δ ω : Type} [DecidableEq Q] [DecidableEq E] (M : Machine Q E G A σ δ ω)

def fits (r : Row Q E G A) (e : E) (d : δ) (s : σ) : Bool :=
  (r.source.isNone || r.source == some (M.state s)) && r.event == e && r.condition.all fun g => M.holds g d s

def runOpt (a : Option A) (d : δ) (s : σ) : σ × List ω :=
  match a with
  | none => (s, [])
  | some a => M.run a d s

@[simp] theorem runOpt_none (d : δ) (s : σ) : M.runOpt none d s = (s, []) := rfl

@[simp] theorem runOpt_some (a : A) (d : δ) (s : σ) : M.runOpt (some a) d s = M.run a d s := rfl

def moveTo (q : Option Q) (s : σ) : σ :=
  match q with
  | none => s
  | some q => M.setState q s

def take (r : Row Q E G A) (d : δ) (s : σ) : σ × List ω :=
  let b := M.runOpt r.before d s
  andDo (M.moveTo r.target b.1, b.2) (M.runOpt r.after d)

def perform (e : E) (d : δ) (s : σ) : σ × List ω :=
  match M.table.find? fun r => M.fits r e d s with
  | none => (s, [])
  | some r => M.take r d s

/-- `r` is taken by the event: it is the first row of the table that fits. -/
def Taken (r : Row Q E G A) (e : E) (d : δ) (s : σ) : Prop :=
  M.table.find? (fun r => M.fits r e d s) = some r

variable {M} {r : Row Q E G A} {e : E} {d : δ} {s : σ}

section

variable (h : M.Taken r e d s)
include h

theorem Taken.perform_eq : M.perform e d s = M.take r d s := by
  unfold Taken at h
  simp [perform, h]

theorem Taken.mem : r ∈ M.table := List.mem_of_find?_eq_some h

theorem Taken.fits : M.fits r e d s = true := by
  simpa using List.find?_some h

theorem Taken.event : r.event = e := by
  have hfits := h.fits
  simp only [Machine.fits, Bool.and_eq_true, beq_iff_eq] at hfits
  exact hfits.1.2

theorem Taken.source : r.source = none ∨ r.source = some (M.state s) := by
  have hfits := h.fits
  simp only [Machine.fits, Bool.and_eq_true, Bool.or_eq_true, Option.isNone_iff_eq_none, beq_iff_eq] at hfits
  exact hfits.1.1

theorem Taken.state_eq {q : Q} (hq : r.source = some q) : M.state s = q := by
  rcases h.source with hnone | hsome
  · rw [hq] at hnone
    cases hnone
  · rw [hq] at hsome
    exact (Option.some.inj hsome).symm

end

theorem perform_cases (M : Machine Q E G A σ δ ω) (e : E) (d : δ) (s : σ) :
    (M.perform e d s = (s, []) ∧ ¬∃ r, M.Taken r e d s) ∨ ∃ r, M.Taken r e d s := by
  cases h : M.table.find? fun r => M.fits r e d s with
  | none =>
    refine .inl ⟨by simp [perform, h], ?_⟩
    rintro ⟨r, hr⟩
    rw [Taken, h] at hr
    cases hr
  | some r => exact .inr ⟨r, h⟩

theorem exists_taken (hr : r ∈ M.table) (hs : r.source = none ∨ r.source = some (M.state s))
    (he : r.event = e) (hc : r.condition = none) : ∃ r, M.Taken r e d s := by
  have hfits : M.fits r e d s = true := by
    simp only [Machine.fits, he, hc]
    rcases hs with hs | hs <;> simp [hs]
  have hsome : (M.table.find? fun r => M.fits r e d s).isSome :=
    List.find?_isSome.mpr ⟨r, hr, hfits⟩
  exact Option.isSome_iff_exists.mp hsome

variable [DecidableEq G] [DecidableEq A]

def above (t : List (Row Q E G A)) (r : Row Q E G A) : List (Row Q E G A) :=
  t.takeWhile fun r' => r' ≠ r

/-- A row above `r` takes the same event from the same source when `g` holds. -/
def shadowed (t : List (Row Q E G A)) (r : Row Q E G A) (g : G) : Bool :=
  (above t r).any fun r' => r'.source == r.source && r'.event == r.event && r'.condition == some g

theorem not_fits_above {t : List (Row Q E G A)} {p : Row Q E G A → Bool}
    (h : t.find? p = some r) {r' : Row Q E G A} (hr' : r' ∈ above t r) : p r' = false := by
  induction t with
  | nil => cases h
  | cons a t ih =>
    by_cases ha : p a = true
    · -- the first row is the one found, so nothing is above it
      rw [List.find?_cons_of_pos ha, Option.some.injEq] at h
      simp [above, h] at hr'
    rw [List.find?_cons_of_neg ha] at h
    by_cases hra : a = r
    · simp [above, hra] at hr'
    simp only [above, List.takeWhile_cons, ne_eq, hra, not_false_eq_true, decide_true, if_true, List.mem_cons] at hr'
    rcases hr' with rfl | hr'
    · simpa using ha
    · exact ih h hr'

theorem not_holds_of_shadowed (h : M.Taken r e d s) {g : G}
    (hg : shadowed M.table r g = true) : M.holds g d s = false := by
  simp only [shadowed, List.any_eq_true, Bool.and_eq_true, beq_iff_eq] at hg
  obtain ⟨r', hr', ⟨hsource, hevent⟩, hcondition⟩ := hg
  have hnot := not_fits_above h hr'
  have hfits := h.fits
  simp only [Machine.fits, Bool.and_eq_true] at hfits
  simp only [Machine.fits, hsource, hevent, hfits.1.1, hfits.1.2, hcondition] at hnot
  exact hnot

end Machine

end TrustTunnel.Lib
