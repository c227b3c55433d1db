import Mathlib.Data.List.Basic

/-!
# Lib.Words

Splitting a text into words at separators, the way a scanner with a buffer does it, and what the
words of a composed text are.

* `words_append` — a separator ends a word: the words on its two sides are independent.
* `words_lines` — the words of lines joined by a separator are the words of the lines.
* `words_terminated` — a text written as words, each with a separator after it, reads back.
-/

namespace TrustTunnel.Lib

open List

variable {α : Type} (sep : α → Bool)

/-- Scan with the word read so far in `buffer`. -/
def wordsFrom (buffer : List α) : List α → List (List α)
  | [] => if buffer.isEmpty then [] else [buffer]
  | c :: cs =>
    if !sep c then wordsFrom (buffer ++ [c]) cs
    else if !buffer.isEmpty then buffer :: wordsFrom [] cs
    else wordsFrom [] cs

def words (text : List α) : List (List α) := wordsFrom sep [] text

/-- No separator, and not empty. -/
structure IsWord (w : List α) : Prop where
  nonempty : w ≠ []
  plain : ∀ c ∈ w, sep c = false

variable {sep}

theorem wordsFrom_append (buffer a b : List α) {c : α} (hc : sep c = true) :
    wordsFrom sep buffer (a ++ c :: b) = wordsFrom sep buffer a ++ words sep b := by
  induction a generalizing buffer with
  | nil =>
    cases buffer with
    | nil | cons x xs => simp [wordsFrom, hc, words]
  | cons x a ih =>
    simp only [cons_append, wordsFrom, ih]
    split
    · rfl
    · split
      · rfl
      · rfl

theorem words_append (a b : List α) {c : α} (hc : sep c = true) :
    words sep (a ++ c :: b) = words sep a ++ words sep b :=
  wordsFrom_append [] a b hc

theorem wordsFrom_plain (buffer w : List α) (hw : ∀ c ∈ w, sep c = false) :
    wordsFrom sep buffer w = wordsFrom sep (buffer ++ w) [] := by
  induction w generalizing buffer with
  | nil => simp
  | cons c w ih =>
    have hc : sep c = false := hw c (by simp)
    simp only [wordsFrom, hc]
    rw [ih _ (fun d hd => hw d (by simp [hd]))]
    simp [wordsFrom]

theorem words_nil : words sep ([] : List α) = [] := by simp [words, wordsFrom]

theorem words_word {w : List α} (hw : IsWord sep w) : words sep w = [w] := by
  rw [words, wordsFrom_plain [] w hw.plain]
  have := hw.nonempty
  simp [wordsFrom, this]

theorem isWord_of_mem_wordsFrom {buffer text w : List α} (hb : ∀ c ∈ buffer, sep c = false)
    (h : w ∈ wordsFrom sep buffer text) : IsWord sep w := by
  induction text generalizing buffer with
  | nil =>
    simp only [wordsFrom] at h
    split_ifs at h with he
    · cases h
    · simp only [mem_singleton] at h
      subst h
      exact ⟨by simpa using he, hb⟩
  | cons c cs ih =>
    simp only [wordsFrom] at h
    split at h
    · rename_i hc
      refine ih (fun d hd => ?_) h
      rcases mem_append.mp hd with hd | hd
      · exact hb d hd
      · rw [mem_singleton.mp hd]; simpa using hc
    · split_ifs at h with he
      · rcases mem_cons.mp h with rfl | h
        · exact ⟨by simpa using he, hb⟩
        · exact ih (by simp) h
      · exact ih (by simp) h

theorem isWord_of_mem_words {text w : List α} (h : w ∈ words sep text) : IsWord sep w :=
  isWord_of_mem_wordsFrom (by simp) h

theorem words_lines {nl : α} (hnl : sep nl = true) (lines : List (List α)) :
    words sep ([nl].intercalate lines) = lines.flatMap (words sep) := by
  induction lines with
  | nil => simp [words_nil]
  | cons l ls ih =>
    cases ls with
    | nil => simp
    | cons m ms =>
      rw [intercalate_cons_cons, append_assoc, singleton_append, words_append _ _ hnl, ih]
      rfl

theorem words_terminated {nl : α} (hnl : sep nl = true) (ws : List (List α)) (hws : ∀ w ∈ ws, w = [] ∨
    IsWord sep w) :
    words sep (ws.flatMap (· ++ [nl])) = ws.filter (fun w => !w.isEmpty) := by
  induction ws with
  | nil => simp [words_nil]
  | cons w ws ih =>
    have ih' := ih (fun v hv => hws v (by simp [hv]))
    rw [flatMap_cons, append_assoc, singleton_append, words_append _ _ hnl, ih']
    rcases hws w (by simp) with rfl | hw
    · simp [words_nil]
    · have := hw.nonempty
      simp [words_word hw, this]

end TrustTunnel.Lib
