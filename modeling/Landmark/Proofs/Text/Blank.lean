/-
Words with single spaces between them are read back as they were.

- `words_append_blank`: a blank ends the word before it, whatever comes after.
- `words_intercalate`: pieces that are words, with one space between neighbours, are the words of the text they make; pieces
  that are empty go missing (`words_intercalate_pieces`).
- `words_eq_iff`: the words of a text are what is left of it when it is cut at every run of blanks (`Cut`).
-/
import Landmark.Text.Blank

namespace Landmark.Text

/-- characters without a blank, at least one -/
def IsWord (w : List Char) : Prop :=
  w ≠ [] ∧ ∀ c ∈ w, isBlank c = false

theorem isWord_singleton {c : Char} (h : isBlank c = false) : IsWord [c] := by
  refine ⟨List.cons_ne_nil _ _, ?_⟩
  intro d hd
  rwa [List.mem_singleton.1 hd]

theorem IsWord.append {v w : List Char} (hv : IsWord v) (hw : IsWord w) : IsWord (v ++ w) := by
  refine ⟨List.append_ne_nil_of_left_ne_nil hv.1 w, ?_⟩
  intro c hc
  exact (List.mem_append.1 hc).elim (hv.2 c) (hw.2 c)

theorem pushWord_of_isWord {w : List Char} (h : IsWord w) (ws : List (List Char)) : pushWord w ws = w :: ws := by
  cases w with
  | nil => exact absurd rfl h.1
  | cons c w => rfl

/-- characters that are not blank go on with the word the text starts with -/
theorem foldr_wordStep_of_not_blank {w : List Char} (h : ∀ c ∈ w, isBlank c = false) (acc : List Char × List (List Char)) :
    w.foldr wordStep acc = (w ++ acc.1, acc.2) := by
  induction w with
  | nil => rfl
  | cons c w ih =>
    have hc : isBlank c = false := h c List.mem_cons_self
    rw [List.foldr_cons, ih fun d hd => h d (List.mem_cons_of_mem _ hd), wordStep, hc]
    rfl

theorem words_of_isWord {w : List Char} (h : IsWord w) : words w = [w] := by
  rw [words, foldr_wordStep_of_not_blank h.2, List.append_nil]
  exact pushWord_of_isWord h []

theorem words_cons_blank {b : Char} (hb : isBlank b = true) (cs : List Char) : words (b :: cs) = words cs := by
  rw [words, List.foldr_cons, wordStep, if_pos hb]
  rfl

/-- A blank ends the word before it. -/
theorem words_append_blank {w : List Char} (h : IsWord w) {b : Char} (hb : isBlank b = true) (rest : List Char) :
    words (w ++ b :: rest) = w :: words rest := by
  have hstart : (b :: rest).foldr wordStep ([], []) = ([], words rest) := by
    rw [List.foldr_cons, wordStep, if_pos hb]
    rfl
  rw [words, List.foldr_append, hstart, foldr_wordStep_of_not_blank h.2, List.append_nil]
  exact pushWord_of_isWord h _

/-- pieces with single spaces between them leave their words in the text; of empty pieces nothing is left -/
theorem words_intercalate_pieces {ws : List (List Char)} (h : ∀ w ∈ ws, w = [] ∨ IsWord w) :
    words ([' '].intercalate ws) = ws.filter (· ≠ []) := by
  induction ws with
  | nil => rfl
  | cons w ws ih =>
    have hrest := ih fun u hu => h u (List.mem_cons_of_mem _ hu)
    cases ws with
    | nil =>
      rw [List.intercalate_singleton]
      rcases h w List.mem_cons_self with rfl | hw
      · rfl
      · rw [words_of_isWord hw, List.filter_cons_of_pos (by simpa using hw.1), List.filter_nil]
    | cons v ws =>
      rw [List.intercalate_cons_cons, List.append_assoc, List.singleton_append]
      rcases h w List.mem_cons_self with rfl | hw
      · rw [List.nil_append, words_cons_blank (by decide), hrest]
        exact (List.filter_cons_of_neg (by simp)).symm
      · rw [words_append_blank hw (by decide), hrest]
        exact (List.filter_cons_of_pos (by simpa using hw.1)).symm

/-- **Words with single spaces between them are the words of their text.** -/
theorem words_intercalate {ws : List (List Char)} (h : ∀ w ∈ ws, IsWord w) : words ([' '].intercalate ws) = ws := by
  rw [words_intercalate_pieces fun w hw => .inr (h w hw), List.filter_eq_self]
  intro w hw
  simpa using (h w hw).1

/-! ## Cutting at blanks -/

/-- a text cut at every run of blanks, and its words in order -/
inductive Cut : List Char → List (List Char) → Prop where
  | nil : Cut [] []
  | blank {b : Char} {cs : List Char} {ws : List (List Char)} (hb : isBlank b = true) (h : Cut cs ws) : Cut (b :: cs) ws
  /-- a word goes on up to a blank or the end -/
  | word {w cs : List Char} {ws : List (List Char)} (hw : IsWord w) (hend : ∀ c ∈ cs.head?, isBlank c = true)
      (h : Cut cs ws) : Cut (w ++ cs) (w :: ws)

theorem words_of_cut {cs : List Char} {ws : List (List Char)} (h : Cut cs ws) : words cs = ws := by
  induction h with
  | nil => rfl
  | blank hb _ ih => rw [words_cons_blank hb, ih]
  | @word w cs ws hw hend _ ih =>
    cases cs with
    | nil => rw [List.append_nil, words_of_isWord hw, ← ih]; rfl
    | cons b cs =>
      have hb : isBlank b = true := hend b rfl
      rw [words_append_blank hw hb, ← ih, words_cons_blank hb]

/-- what the fold has seen so far: the word it is in, and the words behind that one -/
theorem cut_foldr (cs : List Char) : ∃ w rest ws, cs.foldr wordStep ([], []) = (w, ws) ∧ cs = w ++ rest ∧
    (∀ c ∈ w, isBlank c = false) ∧ (∀ c ∈ rest.head?, isBlank c = true) ∧ Cut rest ws := by
  induction cs with
  | nil => exact ⟨[], [], [], rfl, rfl, by simp, by simp, .nil⟩
  | cons c cs ih =>
    obtain ⟨w, rest, ws, hfold, rfl, hw, hrest, hcut⟩ := ih
    rw [List.foldr_cons, hfold, wordStep]
    cases hc : isBlank c with
    | false => exact ⟨c :: w, rest, ws, rfl, rfl, List.forall_mem_cons.2 ⟨hc, hw⟩, hrest, hcut⟩
    | true =>
      have hbehind : Cut (w ++ rest) (pushWord w ws) := by
        cases w with
        | nil => exact hcut
        | cons d w => exact .word ⟨List.cons_ne_nil d w, hw⟩ hrest hcut
      exact ⟨[], c :: (w ++ rest), pushWord w ws, rfl, rfl, by simp, by simpa using hc, .blank hc hbehind⟩

theorem cut_words (cs : List Char) : Cut cs (words cs) := by
  obtain ⟨w, rest, ws, hfold, rfl, hw, hrest, hcut⟩ := cut_foldr cs
  rw [words, hfold]
  cases w with
  | nil => exact hcut
  | cons d w => exact .word ⟨List.cons_ne_nil d w, hw⟩ hrest hcut

/-- **The words of a text are its pieces between runs of blanks.** -/
theorem words_eq_iff {cs : List Char} {ws : List (List Char)} : words cs = ws ↔ Cut cs ws :=
  ⟨fun h => h ▸ cut_words cs, words_of_cut⟩

end Landmark.Text
