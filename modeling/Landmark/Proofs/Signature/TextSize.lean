/-
How many tokens the written form of a signature has.

A segment is written with one token for each byte it covers (`length_tokens`). The token of a choice among no bytes is empty,
though, and an empty token cannot be told from the blanks around it. So such choices are not in the written form, and what is
read back is too short by one byte for each of them.
- `withoutEmptyChoices`: what is left of a signature without them; its text has the same words (`words_text`).
- `text_size_exact`: how many words the text has, and the size of the signature that is read back.
- `holed_shrinks`: a signature of three bytes that is read back as one of two.
-/
import Landmark.Proofs.Signature.Token

namespace Landmark

namespace Segment

/-- the segment, if it is a choice among no bytes -/
def emptyChoice : Segment → List Segment
  | oneOf [] => [oneOf []]
  | _ => []

theorem additive_emptyChoice : Additive emptyChoice where
  literal _ _ := rfl
  wildcard _ _ := rfl

theorem emptyChoice_eq_nil_iff {s : Segment} : s.emptyChoice = [] ↔ s ≠ oneOf [] := by
  unfold emptyChoice
  split <;> simp_all

/-- one token a byte, be it empty -/
theorem length_tokens (s : Segment) : s.tokens.length = s.size := by
  cases s with
  | literal bs => exact List.length_map ..
  | wildcard n => exact List.length_replicate
  | masked v m => rfl
  | oneOf vs => rfl
  | capture n w b =>
    cases b with
    | none => exact List.length_replicate
    | some v => rw [tokens, List.length_map, length_lowBytes]; rfl

/-- the tokens of other segments are words -/
theorem isWord_of_ne_emptyChoice {s : Segment} (h : s ≠ oneOf []) {t : String} (ht : t ∈ s.tokens) :
    Text.IsWord t.toList := by
  refine isWord_of_mem_tokens ?_ ht
  rintro vs rfl rfl
  exact h rfl

/-- just the tokens of choices among no bytes are empty -/
theorem flatMap_tokens_filter (l : List Segment) :
    (l.filter (· ≠ oneOf [])).flatMap tokens = (l.flatMap tokens).filter (· ≠ "") := by
  induction l with
  | nil => rfl
  | cons s l ih =>
    rw [List.flatMap_cons, List.filter_append, ← ih]
    by_cases hs : s = oneOf []
    · subst hs
      rfl
    · have hkept : s.tokens.filter (· ≠ "") = s.tokens := by
        rw [List.filter_eq_self]
        intro t ht
        have hne := (isWord_of_ne_emptyChoice hs ht).1
        rw [decide_eq_true_eq]
        rintro rfl
        exact hne rfl
      rw [List.filter_cons_of_pos (by simpa using hs), List.flatMap_cons, hkept]

end Segment

namespace Signature

open Segment

theorem length_tokens (p : Signature) : p.tokens.length = p.size := by
  have hlength : ∀ l : List Segment, (l.flatMap Segment.tokens).length = sizeAll l := by
    intro l
    induction l with
    | nil => rfl
    | cons s l ih => rw [List.flatMap_cons, List.length_append, Segment.length_tokens, ih]; rfl
  exact hlength p.segments

/-! ## Choices among no bytes -/

/-- number of choices among no bytes -/
def emptyChoices (p : Signature) : Nat :=
  p.segments.count (.oneOf [])

/-- the signature without its choices among no bytes -/
def withoutEmptyChoices (p : Signature) : Signature :=
  (p.segments.filter (· ≠ .oneOf [])).foldl push empty

theorem emptyChoices_eq_zero_iff {p : Signature} :
    p.emptyChoices = 0 ↔ ∀ vs, Segment.oneOf vs ∈ p.segments → vs ≠ [] := by
  rw [emptyChoices, List.count_eq_zero]
  constructor
  · rintro h vs hvs rfl
    exact h hvs
  · intro h hmem
    exact h [] hmem rfl

theorem choicesSpelled_withoutEmptyChoices (p : Signature) : p.withoutEmptyChoices.ChoicesSpelled := by
  have hnone : p.withoutEmptyChoices.segments.flatMap emptyChoice = [] := by
    rw [withoutEmptyChoices, flatMap_foldl_push additive_emptyChoice]
    refine List.flatMap_eq_nil_iff.2 fun s hs => emptyChoice_eq_nil_iff.2 ?_
    simpa using (List.mem_filter.1 hs).2
  rintro vs hvs rfl
  exact absurd (List.flatMap_eq_nil_iff.1 hnone _ hvs) (List.cons_ne_nil _ _)

theorem sizeAll_filter (l : List Segment) : sizeAll (l.filter (· ≠ .oneOf [])) + l.count (.oneOf []) = sizeAll l := by
  induction l with
  | nil => rfl
  | cons s l ih =>
    have hcons : ∀ l', sizeAll (s :: l') = s.size + sizeAll l' := fun _ => rfl
    by_cases hs : s = .oneOf []
    · have hone : s.size = 1 := hs ▸ rfl
      rw [hcons, ← ih, hone, hs, List.filter_cons_of_neg (by simp), List.count_cons_self]
      omega
    · rw [hcons, ← ih, List.filter_cons_of_pos (by simpa using hs), List.count_cons_of_ne hs, hcons, Nat.add_assoc]

theorem size_withoutEmptyChoices (p : Signature) : p.withoutEmptyChoices.size + p.emptyChoices = p.size := by
  have hsize : p.withoutEmptyChoices.size = sizeAll (p.segments.filter (· ≠ .oneOf [])) := by
    rw [← length_allowed, allowed, withoutEmptyChoices, flatMap_foldl_push additive_allowed]
    exact length_flatMap_allowed _
  rw [hsize]
  exact sizeAll_filter p.segments

theorem tokens_withoutEmptyChoices (p : Signature) : p.withoutEmptyChoices.tokens = p.tokens.filter (· ≠ "") := by
  rw [tokens, withoutEmptyChoices, flatMap_foldl_push additive_tokens]
  exact flatMap_tokens_filter p.segments

/-! ## The text -/

/-- **Choices among no bytes leave no word in the text.** -/
theorem words_text (p : Signature) : Text.words p.text.toList = p.withoutEmptyChoices.tokens.map String.toList := by
  have hspace : " ".toList = [' '] := rfl
  have hpieces : ∀ w ∈ p.tokens.map String.toList, w = [] ∨ Text.IsWord w := by
    intro w hw
    obtain ⟨t, ht, rfl⟩ := List.mem_map.1 hw
    obtain ⟨s, -, hts⟩ := List.mem_flatMap.1 ht
    by_cases hs : s = .oneOf []
    · subst hs
      obtain rfl := List.mem_singleton.1 hts
      exact .inl rfl
    · exact .inr (isWord_of_ne_emptyChoice hs hts)
  rw [text, String.toList_intercalate, hspace, Text.words_intercalate_pieces hpieces, tokens_withoutEmptyChoices,
    List.filter_map]
  refine congrArg (List.map String.toList) (List.filter_congr fun t _ => ?_)
  simp

/-- so the text reads as if they were not there -/
theorem read_text_withoutEmptyChoices (p : Signature) : read p.text = read p.withoutEmptyChoices.text := by
  rw [read, read, words_text, (choicesSpelled_withoutEmptyChoices p).words_text]

/-- **How long the written form is.** It has one word for each byte of the signature except for those of choices among no
bytes; so it has as many words as the signature has bytes exactly if there are no such choices. What is read back is just
that much shorter, and nothing can be read back if nothing is left. So the size is kept exactly if the signature is not
empty and has no such choices. -/
theorem text_size_exact (p : Signature) :
    (Text.words p.text.toList).length + p.emptyChoices = p.size ∧
    ((Text.words p.text.toList).length = p.size ↔ ∀ vs, Segment.oneOf vs ∈ p.segments → vs ≠ []) ∧
    (p.emptyChoices < p.size → ∃ q, read p.text = .ok q ∧ q.size + p.emptyChoices = p.size) ∧
    (p.emptyChoices = p.size → read p.text = .error (.invalidSignature "pattern is empty")) ∧
    ((∃ q, read p.text = .ok q ∧ q.size = p.size) ↔ 0 < p.size ∧ ∀ vs, Segment.oneOf vs ∈ p.segments → vs ≠ []) := by
  have hsize := size_withoutEmptyChoices p
  have hwords : (Text.words p.text.toList).length = p.withoutEmptyChoices.size := by
    rw [words_text, List.length_map, length_tokens]
  have hread : p.emptyChoices < p.size → ∃ q, read p.text = .ok q ∧ q.size + p.emptyChoices = p.size := by
    intro h
    obtain ⟨q, hq, -, hqsize, -⟩ := read_text p.withoutEmptyChoices (by omega) (choicesSpelled_withoutEmptyChoices p)
    rw [← read_text_withoutEmptyChoices] at hq
    exact ⟨q, hq, by omega⟩
  have hnothing : p.emptyChoices = p.size → read p.text = .error (.invalidSignature "pattern is empty") := by
    intro h
    have hblank : Text.words p.text.toList = [] := List.length_eq_zero_iff.1 (by omega)
    rw [read, hblank]
    rfl
  rw [← emptyChoices_eq_zero_iff]
  refine ⟨by omega, by omega, hread, hnothing, ?_⟩
  constructor
  · rintro ⟨q, hq, hqsize⟩
    rcases Nat.lt_or_ge p.emptyChoices p.size with hlt | hge
    · obtain ⟨q', hq', hqsize'⟩ := hread hlt
      obtain rfl := Except.ok.inj (hq.symm.trans hq')
      omega
    · rw [hnothing (by omega)] at hq
      contradiction
  · rintro ⟨hpos, hzero⟩
    obtain ⟨q, hq, hqsize⟩ := hread (by omega)
    exact ⟨q, hq, by omega⟩

/-- a choice among no bytes between two bytes -/
def holed : Signature :=
  literal [0x68] ++ oneOf [] ++ literal [0x00]

/-- the byte behind the choice is read back one place too early -/
theorem holed_shrinks : holed.size = 3 ∧ holed.text = "68  00" ∧ (Text.words holed.text.toList).length = 2 ∧
    read holed.text = .ok (literal [0x68, 0x00]) ∧ ¬ ∃ q, read holed.text = .ok q ∧ q.size = holed.size := by
  have hread : read holed.text = .ok (literal [0x68, 0x00]) := by rfl
  refine ⟨rfl, by decide +kernel, by decide +kernel, hread, ?_⟩
  rintro ⟨q, hq, hsize⟩
  rw [hread] at hq
  obtain rfl := Except.ok.inj hq
  exact absurd hsize (by decide)

end Signature

end Landmark
