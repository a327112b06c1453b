/-
The written form of a signature keeps its meaning.

Every token denotes a segment of one byte, which may be of another kind than the segment it was written for: a bound
capture is written as the bytes it asks for, an unbound one as free bytes, a mask by one of five forms, a choice of one
byte as that byte. Reading then joins neighbours again.
- `ofToken?_halves`, `ofToken?_slash`, `ofToken?_bars`: what the forms of a token denote.
- `ofToken?_maskToken`: each of the five forms of a mask denotes the byte and the mask.
- `spelled`: the segments that the tokens of a segment denote (`map_ofToken?_tokens`); `tokens_spelled`, `allowed_spelled`:
  they have the same tokens and allow the same bytes.
- `read_text_eq`: reading the written form puts these segments together.
- `read_text`: the signature read matches where the one written does, and has the same written form and size.
-/
import Landmark.Proofs.Signature.Bytes
import Landmark.Proofs.Text.Hex

namespace Landmark

namespace Segment

open Hex Text

/-! ## Tokens -/

theorem hexPair?_byteDigits (b : UInt8) : hexPair? (byteDigits b) = some b := by
  simp only [hexPair?, byteDigits, digitValue?_digit (high_lt b), digitValue?_digit (low_lt b), ofNat_halves]

theorem half?_digit {n : Nat} (h : n < 16) : half? (digit n) = some (n, 15) := by
  rw [half?, if_neg (digit_ne (by decide) h), digitValue?_digit h]
  rfl

/-- a character that denotes half a byte is a question mark or a digit -/
theorem half?_eq_some {c : Char} {n m : Nat} (h : half? c = some (n, m)) :
    c = '?' ∧ n = 0 ∧ m = 0 ∨ digitValue? c = some n ∧ m = 15 := by
  unfold half? at h
  split at h
  · next hc =>
    cases h
    exact .inl ⟨hc, rfl, rfl⟩
  · obtain ⟨d, hd, hdm⟩ := Option.map_eq_some_iff.1 h
    cases hdm
    exact .inr ⟨hd, rfl⟩

/-- a character that denotes half a byte is none that does not -/
theorem ne_of_half? {c d : Char} {r : Nat × Nat} (hc : half? c = some r) (hd : half? d = none) : d ≠ c := by
  rintro rfl
  rw [hc] at hd
  contradiction

/-- the bits of a half byte are those that its mask keeps -/
theorem highDigit_and : ∀ n : Fin 16, UInt8.ofNat (16 * n) &&& 0xF0 = UInt8.ofNat (16 * n) := by decide

theorem lowDigit_and : ∀ n : Fin 16, UInt8.ofNat n &&& 0x0F = UInt8.ofNat n := by decide

/-- a token of two half bytes -/
theorem ofToken?_halves {c d : Char} {h hm l lm : Nat} (hc : half? c = some (h, hm)) (hd : half? d = some (l, lm)) :
    ofToken? [c, d] = some (ofMask (UInt8.ofNat (16 * h + l)) (UInt8.ofNat (16 * hm + lm))) := by
  by_cases hfree : c = '?' ∧ d = '?'
  · obtain ⟨rfl, rfl⟩ := hfree
    cases hc
    cases hd
    rfl
  have hnot : ¬ ([c, d] = ['?'] ∨ [c, d] = ['?', '?']) := by
    simpa using hfree
  have hmark : ∀ e, half? e = none → ¬ [c, d].contains e = true := by
    intro e he
    simp [ne_of_half? hc he, ne_of_half? hd he]
  rw [ofToken?, if_neg hnot, if_neg (hmark '|' rfl), if_neg (hmark '/' rfl)]
  simp only [hc, hd]
  -- the mask is not zero here, and the value has no bits outside it
  rcases half?_eq_some hc with ⟨rfl, rfl, rfl⟩ | ⟨hh, rfl⟩ <;> rcases half?_eq_some hd with ⟨rfl, rfl, rfl⟩ | ⟨hl, rfl⟩
  · exact absurd ⟨rfl, rfl⟩ hfree
  · rw [Nat.mul_zero, Nat.zero_add, Nat.zero_add]
    exact congrArg (fun v => some (masked v 0x0F)) (lowDigit_and ⟨l, digitValue?_lt hl⟩).symm
  · exact congrArg (fun v => some (masked v 0xF0)) (highDigit_and ⟨h, digitValue?_lt hh⟩).symm
  · rfl

theorem ofToken?_byteDigits (b : UInt8) : ofToken? (byteDigits b) = some (literal [b]) := by
  rw [byteDigits, ofToken?_halves (half?_digit (high_lt b)) (half?_digit (low_lt b)), ofNat_halves]
  rfl

theorem highHalf_eq : ∀ v : UInt8, UInt8.ofNat (16 * (v.toNat / 16) + 0) = v &&& 0xF0 :=
  forall_byte (by decide +kernel)

theorem lowHalf_eq : ∀ v : UInt8, UInt8.ofNat (16 * 0 + v.toNat % 16) = v &&& 0x0F :=
  forall_byte (by decide +kernel)

theorem hexPair?_eq_some {t : List Char} {b : UInt8} (h : hexPair? t = some b) : ∃ c d h l, t = [c, d] ∧
    digitValue? c = some h ∧ digitValue? d = some l ∧ UInt8.ofNat (16 * h + l) = b := by
  unfold hexPair? at h
  split at h
  · split at h
    · next hh hl => exact ⟨_, _, _, _, rfl, hh, hl, Option.some.inj h⟩
    · contradiction
  · contradiction

/-- a character that is no digit is not among those of a byte -/
theorem not_mem_of_hexPair? {c : Char} (hc : digitValue? c = none) {t : List Char} {b : UInt8} (ht : hexPair? t = some b) :
    c ∉ t := by
  obtain ⟨d, e, h, l, rfl, hd, he, -⟩ := hexPair?_eq_some ht
  rw [List.mem_cons, List.mem_singleton]
  rintro (rfl | rfl)
  · exact absurd (hc.symm.trans hd) (Option.some_ne_none h).symm
  · exact absurd (hc.symm.trans he) (Option.some_ne_none l).symm

/-- value and mask with a slash between -/
theorem ofToken?_slash {tv tm : List Char} {v m : UInt8} (hv : hexPair? tv = some v) (hm : hexPair? tm = some m) :
    ofToken? (tv ++ '/' :: tm) = some (ofMask v m) := by
  have hfree : ¬ (tv ++ '/' :: tm = ['?'] ∨ tv ++ '/' :: tm = ['?', '?']) := by
    obtain ⟨c, d, h, l, rfl, -, -, -⟩ := hexPair?_eq_some hv
    simp
  have hbar : ¬ (tv ++ '/' :: tm).contains '|' = true := by
    simp [not_mem_of_hexPair? (c := '|') (by decide) hv, not_mem_of_hexPair? (c := '|') (by decide) hm]
  have hslash : (tv ++ '/' :: tm).contains '/' = true := by simp
  have hbefore : ∀ c ∈ tv, (c != '/') = true := by
    intro c hc
    rw [bne_iff_ne]
    rintro rfl
    exact not_mem_of_hexPair? (by decide) hv hc
  unfold ofToken?
  rw [if_neg hfree, if_neg hbar, if_pos hslash, List.takeWhile_append_of_pos hbefore,
    List.dropWhile_append_of_pos hbefore]
  simp [hv, hm]

theorem mapM_hexPair? {ts : List (List Char)} {vs : List UInt8} :
    ts.mapM hexPair? = some vs ↔ ts.map hexPair? = vs.map some := by
  induction ts generalizing vs with
  | nil => cases vs <;> simp
  | cons t ts ih =>
    cases vs with
    | nil => simp [Option.bind_eq_some_iff]
    | cons v vs => simp [Option.bind_eq_some_iff, ih]

/-- two bytes or more with bars between -/
theorem ofToken?_bars {ts : List (List Char)} {vs : List UInt8} (h : ts.map hexPair? = vs.map some)
    (hmany : 2 ≤ ts.length) : ofToken? (['|'].intercalate ts) = some (oneOf vs) := by
  have hsplit : (['|'].intercalate ts).splitOn '|' = ts := by
    refine List.splitOn_intercalate '|' ?_ (List.ne_nil_of_length_pos (by omega))
    intro t ht
    obtain ⟨b, -, hb⟩ := List.mem_map.1 (h ▸ List.mem_map_of_mem ht)
    exact not_mem_of_hexPair? (by decide) hb.symm
  have hbar : '|' ∈ ['|'].intercalate ts := by
    match ts with
    | t :: u :: ts => simp [List.intercalate_cons_cons]
  have hfree : ¬ (['|'].intercalate ts = ['?'] ∨ ['|'].intercalate ts = ['?', '?']) := by
    rintro (h | h) <;> rw [h] at hbar <;> simp at hbar
  unfold ofToken?
  rw [if_neg hfree, if_pos (List.contains_iff_mem.2 hbar), hsplit, mapM_hexPair?.2 h]
  rfl

theorem map_hexPair?_byteDigits (vs : List UInt8) : (vs.map byteDigits).map hexPair? = vs.map some := by
  rw [List.map_map]
  exact List.map_congr_left fun b _ => hexPair?_byteDigits b

theorem toList_oneOf (vs : List UInt8) :
    ("|".intercalate (vs.map byteText)).toList = ['|'].intercalate (vs.map byteDigits) := by
  rw [String.toList_intercalate, List.map_map]
  exact congrArg _ (List.map_congr_left fun b _ => toList_byteText b)

theorem toNat_highHalf : ∀ v : UInt8, (v &&& 0xF0).toNat / 16 = v.toNat / 16 :=
  forall_byte (by decide +kernel)

theorem toNat_lowHalf : ∀ v : UInt8, (v &&& 0x0F).toNat % 16 = v.toNat % 16 :=
  forall_byte (by decide +kernel)

theorem and_full (v : UInt8) : v &&& 0xFF = v := UInt8.and_neg_one

/-- bits outside the mask are not written -/
theorem maskToken_and (v m : UInt8) : maskToken (v &&& m) m = maskToken v m := by
  unfold maskToken
  split
  · next h => rw [h, and_full]
  split
  · next h => rw [h, toNat_highHalf]
  split
  · next h => rw [h, toNat_lowHalf]
  · rw [UInt8.and_assoc, UInt8.and_self]

theorem ofMask_and (v m : UInt8) : ofMask (v &&& m) m = ofMask v m := by
  unfold ofMask
  split
  · next h => rw [h, and_full]
  split
  · rfl
  · rw [UInt8.and_assoc, UInt8.and_self]

/-- **The token of a byte with a mask denotes that byte and that mask**, in whichever of its five forms. -/
theorem ofToken?_maskToken (v m : UInt8) : ofToken? (maskToken v m).toList = some (ofMask v m) := by
  unfold maskToken
  split
  · next h => rw [toList_byteText, ofToken?_byteDigits, ofMask, if_pos h]
  split
  · next h =>
    rw [String.toList_ofList, ofToken?_halves (half?_digit (high_lt v)) rfl, highHalf_eq, h]
    exact congrArg some (ofMask_and v 0xF0)
  split
  · next h =>
    rw [String.toList_ofList, ofToken?_halves rfl (half?_digit (low_lt v)), lowHalf_eq, h]
    exact congrArg some (ofMask_and v 0x0F)
  split
  · next hfull _ _ h => rw [ofMask, if_neg hfull, if_pos h]; rfl
  · have hslash : (byteText (v &&& m) ++ "/" ++ byteText m).toList = byteDigits (v &&& m) ++ '/' :: byteDigits m := by
      rw [String.toList_append, String.toList_append, toList_byteText, toList_byteText, List.append_assoc]
      rfl
    rw [hslash, ofToken?_slash (hexPair?_byteDigits _) (hexPair?_byteDigits _), ofMask_and]

theorem tokens_ofMask (v m : UInt8) : (ofMask v m).tokens = [maskToken v m] := by
  unfold ofMask
  split
  · next h => rw [h]; rfl
  split
  · next h => rw [h]; rfl
  · rw [tokens, maskToken_and]

theorem allowed_ofMask (v m : UInt8) : (ofMask v m).allowed = (masked v m).allowed := by
  unfold ofMask
  split
  · next h => simp only [allowed, h, and_full]; rfl
  split
  · next h => simp only [allowed, h, UInt8.and_zero, beq_self_eq_true]; rfl
  · simp only [allowed, UInt8.and_assoc, UInt8.and_self]

/-! ## Words -/

theorem isWord_byteText (b : UInt8) : IsWord (byteText b).toList := by
  rw [toList_byteText]
  exact isWord_byteDigits b

theorem isWord_maskToken (v m : UInt8) : IsWord (maskToken v m).toList := by
  have hfree : IsWord ['?'] := isWord_singleton (by decide)
  unfold maskToken
  split
  · exact isWord_byteText v
  split
  · rw [String.toList_ofList]
    exact (isWord_singleton (isBlank_digit (high_lt v))).append hfree
  split
  · rw [String.toList_ofList]
    exact hfree.append (isWord_singleton (isBlank_digit (low_lt v)))
  split
  · exact hfree.append hfree
  · rw [String.toList_append, String.toList_append]
    exact ((isWord_byteText _).append (isWord_singleton (by decide))).append (isWord_byteText m)

theorem isWord_bars {vs : List UInt8} (h : vs ≠ []) : IsWord (['|'].intercalate (vs.map byteDigits)) := by
  induction vs with
  | nil => contradiction
  | cons v vs ih =>
    cases vs with
    | nil =>
      rw [List.map_singleton, List.intercalate_singleton]
      exact isWord_byteDigits v
    | cons w vs =>
      rw [List.map_cons, List.map_cons, List.intercalate_cons_cons]
      exact ((isWord_byteDigits v).append (isWord_singleton (by decide))).append (ih (List.cons_ne_nil _ _))

/-- every token is one word -/
theorem isWord_of_mem_tokens {s : Segment} (h : ∀ vs, s = oneOf vs → vs ≠ []) {t : String} (ht : t ∈ s.tokens) :
    IsWord t.toList := by
  have hbytes : ∀ bs : List UInt8, t ∈ bs.map byteText → IsWord t.toList := by
    intro bs hmem
    obtain ⟨b, -, rfl⟩ := List.mem_map.1 hmem
    exact isWord_byteText b
  have hfree : ∀ n, t ∈ List.replicate n "??" → IsWord t.toList := by
    intro n hmem
    have hmark : IsWord ['?'] := isWord_singleton (by decide)
    rw [List.eq_of_mem_replicate hmem]
    exact hmark.append hmark
  cases s with
  | literal bs => exact hbytes bs ht
  | wildcard n => exact hfree n ht
  | masked v m =>
    rw [List.mem_singleton.1 ht]
    exact isWord_maskToken v m
  | oneOf vs =>
    rw [List.mem_singleton.1 ht, toList_oneOf]
    exact isWord_bars (h vs rfl)
  | capture n w b =>
    cases b with
    | none => exact hfree w.size ht
    | some v => exact hbytes (lowBytes w v) ht

/-! ## Segments -/

/-- the segments that the tokens of a segment denote -/
def spelled : Segment → List Segment
  | literal bs => bs.map fun b => literal [b]
  | wildcard n => List.replicate n (wildcard 1)
  | masked v m => [ofMask v m]
  | oneOf [v] => [literal [v]]
  | oneOf vs => [oneOf vs]
  | capture _ w (some v) => (lowBytes w v).map fun b => literal [b]
  | capture _ w none => List.replicate w.size (wildcard 1)

theorem map_ofToken?_bytes (bs : List UInt8) :
    (bs.map byteText).map (fun t => ofToken? t.toList) = (bs.map fun b => literal [b]).map some := by
  rw [List.map_map, List.map_map]
  refine List.map_congr_left fun b _ => ?_
  simp only [Function.comp_apply, toList_byteText, ofToken?_byteDigits]

theorem map_ofToken?_free (n : Nat) :
    (List.replicate n "??").map (fun t => ofToken? t.toList) = (List.replicate n (wildcard 1)).map some := by
  rw [List.map_replicate, List.map_replicate]
  rfl

/-- every token of a segment denotes something; a choice has to be one -/
theorem map_ofToken?_tokens {s : Segment} (h : ∀ vs, s = oneOf vs → vs ≠ []) :
    s.tokens.map (fun t => ofToken? t.toList) = s.spelled.map some := by
  cases s with
  | literal bs => exact map_ofToken?_bytes bs
  | wildcard n => exact map_ofToken?_free n
  | masked v m => rw [tokens, spelled, List.map_singleton, ofToken?_maskToken]; rfl
  | oneOf vs =>
    match vs with
    | [] => exact absurd rfl (h [] rfl)
    | [v] => exact map_ofToken?_bytes [v]
    | v :: w :: vs =>
      rw [tokens, List.map_singleton, toList_oneOf, ofToken?_bars (map_hexPair?_byteDigits _) (by simp)]
      rfl
  | capture n w b =>
    cases b with
    | none => exact map_ofToken?_free w.size
    | some v => exact map_ofToken?_bytes (lowBytes w v)

theorem flatMap_literal {β : Type} {f : Segment → List β} (hf : Additive f) (bs : List UInt8) :
    (bs.map fun b => literal [b]).flatMap f = f (literal bs) := by
  induction bs with
  | nil => exact (hf.eq_nil rfl).symm
  | cons b bs ih => rw [List.map_cons, List.flatMap_cons, ih, ← hf.literal]; rfl

theorem flatMap_wildcard {β : Type} {f : Segment → List β} (hf : Additive f) (n : Nat) :
    (List.replicate n (wildcard 1)).flatMap f = f (wildcard n) := by
  induction n with
  | zero => exact (hf.eq_nil rfl).symm
  | succ n ih => rw [List.replicate_succ, List.flatMap_cons, ih, ← hf.wildcard, Nat.add_comm]

/-- a choice of one byte allows that byte -/
theorem allowed_oneOf_single (v : UInt8) : (oneOf [v]).allowed = (literal [v]).allowed := by
  simp only [allowed, List.map_singleton, List.contains_cons, List.contains_nil, Bool.or_false]

/-- An additive view shows the same of a segment and of what its tokens denote, once it does so for masks, for choices of
one byte and for captures. -/
theorem flatMap_spelled {β : Type} {f : Segment → List β} (hf : Additive f)
    (hmask : ∀ v m, f (ofMask v m) = f (masked v m)) (hone : ∀ v, f (literal [v]) = f (oneOf [v]))
    (hbound : ∀ n w v, f (literal (lowBytes w v)) = f (capture n w (some v)))
    (hfree : ∀ n w, f (wildcard w.size) = f (capture n w none)) (s : Segment) : s.spelled.flatMap f = f s := by
  cases s with
  | literal bs => exact flatMap_literal hf bs
  | wildcard n => exact flatMap_wildcard hf n
  | masked v m => rw [spelled, List.flatMap_singleton, hmask]
  | oneOf vs =>
    match vs with
    | [] => rw [spelled, List.flatMap_singleton]; exact fun v h => nomatch h
    | [v] => rw [spelled, List.flatMap_singleton, hone]
    | v :: w :: vs => rw [spelled, List.flatMap_singleton]; exact fun v h => nomatch h
  | capture n w b =>
    cases b with
    | none => rw [spelled, flatMap_wildcard hf, hfree]
    | some v => rw [spelled, flatMap_literal hf, hbound]

theorem additive_tokens : Additive tokens where
  literal _ _ := List.map_append
  wildcard _ _ := List.replicate_append_replicate.symm

theorem tokens_spelled (s : Segment) : s.spelled.flatMap tokens = s.tokens :=
  flatMap_spelled additive_tokens tokens_ofMask (fun _ => rfl) (fun _ _ _ => rfl) (fun _ _ => rfl) s

theorem allowed_spelled (s : Segment) : s.spelled.flatMap allowed = s.allowed :=
  flatMap_spelled additive_allowed allowed_ofMask (fun v => (allowed_oneOf_single v).symm) (fun _ _ _ => rfl)
    (fun _ _ => rfl) s

/-- names of the captures -/
def names : Segment → List String
  | capture n _ _ => [n]
  | _ => []

theorem additive_names : Additive names where
  literal _ _ := rfl
  wildcard _ _ := rfl

/-- no token denotes a capture -/
theorem names_spelled (s : Segment) : s.spelled.flatMap names = [] := by
  rw [List.flatMap_eq_nil_iff]
  intro t ht
  cases s with
  | literal bs => obtain ⟨b, -, rfl⟩ := List.mem_map.1 ht; rfl
  | wildcard n => rw [List.eq_of_mem_replicate ht]; rfl
  | masked v m =>
    obtain rfl := List.mem_singleton.1 ht
    unfold ofMask
    split
    · rfl
    split <;> rfl
  | oneOf vs =>
    match vs with
    | [] => rw [List.mem_singleton.1 ht]; rfl
    | [v] => rw [List.mem_singleton.1 ht]; rfl
    | v :: w :: vs => rw [List.mem_singleton.1 ht]; rfl
  | capture n w b =>
    cases b with
    | none => rw [List.eq_of_mem_replicate ht]; rfl
    | some v => obtain ⟨b, -, rfl⟩ := List.mem_map.1 ht; rfl

end Segment

/-! ## Whole signatures -/

namespace Signature

open Segment

theorem readTokens_of_denoted {ts : List (List Char)} {l : List Segment} (h : ts.map ofToken? = l.map some)
    (sig : Signature) : sig.readTokens ts = .ok (l.foldl push sig) := by
  induction l generalizing ts sig with
  | nil =>
    obtain rfl := List.map_eq_nil_iff.1 h
    rfl
  | cons s l ih =>
    cases ts with
    | nil => contradiction
    | cons t ts =>
      obtain ⟨ht, hts⟩ := List.cons_eq_cons.1 h
      rw [readTokens, ht]
      exact ih hts (sig.push s)

/-- the segments that the tokens of a signature denote -/
def spelled (p : Signature) : List Segment :=
  p.segments.flatMap Segment.spelled

/-- every choice is one of at least one byte -/
def ChoicesSpelled (p : Signature) : Prop :=
  ∀ vs, Segment.oneOf vs ∈ p.segments → vs ≠ []

namespace ChoicesSpelled

variable {p : Signature}

theorem of_mem (h : p.ChoicesSpelled) {s : Segment} (hs : s ∈ p.segments) (vs : List UInt8) (heq : s = Segment.oneOf vs) :
    vs ≠ [] :=
  h vs (heq ▸ hs)

theorem map_ofToken? (h : p.ChoicesSpelled) : (p.tokens.map String.toList).map ofToken? = p.spelled.map some := by
  rw [List.map_map, Signature.tokens, spelled, List.map_flatMap, List.map_flatMap, List.flatMap_def, List.flatMap_def]
  exact congrArg List.flatten (List.map_congr_left fun s hs => map_ofToken?_tokens (h.of_mem hs))

theorem words_text (h : p.ChoicesSpelled) : Text.words p.text.toList = p.tokens.map String.toList := by
  have hspace : " ".toList = [' '] := rfl
  rw [text, String.toList_intercalate, hspace]
  refine Text.words_intercalate ?_
  intro w hw
  obtain ⟨t, ht, rfl⟩ := List.mem_map.1 hw
  obtain ⟨s, hs, hts⟩ := List.mem_flatMap.1 ht
  exact isWord_of_mem_tokens (h.of_mem hs) hts

end ChoicesSpelled

/-- what a list of segments shows, put together -/
theorem flatMap_spelled {β : Type} {f g : Segment → List β} (hf : Additive f)
    (h : ∀ s : Segment, s.spelled.flatMap f = g s) (p : Signature) :
    (p.spelled.foldl push empty).segments.flatMap f = p.segments.flatMap g := by
  rw [flatMap_foldl_push hf, spelled, List.flatMap_assoc]
  exact congrArg (List.flatMap · p.segments) (funext h)

/-- Reading the written form puts together what the tokens denote. -/
theorem read_text_eq {p : Signature} (hsize : 0 < p.size) (h : p.ChoicesSpelled) :
    read p.text = .ok (p.spelled.foldl push empty) := by
  have hallowed : (p.spelled.foldl push empty).allowed = p.allowed := flatMap_spelled additive_allowed allowed_spelled p
  have hne : (p.spelled.foldl push empty).isEmpty = false := by
    cases hseg : (p.spelled.foldl push empty).segments with
    | nil =>
      rw [← length_allowed, ← hallowed, allowed, hseg] at hsize
      exact absurd hsize (Nat.lt_irrefl 0)
    | cons s l => rw [isEmpty, hseg]; rfl
  rw [read, h.words_text, readTokens_of_denoted h.map_ofToken?]
  simp [hne]

/-- **The written form of a signature keeps its meaning.** Reading it succeeds with a signature without captures, of the
same size and the same written form, which stands exactly where the one written does and so is found at the same place of
every image and window. -/
theorem read_text (p : Signature) (hsize : 0 < p.size) (hchoices : ∀ vs, Segment.oneOf vs ∈ p.segments → vs ≠ []) :
    ∃ q, read p.text = .ok q ∧ (∀ n w b, Segment.capture n w b ∉ q.segments) ∧ q.size = p.size ∧ q.text = p.text ∧
      (∀ data i, (i + q.size ≤ data.size ∧ q.Matches data i) ↔ (i + p.size ≤ data.size ∧ p.Matches data i)) ∧
      ∀ (image : Image) (start stop : UInt32),
        (image.findSignature q start stop).map (·.offset) = (image.findSignature p start stop).map (·.offset) := by
  have hallowed : (p.spelled.foldl push empty).allowed = p.allowed := flatMap_spelled additive_allowed allowed_spelled p
  have htokens : (p.spelled.foldl push empty).tokens = p.tokens := flatMap_spelled additive_tokens tokens_spelled p
  have hnames : (p.spelled.foldl push empty).segments.flatMap names = [] :=
    (flatMap_spelled additive_names names_spelled p).trans (List.flatMap_eq_nil_iff.2 fun _ _ => rfl)
  have hsame : (p.spelled.foldl push empty).size = p.size := by
    rw [← length_allowed, hallowed, length_allowed]
  refine ⟨p.spelled.foldl push empty, read_text_eq hsize hchoices, ?_, hsame, ?_, ?_, ?_⟩
  · intro n w b hmem
    have : [n] = [] := List.flatMap_eq_nil_iff.1 hnames _ hmem
    contradiction
  · rw [text, htokens, text]
  · intro data i
    rw [hsame]
    exact and_congr_right (matches_congr hallowed)
  · exact fun image => image.offset_findSignature_congr hallowed

/-- a signature with all kinds of segments -/
def sampler : Signature :=
  collect [literal [0x55], literal [0x8B, 0xEC], (capture "size" .dword).bind "size" 0x1B9, capture "target" .word, any 2,
    masked 0xAB 0xF0, masked 0xAB 0x0F, masked 0xAB 0x3C, masked 0xAB 0, masked 0xAB 0xFF, oneOf [0x74], oneOf [0x74, 0x75]]

theorem sampler_read_back : 0 < sampler.size ∧ (∀ vs, Segment.oneOf vs ∈ sampler.segments → vs ≠ []) ∧
    sampler.text = "55 8B EC B9 01 00 00 ?? ?? ?? ?? A? ?B 28/3C ?? AB 74 74|75" ∧
    ∃ q, read sampler.text = .ok q ∧ (∀ n w b, Segment.capture n w b ∉ q.segments) ∧ q.size = sampler.size ∧
      q.text = sampler.text ∧
      (∀ data i, (i + q.size ≤ data.size ∧ q.Matches data i) ↔ (i + sampler.size ≤ data.size ∧ sampler.Matches data i)) ∧
      ∀ (image : Image) (start stop : UInt32),
        (image.findSignature q start stop).map (·.offset) = (image.findSignature sampler start stop).map (·.offset) := by
  have hsize : 0 < sampler.size := by decide
  have hchoices : ∀ vs, Segment.oneOf vs ∈ sampler.segments → vs ≠ [] := by
    rintro vs hvs rfl
    exact absurd hvs (by decide)
  exact ⟨hsize, hchoices, by decide +kernel, read_text sampler hsize hchoices⟩

end Signature

end Landmark
