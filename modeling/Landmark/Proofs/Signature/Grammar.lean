/-
The tokens that signatures are read from.

`Denotes` is the grammar: a question mark; two characters, each a hex digit or a question mark; two bytes with a slash
between; two bytes or more with bars between. With each token goes what it asks of a byte. Reading follows the grammar
although it looks at the tokens in an order of its own and keeps some of them in another form: a mask that is full or
empty becomes a literal or a free byte.
- `Denotes.reads`: a token of the grammar is read, as a segment that asks just that of its byte (`Spells`).
- `isToken_of_ofToken?`: nothing else is read.
- `read_exact`: which texts are read, what the signature asks of every byte, how it is written, and what any other text is
  answered with.
-/
import Landmark.Proofs.Signature.Token
import Mathlib.Data.List.Forall2

namespace Landmark

namespace Segment

open Hex

/-! ## The grammar -/

/-- what a character asks of half a byte: nothing if it is a question mark, else the value of the digit -/
inductive Half : Char → (Nat → Prop) → Prop
  | free : Half '?' fun _ => True
  | digit {c : Char} {n : Nat} (h : digitValue? c = some n) : Half c (· = n)

/-- two hex digits and the byte they make -/
inductive Pair : List Char → UInt8 → Prop
  | digits {c d : Char} {h l : Nat} (hc : digitValue? c = some h) (hd : digitValue? d = some l) :
      Pair [c, d] (UInt8.ofNat (16 * h + l))

/-- the tokens of the grammar, each with what it asks of a byte -/
inductive Denotes : List Char → (UInt8 → Prop) → Prop
  | free : Denotes ['?'] fun _ => True
  | halves {c d : Char} {high low : Nat → Prop} (hc : Half c high) (hd : Half d low) :
      Denotes [c, d] fun b => high (b.toNat / 16) ∧ low (b.toNat % 16)
  | masked {tv tm : List Char} {v m : UInt8} (hv : Pair tv v) (hm : Pair tm m) :
      Denotes (tv ++ '/' :: tm) fun b => b &&& m = v &&& m
  | choice {ts : List (List Char)} {vs : List UInt8} (h : List.Forall₂ Pair ts vs) (hmany : 2 ≤ ts.length) :
      Denotes (['|'].intercalate ts) fun b => b ∈ vs

/-- a token of the grammar -/
def IsToken (t : List Char) : Prop :=
  ∃ p, Denotes t p

/-! ## Tokens of the grammar are read -/

theorem pair_iff {t : List Char} {b : UInt8} : Pair t b ↔ hexPair? t = some b := by
  constructor
  · rintro ⟨hc, hd⟩
    simp only [hexPair?, hc, hd]
  · intro h
    obtain ⟨c, d, h, l, rfl, hc, hd, rfl⟩ := hexPair?_eq_some h
    exact .digits hc hd

theorem forall₂_pair_iff {ts : List (List Char)} {vs : List UInt8} :
    List.Forall₂ Pair ts vs ↔ ts.map hexPair? = vs.map some := by
  rw [← List.forall₂_eq_eq_eq, List.forall₂_map_left_iff, List.forall₂_map_right_iff]
  exact ⟨List.Forall₂.imp fun _ _ => pair_iff.1, List.Forall₂.imp fun _ _ => pair_iff.2⟩

/-- a half byte is read as the digit and a full mask, or as nothing and an empty one -/
theorem Half.reads {c : Char} {p : Nat → Prop} (h : Half c p) : ∃ n m, half? c = some (n, m) ∧
    (n = 0 ∧ m = 0 ∧ (∀ k, p k ↔ True) ∨ n < 16 ∧ m = 15 ∧ ∀ k, p k ↔ k = n) := by
  cases h with
  | free => exact ⟨0, 0, rfl, .inl ⟨rfl, rfl, fun _ => Iff.rfl⟩⟩
  | @digit c n h =>
    have hmark : c ≠ '?' := by
      rintro rfl
      contradiction
    refine ⟨n, 15, ?_, .inr ⟨digitValue?_lt h, rfl, fun _ => Iff.rfl⟩⟩
    rw [half?, if_neg hmark, h]
    rfl

theorem and_highMask_iff {b v : UInt8} : b &&& 0xF0 = v &&& 0xF0 ↔ b.toNat / 16 = v.toNat / 16 := by
  constructor
  · intro h
    rw [← toNat_highHalf b, h, toNat_highHalf]
  · intro h
    rw [← highHalf_eq, h, highHalf_eq]

theorem and_lowMask_iff {b v : UInt8} : b &&& 0x0F = v &&& 0x0F ↔ b.toNat % 16 = v.toNat % 16 := by
  constructor
  · intro h
    rw [← toNat_lowHalf b, h, toNat_lowHalf]
  · intro h
    rw [← lowHalf_eq, h, lowHalf_eq]

theorem eq_iff_halves {b v : UInt8} : b = v ↔ b.toNat / 16 = v.toNat / 16 ∧ b.toNat % 16 = v.toNat % 16 := by
  constructor
  · rintro rfl
    exact ⟨rfl, rfl⟩
  · rintro ⟨hhigh, hlow⟩
    rw [← ofNat_halves b, hhigh, hlow, ofNat_halves]

/-- two half bytes ask together what their masks make of them -/
theorem halves_iff {c d : Char} {high low : Nat → Prop} (hc : Half c high) (hd : Half d low) : ∃ v m,
    ofToken? [c, d] = some (ofMask v m) ∧ ∀ b : UInt8, b &&& m = v &&& m ↔ high (b.toNat / 16) ∧ low (b.toNat % 16) := by
  obtain ⟨h, hm, hread, hhigh⟩ := hc.reads
  obtain ⟨l, lm, lread, hlow⟩ := hd.reads
  refine ⟨_, _, ofToken?_halves hread lread, fun b => ?_⟩
  have hvalue : h < 16 → l < 16 → (UInt8.ofNat (16 * h + l)).toNat = 16 * h + l := by
    intro _ _
    exact UInt8.toNat_ofNat_of_lt' (by simp only [UInt8.size]; omega)
  rcases hhigh with ⟨rfl, rfl, hhigh⟩ | ⟨hlt, rfl, hhigh⟩ <;> rcases hlow with ⟨rfl, rfl, hlow⟩ | ⟨llt, rfl, hlow⟩ <;>
    rw [hhigh, hlow]
  · exact iff_of_true (by simp) ⟨trivial, trivial⟩
  · refine and_lowMask_iff.trans ?_
    rw [hvalue (by decide) llt, true_and]
    omega
  · refine and_highMask_iff.trans ?_
    rw [hvalue hlt (by decide), and_true]
    omega
  · have hfull : UInt8.ofNat (16 * 15 + 15) = 0xFF := rfl
    rw [hfull, and_full, and_full]
    refine eq_iff_halves.trans ?_
    rw [hvalue hlt llt]
    omega

/-- a segment of one byte that asks this of it, and that is written as one token which is read as it stands -/
structure Spells (s : Segment) (p : UInt8 → Prop) : Prop where
  spelled : s.spelled = [s]
  choices : ∀ vs, s = oneOf vs → vs ≠ []
  allowed : ∃ test, s.allowed = [test] ∧ ∀ b, test b = true ↔ p b

theorem Spells.congr {s : Segment} {p q : UInt8 → Prop} (h : Spells s p) (hpq : ∀ b, p b ↔ q b) : Spells s q where
  spelled := h.spelled
  choices := h.choices
  allowed := by
    obtain ⟨test, htest, hasks⟩ := h.allowed
    exact ⟨test, htest, fun b => (hasks b).trans (hpq b)⟩

theorem spells_ofMask (v m : UInt8) : Spells (ofMask v m) fun b => b &&& m = v &&& m where
  spelled := by
    unfold ofMask
    split
    · rfl
    split
    · rfl
    · next hfull hzero =>
      rw [Segment.spelled, ofMask, if_neg hfull, if_neg hzero, UInt8.and_assoc, UInt8.and_self]
  choices := by
    intro vs h
    unfold ofMask at h
    split at h
    · contradiction
    split at h <;> contradiction
  allowed := ⟨_, allowed_ofMask v m, fun _ => beq_iff_eq⟩

theorem spells_oneOf {vs : List UInt8} (h : 2 ≤ vs.length) : Spells (oneOf vs) fun b => b ∈ vs where
  spelled := by
    match vs with
    | v :: w :: vs => rfl
  choices := by
    rintro _ ⟨⟩
    exact List.ne_nil_of_length_pos (by omega)
  allowed := ⟨_, rfl, fun _ => List.contains_iff_mem⟩

/-- **A token of the grammar is read as what it denotes.** -/
theorem Denotes.reads {t : List Char} {p : UInt8 → Prop} (h : Denotes t p) : ∃ s, ofToken? t = some s ∧ Spells s p := by
  cases h with
  | free => exact ⟨ofMask 0 0, rfl, (spells_ofMask 0 0).congr fun b => iff_of_true (by simp) trivial⟩
  | halves hc hd =>
    obtain ⟨v, m, hread, hbits⟩ := halves_iff hc hd
    exact ⟨_, hread, (spells_ofMask v m).congr hbits⟩
  | masked hv hm => exact ⟨_, ofToken?_slash (pair_iff.1 hv) (pair_iff.1 hm), spells_ofMask _ _⟩
  | choice h hmany => exact ⟨_, ofToken?_bars (forall₂_pair_iff.1 h) hmany, spells_oneOf (h.length_eq ▸ hmany)⟩

/-- a token denotes one thing -/
theorem Denotes.unique {t : List Char} {p q : UInt8 → Prop} (hp : Denotes t p) (hq : Denotes t q) (b : UInt8) :
    p b ↔ q b := by
  obtain ⟨s, hs, -, -, test, htest, hasks⟩ := hp.reads
  obtain ⟨s', hs', -, -, test', htest', hasks'⟩ := hq.reads
  obtain rfl := Option.some.inj (hs.symm.trans hs')
  obtain rfl := List.singleton_inj.1 (htest.symm.trans htest')
  rw [← hasks, hasks']

/-! ## Nothing else is read -/

theorem half_of_half? {c : Char} {r : Nat × Nat} (h : half? c = some r) : ∃ p, Half c p := by
  obtain ⟨n, m⟩ := r
  rcases half?_eq_some h with ⟨rfl, -, -⟩ | ⟨hn, -⟩
  · exact ⟨_, .free⟩
  · exact ⟨_, .digit hn⟩

theorem isToken_of_ofToken? {t : List Char} {s : Segment} (h : ofToken? t = some s) : IsToken t := by
  unfold ofToken? at h
  split at h
  · next hfree =>
    rcases hfree with rfl | rfl
    · exact ⟨_, .free⟩
    · exact ⟨_, .halves .free .free⟩
  split at h
  · next hbar =>
    obtain ⟨vs, hvs, -⟩ := Option.map_eq_some_iff.1 h
    rw [mapM_hexPair?, ← forall₂_pair_iff] at hvs
    have ht : ['|'].intercalate (t.splitOn '|') = t := List.intercalate_splitOn '|'
    -- with fewer than two pieces there is no bar in the token
    have hmany : 2 ≤ (t.splitOn '|').length := by
      revert hvs ht
      generalize t.splitOn '|' = ts
      intro hvs ht
      match ts, hvs with
      | [], _ => subst ht; contradiction
      | [u], .cons hu .nil =>
        rw [List.intercalate_singleton] at ht
        subst ht
        exact absurd (List.contains_iff_mem.1 hbar) (not_mem_of_hexPair? (by decide) (pair_iff.1 hu))
      | _ :: _ :: _, _ => simp
    rw [← ht]
    exact ⟨_, .choice hvs hmany⟩
  split at h
  · next hslash =>
    obtain ⟨tv, tm, rfl, hbefore⟩ := List.eq_append_cons_of_mem (List.contains_iff_mem.1 hslash)
    have hpass : ∀ c ∈ tv, (c != '/') = true := by
      intro c hc
      rw [bne_iff_ne]
      rintro rfl
      exact hbefore hc
    rw [List.takeWhile_append_of_pos hpass, List.dropWhile_append_of_pos hpass] at h
    simp only [bne_self_eq_false, Bool.false_eq_true, not_false_eq_true, List.takeWhile_cons_of_neg, List.append_nil,
      List.dropWhile_cons_of_neg, List.drop_succ_cons, List.drop_zero] at h
    split at h
    · next hv hm => exact ⟨_, .masked (pair_iff.2 hv) (pair_iff.2 hm)⟩
    · contradiction
  split at h
  · split at h
    · next hc hd =>
      obtain ⟨high, hhigh⟩ := half_of_half? hc
      obtain ⟨low, hlow⟩ := half_of_half? hd
      exact ⟨_, .halves hhigh hlow⟩
    · contradiction
  · contradiction

/-- what is read is of the grammar, and denotes what it is read as -/
theorem spells_of_ofToken? {t : List Char} {s : Segment} (h : ofToken? t = some s) : ∃ p, Denotes t p ∧ Spells s p := by
  obtain ⟨p, hp⟩ := isToken_of_ofToken? h
  obtain ⟨s', hs', hspells⟩ := hp.reads
  obtain rfl := Option.some.inj (h.symm.trans hs')
  exact ⟨p, hp, hspells⟩

theorem ofToken?_eq_none {t : List Char} (h : ¬ IsToken t) : ofToken? t = none :=
  Option.eq_none_iff_forall_ne_some.2 fun _ hs => h (isToken_of_ofToken? hs)

end Segment

/-! ## Rows of tokens -/

namespace Signature

open Segment

/-- tokens of the grammar denote segments, one each -/
theorem exists_map_ofToken? {ts : List (List Char)} (h : ∀ t ∈ ts, IsToken t) :
    ∃ l : List Segment, ts.map ofToken? = l.map some := by
  induction ts with
  | nil => exact ⟨[], rfl⟩
  | cons t ts ih =>
    obtain ⟨l, hl⟩ := ih fun u hu => h u (List.mem_cons_of_mem _ hu)
    obtain ⟨p, hp⟩ := h t List.mem_cons_self
    obtain ⟨s, hs, -⟩ := hp.reads
    exact ⟨s :: l, by rw [List.map_cons, List.map_cons, hs, hl]⟩

/-- reading stops at the first token outside the grammar -/
theorem readTokens_of_outside {good rest : List (List Char)} {t : List Char} (hgood : ∀ u ∈ good, IsToken u)
    (ht : ¬ IsToken t) (sig : Signature) : sig.readTokens (good ++ t :: rest) =
      .error (.invalidSignature ("Invalid signature token '" ++ String.ofList t ++ "'")) := by
  induction good generalizing sig with
  | nil => rw [List.nil_append, readTokens, ofToken?_eq_none ht]
  | cons u good ih =>
    obtain ⟨p, hp⟩ := hgood u List.mem_cons_self
    obtain ⟨s, hs, -⟩ := hp.reads
    rw [List.cons_append, readTokens, hs]
    exact ih (fun v hv => hgood v (List.mem_cons_of_mem _ hv)) _

/-- if not all pieces are tokens of the grammar, one is the first that is not -/
theorem exists_first_outside {ts : List (List Char)} (h : ¬ ∀ t ∈ ts, IsToken t) :
    ∃ good t rest, ts = good ++ t :: rest ∧ (∀ u ∈ good, IsToken u) ∧ ¬ IsToken t := by
  induction ts with
  | nil => exact absurd (fun t ht => absurd ht List.not_mem_nil) h
  | cons t ts ih =>
    by_cases ht : IsToken t
    · have hrest : ¬ ∀ u ∈ ts, IsToken u := fun hall => h (List.forall_mem_cons.2 ⟨ht, hall⟩)
      obtain ⟨good, u, rest, rfl, hgood, hu⟩ := ih hrest
      exact ⟨t :: good, u, rest, rfl, List.forall_mem_cons.2 ⟨ht, hgood⟩, hu⟩
    · exact ⟨[], t, ts, rfl, fun u hu => absurd hu List.not_mem_nil, ht⟩

section

variable {ts : List (List Char)} {l : List Segment}

theorem spells_of_mem (h : ts.map ofToken? = l.map some) {s : Segment} (hs : s ∈ l) : ∃ p, Spells s p := by
  obtain ⟨t, -, ht⟩ := List.mem_map.1 (h ▸ List.mem_map_of_mem hs)
  obtain ⟨p, -, hp⟩ := spells_of_ofToken? ht
  exact ⟨p, hp⟩

/-- byte by byte, the signature asks what the tokens denote -/
theorem denotes_allowed (h : ts.map ofToken? = l.map some) :
    List.Forall₂ (fun t test => Denotes t fun b => test b = true) ts (l.foldl push empty).allowed := by
  have hallowed : (l.foldl push empty).allowed = l.flatMap Segment.allowed := flatMap_foldl_push additive_allowed empty l
  rw [hallowed]
  clear hallowed
  induction l generalizing ts with
  | nil =>
    obtain rfl := List.map_eq_nil_iff.1 h
    exact .nil
  | cons s l ih =>
    cases ts with
    | nil => contradiction
    | cons t ts =>
      obtain ⟨ht, hts⟩ := List.cons_eq_cons.1 h
      obtain ⟨p, hp, -, -, test, htest, hasks⟩ := spells_of_ofToken? ht
      have hsame : (fun b => test b = true) = p := funext fun b => propext (hasks b)
      rw [List.flatMap_cons, htest]
      exact .cons (hsame ▸ hp) (ih hts)

theorem additive_spelled : Additive Segment.spelled where
  literal _ _ := List.map_append
  wildcard _ _ := List.replicate_append_replicate.symm

/-- put together, the segments are written as the tokens of the same segments -/
theorem spelled_foldl_push (h : ts.map ofToken? = l.map some) : (l.foldl push empty).spelled = l := by
  have hone : ∀ s ∈ l, s.spelled = [s] := by
    intro s hs
    obtain ⟨p, hp⟩ := spells_of_mem h hs
    exact hp.spelled
  have hall : (l.foldl push empty).spelled = l.flatMap Segment.spelled := flatMap_foldl_push additive_spelled empty l
  rw [hall, List.flatMap_congr hone, List.flatMap_singleton']

theorem choicesSpelled_foldl_push (h : ts.map ofToken? = l.map some) : (l.foldl push empty).ChoicesSpelled := by
  rintro _ hmem rfl
  -- a choice among no bytes is spelled as itself, so it would be among the segments read
  have hspelled : Segment.oneOf [] ∈ (l.foldl push empty).spelled := List.mem_flatMap.2 ⟨_, hmem, List.mem_singleton.2 rfl⟩
  rw [spelled_foldl_push h] at hspelled
  obtain ⟨p, hp⟩ := spells_of_mem h hspelled
  exact hp.choices [] rfl rfl

end

/-! ## Texts -/

theorem isEmpty_eq_false {sig : Signature} (h : 0 < sig.size) : sig.isEmpty = false := by
  unfold isEmpty
  cases hseg : sig.segments with
  | nil =>
    rw [size, hseg] at h
    exact absurd h (Nat.lt_irrefl 0)
  | cons s l => rfl

/-- a text of tokens of the grammar, at least one -/
theorem read_of_tokens {text : String} (hne : Text.words text.toList ≠ [])
    (h : ∀ t ∈ Text.words text.toList, IsToken t) : ∃ sig, read text = .ok sig ∧
      List.Forall₂ (fun t test => Denotes t fun b => test b = true) (Text.words text.toList) sig.allowed ∧
      read sig.text = .ok sig := by
  obtain ⟨l, hl⟩ := exists_map_ofToken? h
  have hdenotes := denotes_allowed hl
  have hsize : 0 < (l.foldl push empty).size := by
    rw [← length_allowed, ← hdenotes.length_eq]
    exact List.length_pos_of_ne_nil hne
  refine ⟨l.foldl push empty, ?_, hdenotes, ?_⟩
  · rw [read, readTokens_of_denoted hl]
    simp only [isEmpty_eq_false hsize, Bool.false_eq_true, if_false]
  · rw [read_text_eq hsize (choicesSpelled_foldl_push hl), spelled_foldl_push hl]

theorem read_of_blank {text : String} (h : Text.words text.toList = []) :
    read text = .error (.invalidSignature "pattern is empty") := by
  rw [read, h]
  rfl

theorem read_of_outside {text : String} {good rest : List (List Char)} {t : List Char}
    (h : Text.words text.toList = good ++ t :: rest) (hgood : ∀ u ∈ good, IsToken u) (ht : ¬ IsToken t) :
    read text = .error (.invalidSignature ("Invalid signature token '" ++ String.ofList t ++ "'")) := by
  rw [read, h, readTokens_of_outside hgood ht]

/-- a signature matches where every byte is as its token asks -/
theorem matches_iff_denoted {sig : Signature} {ts : List (List Char)}
    (h : List.Forall₂ (fun t test => Denotes t fun b => test b = true) ts sig.allowed) {data : Array UInt8} {i : Nat}
    (hroom : i + sig.size ≤ data.size) :
    sig.Matches data i ↔ MeetsAt (fun b t => ∃ p, Denotes t p ∧ p b) data i ts := by
  obtain ⟨hlength, hget⟩ := List.forall₂_iff_get.1 h
  rw [matches_iff_allowed hroom]
  constructor
  · intro hpass k hk
    obtain ⟨b, hb, htest⟩ := hpass k (hlength ▸ hk)
    exact ⟨b, hb, _, hget k hk (hlength ▸ hk), htest⟩
  · intro hmeets k hk
    obtain ⟨b, hb, p, hp, hpb⟩ := hmeets k (hlength ▸ hk)
    exact ⟨b, hb, ((hget k (hlength ▸ hk) hk).unique hp b).2 hpb⟩

/-- **Signatures are read from just the texts of the grammar.** A text is read if it has a word and all its words are
tokens. The signature has one byte for each token and asks of it what the token denotes, so that it matches where all bytes
are as the tokens ask; its written form is read as the same signature. Any other text is answered with the first word that
is no token, or with there being none. -/
theorem read_exact (text : String) :
    ((∃ sig, read text = .ok sig) ↔ Text.words text.toList ≠ [] ∧ ∀ t ∈ Text.words text.toList, IsToken t) ∧
    (∀ sig, read text = .ok sig → sig.size = (Text.words text.toList).length ∧
      List.Forall₂ (fun t test => Denotes t fun b => test b = true) (Text.words text.toList) sig.allowed ∧
      (∀ data i, i + sig.size ≤ data.size → (sig.Matches data i ↔
        MeetsAt (fun b t => ∃ p, Denotes t p ∧ p b) data i (Text.words text.toList))) ∧
      read sig.text = .ok sig) ∧
    ∀ fault, read text = .error fault ↔
      Text.words text.toList = [] ∧ fault = .invalidSignature "pattern is empty" ∨
      ∃ good t rest, Text.words text.toList = good ++ t :: rest ∧ (∀ u ∈ good, IsToken u) ∧ ¬ IsToken t ∧
        fault = .invalidSignature ("Invalid signature token '" ++ String.ofList t ++ "'") := by
  have hok : ∀ sig, read text = .ok sig → Text.words text.toList ≠ [] ∧ ∀ t ∈ Text.words text.toList, IsToken t := by
    intro sig hsig
    refine ⟨fun hblank => ?_, fun t ht => ?_⟩
    · rw [read_of_blank hblank] at hsig
      contradiction
    · by_contra hout
      obtain ⟨good, u, rest, hwords, hgood, hu⟩ := exists_first_outside fun hall => hout (hall t ht)
      rw [read_of_outside hwords hgood hu] at hsig
      contradiction
  refine ⟨⟨fun ⟨sig, hsig⟩ => hok sig hsig, ?_⟩, ?_, ?_⟩
  · rintro ⟨hne, hall⟩
    obtain ⟨sig, hsig, -⟩ := read_of_tokens hne hall
    exact ⟨sig, hsig⟩
  · intro sig hsig
    obtain ⟨hne, hall⟩ := hok sig hsig
    obtain ⟨sig', hsig', hdenotes, hagain⟩ := read_of_tokens hne hall
    obtain rfl := Except.ok.inj (hsig.symm.trans hsig')
    refine ⟨?_, hdenotes, fun data i hroom => matches_iff_denoted hdenotes hroom, hagain⟩
    rw [← length_allowed, hdenotes.length_eq]
  · intro fault
    constructor
    · intro hfault
      by_cases hne : Text.words text.toList = []
      · rw [read_of_blank hne] at hfault
        exact .inl ⟨hne, (Except.error.inj hfault).symm⟩
      by_cases hall : ∀ t ∈ Text.words text.toList, IsToken t
      · obtain ⟨sig, hsig, -⟩ := read_of_tokens hne hall
        rw [hsig] at hfault
        contradiction
      · obtain ⟨good, t, rest, hwords, hgood, ht⟩ := exists_first_outside hall
        rw [read_of_outside hwords hgood ht] at hfault
        exact .inr ⟨good, t, rest, hwords, hgood, ht, (Except.error.inj hfault).symm⟩
    · rintro (⟨hblank, rfl⟩ | ⟨good, t, rest, hwords, hgood, ht, rfl⟩)
      · exact read_of_blank hblank
      · exact read_of_outside hwords hgood ht

/-- all shapes of tokens, digits of either case -/
def mixedText : String := "?5 b9 41/Ff 5C/F0\t38|39 ?"

/-- what it is read as: a full mask has become a literal byte and joined the one before it, and only the bits in the mask
of the next one are left -/
def mixedSignature : Signature :=
  collect [masked 0x05 0x0F, literal [0xB9, 0x41], masked 0x50 0xF0, oneOf [0x38, 0x39], any 1]

/-- Read, written and read again; and a text whose second and third word are no tokens. -/
theorem mixedText_read : read mixedText = .ok mixedSignature ∧ (∀ t ∈ Text.words mixedText.toList, IsToken t) ∧
    mixedSignature.size = 6 ∧ mixedSignature.text = "?5 B9 41 5? 38|39 ??" ∧
    read mixedSignature.text = .ok mixedSignature ∧
    read "5C 5C/ 5C|" = .error (.invalidSignature "Invalid signature token '5C/'") := by
  have hread : read mixedText = .ok mixedSignature := by decide +kernel
  obtain ⟨hok, hexact, -⟩ := read_exact mixedText
  obtain ⟨hsize, -, -, hagain⟩ := hexact _ hread
  obtain ⟨-, -, hfault⟩ := read_exact "5C 5C/ 5C|"
  have hgood : IsToken ['5', 'C'] := ⟨_, .halves (.digit rfl) (.digit rfl)⟩
  have hout : ¬ IsToken ['5', 'C', '/'] := by
    rintro ⟨p, hp⟩
    obtain ⟨s, hs, -⟩ := hp.reads
    have hnone : ofToken? ['5', 'C', '/'] = none := by decide +kernel
    rw [hnone] at hs
    contradiction
  refine ⟨hread, (hok.1 ⟨_, hread⟩).2, hsize.trans (by decide +kernel), by decide +kernel, hagain, (hfault _).2 (.inr ?_)⟩
  exact ⟨[['5', 'C']], ['5', 'C', '/'], [['5', 'C', '|']], by decide +kernel,
    fun u hu => List.mem_singleton.1 hu ▸ hgood, hout, rfl⟩

end Signature

end Landmark
