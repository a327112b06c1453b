/-
Literals are scanned as the grammar has them.

The scanner only ends a number or a keyword at a character that cannot go on with it (`Stops`); a string ends at its quote.
- `scanFrom_number`, `scanFrom_literal`, `scanFrom_word_of_stops`: what numbers, strings and keywords give.
- `spelled_toDigits`: the digits of a natural number spell that number.
- `literal_quote`: a string as it is written is a literal with its text, whatever characters it has.
-/
import Landmark.Json.Print
import Landmark.Proofs.Json.Grammar

namespace Landmark

/-! ## Numbers -/

namespace Number

variable {ds cs rest : List Char}

theorem takeDigits?_append (h : Digits ds) (hrest : ∀ c ∈ rest.head?, c.isDigit = false) :
    takeDigits? (ds ++ rest) = some (ds, rest) := by
  have hstop : rest.takeWhile Char.isDigit = [] ∧ rest.dropWhile Char.isDigit = rest := by
    cases rest with
    | nil => exact ⟨rfl, rfl⟩
    | cons c rest => simp [hrest c rfl]
  have htake : (ds ++ rest).takeWhile Char.isDigit = ds := by
    rw [List.takeWhile_append_of_pos h.2, hstop.1, List.append_nil]
  have hdrop : (ds ++ rest).dropWhile Char.isDigit = rest := by
    rw [List.dropWhile_append_of_pos h.2, hstop.2]
  rw [takeDigits?, htake, hdrop, if_neg (by simpa using h.1)]

theorem takeWhole?_append (h : Whole ds) (hrest : ∀ c ∈ rest.head?, c.isDigit = false) :
    takeWhole? (ds ++ rest) = some (ds, rest) := by
  rw [takeWhole?, takeDigits?_append h.1 hrest]
  split
  · next c cs rest heq =>
    obtain ⟨heq, -⟩ := Prod.mk.inj (Option.some.inj heq)
    exact absurd heq (h.2 c cs)
  · rfl

/-- an exponent starts with its mark -/
theorem Exponent.head {e : Int} (h : Exponent cs e) : ∀ c ∈ cs.head?, c = 'e' ∨ c = 'E' := by
  cases h with
  | absent => exact fun c hc => nomatch hc
  | bare hmark h => exact fun c hc => Option.some.inj hc ▸ hmark
  | plus hmark h => exact fun c hc => Option.some.inj hc ▸ hmark
  | minus hmark h => exact fun c hc => Option.some.inj hc ▸ hmark

theorem takeFraction?_append (h : Fraction cs ds) (hrest : ∀ c ∈ rest.head?, c = 'e' ∨ c = 'E') :
    takeFraction? (cs ++ rest) = some (ds, rest) := by
  cases h with
  | present h =>
    refine takeDigits?_append h fun c hc => ?_
    rcases hrest c hc with rfl | rfl <;> rfl
  | absent =>
    cases rest with
    | nil => rfl
    | cons c rest => rcases hrest c rfl with rfl | rfl <;> rfl

theorem Digits.exists_cons (h : Digits ds) : ∃ d ds', ds = d :: ds' ∧ d ≠ '-' ∧ d ≠ '+' := by
  obtain ⟨d, ds', rfl⟩ := List.exists_cons_of_ne_nil h.1
  have hd : d.isDigit = true := h.2 d List.mem_cons_self
  refine ⟨d, ds', rfl, ?_, ?_⟩ <;>
  · rintro rfl
    exact absurd hd (by decide)

theorem takeDigits?_digits (h : Digits ds) : takeDigits? ds = some (ds, []) := by
  have htake := @takeDigits?_append ds [] h fun _ hc => nomatch hc
  rwa [List.append_nil] at htake

theorem exponent?_of_exponent {e : Int} (h : Exponent cs e) : exponent? cs = some e := by
  cases h with
  | absent => rfl
  | bare hmark h =>
    have htake := takeDigits?_digits h
    obtain ⟨d, ds', rfl, hminus, hplus⟩ := h.exists_cons
    simp [exponent?, hmark, hminus, hplus, htake]
  | plus hmark h => simp [exponent?, hmark, takeDigits?_digits h]
  | minus hmark h => simp [exponent?, hmark, takeDigits?_digits h]

/-- **What spells a number is read as that number.** -/
theorem read?_of_spelled {n : Number} (h : n.Spelled cs) : read? cs = some n := by
  obtain @⟨negative, whole, fraction, digits, exponent, e, hwhole, hfraction, hexponent⟩ := h
  have htail : ∀ c ∈ (fraction ++ exponent).head?, c.isDigit = false := by
    cases hfraction with
    | present h => exact fun c hc => Option.some.inj hc ▸ rfl
    | absent => exact fun c hc => by rcases hexponent.head c hc with rfl | rfl <;> rfl
  have hempty : digits.isEmpty = fraction.isEmpty := by
    cases hfraction with
    | present h => simp [h.1]
    | absent => rfl
  obtain ⟨d, ds', hd, hminus, -⟩ := hwhole.1.exists_cons
  have htake := takeWhole?_append hwhole htail
  rw [hd, List.cons_append] at htake
  cases negative <;>
    simp [read?, hd, hminus, htake, takeFraction?_append hfraction hexponent.head, exponent?_of_exponent hexponent, hempty]

open Token.Mode (isNumberChar)

theorem Digits.numberChars (h : Digits ds) : ∀ c ∈ ds, isNumberChar c = true := by
  intro c hc
  simp [isNumberChar, h.2 c hc]

theorem Fraction.numberChars (h : Fraction cs ds) : ∀ c ∈ cs, isNumberChar c = true := by
  cases h with
  | absent => exact fun c hc => nomatch hc
  | present h => exact List.forall_mem_cons.2 ⟨rfl, h.numberChars⟩

theorem isNumberChar_mark {mark : Char} (h : mark = 'e' ∨ mark = 'E') : isNumberChar mark = true := by
  rcases h with rfl | rfl <;> rfl

theorem Exponent.numberChars {e : Int} (h : Exponent cs e) : ∀ c ∈ cs, isNumberChar c = true := by
  cases h with
  | absent => exact fun c hc => nomatch hc
  | bare hmark h => exact List.forall_mem_cons.2 ⟨isNumberChar_mark hmark, h.numberChars⟩
  | plus hmark h =>
    exact List.forall_mem_cons.2 ⟨isNumberChar_mark hmark, List.forall_mem_cons.2 ⟨rfl, h.numberChars⟩⟩
  | minus hmark h =>
    exact List.forall_mem_cons.2 ⟨isNumberChar_mark hmark, List.forall_mem_cons.2 ⟨rfl, h.numberChars⟩⟩

/-- the first character of a number may begin it, and the others may go on with it -/
theorem Spelled.exists_cons {n : Number} (h : n.Spelled cs) : ∃ c cs', cs = c :: cs' ∧ (c.isDigit || c == '-') = true ∧
    ∀ d ∈ cs', isNumberChar d = true := by
  obtain @⟨negative, whole, fraction, digits, exponent, e, hwhole, hfraction, hexponent⟩ := h
  have hall : ∀ c ∈ whole ++ (fraction ++ exponent), isNumberChar c = true := by
    simp only [List.forall_mem_append]
    exact ⟨hwhole.1.numberChars, hfraction.numberChars, hexponent.numberChars⟩
  cases negative with
  | true => exact ⟨'-', _, rfl, rfl, hall⟩
  | false =>
    obtain ⟨d, ds', rfl, -⟩ := hwhole.1.exists_cons
    have hd : d.isDigit = true := hwhole.1.2 d List.mem_cons_self
    exact ⟨d, _, rfl, by simp [hd], fun c hc => hall c (List.mem_cons_of_mem d hc)⟩

/-! ## Natural numbers -/

/-- a zero stands alone -/
theorem toDigits_ne_zero_cons (n : Nat) (c : Char) (cs : List Char) : Nat.toDigits 10 n ≠ '0' :: c :: cs := by
  induction n using Nat.strongRecOn generalizing c cs with
  | _ n ih =>
    intro h
    rw [Nat.toDigits_eq_if (by decide)] at h
    split at h
    · exact nomatch (List.cons_eq_cons.1 h).2
    next hbig =>
    -- the digits of n are those of n / 10 and one more, so their first two are a zero alone or the start of a shorter number
    cases hrest : Nat.toDigits 10 (n / 10) with
    | nil => exact Nat.toDigits_ne_nil hrest
    | cons d ds =>
      rw [hrest, List.cons_append] at h
      obtain ⟨rfl, -⟩ := List.cons_eq_cons.1 h
      cases ds with
      | cons e ds => exact ih (n / 10) (by omega) e ds hrest
      | nil =>
        have hzero : n / 10 = 0 := by
          rw [← Nat.ofDigitChars_ten_toDigits (n := n / 10), hrest]
          rfl
        omega

/-- **The digits of a natural number spell it.** -/
theorem spelled_toDigits (n : Nat) : (ofNat n).Spelled (Nat.toDigits 10 n) := by
  have hwhole : Whole (Nat.toDigits 10 n) :=
    ⟨⟨Nat.toDigits_ne_nil, fun _ => Nat.isDigit_of_mem_toDigits (by decide) (by decide)⟩, toDigits_ne_zero_cons n⟩
  have hspelled := Spelled.mk false hwhole .absent .absent
  simpa [ofNat, Nat.ofDigitChars_ten_toDigits] using hspelled

end Number

namespace Token

open Mode

variable {done : List Token}

/-! ## Strings -/

theorem scanFrom_unit {ps : List Piece} {left value d : Nat} {c : Char} (h : Hex.IsDigit c d) (rest : List Char) :
    scanFrom done (.unit ps left value) (c :: rest) =
      if left ≤ 1 then scanFrom done (.text (.unit (16 * value + d) :: ps)) rest
      else scanFrom done (.unit ps (left - 1) (16 * value + d)) rest := by
  rw [scanFrom, step, Hex.digitValue?_eq_some_iff.2 h]
  simp only [Option.map_some]
  split <;> rfl

theorem scanFrom_piece {p : Piece} {cs : List Char} (h : p.Spelled cs) (ps : List Piece) (rest : List Char) :
    scanFrom done (.text ps) (cs ++ rest) = scanFrom done (.text (p :: ps)) rest := by
  cases h with
  | plain hcontrol hquote hbackslash =>
    rw [List.singleton_append, scanFrom, step, if_neg hquote, if_neg hbackslash, if_neg hcontrol]
  | @short e c h =>
    have hall : ∀ q ∈ shortEscapes, q.1 ≠ 'u' ∧ escaped? q.1 = some q.2 := by decide
    obtain ⟨hunit, hescaped⟩ := hall (e, c) h
    have hstart : ∀ cs, scanFrom done (.text ps) ('\\' :: cs) = scanFrom done (.escape ps) cs := fun _ => rfl
    simp only [List.cons_append, List.nil_append]
    rw [hstart, scanFrom, step, if_neg hunit, hescaped]
    rfl
  | unit h₁ h₂ h₃ h₄ =>
    have hstart : ∀ cs, scanFrom done (.text ps) ('\\' :: 'u' :: cs) = scanFrom done (.unit ps 4 0) cs := fun _ => rfl
    simp only [List.cons_append, List.nil_append]
    rw [hstart, scanFrom_unit h₁, if_neg (by decide), scanFrom_unit h₂, if_neg (by decide), scanFrom_unit h₃,
      if_neg (by decide), scanFrom_unit h₄, if_pos (by decide), Nat.mul_zero, Nat.zero_add]

theorem scanFrom_pieces {qs : List Piece} {cs : List Char} (h : Pieces qs cs) (ps : List Piece) (rest : List Char) :
    scanFrom done (.text ps) (cs ++ rest) = scanFrom done (.text (qs.reverse ++ ps)) rest := by
  induction h generalizing ps with
  | nil => rfl
  | cons hp _ ih =>
    rw [List.append_assoc, scanFrom_piece hp, ih, List.reverse_cons, List.append_assoc]
    rfl

/-- a unit that is half of no pair is a character of its own -/
theorem joinPieces_unit {u : Nat} (hhigh : Utf16.isHigh u = false) (hlow : Utf16.isLow u = false) (ps : List Piece) :
    joinPieces (.unit u :: ps) = (joinPieces ps).map (Char.ofNat u :: ·) := by
  cases ps with
  | nil => simp [joinPieces, hhigh, hlow]
  | cons p ps => cases p <;> simp [joinPieces, hhigh, hlow]

theorem joinPieces_eq_some_iff {ps : List Piece} {cs : List Char} : joinPieces ps = some cs ↔ Reads ps cs := by
  constructor
  · intro h
    fun_induction joinPieces ps generalizing cs with
    | case1 =>
      cases h
      exact .nil
    | case2 c rest ih =>
      obtain ⟨cs, hrest, rfl⟩ := Option.map_eq_some_iff.1 h
      exact .char c (ih hrest)
    | case3 u v rest hhigh hlow ih =>
      obtain ⟨cs, hrest, rfl⟩ := Option.map_eq_some_iff.1 h
      exact .pair hhigh hlow (ih hrest)
    | case4 => contradiction
    | case5 => contradiction
    | case6 u v rest hhigh hlow ih =>
      obtain ⟨cs, hrest, rfl⟩ := Option.map_eq_some_iff.1 h
      exact .unit (Bool.eq_false_iff.2 hhigh) (Bool.eq_false_iff.2 hlow) (ih hrest)
    | case7 => contradiction
    | case8 u rest hrest hhalf ih =>
      obtain ⟨cs, hrest, rfl⟩ := Option.map_eq_some_iff.1 h
      obtain ⟨hhigh, hlow⟩ := Bool.or_eq_false_iff.1 (Bool.eq_false_iff.2 hhalf)
      exact .unit hhigh hlow (ih hrest)
  · intro h
    induction h with
    | nil => rfl
    | char c _ ih => rw [joinPieces, ih, Option.map_some]
    | unit hhigh hlow _ ih => rw [joinPieces_unit hhigh hlow, ih, Option.map_some]
    | pair hhigh hlow _ ih => rw [joinPieces, if_pos hhigh, if_pos hlow, ih, Option.map_some]

/-- **A string literal gives its text**, or none if it has none. -/
theorem scanFrom_literal {text : Option String} {cs : List Char} (h : Literal text cs) (rest : List Char) :
    scanFrom done .between (cs ++ rest) = scanFrom (.string text :: done) .between rest := by
  obtain @⟨ps, cs, hps, htext⟩ := h
  have hjoin : (joinPieces ps).map String.ofList = text := by
    ext s
    rw [htext s, ← joinPieces_eq_some_iff, Option.map_eq_some_iff]
    constructor
    · rintro ⟨cs, hcs, rfl⟩
      rw [hcs, String.toList_ofList]
    · intro h
      exact ⟨s.toList, h, String.ofList_toList⟩
  have hopen : ∀ cs, scanFrom done .between ('"' :: cs) = scanFrom done (.text []) cs := fun _ => rfl
  have hclose : ∀ ps cs, scanFrom done (.text ps) ('"' :: cs) =
      scanFrom (.string ((joinPieces ps.reverse).map String.ofList) :: done) .between cs := fun _ _ => rfl
  rw [List.cons_append, List.append_assoc, hopen, scanFrom_pieces hps, List.singleton_append, hclose, List.append_nil,
    List.reverse_reverse, hjoin]

/-! ## Numbers and keywords -/

/-- the characters start with none that could go on with a number or a keyword -/
def Stops (cs : List Char) : Prop :=
  ∀ c ∈ cs.head?, isNumberChar c = false ∧ c.isLower = false

theorem scanFrom_number_of_stops {ds rest : List Char} (h : Stops rest) {n : Number}
    (hn : Number.read? ds.reverse = some n) :
    scanFrom done (.number ds) rest = scanFrom (.number n :: done) .between rest := by
  cases rest with
  | nil => simp [scanFrom, finish?, hn]
  | cons c rest =>
    have hstep : step done (.number ds) c = start? (.number n :: done) c := by
      simp [step, finish?, (h c rfl).1, hn]
    rw [scanFrom, hstep]
    rfl

theorem scanFrom_word_of_stops {ls rest : List Char} (h : Stops rest) {t : Token} (ht : keyword? ls.reverse = some t) :
    scanFrom done (.word ls) rest = scanFrom (t :: done) .between rest := by
  cases rest with
  | nil => simp [scanFrom, finish?, ht]
  | cons c rest =>
    have hstep : step done (.word ls) c = start? (t :: done) c := by
      simp [step, finish?, (h c rfl).2, ht]
    rw [scanFrom, hstep]
    rfl

theorem start?_number {c : Char} (h : (c.isDigit || c == '-') = true) : start? done c = some (done, .number [c]) := by
  unfold start?
  split <;> first | contradiction | rw [if_pos h]

theorem scanFrom_numberChars {cs : List Char} (h : ∀ c ∈ cs, isNumberChar c = true) (ds rest : List Char) :
    scanFrom done (.number ds) (cs ++ rest) = scanFrom done (.number (cs.reverse ++ ds)) rest := by
  induction cs generalizing ds with
  | nil => rfl
  | cons c cs ih =>
    rw [List.cons_append, scanFrom, step, if_pos (h c List.mem_cons_self)]
    simp only
    rw [ih fun d hd => h d (List.mem_cons_of_mem c hd)]
    simp

/-- **What spells a number gives it**, where nothing goes on with it. -/
theorem scanFrom_number {n : Number} {cs : List Char} (h : n.Spelled cs) {rest : List Char} (hrest : Stops rest) :
    scanFrom done .between (cs ++ rest) = scanFrom (.number n :: done) .between rest := by
  have hread := Number.read?_of_spelled h
  obtain ⟨c, cs, rfl, hc, hcs⟩ := h.exists_cons
  rw [List.cons_append, scanFrom, step, start?_number hc]
  simp only
  rw [scanFrom_numberChars hcs]
  exact scanFrom_number_of_stops hrest (by simpa using hread)

/-! ## Strings as they are written -/

/-- what a character is written as: by its number, or in another way -/
def pieceOf (c : Char) : Piece :=
  if c < ' ' ∧ c ∉ ['\x08', '\x0c', '\n', '\r', '\t'] then .unit c.toNat else .char c

theorem toNat_lt_of_control {c : Char} (h : c < ' ') : c.toNat < 32 := h

theorem spelled_escapeChar (c : Char) : (pieceOf c).Spelled (Json.escapeChar c) := by
  unfold Json.escapeChar
  split
  · next h => subst h; exact .short (by decide)
  next hquote =>
  split
  · next h => subst h; exact .short (by decide)
  next hbackslash =>
  iterate 5
    split
    · next h => subst h; exact .short (by decide)
  split
  · next hcontrol =>
    have hlt := toNat_lt_of_control hcontrol
    have hvalue : 16 * (16 * (16 * 0 + 0) + c.toNat / 16) + c.toNat % 16 = c.toNat := by omega
    have hzero : Hex.IsDigit '0' 0 := ⟨by decide, .inl rfl⟩
    have hhigh : Hex.IsDigit (Hex.digit (c.toNat / 16)).toLower (c.toNat / 16) := ⟨by omega, .inr rfl⟩
    have hlow : Hex.IsDigit (Hex.digit (c.toNat % 16)).toLower (c.toNat % 16) := ⟨by omega, .inr rfl⟩
    have hunit := Piece.Spelled.unit hzero hzero hhigh hlow
    rw [hvalue] at hunit
    rwa [pieceOf, if_pos (by simp [*])]
  · next hcontrol =>
    rw [pieceOf, if_neg fun h => hcontrol h.1]
    exact .plain hcontrol hquote hbackslash

theorem pieces_escaped (cs : List Char) : Pieces (cs.map pieceOf) (cs.flatMap Json.escapeChar) := by
  induction cs with
  | nil => exact .nil
  | cons c cs ih => exact .cons (spelled_escapeChar c) ih

theorem reads_map_pieceOf (cs : List Char) : Reads (cs.map pieceOf) cs := by
  induction cs with
  | nil => exact .nil
  | cons c cs ih =>
    rw [List.map_cons, pieceOf]
    split
    · next h =>
      have hlt := toNat_lt_of_control h.1
      have hhigh : Utf16.isHigh c.toNat = false := by simp [Utf16.isHigh]; omega
      have hlow : Utf16.isLow c.toNat = false := by simp [Utf16.isLow]; omega
      simpa only [Char.ofNat_toNat] using Reads.unit hhigh hlow ih
    · exact .char c ih

theorem Reads.unique {ps : List Piece} {cs cs' : List Char} (h : Reads ps cs) (h' : Reads ps cs') : cs = cs' :=
  Option.some.inj ((joinPieces_eq_some_iff.2 h).symm.trans (joinPieces_eq_some_iff.2 h'))

/-- **A string is written as a literal with its text.** -/
theorem literal_quote (s : String) : Literal (some s) (Json.quote s) := by
  refine .mk (pieces_escaped s.toList) fun s' => ?_
  rw [Option.some.injEq]
  constructor
  · rintro rfl
    exact reads_map_pieceOf _
  · intro h
    exact String.toList_inj.1 ((reads_map_pieceOf s.toList).unique h)

end Token

end Landmark
