/-
Words in hex: which texts are read, and as what.

A word is written as four bytes, the lowest first, but far more texts are read. `IsByte` is the grammar of one token: a plus
sign or none, then digits of either case, as many as one likes, that make no more than a byte.
- `readByte_eq_ok_iff`: the reader of one token follows that grammar.
- `readBytes_eq_ok_iff`, `readBytes_eq_error_iff`: so does the reader of several, which stops at the first thing that is
  wrong: a token that is no byte, a token for which no room is left, or too few of them.
- `fill_words`: the same reader with its buffer of four bytes never writes outside of it.
- `Address.readHex_exact`: all of it together.
-/
import Landmark.Proofs.Checked.Basic
import Landmark.Proofs.Text.Hex
import Landmark.Report
import Mathlib.Data.List.Forall2
import Mathlib.Data.Nat.Digits.Defs

namespace Landmark

namespace Hex

/-! ## One token -/

/-- the token is a byte: one digit or more, of a number that fits, and perhaps a plus sign before them -/
def IsByte (t : List Char) (n : Nat) : Prop :=
  n ≤ 255 ∧ ∃ ds vs, (t = ds ∨ t = '+' :: ds) ∧ ds ≠ [] ∧ List.Forall₂ IsDigit ds vs ∧ n = Nat.ofDigits 16 vs.reverse

theorem IsDigit.unique {c : Char} {n m : Nat} (h : IsDigit c n) (h' : IsDigit c m) : n = m :=
  Option.some.inj ((digitValue?_eq_some_iff.2 h).symm.trans (digitValue?_eq_some_iff.2 h'))

theorem not_isDigit_plus {n : Nat} : ¬ IsDigit '+' n := by
  rw [← digitValue?_eq_some_iff]
  simp [show digitValue? '+' = none from rfl]

theorem le_foldl_digits (n : Nat) (vs : List Nat) : n ≤ vs.foldl (fun n v => v + 16 * n) n := by
  induction vs generalizing n with
  | nil => exact Nat.le_refl n
  | cons v vs ih =>
    calc n ≤ v + 16 * n := by omega
      _ ≤ vs.foldl (fun n v => v + 16 * n) (v + 16 * n) := ih _

/-- digits are read on from a byte as long as a byte comes of it -/
theorem readDigits_eq_ok_iff {n m : Nat} {cs : List Char} (hn : n ≤ 255) :
    readDigits n cs = .ok m ↔
      m ≤ 255 ∧ ∃ vs, List.Forall₂ IsDigit cs vs ∧ m = vs.foldl (fun n v => v + 16 * n) n := by
  induction cs generalizing n with
  | nil =>
    rw [readDigits, Except.ok.injEq]
    constructor
    · rintro rfl
      exact ⟨hn, [], .nil, rfl⟩
    · rintro ⟨-, vs, hvs, rfl⟩
      rw [List.forall₂_nil_left_iff.1 hvs]
      rfl
  | cons c cs ih =>
    rw [readDigits]
    cases hc : digitValue? c with
    | none =>
      have hno : ∀ v, ¬ IsDigit c v := by
        intro v hv
        rw [digitValue?_eq_some_iff.2 hv] at hc
        contradiction
      simp only [reduceCtorEq, false_iff]
      rintro ⟨-, vs, hvs, -⟩
      cases hvs with
      | cons hv _ => exact hno _ hv
    | some d =>
      have hd : IsDigit c d := digitValue?_eq_some_iff.1 hc
      dsimp only
      split
      · next hfits =>
        rw [Nat.add_comm, ih (by omega)]
        constructor
        · rintro ⟨hm, vs, hvs, rfl⟩
          exact ⟨hm, d :: vs, .cons hd hvs, rfl⟩
        · rintro ⟨hm, _, hvs, rfl⟩
          cases hvs with
          | @cons _ v _ vs hv hvs =>
            obtain rfl := hv.unique hd
            exact ⟨hm, vs, hvs, rfl⟩
      · next hlarge =>
        simp only [reduceCtorEq, false_iff]
        rintro ⟨hm, _, hvs, rfl⟩
        cases hvs with
        | @cons _ v _ vs hv hvs =>
          obtain rfl := hv.unique hd
          have hle := le_foldl_digits (v + 16 * n) vs
          rw [List.foldl_cons] at hm
          omega

theorem ofDigits_reverse (vs : List Nat) : Nat.ofDigits 16 vs.reverse = vs.foldl (fun n v => v + 16 * n) 0 := by
  rw [Nat.ofDigits_eq_foldr, List.foldr_reverse]
  rfl

theorem readDigits_zero_eq_ok_iff {m : Nat} {cs : List Char} :
    readDigits 0 cs = .ok m ↔ m ≤ 255 ∧ ∃ vs, List.Forall₂ IsDigit cs vs ∧ m = Nat.ofDigits 16 vs.reverse := by
  simp only [readDigits_eq_ok_iff (Nat.zero_le _), ofDigits_reverse]

/-- **A token is read just if it is a byte, and as that byte.** -/
theorem readByte_eq_ok_iff {t : List Char} {n : Nat} : readByte t = .ok n ↔ IsByte t n := by
  unfold readByte
  split
  · simp only [reduceCtorEq, false_iff]
    rintro ⟨-, ds, vs, h | h, hne, -⟩
    · exact hne h.symm
    · contradiction
  · simp only [reduceCtorEq, false_iff]
    rintro ⟨-, ds, vs, rfl | h, hne, hds, -⟩
    · cases hds with
      | cons hv _ => exact not_isDigit_plus hv
    · exact hne (List.cons.inj h).2.symm
  · next cs hcs =>
    rw [readDigits_zero_eq_ok_iff]
    constructor
    · rintro ⟨hn, vs, hvs, hval⟩
      exact ⟨hn, cs, vs, .inr rfl, fun h => hcs (by rw [h]), hvs, hval⟩
    · rintro ⟨hn, ds, vs, rfl | h, hne, hds, hval⟩
      · cases hds with
        | cons hv _ => exact absurd hv not_isDigit_plus
      · obtain ⟨-, rfl⟩ := List.cons.inj h
        exact ⟨hn, vs, hds, hval⟩
  · next hnil _ hplus =>
    rw [readDigits_zero_eq_ok_iff]
    constructor
    · rintro ⟨hn, vs, hvs, hval⟩
      exact ⟨hn, t, vs, .inl rfl, hnil, hvs, hval⟩
    · rintro ⟨hn, ds, vs, rfl | h, hne, hds, hval⟩
      · exact ⟨hn, vs, hds, hval⟩
      · exact absurd h (hplus ds)

/-! ## Several tokens -/

theorem readBytes_eq_ok_iff {room : Nat} {ts : List (List Char)} {ns : List Nat} :
    readBytes room ts = .ok ns ↔ ns.length = room ∧ List.Forall₂ IsByte ts ns := by
  induction ts generalizing room ns with
  | nil =>
    rw [List.forall₂_nil_left_iff]
    cases room with
    | zero =>
      rw [readBytes, Except.ok.injEq]
      exact ⟨fun h => h ▸ ⟨rfl, rfl⟩, fun h => h.2.symm⟩
    | succ room =>
      simp only [readBytes, reduceCtorEq, false_iff]
      rintro ⟨hlength, rfl⟩
      contradiction
  | cons t ts ih =>
    cases room with
    | zero =>
      simp only [readBytes, reduceCtorEq, false_iff]
      rintro ⟨hlength, hall⟩
      rw [List.length_eq_zero_iff.1 hlength] at hall
      cases hall
    | succ room =>
      rw [List.forall₂_cons_left_iff, readBytes]
      constructor
      · intro h
        split at h
        · contradiction
        next n hn =>
        split at h
        · contradiction
        next ms hms =>
        obtain ⟨hlength, hall⟩ := ih.1 hms
        obtain rfl := Except.ok.inj h
        exact ⟨congrArg (· + 1) hlength, n, ms, readByte_eq_ok_iff.1 hn, hall, rfl⟩
      · rintro ⟨hlength, n, ms, hn, hall, rfl⟩
        rw [readByte_eq_ok_iff.2 hn, ih.2 ⟨Nat.succ.inj hlength, hall⟩]

/-- why tokens are not so many bytes: the first one that is none, or a token too many, or too few -/
inductive Refused (room : Nat) : List (List Char) → WordFault → Prop where
  | token (good : List (List Char)) {t : List Char} {rest : List (List Char)} {f : TokenFault} (hroom : good.length < room)
      (hgood : ∀ u ∈ good, ∃ n, IsByte u n) (ht : readByte t = .error f) : Refused room (good ++ t :: rest) (.token t f)
  | tooMany (good : List (List Char)) {t : List Char} {rest : List (List Char)} (hroom : good.length = room)
      (hgood : ∀ u ∈ good, ∃ n, IsByte u n) : Refused room (good ++ t :: rest) .tooMany
  | tooFew {ts : List (List Char)} (hroom : ts.length < room) (hgood : ∀ u ∈ ts, ∃ n, IsByte u n) : Refused room ts .tooFew

/-- with a byte before them they are refused for the same reason, if there is room for one more -/
theorem Refused.cons {room : Nat} {ts : List (List Char)} {f : WordFault} (h : Refused room ts f) {t : List Char} {n : Nat}
    (ht : IsByte t n) : Refused (room + 1) (t :: ts) f := by
  cases h with
  | token good hroom hgood hbad =>
    exact .token (t :: good) (Nat.succ_lt_succ hroom) (List.forall_mem_cons.2 ⟨⟨n, ht⟩, hgood⟩) hbad
  | tooMany good hroom hgood =>
    exact .tooMany (t :: good) (congrArg (· + 1) hroom) (List.forall_mem_cons.2 ⟨⟨n, ht⟩, hgood⟩)
  | tooFew hroom hgood => exact .tooFew (Nat.succ_lt_succ hroom) (List.forall_mem_cons.2 ⟨⟨n, ht⟩, hgood⟩)

theorem refused_of_readBytes {room : Nat} {ts : List (List Char)} {f : WordFault} (h : readBytes room ts = .error f) :
    Refused room ts f := by
  induction ts generalizing room with
  | nil =>
    cases room with
    | zero => contradiction
    | succ room =>
      obtain rfl := Except.error.inj h
      exact .tooFew (Nat.succ_pos room) (by simp)
  | cons t ts ih =>
    cases room with
    | zero =>
      obtain rfl := Except.error.inj h
      exact .tooMany [] rfl (by simp)
    | succ room =>
      rw [readBytes] at h
      split at h
      · next g hg =>
        obtain rfl := Except.error.inj h
        exact .token [] (Nat.succ_pos room) (by simp) hg
      next n hn =>
      split at h
      · next g hg =>
        obtain rfl := Except.error.inj h
        exact (ih hg).cons (readByte_eq_ok_iff.1 hn)
      · contradiction

/-- bytes at the front are read, and then the others -/
theorem readBytes_append {good : List (List Char)} (hgood : ∀ u ∈ good, ∃ n, IsByte u n) (room : Nat)
    (ts : List (List Char)) {f : WordFault} (h : readBytes room ts = .error f) :
    readBytes (good.length + room) (good ++ ts) = .error f := by
  induction good with
  | nil => rwa [List.length_nil, Nat.zero_add]
  | cons u good ih =>
    obtain ⟨⟨n, hn⟩, hrest⟩ := List.forall_mem_cons.1 hgood
    rw [List.length_cons, Nat.succ_add, List.cons_append, readBytes, readByte_eq_ok_iff.2 hn, ih hrest]

/-- **The first thing that is wrong is told.** -/
theorem readBytes_eq_error_iff {room : Nat} {ts : List (List Char)} {f : WordFault} :
    readBytes room ts = .error f ↔ Refused room ts f := by
  refine ⟨refused_of_readBytes, ?_⟩
  rintro (⟨good, hroom, hgood, ht⟩ | ⟨good, rfl, hgood⟩ | ⟨hroom, hgood⟩)
  · obtain ⟨left, rfl⟩ := Nat.exists_eq_add_of_lt hroom
    exact readBytes_append hgood (left + 1) _ (by rw [readBytes, ht])
  · exact readBytes_append hgood 0 _ rfl
  · obtain ⟨left, rfl⟩ := Nat.exists_eq_add_of_lt hroom
    have h := readBytes_append hgood (left + 1) [] rfl
    rwa [List.append_nil] at h

/-! ## The buffer -/

/-- reads tokens into a buffer, `count` bytes of which are filled -/
def fill (buffer : List UInt8) (count : Nat) : List (List Char) → Checked (Except WordFault UInt32)
  | [] => return if count = 4 then .ok (Word.ofBytes buffer) else .error .tooFew
  | t :: ts =>
    if count = 4 then return .error .tooMany
    else
      match readByte t with
      | .error f => return .error (.token t f)
      | .ok n => do
        let buffer ← Checked.put buffer count (UInt8.ofNat n)
        fill buffer (count + 1) ts

/-- a buffer that is filled up to a point gets the bytes of the tokens behind it -/
theorem fill_append {filled : List UInt8} {room : Nat} (hroom : filled.length + room = 4) (ts : List (List Char)) :
    fill (filled ++ List.replicate room 0) filled.length ts =
      .ok ((readBytes room ts).map fun ns => Word.ofBytes (filled ++ ns.map UInt8.ofNat)) := by
  induction ts generalizing filled room with
  | nil =>
    cases room with
    | zero =>
      rw [fill, if_pos (show filled.length = 4 from hroom)]
      rfl
    | succ room =>
      rw [fill, if_neg (by omega)]
      rfl
  | cons t ts ih =>
    cases room with
    | zero =>
      rw [fill, if_pos (show filled.length = 4 from hroom)]
      rfl
    | succ room =>
      rw [fill, if_neg (by omega), readBytes]
      cases readByte t with
      | error f => rfl
      | ok n =>
        have hlt : filled.length < (filled ++ List.replicate (room + 1) (0 : UInt8)).length := by simp
        have hset : (filled ++ List.replicate (room + 1) (0 : UInt8)).set filled.length (.ofNat n) =
            filled ++ [.ofNat n] ++ List.replicate room 0 := by
          rw [List.set_append_right _ _ (Nat.le_refl _), Nat.sub_self, List.replicate_succ, List.set_cons_zero,
            List.append_assoc, List.singleton_append]
        have hnext : (filled ++ [UInt8.ofNat n]).length = filled.length + 1 := by simp
        dsimp only
        rw [Checked.put_eq hlt, Checked.ok_bind, hset, ← hnext, ih (by omega)]
        cases readBytes room ts with
        | error f => rfl
        | ok ns => simp [Except.map]

/-- **No text makes the reader leave its buffer of four bytes.** -/
theorem fill_words (text : String) : fill (List.replicate 4 0) 0 (Text.words text.toList) = .ok (decodeWord text) := by
  have h := @fill_append [] 4 rfl (Text.words text.toList)
  rw [List.nil_append, List.length_nil] at h
  rw [h, decodeWord]
  cases readBytes 4 (Text.words text.toList) <;> rfl

/-! ## Words -/

theorem toNat_ofBytes {ns : List Nat} (hlength : ns.length ≤ 4) (hbyte : ∀ n ∈ ns, n ≤ 255) :
    (Word.ofBytes (ns.map UInt8.ofNat)).toNat = Nat.ofDigits 256 ns := by
  rw [Word.toNat_ofBytes (by rwa [List.length_map])]
  clear hlength
  induction ns with
  | nil => rfl
  | cons n ns ih =>
    obtain ⟨hn, hns⟩ := List.forall_mem_cons.1 hbyte
    rw [List.map_cons, Word.valueOf, ih hns, UInt8.toNat_ofNat_of_lt' (Nat.lt_succ_of_le hn), Nat.ofDigits_cons]

theorem le_of_isByte {ts : List (List Char)} {ns : List Nat} (h : List.Forall₂ IsByte ts ns) : ∀ n ∈ ns, n ≤ 255 := by
  induction h with
  | nil => simp
  | cons hn _ ih => exact List.forall_mem_cons.2 ⟨hn.1, ih⟩

/-- **A word is read from four bytes, the lowest first, and from nothing else.** -/
theorem decodeWord_eq_ok_iff {text : String} {w : UInt32} : decodeWord text = .ok w ↔
    ∃ ns, ns.length = 4 ∧ List.Forall₂ IsByte (Text.words text.toList) ns ∧ w.toNat = Nat.ofDigits 256 ns := by
  rw [decodeWord]
  constructor
  · intro h
    split at h
    · contradiction
    next ns hns =>
    obtain ⟨hlength, hall⟩ := readBytes_eq_ok_iff.1 hns
    obtain rfl := Except.ok.inj h
    exact ⟨ns, hlength, hall, toNat_ofBytes (Nat.le_of_eq hlength) (le_of_isByte hall)⟩
  · rintro ⟨ns, hlength, hall, hw⟩
    rw [readBytes_eq_ok_iff.2 ⟨hlength, hall⟩]
    dsimp only
    rw [← toNat_ofBytes (Nat.le_of_eq hlength) (le_of_isByte hall)] at hw
    rw [UInt32.toNat_inj.1 hw]

theorem decodeWord_eq_error_iff {text : String} {f : WordFault} :
    decodeWord text = .error f ↔ Refused 4 (Text.words text.toList) f := by
  rw [← readBytes_eq_error_iff, decodeWord]
  cases readBytes 4 (Text.words text.toList) <;> simp

theorem isByte_byteDigits (b : UInt8) : IsByte (byteDigits b) b.toNat := by
  have hb := b.toNat_lt
  refine ⟨by omega, byteDigits b, [b.toNat / 16, b.toNat % 16], .inl rfl, List.cons_ne_nil _ _, ?_, ?_⟩
  · exact .cons ⟨high_lt b, .inl rfl⟩ (.cons ⟨low_lt b, .inl rfl⟩ .nil)
  · simp only [List.reverse_cons, List.reverse_nil, List.nil_append, List.singleton_append, Nat.ofDigits_cons, Nat.ofDigits_nil]
    omega

theorem words_encode (bs : List UInt8) : Text.words (encode bs).toList = bs.map byteDigits := by
  have htext : (encode bs).toList = [' '].intercalate (bs.map byteDigits) := by
    rw [encode, String.toList_intercalate, List.map_map]
    exact congrArg _ (List.map_congr_left fun b _ => toList_byteText b)
  rw [htext]
  refine Text.words_intercalate ?_
  intro w hw
  obtain ⟨b, -, rfl⟩ := List.mem_map.1 hw
  exact isWord_byteDigits b

theorem decodeWord_encode (w : UInt32) : decodeWord (encode (Word.bytes w)) = .ok w := by
  refine decodeWord_eq_ok_iff.2 ⟨(Word.bytes w).map UInt8.toNat, rfl, ?_, ?_⟩
  · rw [words_encode, List.forall₂_map_left_iff, List.forall₂_map_right_iff, List.forall₂_same]
    exact fun b _ => isByte_byteDigits b
  · have hbyte : ∀ n ∈ (Word.bytes w).map UInt8.toNat, n ≤ 255 := by
      intro n hn
      obtain ⟨b, -, rfl⟩ := List.mem_map.1 hn
      exact Nat.le_of_lt_succ b.toNat_lt
    have hback : ((Word.bytes w).map UInt8.toNat).map UInt8.ofNat = Word.bytes w := by
      rw [List.map_map]
      exact List.map_id'' (fun b => UInt8.ofNat_toNat) _
    have hlength : ((Word.bytes w).map UInt8.toNat).length ≤ 4 := Nat.le_refl 4
    rw [← toNat_ofBytes hlength hbyte, hback, Word.ofBytes_bytes]

end Hex

namespace Address

theorem readHex_eq_ok_iff {text : String} {w : UInt32} : readHex text = .ok w ↔ Hex.decodeWord text = .ok w := by
  rw [readHex]
  cases Hex.decodeWord text <;> simp

theorem readHex_eq_error_iff {text : String} {fault : Fault} :
    readHex text = .error fault ↔ ∃ f, Hex.decodeWord text = .error f ∧ fault = .invalidHex (f.message text) := by
  rw [readHex]
  cases Hex.decodeWord text <;> simp [eq_comm]

theorem readHex_hex (a : Address) : readHex a.hex = .ok a.value :=
  readHex_eq_ok_iff.2 (Hex.decodeWord_encode a.value)

open Text (Cut)
open Hex (IsByte)

/-- **Hex text is read back, and just four bytes are read.** The hex form of an address gives its number, also the one that
an address field of a report carries. A text is read if, cut at its blanks, it is four tokens that are bytes; the number is
the sum of these, each counted 256 times as much as the one before. Any other text is invalid hex, and what is told of it is
the first thing that is wrong. No text makes the reader leave its buffer of four bytes. -/
theorem readHex_exact :
    (∀ a : Address, readHex a.hex = .ok a.value ∧ ∀ name, ∃ hex,
      (Field.address name a).value = .address a.value a.space hex ∧ readHex hex = .ok a.value) ∧
    ∀ text : String,
      (∀ w, readHex text = .ok w ↔ ∃ t₀ t₁ t₂ t₃ n₀ n₁ n₂ n₃, Cut text.toList [t₀, t₁, t₂, t₃] ∧
        IsByte t₀ n₀ ∧ IsByte t₁ n₁ ∧ IsByte t₂ n₂ ∧ IsByte t₃ n₃ ∧
        w.toNat = n₀ + n₁ * 256 + n₂ * 256 ^ 2 + n₃ * 256 ^ 3) ∧
      (∀ fault, readHex text = .error fault ↔
        ∃ ts f, Cut text.toList ts ∧ Hex.Refused 4 ts f ∧ fault = .invalidHex (f.message text)) ∧
      Hex.fill (List.replicate 4 0) 0 (Text.words text.toList) = .ok (Hex.decodeWord text) := by
  refine ⟨fun a => ⟨readHex_hex a, fun name => ⟨a.hex, rfl, readHex_hex a⟩⟩, fun text => ⟨?_, ?_, Hex.fill_words text⟩⟩
  · intro w
    rw [readHex_eq_ok_iff, Hex.decodeWord_eq_ok_iff]
    constructor
    · rintro ⟨ns, hlength, hall, hw⟩
      obtain ⟨n₀, n₁, n₂, n₃, rfl⟩ := List.length_eq_four.1 hlength
      generalize hts : Text.words text.toList = ts at hall
      match ts, hall with
      | [t₀, t₁, t₂, t₃], .cons h₀ (.cons h₁ (.cons h₂ (.cons h₃ .nil))) =>
        refine ⟨t₀, t₁, t₂, t₃, n₀, n₁, n₂, n₃, Text.words_eq_iff.1 hts, h₀, h₁, h₂, h₃, ?_⟩
        simp only [Nat.ofDigits_cons, Nat.ofDigits_nil] at hw
        omega
    · rintro ⟨t₀, t₁, t₂, t₃, n₀, n₁, n₂, n₃, hcut, h₀, h₁, h₂, h₃, hw⟩
      refine ⟨[n₀, n₁, n₂, n₃], rfl, ?_, ?_⟩
      · rw [Text.words_eq_iff.2 hcut]
        exact .cons h₀ (.cons h₁ (.cons h₂ (.cons h₃ .nil)))
      · simp only [Nat.ofDigits_cons, Nat.ofDigits_nil]
        omega
  · intro fault
    simp only [readHex_eq_error_iff, Hex.decodeWord_eq_error_iff]
    constructor
    · rintro ⟨f, hf, rfl⟩
      exact ⟨_, f, Text.cut_words _, hf, rfl⟩
    · rintro ⟨ts, f, hcut, hf, rfl⟩
      exact ⟨f, Text.words_eq_iff.2 hcut ▸ hf, rfl⟩

/-- signs, leading zeros, digits of either case, and blanks of several kinds -/
example : readHex " +78\t0056\u3000 34\n00fF " = .ok 0xFF345678 := by decide +kernel

end Address

end Landmark
