/-
The signature search finds the least match, and nothing else.

- `finds_findMasked`: with the jumps from one occurrence of a fixed first byte to the next or without them, the mask search
  is exhaustive.
- `finds_findIn`: so is the search that goes on behind candidates whose choices fail.
- `findSignature_exact`: in an image and a window, there is a sighting exactly if the signature is not empty and stands
  somewhere wholly inside; it is the lowest one, and its end is a word inside the window.
-/
import Landmark.Proofs.Search
import Landmark.Proofs.Signature.Matching

namespace Landmark

theorem byteIs_of_masksHold {data : Array UInt8} {v : UInt8} {rest : List (UInt8 × UInt8)} {i : Nat}
    (h : masksHold data ((v, 0xFF) :: rest) i = true) : byteIs data v i = true := by
  obtain ⟨⟨b, hb, hv⟩, _⟩ := masksHold_cons.1 h
  rw [byteIs_iff, hb, ← hv]
  exact congrArg some UInt8.and_neg_one.symm

/-- **The mask search is exhaustive**, whether it jumps or not. -/
theorem finds_findMasked (data : Array UInt8) {masks : List (UInt8 × UInt8)} (hne : masks ≠ []) (start stop : Nat) :
    Finds (fun k => k + masks.length ≤ stop ∧ masksHold data masks k = true) start (findMasked data masks start stop) := by
  cases masks with
  | nil => contradiction
  | cons vm rest =>
    obtain ⟨v, m⟩ := vm
    have hlen : ((v, m) :: rest).length = rest.length + 1 := rfl
    -- the range searched holds exactly the positions from which all masks stay inside
    have hrange : ∀ k, start ≤ k →
        (k < start + (stop + 1 - start - ((v, m) :: rest).length) ↔ k + ((v, m) :: rest).length ≤ stop) := by
      intro k hk; omega
    unfold findMasked
    dsimp only
    split
    · next hm =>
      subst hm
      refine (finds_leastPassing (q := fun k => k < start + (stop + 1 - start - ((v, 0xFF) :: rest).length) ∧
        byteIs data v k = true) _ ?_ fun k hk => hk.1).congr ?_
      · intro k hk
        refine (finds_leastFrom (byteIs data v) k _).congr ?_
        intro l hl
        exact and_congr_left fun _ => by omega
      · intro k hk
        rw [hrange k hk, and_assoc]
        exact and_congr_right fun _ => ⟨fun h => h.2, fun h => ⟨byteIs_of_masksHold h, h⟩⟩
    · exact (finds_leastFrom _ _ _).congr fun k hk => and_congr_left fun _ => hrange k hk

namespace Signature

/-- the signature stands at `i`, wholly inside the window from `start` to `stop` -/
def StandsIn (sig : Signature) (data : Array UInt8) (start stop i : Nat) : Prop :=
  start ≤ i ∧ i + sig.size ≤ stop ∧ sig.Matches data i

/-- **Candidates that fail are passed over, and no match with them.** -/
theorem finds_findIn (sig : Signature) (hpos : 0 < sig.size) (data : Array UInt8) (start : Nat) {stop : Nat}
    (hstop : stop ≤ data.size) :
    Finds (fun k => k + sig.size ≤ stop ∧ sig.Matches data k) start (sig.findIn data start stop) := by
  have hne : sig.coarse ≠ [] := by
    rw [← List.length_pos_iff, length_coarse]; exact hpos
  refine (finds_leastPassing (sig.choicesHold data) (fun k _ => finds_findMasked data hne k stop) ?_).congr ?_
  · intro k hk
    have hend := hk.1
    rw [length_coarse] at hend; omega
  · intro k _
    rw [length_coarse, and_assoc]
    exact and_congr_right fun hk => (matches_iff_coarse_choices (by omega)).symm

/-- an empty signature is never found -/
theorem findIn_eq_none_of_size_eq_zero {sig : Signature} (h : sig.size = 0) (data : Array UInt8) (start stop : Nat) :
    sig.findIn data start stop = none := by
  have hnil : sig.coarse = [] := by
    rw [← List.length_eq_zero_iff, length_coarse]; exact h
  unfold findIn
  rw [hnil]
  cases stop - start <;> rfl

end Signature

namespace Image

/-- the search of an image is exhaustive -/
theorem finds_findSignature (image : Image) (sig : Signature) (hpos : 0 < sig.size) (start stop : UInt32) :
    Finds (fun k => k + sig.size ≤ min stop.toNat image.bytes.size ∧ sig.Matches image.bytes k) start.toNat
      ((image.findSignature sig start stop).map fun m => m.offset.toNat) := by
  have hfinds := sig.finds_findIn hpos image.bytes start.toNat (Nat.min_le_right stop.toNat image.bytes.size)
  unfold findSignature
  cases hr : sig.findIn image.bytes start.toNat (min stop.toNat image.bytes.size) with
  | none => rw [hr] at hfinds; exact hfinds
  | some i =>
    rw [hr] at hfinds
    have hi : i < UInt32.size := by
      have hs : UInt32.size = 0x100000000 := rfl
      have hle := hfinds.2.1.1
      have hstop := stop.toNat_lt
      omega
    simpa only [Option.map_some, UInt32.toNat_ofNat_of_lt' hi] using hfinds

theorem captures_findSignature {image : Image} {sig : Signature} {start stop : UInt32} {m : Sighting}
    (h : image.findSignature sig start stop = some m) :
    m.captures = Signature.capturesFrom image.bytes m.offset.toNat sig.segments := by
  obtain ⟨i, hi, rfl⟩ := Option.map_eq_some_iff.1 h
  rcases Nat.eq_zero_or_pos sig.size with hzero | hpos
  · rw [Signature.findIn_eq_none_of_size_eq_zero hzero] at hi
    contradiction
  · have hfinds := sig.finds_findIn hpos image.bytes start.toNat (Nat.min_le_right stop.toNat image.bytes.size)
    rw [hi] at hfinds
    have hs : UInt32.size = 0x100000000 := rfl
    have hend := hfinds.2.1.1
    have hstop := stop.toNat_lt
    rw [UInt32.toNat_ofNat_of_lt' (by omega)]

/-- a sighting is the least place in the window where the signature stands, with what its captures read there -/
theorem findSignature_eq_some_iff {image : Image} {sig : Signature} {start stop : UInt32} {m : Sighting} :
    image.findSignature sig start stop = some m ↔
      0 < sig.size ∧ sig.StandsIn image.bytes start.toNat (min stop.toNat image.bytes.size) m.offset.toNat ∧
      (∀ i, sig.StandsIn image.bytes start.toNat (min stop.toNat image.bytes.size) i → m.offset.toNat ≤ i) ∧
      m.captures = Signature.capturesFrom image.bytes m.offset.toNat sig.segments := by
  rcases Nat.eq_zero_or_pos sig.size with hzero | hpos
  · have hnone : image.findSignature sig start stop = none := by
      rw [findSignature, Signature.findIn_eq_none_of_size_eq_zero hzero]; rfl
    simp [hnone, hzero]
  · have hfinds := image.finds_findSignature sig hpos start stop
    rw [and_iff_right hpos]
    constructor
    · intro hm
      rw [hm, Option.map_some] at hfinds
      exact ⟨⟨hfinds.1, hfinds.2.1⟩, fun i hi => hfinds.le hi.1 hi.2, captures_findSignature hm⟩
    · rintro ⟨hstands, hleast, hcaptures⟩
      have hfound : (image.findSignature sig start stop).map (fun m => m.offset.toNat) = some m.offset.toNat :=
        hfinds.unique ⟨hstands.1, hstands.2, fun k hk hlt hq => Nat.not_lt.2 (hleast k ⟨hk, hq⟩) hlt⟩
      obtain ⟨m', hm', hoffset⟩ := Option.map_eq_some_iff.1 hfound
      obtain ⟨o, c⟩ := m
      obtain ⟨o', c'⟩ := m'
      obtain rfl : o' = o := UInt32.toNat_inj.1 hoffset
      obtain rfl : c' = c := (captures_findSignature hm').trans hcaptures.symm
      exact hm'

/-- **The signature search is exact.** In the part of the window that lies in the file, there is a sighting exactly if the
signature is not empty and stands somewhere wholly inside; its offset is the least such place, and its end is no more than
the end of the window, so that it does not wrap. -/
theorem findSignature_exact (image : Image) (sig : Signature) (start stop : UInt32) :
    ((image.findSignature sig start stop).isSome = true ↔
      0 < sig.size ∧ ∃ i, sig.StandsIn image.bytes start.toNat (min stop.toNat image.bytes.size) i) ∧
    ∀ m, image.findSignature sig start stop = some m →
      sig.StandsIn image.bytes start.toNat (min stop.toNat image.bytes.size) m.offset.toNat ∧
      (∀ i, sig.StandsIn image.bytes start.toNat (min stop.toNat image.bytes.size) i → m.offset.toNat ≤ i) ∧
      (m.stop sig).toNat = m.offset.toNat + sig.size ∧
      m.offset.toNat + sig.size ≤ min stop.toNat image.bytes.size := by
  rcases Nat.eq_zero_or_pos sig.size with hzero | hpos
  · have hnone : image.findSignature sig start stop = none := by
      rw [findSignature, Signature.findIn_eq_none_of_size_eq_zero hzero]; rfl
    simp [hnone, hzero]
  · have hfinds := image.finds_findSignature sig hpos start stop
    constructor
    · rw [← Option.isSome_map, hfinds.isSome_iff]
      exact ⟨fun ⟨i, h⟩ => ⟨hpos, i, h⟩, fun ⟨_, i, h⟩ => ⟨i, h⟩⟩
    · intro m hm
      rw [hm, Option.map_some] at hfinds
      have hend := hfinds.2.1.1
      refine ⟨⟨hfinds.1, hfinds.2.1⟩, ?_, ?_, hend⟩
      · intro i hi
        exact hfinds.le hi.1 hi.2
      · have hs : UInt32.size = 0x100000000 := rfl
        have hstop := stop.toNat_lt
        rw [Sighting.stop, UInt32.toNat_add, UInt32.toNat_ofNat']
        omega

/-- first a byte that passes the common bits of a choice but is not in it; then one that is, with another number behind it;
and then one with the right number -/
def nearMissImage : Image where
  bytes := #[0x68, 0x3C, 0x34, 0x12, 0x68, 0x3E, 0x34, 0x13, 0x68, 0x3E, 0x34, 0x12]
  sections := []
  imports := []
  metadata := .unknown
  sound := rfl

/-- the candidates at 0 and 4 are rejected, and the search goes on to the match at 8 -/
theorem nearMissImage_found :
    let sig := (Signature.literal [0x68] ++ Signature.oneOf [0x38, 0x39, 0x3E] ++ Signature.capture "size" .word).bind "size"
      0x51234
    let m : Sighting := ⟨8, [("size", 0x1234)]⟩
    nearMissImage.findSignature sig 0 20 = some m ∧ sig.StandsIn nearMissImage.bytes 0 12 8 ∧ (m.stop sig).toNat = 12 := by
  intro sig m
  have hm : nearMissImage.findSignature sig 0 20 = some m := by decide +kernel
  obtain ⟨hstands, -, hstop, -⟩ := (findSignature_exact nearMissImage sig 0 20).2 _ hm
  exact ⟨hm, hstands, hstop⟩

end Image

end Landmark
