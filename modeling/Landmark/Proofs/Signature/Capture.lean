/-
Captures are read off the bytes they cover.

The search, the reading of captures and the look-up of positions walk the segments one by one, each for itself. `captures`
lists the captures with the positions of their first bytes, which are the sizes of what stands before them.
- `capturesFrom_eq`, `offsetFrom_eq`: what a sighting reads, and where a name is first, told by that list.
- `standsAt_lowBytes_iff`: low bytes of a value stand somewhere exactly if the number there is that value, cut to width.
- `matchesFrom_bind_iff`: a signature with a value bound matches where the one without does and the captures read it.
- `captures_exact`: all of it together.
-/
import Landmark.Proofs.Image.Reading
import Landmark.Proofs.Signature.Concatenation
import Landmark.Proofs.Word

namespace Landmark

/-- number of values of a capture of this width -/
def Width.span : Width → Nat
  | byte => 0x100
  | word => 0x10000
  | dword => 0x100000000

/-- number that so many bytes from `i` on make, lowest byte first -/
def valueAt (data : Array UInt8) (i n : Nat) : Nat :=
  Word.valueOf (data.extract i (i + n)).toList

namespace Signature

/-- a capture among the segments of a signature -/
structure Capture where
  /-- position of its first byte -/
  position : Nat
  name : String
  width : Width
  bound : Option UInt32

end Signature

/-! ## Low bytes -/

namespace Segment

theorem valueOf_lowBytes (w : Width) (v : UInt32) : Word.valueOf (lowBytes w v) = v.toNat % w.span := by
  have hv := v.toNat_lt
  cases w with
  | byte => simp [lowBytes, Word.bytes, Word.valueOf, Width.size, Width.span]
  | word =>
    simp only [lowBytes, Word.bytes, Word.valueOf, Width.size, Width.span, List.take, UInt8.toNat_ofNat']
    omega
  | dword =>
    simp only [lowBytes, Word.bytes, Word.valueOf, Width.size, Width.span, List.take, UInt8.toNat_ofNat']
    omega

/-- bytes stand somewhere exactly if they are what is there -/
theorem standsAt_iff_extract {data : Array UInt8} {i : Nat} {bs : List UInt8} (h : i + bs.length ≤ data.size) :
    StandsAt data i bs ↔ (data.extract i (i + bs.length)).toList = bs := by
  have hget : ∀ k < bs.length, (data.extract i (i + bs.length)).toList[k]? = data[i + k]? := by
    intro k hk
    rw [Array.getElem?_toList, getElem?_extract_of_lt h (by omega)]
  have hlength : (data.extract i (i + bs.length)).toList.length = bs.length := by
    rw [Array.length_toList, Array.size_extract]; omega
  constructor
  · intro hstands
    refine List.ext_getElem? fun k => ?_
    by_cases hk : k < bs.length
    · rw [hget k hk, hstands k hk]
    · rw [List.getElem?_eq_none (by omega), List.getElem?_eq_none (by omega)]
  · intro heq k hk
    rw [← hget k hk, heq]

/-- bytes that stand somewhere are what is read there -/
theorem extract_of_standsAt {data : Array UInt8} {i : Nat} {bs : List UInt8} (hpos : 0 < bs.length)
    (h : StandsAt data i bs) : (data.extract i (i + bs.length)).toList = bs :=
  (standsAt_iff_extract (h.length_le hpos)).1 h

/-- **The low bytes of a value stand where its number is read**, cut to the width. -/
theorem standsAt_lowBytes_iff {data : Array UInt8} {i : Nat} {w : Width} (h : i + w.size ≤ data.size) (v : UInt32) :
    StandsAt data i (lowBytes w v) ↔ valueAt data i w.size = v.toNat % w.span := by
  have hlength := length_lowBytes w v
  have hextract : (data.extract i (i + w.size)).toList.length = (lowBytes w v).length := by
    rw [hlength, Array.length_toList, Array.size_extract]; omega
  rw [standsAt_iff_extract (hlength ▸ h), hlength, valueAt, ← valueOf_lowBytes, Word.valueOf_inj hextract]

/-- the bytes of a word stand where it is read -/
theorem standsAt_bytes_iff {image : Image} {i : Nat} (h : i + 4 ≤ image.bytes.size) {w : UInt32} :
    StandsAt image.bytes i (Word.bytes w) ↔ image.wordAt i = w := by
  have hlength : (image.bytes.extract i (i + 4)).toList.length = 4 := by
    rw [Array.length_toList, Array.size_extract]; omega
  have hroom : i + (Word.bytes w).length ≤ image.bytes.size := h
  rw [standsAt_iff_extract hroom, Image.wordAt]
  change (image.bytes.extract i (i + 4)).toList = _ ↔ _
  constructor
  · intro hbytes
    rw [hbytes, Word.ofBytes_bytes]
  · rintro rfl
    exact (Word.bytes_ofBytes hlength).symm

/-- the capture, if the segment is one that starts at `k` -/
def captureAt (k : Nat) : Segment → Option Signature.Capture
  | capture n w b => some ⟨k, n, w, b⟩
  | _ => none

end Segment

/-! ## Places of captures -/

namespace Signature

/-- the captures among segments, in order, the first segment being at `k` -/
def capturesOf (k : Nat) (l : List Segment) : List Capture :=
  (l.mapIdx fun j s => s.captureAt (k + sizeAll (l.take j))).filterMap id

/-- the captures in order -/
def captures (sig : Signature) : List Capture :=
  capturesOf 0 sig.segments

theorem capturesOf_cons (k : Nat) (s : Segment) (l : List Segment) :
    capturesOf k (s :: l) = (s.captureAt k).toList ++ capturesOf (k + s.size) l := by
  have hrest : (fun j t => Segment.captureAt (k + sizeAll ((s :: l).take (j + 1))) t) =
      fun j t => Segment.captureAt (k + s.size + sizeAll (l.take j)) t := by
    funext j t
    rw [List.take_succ_cons, Nat.add_assoc]
    rfl
  rw [capturesOf, List.mapIdx_cons, hrest, List.take_zero]
  change List.filterMap id (s.captureAt k :: _) = _
  cases s.captureAt k <;> rfl

theorem seamless_captureAt : Seamless (· ++ ·) [] fun k s => (Segment.captureAt k s).toList where
  assoc := List.append_assoc
  unit_op := List.nil_append
  op_unit := List.append_nil
  literal _ _ := rfl
  wildcard _ _ := rfl

theorem capturesOf_eq_sweep (k : Nat) (l : List Segment) :
    capturesOf k l = sweep (· ++ ·) [] (fun k s => (Segment.captureAt k s).toList) k l := by
  induction l generalizing k with
  | nil => rfl
  | cons s l ih => rw [capturesOf_cons, ih, sweep]

/-- the captures of two signatures, those of the second one counted from where the first one ends -/
theorem capturesOf_append (a b : Signature) (k : Nat) : capturesOf k (a ++ b).segments =
    capturesOf k a.segments ++ capturesOf (k + a.size) b.segments := by
  simp only [capturesOf_eq_sweep]
  exact seamless_captureAt.sweep_append a b k

/-- a capture lies among the bytes that the segments cover -/
theorem mem_capturesOf {k : Nat} {l : List Segment} {c : Capture} (hc : c ∈ capturesOf k l) :
    k ≤ c.position ∧ c.position + c.width.size ≤ k + sizeAll l := by
  induction l generalizing k with
  | nil => exact absurd hc List.not_mem_nil
  | cons s l ih =>
    have hsize : sizeAll (s :: l) = s.size + sizeAll l := rfl
    rw [capturesOf_cons, List.mem_append] at hc
    rcases hc with hc | hc
    · cases s with
      | capture n w b =>
        obtain rfl := List.mem_singleton.1 hc
        have hw : (Segment.capture n w b).size = w.size := rfl
        exact ⟨Nat.le_refl k, by simp only; omega⟩
      | _ => exact absurd hc List.not_mem_nil
    · have hinside := ih hc
      omega

/-- **What is read off a match**, capture by capture. -/
theorem capturesFrom_eq {data : Array UInt8} {i k : Nat} {l : List Segment} (h : i + k + sizeAll l ≤ data.size) :
    (capturesFrom data (i + k) l).map (fun e => (e.1, e.2.toNat)) =
      (capturesOf k l).map fun c => (c.name, valueAt data (i + c.position) c.width.size) := by
  induction l generalizing k with
  | nil => rfl
  | cons s l ih =>
    have hsize : sizeAll (s :: l) = s.size + sizeAll l := rfl
    have hrest := ih (k := k + s.size) (by omega)
    rw [← Nat.add_assoc] at hrest
    rw [capturesOf_cons, List.map_append, ← hrest]
    cases s with
    | capture n w b =>
      have hw : (Segment.capture n w b).size = w.size := rfl
      have hlength : (data.extract (i + k) (i + k + w.size)).toList.length ≤ 4 := by
        rw [Array.length_toList, Array.size_extract]
        cases w <;> simp only [Width.size] <;> omega
      rw [capturesFrom, if_pos (by omega), List.map_cons, Word.toNat_ofBytes hlength]
      rfl
    | _ => rfl

/-- a name is first where its first capture is -/
theorem offsetFrom_eq (name : String) (k : Nat) (l : List Segment) :
    offsetFrom name k l = ((capturesOf k l).find? (·.name == name)).map (·.position) := by
  induction l generalizing k with
  | nil => rfl
  | cons s l ih =>
    rw [capturesOf_cons, List.find?_append]
    cases s with
    | capture n w b =>
      rw [offsetFrom, ih]
      by_cases hn : n = name
      · simp [Segment.captureAt, hn]
      · simp [Segment.captureAt, hn]
    | _ => exact ih _

/-! ## Bound captures -/

theorem sizeAll_map_bind (name : String) (value : UInt32) (l : List Segment) :
    sizeAll (l.map (Segment.bind name value)) = sizeAll l := by
  induction l with
  | nil => rfl
  | cons s l ih =>
    change (Segment.bind name value s).size + sizeAll (l.map _) = s.size + sizeAll l
    rw [ih, Segment.size_bind]

theorem offsetFrom_map_bind (name name' : String) (value : UInt32) (k : Nat) (l : List Segment) :
    offsetFrom name' k (l.map (Segment.bind name value)) = offsetFrom name' k l := by
  induction l generalizing k with
  | nil => rfl
  | cons s l ih =>
    rw [List.map_cons]
    have hsize := Segment.size_bind name value s
    cases s with
    | capture n w b =>
      have hbind : ∃ b', Segment.bind name value (.capture n w b) = .capture n w b' := by
        rw [Segment.bind]
        split <;> exact ⟨_, rfl⟩
      obtain ⟨b', hbind⟩ := hbind
      rw [hbind, offsetFrom, offsetFrom, ih]
      rfl
    | _ => exact ih _

/-- **Binding before the search is filtering after it.** Where the segments have room, they match with the value bound exactly
if they match without it and every capture of that name reads it. -/
theorem matchesFrom_bind_iff {data : Array UInt8} {i k : Nat} {l : List Segment} (h : i + k + sizeAll l ≤ data.size)
    {name : String} (hfree : ∀ c ∈ capturesOf k l, c.name = name → c.bound = none) (value : UInt32) :
    MatchesFrom data (i + k) (l.map (Segment.bind name value)) ↔ MatchesFrom data (i + k) l ∧
      ∀ c ∈ capturesOf k l, c.name = name → valueAt data (i + c.position) c.width.size = value.toNat % c.width.span := by
  induction l generalizing k with
  | nil => exact ⟨fun _ => ⟨trivial, fun c hc => absurd hc List.not_mem_nil⟩, fun _ => trivial⟩
  | cons s l ih =>
    have hsize : sizeAll (s :: l) = s.size + sizeAll l := rfl
    rw [capturesOf_cons] at hfree ⊢
    have hrest := ih (k := k + s.size) (by omega) fun c hc => hfree c (List.mem_append_right _ hc)
    rw [← Nat.add_assoc] at hrest
    have hfirst : (Segment.bind name value s).Matches data (i + k) ↔ s.Matches data (i + k) ∧
        ∀ c ∈ (s.captureAt k).toList, c.name = name →
          valueAt data (i + c.position) c.width.size = value.toNat % c.width.span := by
      cases s with
      | capture n w b =>
        have hw : (Segment.capture n w b).size = w.size := rfl
        by_cases hn : n = name
        · have hb : b = none := hfree ⟨k, n, w, b⟩ List.mem_cons_self hn
          subst hb
          have hread : (Segment.capture n w (some value)).Matches data (i + k) ↔
              valueAt data (i + k) w.size = value.toNat % w.span :=
            Segment.matches_bound_iff.trans (Segment.standsAt_lowBytes_iff (by omega) value)
          have hunbound : (Segment.capture name w none).Matches data (i + k) := trivial
          simpa [Segment.bind, hn, Segment.captureAt, hunbound] using hread
        · simp [Segment.bind, hn, Segment.captureAt]
      | _ => exact (and_iff_left fun c hc => absurd hc List.not_mem_nil).symm
    rw [List.map_cons, MatchesFrom, MatchesFrom, Segment.size_bind, hfirst, hrest, and_and_and_comm]
    refine and_congr_right fun _ => ?_
    simp only [List.mem_append, or_imp, forall_and]

/-! ## Whole signatures -/

section

variable {image : Image} {sig : Signature} {start stop : UInt32} {m : Sighting}

/-- a sighting has an entry for every capture, with what the bytes it covers make -/
theorem captures_eq (h : image.findSignature sig start stop = some m) : m.captures.map (fun e => (e.1, e.2.toNat)) =
    sig.captures.map fun c => (c.name, valueAt image.bytes (m.offset.toNat + c.position) c.width.size) := by
  obtain ⟨-, ⟨-, hend, -⟩, -, hcaptures⟩ := Image.findSignature_eq_some_iff.1 h
  rw [hcaptures]
  exact capturesFrom_eq (k := 0) (Nat.le_trans hend (Nat.min_le_right _ _))

/-- where all captures have four bytes, a sighting has the words at their places -/
theorem captures_eq_words (h : image.findSignature sig start stop = some m) (hwidth : ∀ c ∈ sig.captures, c.width = .dword) :
    m.captures = sig.captures.map fun c => (c.name, image.wordAt (m.offset.toNat + c.position)) := by
  have hword : ∀ i, valueAt image.bytes i 4 = (image.wordAt i).toNat := by
    intro i
    have hlength : (image.bytes.extract i (i + 4)).toList.length ≤ 4 := by
      rw [Array.length_toList, Array.size_extract]; omega
    exact (Word.toNat_ofBytes hlength).symm
  have hinjective : Function.Injective fun e : String × UInt32 => (e.1, e.2.toNat) := by
    intro e e' heq
    obtain ⟨hname, hvalue⟩ := Prod.mk.inj heq
    exact Prod.ext hname (UInt32.toNat_inj.1 hvalue)
  apply List.map_injective_iff.2 hinjective
  rw [captures_eq h, List.map_map]
  apply List.map_congr_left
  intro c hc
  rw [hwidth c hc]
  exact congrArg (Prod.mk c.name) (hword _)

/-- what a sighting tells of a name is what its first capture reads -/
theorem capture?_eq (h : image.findSignature sig start stop = some m) (name : String) : (m.capture? name).map UInt32.toNat =
    (sig.captures.find? (·.name == name)).map fun c =>
      valueAt image.bytes (m.offset.toNat + c.position) c.width.size := by
  have hfind := congrArg (fun l => (l.find? (·.1 == name)).map Prod.snd) (captures_eq h)
  simp only [List.find?_map, Option.map_map] at hfind
  rw [Sighting.capture?, Option.map_map]
  exact hfind

/-- a capture of four bytes reads the word that stands there -/
theorem capture?_of_standsAt (h : image.findSignature sig start stop = some m) {name : String} {c : Capture}
    (hc : sig.captures.find? (·.name == name) = some c) (hwidth : c.width = .dword) {v : UInt32}
    (hstands : Segment.StandsAt image.bytes (m.offset.toNat + c.position) (Word.bytes v)) : m.capture? name = some v := by
  have hroom := hstands.length_le (Nat.succ_pos 3)
  have hvalue : valueAt image.bytes (m.offset.toNat + c.position) Width.dword.size = v.toNat := by
    have hread := (Segment.standsAt_lowBytes_iff (w := .dword) hroom v).1 hstands
    rwa [Width.span, Nat.mod_eq_of_lt v.toNat_lt] at hread
  have hname := capture?_eq h name
  rw [hc, Option.map_some, hwidth, hvalue] at hname
  obtain ⟨w, hw, heq⟩ := Option.map_eq_some_iff.1 hname
  rw [hw, UInt32.toNat_inj.1 heq]

end

/-- **Captures are read off the matched bytes, and binding one is filtering by it.** A sighting has one entry for every
capture, in order, with the number that the bytes it covers make; these bytes lie in the window. A name is looked up at its
first capture, in the signature as in the sighting, and is missing exactly if there is none. Where no capture of a name is
bound, binding it to a value leaves just the matches at which all captures of that name read the value, each as much of it
as its width holds. Binding moves nothing. -/
theorem captures_exact (sig : Signature) :
    (∀ (image : Image) (start stop : UInt32) (m : Sighting), image.findSignature sig start stop = some m →
      m.captures.map (fun e => (e.1, e.2.toNat)) =
        sig.captures.map (fun c => (c.name, valueAt image.bytes (m.offset.toNat + c.position) c.width.size)) ∧
      (∀ c ∈ sig.captures, start.toNat ≤ m.offset.toNat + c.position ∧
        m.offset.toNat + c.position + c.width.size ≤ min stop.toNat image.bytes.size) ∧
      ∀ name, (m.capture? name).map UInt32.toNat = (sig.captures.find? (·.name == name)).map (fun c =>
          valueAt image.bytes (m.offset.toNat + c.position) c.width.size) ∧
        sig.offsetOf name = (sig.captures.find? (·.name == name)).map (·.position) ∧
        (m.capture? name = none ↔ ¬ sig.HasCapture name)) ∧
    (∀ name value, (∀ c ∈ sig.captures, c.name = name → c.bound = none) → ∀ data i,
      (i + (sig.bind name value).size ≤ data.size ∧ (sig.bind name value).Matches data i ↔
        (i + sig.size ≤ data.size ∧ sig.Matches data i) ∧ ∀ c ∈ sig.captures, c.name = name →
          valueAt data (i + c.position) c.width.size = value.toNat % c.width.span)) ∧
    ∀ name value, (sig.bind name value).size = sig.size ∧
      ∀ name', (sig.bind name value).offsetOf name' = sig.offsetOf name' := by
  refine ⟨?_, ?_, ?_⟩
  · intro image start stop m hm
    obtain ⟨-, ⟨hstart, hend, -⟩, -⟩ := Image.findSignature_eq_some_iff.1 hm
    refine ⟨captures_eq hm, ?_, ?_⟩
    · intro c hc
      obtain ⟨-, hinside⟩ := mem_capturesOf hc
      change m.offset.toNat + sizeAll sig.segments ≤ _ at hend
      omega
    · intro name
      have hvalue := capture?_eq hm name
      have hoffset := offsetFrom_eq name 0 sig.segments
      refine ⟨hvalue, hoffset, ?_⟩
      rw [← Option.map_eq_none_iff (f := UInt32.toNat), hvalue, Option.map_eq_none_iff,
        ← Option.map_eq_none_iff (f := Capture.position)]
      exact hoffset ▸ offsetFrom_eq_none_iff
  · intro name value hfree data i
    have hsize : (sig.bind name value).size = sig.size := sizeAll_map_bind name value sig.segments
    rw [hsize, and_assoc]
    exact and_congr_right fun hroom => matchesFrom_bind_iff (k := 0) hroom hfree value
  · intro name value
    exact ⟨sizeAll_map_bind name value sig.segments, fun name' => offsetFrom_map_bind name name' value 0 sig.segments⟩

/-- two captures of one name and different width, and one of another name -/
def twiceNamed : Signature :=
  literal [0x68] ++ capture "size" .byte ++ oneOf [0x74, 0x75] ++ capture "size" .word ++ any 1 ++ capture "target" .dword

/-- an image in which it stands behind another byte -/
def twiceNamedImage : Image where
  bytes := #[0, 0x68, 0x34, 0x75, 0x34, 0x12, 0xFF, 1, 2, 3, 4]
  sections := []
  imports := []
  metadata := .unknown
  sound := rfl

/-- Both captures read the low bytes of 0x1234, so binding the name to that leaves the match; the second one does not read
those of 0x34. -/
theorem twiceNamed_read :
    let m : Sighting := ⟨1, [("size", 0x34), ("size", 0x1234), ("target", 0x04030201)]⟩
    twiceNamedImage.findSignature twiceNamed 0 20 = some m ∧
    (m.capture? "target").map UInt32.toNat = some (valueAt twiceNamedImage.bytes (1 + 6) 4) ∧
    twiceNamed.offsetOf "target" = some 6 ∧ (m.capture? "source" = none ↔ ¬ twiceNamed.HasCapture "source") ∧
    (∀ c ∈ twiceNamed.captures, c.name = "size" → c.bound = none) ∧
    (twiceNamed.bind "size" 0x1234).Matches twiceNamedImage.bytes 1 ∧
    ¬ (twiceNamed.bind "size" 0x34).Matches twiceNamedImage.bytes 1 := by
  intro m
  have hm : twiceNamedImage.findSignature twiceNamed 0 20 = some m := by decide +kernel
  obtain ⟨hsearch, hbind, -⟩ := captures_exact twiceNamed
  obtain ⟨-, -, hname⟩ := hsearch twiceNamedImage 0 20 m hm
  have hfree : ∀ c ∈ twiceNamed.captures, c.name = "size" → c.bound = none := by decide +kernel
  have hmatches := (Image.findSignature_eq_some_iff.1 hm).2.1.2.2
  have hboth := hbind "size" 0x1234 hfree twiceNamedImage.bytes 1
  have hone := hbind "size" 0x34 hfree twiceNamedImage.bytes 1
  refine ⟨hm, (hname "target").1, by decide +kernel, (hname "source").2.2, hfree, ?_, ?_⟩
  · exact (hboth.2 ⟨⟨by decide +kernel, hmatches⟩, by decide +kernel⟩).2
  · intro h
    exact absurd (hone.1 ⟨by decide +kernel, h⟩).2 (by decide +kernel)

end Signature

end Landmark
