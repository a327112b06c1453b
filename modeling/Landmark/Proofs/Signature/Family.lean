/-
Signatures that read which code of a family they have found.

A family gives a kind of code for every member, such as MOV ECX with a value for every value. A signature `Reads` a family if
it accepts the code of all members and has a capture where a value of the member is. A search for it then finds the first code
of the family (`FirstMember`), and the capture tells the value of the member that is there.
- `capture?_of_codeAt`: what the capture tells.
- `exists_firstMember`, `exists_sighting`, `eq_none_iff`: what the search finds, and when it finds nothing.
- `firstMember_iff`: both together, for families in which the value is the member.
-/
import Landmark.Proofs.Signature.Capture
import Landmark.Proofs.Signature.Language

namespace Landmark

open Segment

variable {α : Type}

namespace Image

/-- the code from `i` to `j` is the first one of the family that lies wholly in the window, and it is that of this member -/
structure FirstMember (image : Image) (kind : α → List UInt8 → Prop) (start stop : Nat) (a : α) (i j : Nat) : Prop where
  first : image.FirstCode (fun bs => ∃ a, kind a bs) start stop i j
  code : image.CodeAt (kind a) i j

/-- no code of the family lies wholly in the window -/
def Lacks (image : Image) (kind : α → List UInt8 → Prop) (start stop : Nat) : Prop :=
  ∀ a i j, start ≤ i → j ≤ stop → ¬ image.CodeAt (kind a) i j

/-- the first code of the family in the code is at `i`, and it is that of this member -/
def FirstMemberInCode (image : Image) (kind : α → List UInt8 → Prop) (a : α) (i : Nat) : Prop :=
  ∃ j, image.FirstMember kind image.codeRange.1.toNat image.codeRange.2.toNat a i j

/-- no code of the family lies in the code -/
def LacksInCode (image : Image) (kind : α → List UInt8 → Prop) : Prop :=
  image.Lacks kind image.codeRange.1.toNat image.codeRange.2.toNat

theorem codeAt_exists_iff {image : Image} {kind : α → List UInt8 → Prop} {i j : Nat} :
    image.CodeAt (fun bs => ∃ a, kind a bs) i j ↔ ∃ a, image.CodeAt (kind a) i j := by
  constructor
  · rintro ⟨bs, ⟨a, ha⟩, hend, hstands⟩
    exact ⟨a, bs, ha, hend, hstands⟩
  · rintro ⟨a, bs, ha, hend, hstands⟩
    exact ⟨bs, ⟨a, ha⟩, hend, hstands⟩

theorem FirstMember.not_lacks {image : Image} {kind : α → List UInt8 → Prop} {start stop : Nat} {a : α} {i j : Nat}
    (h : image.FirstMember kind start stop a i j) : ¬ image.Lacks kind start stop :=
  fun hlacks => hlacks a i j h.first.start_le h.first.le_stop h.code

end Image

namespace Signature

/-- the signature accepts just the code of the family's members, and captures under that name a value of the member -/
structure Reads (sig : Signature) (name : String) (kind : α → List UInt8 → Prop) (value : α → UInt32) : Prop where
  size_pos : 0 < sig.size
  accepts_iff : ∀ bs, sig.Accepts bs ↔ ∃ a, kind a bs
  captured : ∃ c, sig.captures.find? (·.name == name) = some c ∧ c.width = .dword ∧
    ∀ a bs, kind a bs → ∃ before after, bs = before ++ (Word.bytes (value a) ++ after) ∧ before.length = c.position

namespace Reads

variable {image : Image} {sig : Signature} {name : String} {kind : α → List UInt8 → Prop} {value : α → UInt32}
  {start stop : UInt32} {m : Sighting} {a : α} {i j : Nat}

/-- the capture tells the value of the member that was found -/
theorem capture?_of_codeAt (h : sig.Reads name kind value) (hm : image.findSignature sig start stop = some m)
    (hcode : image.CodeAt (kind a) m.offset.toNat j) : m.capture? name = some (value a) := by
  obtain ⟨c, hc, hwidth, hplace⟩ := h.captured
  obtain ⟨bs, hbs, -, hstands⟩ := hcode
  obtain ⟨before, after, rfl, hlength⟩ := hplace a bs hbs
  rw [standsAt_append, standsAt_append, hlength] at hstands
  exact capture?_of_standsAt hm hc hwidth hstands.2.1

/-- what is found is a member -/
theorem exists_firstMember (h : sig.Reads name kind value) (hm : image.findSignature sig start stop = some m) :
    ∃ a, image.FirstMember kind start.toNat stop.toNat a m.offset.toNat (m.stop sig).toNat := by
  have hfirst := (Image.firstCode_iff h.accepts_iff h.size_pos).2 ⟨m, hm, rfl, rfl⟩
  obtain ⟨a, hcode⟩ := Image.codeAt_exists_iff.1 hfirst.code
  exact ⟨a, hfirst, hcode⟩

/-- and the first member is found -/
theorem exists_sighting (h : sig.Reads name kind value)
    (hmember : image.FirstMember kind start.toNat stop.toNat a i j) :
    ∃ m, image.findSignature sig start stop = some m ∧ m.offset.toNat = i ∧ (m.stop sig).toNat = j ∧
      m.capture? name = some (value a) := by
  obtain ⟨m, hm, rfl, hj⟩ := (Image.firstCode_iff h.accepts_iff h.size_pos).1 hmember.first
  exact ⟨m, hm, rfl, hj, h.capture?_of_codeAt hm hmember.code⟩

theorem eq_none_iff (h : sig.Reads name kind value) :
    image.findSignature sig start stop = none ↔ image.Lacks kind start.toNat stop.toNat := by
  constructor
  · intro hnone a i j hi hj hcode
    have hfinds := image.finds_findSignature sig h.size_pos start stop
    have hany : image.CodeAt (fun bs => ∃ a, kind a bs) i j := Image.codeAt_exists_iff.2 ⟨a, hcode⟩
    obtain rfl := hany.end_eq h.accepts_iff
    obtain ⟨hroom, hmatches⟩ := (Image.codeAt_iff_matches h.accepts_iff h.size_pos).1 hany
    rw [hnone] at hfinds
    exact hfinds i hi ⟨Nat.le_min.2 ⟨hj, hroom⟩, hmatches⟩
  · intro hlacks
    refine Option.eq_none_iff_forall_ne_some.2 fun m hm => ?_
    obtain ⟨a, hmember⟩ := h.exists_firstMember hm
    exact hmember.not_lacks hlacks

theorem findInCode_eq_none_iff (h : sig.Reads name kind value) :
    image.findInCode sig = none ↔ image.LacksInCode kind :=
  h.eq_none_iff

/-- **A search finds the first code of the family**, and where the value is the member itself, the capture tells it. -/
theorem firstMember_iff {kind : UInt32 → List UInt8 → Prop} {v : UInt32} (h : sig.Reads name kind id) :
    image.FirstMember kind start.toNat stop.toNat v i j ↔
      ∃ m, image.findSignature sig start stop = some m ∧ m.offset.toNat = i ∧ (m.stop sig).toNat = j ∧
        m.capture? name = some v := by
  constructor
  · exact h.exists_sighting
  · rintro ⟨m, hm, rfl, rfl, hv⟩
    obtain ⟨w, hmember⟩ := h.exists_firstMember hm
    obtain rfl : w = v := Option.some.inj ((h.capture?_of_codeAt hm hmember.code).symm.trans hv)
    exact hmember

theorem firstMemberInCode_iff {kind : UInt32 → List UInt8 → Prop} {v : UInt32} (h : sig.Reads name kind id) :
    image.FirstMemberInCode kind v i ↔
      ∃ m, image.findInCode sig = some m ∧ m.offset.toNat = i ∧ m.capture? name = some v := by
  constructor
  · rintro ⟨j, hmember⟩
    obtain ⟨m, hm, hi, -, hv⟩ := h.firstMember_iff.1 hmember
    exact ⟨m, hm, hi, hv⟩
  · rintro ⟨m, hm, hi, hv⟩
    exact ⟨_, h.firstMember_iff.2 ⟨m, hm, hi, rfl, hv⟩⟩

end Reads

end Signature

end Landmark
