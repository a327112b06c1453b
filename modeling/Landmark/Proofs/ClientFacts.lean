/-
What the facts about a client depend on, and what computing them leaves on record.

Every search adds to the record, but no search looks at it, so what is found depends on what the searches answer alone.
- `Scan.Same`: two computations find the same, whatever is on record; kept by sequencing.
- `ClientFacts.same_survey`: so do the surveys of all facts on two images, if their searches answer alike.
- `ClientFacts.steady_survey`: in particular, on one image with two records.
- `Scan.Grows`: nothing is taken off the record; kept by sequencing.
- `ClientFacts.texts_lt_survey`: no facts are computed without a text search.
-/
import Landmark.ClientFacts

namespace Landmark

namespace Scan

/-- both find the same, whatever is on record -/
def Same {α : Type} (s s' : Scan α) : Prop :=
  ∀ log log', (s.run log).1 = (s'.run log').1

/-- no text search is taken off the record -/
def Grows {α : Type} (s : Scan α) : Prop :=
  ∀ log, log.texts ≤ (s.run log).2.texts

variable {α β : Type}

theorem same_pure (a : α) : Same (pure a) (pure a) := fun _ _ => rfl

theorem Same.bind {s s' : Scan α} {f f' : α → Scan β} (hs : Same s s') (hf : ∀ a, Same (f a) (f' a)) :
    Same (s >>= f) (s' >>= f') := by
  intro log log'
  calc ((s >>= f).run log).1
    _ = ((f (s.run log).1).run (s.run log).2).1 := rfl
    _ = ((f (s'.run log').1).run (s.run log).2).1 := by rw [hs log log']
    _ = ((f' (s'.run log').1).run (s'.run log').2).1 := hf _ _ _
    _ = ((s' >>= f').run log').1 := rfl

theorem same_text {A B : Image} {needle : List UInt8} {q : TextQuery}
    (h : A.findText needle q = B.findText needle q) : Same (text A needle q) (text B needle q) :=
  fun _ _ => h

theorem same_signatureIn {A B : Image} {sig : Signature} {start stop : UInt32}
    (h : A.findSignature sig start stop = B.findSignature sig start stop) :
    Same (signatureIn A sig start stop) (signatureIn B sig start stop) :=
  fun _ _ => h

theorem grows_pure (a : α) : Grows (pure a) := fun _ => Nat.le_refl _

theorem Grows.bind {s : Scan α} {f : α → Scan β} (hs : Grows s) (hf : ∀ a, Grows (f a)) : Grows (s >>= f) := by
  intro log
  calc log.texts
    _ ≤ (s.run log).2.texts := hs log
    _ ≤ ((f (s.run log).1).run (s.run log).2).2.texts := hf _ _
    _ = ((s >>= f).run log).2.texts := rfl

theorem grows_text {image : Image} {needle : List UInt8} {q : TextQuery} : Grows (text image needle q) :=
  fun log => Nat.le_succ log.texts

theorem grows_signatureIn {image : Image} {sig : Signature} {start stop : UInt32} :
    Grows (signatureIn image sig start stop) :=
  fun _ => Nat.le_refl _

/-- what begins with a text search leaves one more on record -/
theorem texts_lt_text_bind {image : Image} {needle : List UInt8} {q : TextQuery} {f : Option UInt32 → Scan β}
    (hf : ∀ r, Grows (f r)) (log : ScanLog) : log.texts < ((text image needle q >>= f).run log).2.texts := by
  have hrest := hf (image.findText needle q) { log with texts := log.texts + 1 }
  calc log.texts
    _ < log.texts + 1 := Nat.lt_succ_self _
    _ ≤ ((f (image.findText needle q)).run { log with texts := log.texts + 1 }).2.texts := hrest
    _ = ((text image needle q >>= f).run log).2.texts := rfl

end Scan

namespace ClientFacts

open Scan

variable {A B : Image} {t : Thresholds}

theorem same_detectFramePointer (hwindow : prologueWindow A t = prologueWindow B t)
    (hfind : ∀ sig, A.findSignature sig (prologueWindow A t).1 (prologueWindow A t).2 =
      B.findSignature sig (prologueWindow A t).1 (prologueWindow A t).2) :
    Same (detectFramePointer A t) (detectFramePointer B t) := by
  unfold detectFramePointer
  rw [← hwindow]
  refine (same_signatureIn (hfind _)).bind fun r => ?_
  cases r with
  | some _ => exact same_pure _
  | none => exact (same_signatureIn (hfind _)).bind fun _ => same_pure _

theorem same_locateKernel32 (htext : ∀ needle q, A.findText needle q = B.findText needle q) :
    Same (locateKernel32 A) (locateKernel32 B) := by
  unfold locateKernel32
  refine (same_text (htext _ _)).bind fun r => ?_
  cases r with
  | some _ => exact same_pure _
  | none => exact same_text (htext _ _)

theorem same_locateClientInfo (hmetadata : A.metadata = B.metadata)
    (htext : ∀ needle q, A.findText needle q = B.findText needle q) :
    Same (locateClientInfo A t) (locateClientInfo B t) := by
  unfold locateClientInfo
  rw [← hmetadata]
  split
  · exact same_pure _
  · refine (same_text (htext _ _)).bind fun r => ?_
    cases r with
    | some _ => exact same_pure _
    | none => exact (same_text (htext _ _)).bind fun _ => same_pure _

/-- **Images that answer searches alike have the same facts.** -/
theorem same_survey (hmetadata : A.metadata = B.metadata)
    (htext : ∀ needle q, A.findText needle q = B.findText needle q)
    (hwindow : prologueWindow A t = prologueWindow B t)
    (hfind : ∀ sig, A.findSignature sig (prologueWindow A t).1 (prologueWindow A t).2 =
      B.findSignature sig (prologueWindow A t).1 (prologueWindow A t).2) : Same (survey A t) (survey B t) := by
  unfold survey
  rw [← hmetadata]
  refine (same_text (htext _ _)).bind fun _ => (same_text (htext _ _)).bind fun _ => ?_
  refine (same_detectFramePointer hwindow hfind).bind fun _ => ?_
  refine (same_text (htext _ _)).bind fun _ => (same_text (htext _ _)).bind fun _ => ?_
  refine (same_text (htext _ _)).bind fun _ => (same_locateKernel32 htext).bind fun _ => ?_
  exact (same_locateClientInfo hmetadata htext).bind fun _ => same_pure _

/-- **The facts do not depend on what was searched before.** -/
theorem steady_survey (image : Image) (t : Thresholds) : Same (survey image t) (survey image t) :=
  same_survey rfl (fun _ _ => rfl) rfl fun _ => rfl

/-! ## On record -/

theorem grows_detectFramePointer (image : Image) (t : Thresholds) : Grows (detectFramePointer image t) := by
  unfold detectFramePointer
  refine .bind grows_signatureIn fun r => ?_
  cases r with
  | some _ => exact grows_pure _
  | none => exact .bind grows_signatureIn fun _ => grows_pure _

theorem grows_locateKernel32 (image : Image) : Grows (locateKernel32 image) := by
  unfold locateKernel32
  refine .bind grows_text fun r => ?_
  cases r with
  | some _ => exact grows_pure _
  | none => exact grows_text

theorem grows_locateClientInfo (image : Image) (t : Thresholds) : Grows (locateClientInfo image t) := by
  unfold locateClientInfo
  split
  · exact grows_pure _
  · refine .bind grows_text fun r => ?_
    cases r with
    | some _ => exact grows_pure _
    | none => exact .bind grows_text fun _ => grows_pure _

/-- **Nobody computes the facts without a text search**: the first one is made whatever the image is. -/
theorem texts_lt_survey (image : Image) (t : Thresholds) (log : ScanLog) :
    log.texts < ((survey image t).run log).2.texts := by
  unfold survey
  refine texts_lt_text_bind (fun _ => ?_) log
  refine .bind grows_text fun _ => .bind (grows_detectFramePointer image t) fun _ => ?_
  refine .bind grows_text fun _ => .bind grows_text fun _ => .bind grows_text fun _ => ?_
  exact .bind (grows_locateKernel32 image) fun _ => .bind (grows_locateClientInfo image t) fun _ => grows_pure _

end ClientFacts

end Landmark
