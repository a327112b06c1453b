/-
Facts about a client as a whole.

Every finder needs some of them: the variant of the client, the name of its data archive, whether its code sets up frame
pointers. They depend on the image and the thresholds alone. Build dates are compared as numbers.
-/
import Landmark.Machine.Instruction
import Landmark.Report
import Landmark.Scan
import Landmark.Text.Korean
import Landmark.Text.PathName
import Landmark.Thresholds

namespace Landmark

/-- kind of game a client is for -/
inductive Variant where
  | main
  | renewal
  | zero
  deriving DecidableEq, Repr

def Variant.name : Variant → String
  | .main => "Main"
  | .renewal => "Renewal"
  | .zero => "Zero"

/-- bytes of the path of the roulette icon, whose first folder is Korean -/
def rouletteIcon : List UInt8 :=
  Korean.encode "유저인터페이스\\basic_interface\\roullette\\RoulletteIcon.bmp"

structure ClientFacts where
  metadata : Metadata
  thresholds : Thresholds
  /-- physical offset of rdata.grf -/
  rdataGrf : Option UInt32
  isZero : Bool
  hasFramePointer : Bool
  /-- virtual addresses of texts in common use -/
  cashShop : Option UInt32
  roulette : Option UInt32
  adventurerAgency : Option UInt32
  kernel32 : Option UInt32
  /-- name of the client information file, and where it is stored if the client looks it up -/
  clientInfo : String
  clientInfoAddress : Option UInt32

namespace ClientFacts

/-- five paddings and the start of a function that sets up a frame pointer -/
def paddedPrologue (padding : Signature) : Signature :=
  .replicate 5 padding ++ Instruction.framePrologue

/-- window in which such a function is looked for -/
def prologueWindow (image : Image) (t : Thresholds) : UInt32 × UInt32 :=
  let shift := if t.codeShiftAfter < image.metadata.buildDate.value then t.codeShift else 0
  let start := Word.addSat image.codeRange.1 shift
  (start, Word.addSat start t.prologueWindow)

/-- a function that sets up a frame pointer comes right after padding near the start of the code -/
def detectFramePointer (image : Image) (t : Thresholds) : Scan Bool := do
  let (start, stop) := prologueWindow image t
  match ← Scan.signatureIn image (paddedPrologue Instruction.int3) start stop with
  | some _ => return true
  | none => return (← Scan.signatureIn image (paddedPrologue Instruction.nop) start stop).isSome

/-- where the library name is stored: on its own, or else within another text -/
def locateKernel32 (image : Image) : Scan (Option UInt32) := do
  let name := rawText "KERNEL32.dll"
  match ← Scan.text image name TextQuery.plain.anyCase with
  | some v => return some v
  | none => Scan.text image name TextQuery.plain.anyCase.unbounded

/-- name and place of the client information file; early clients do not look it up -/
def locateClientInfo (image : Image) (t : Thresholds) : Scan (String × Option UInt32) := do
  if image.metadata.buildDate.value < t.sakrayClientInfoFrom then return ("clientinfo.xml", none)
  else
    match ← Scan.text image (rawText "sclientinfo.xml") TextQuery.plain.anyCase with
    | some v => return ("sclientinfo.xml", some v)
    | none => return ("clientinfo.xml", ← Scan.text image (rawText "clientinfo.xml") TextQuery.plain.anyCase)

/-- all facts about the client in an image -/
def survey (image : Image) (t : Thresholds) : Scan ClientFacts := do
  let rdataGrf ← Scan.text image (rawText "rdata.grf") TextQuery.plain.physical
  let zeroMark ← Scan.text image (rawText "Software\\Gravity Soft\\RenewSetup Zero")
    TextQuery.plain.physical.unbounded
  let hasFramePointer ← detectFramePointer image t
  let cashShop ← Scan.text image (rawText "NC_CashShop") .plain
  let roulette ← Scan.text image rouletteIcon TextQuery.plain.anyCase
  let adventurerAgency ← Scan.text image (rawText "adventurerAgency") .plain
  let kernel32 ← locateKernel32 image
  let (clientInfo, clientInfoAddress) ← locateClientInfo image t
  return {
    metadata := image.metadata, thresholds := t
    rdataGrf, isZero := zeroMark.isSome
    hasFramePointer, cashShop, roulette, adventurerAgency, kernel32, clientInfo, clientInfoAddress }

/-- build date as a number -/
def date (f : ClientFacts) : UInt32 :=
  f.metadata.buildDate.value

/-- renewal clients have rdata.grf -/
def isRenewal (f : ClientFacts) : Bool :=
  f.rdataGrf.isSome

def isMain (f : ClientFacts) : Bool :=
  !f.isRenewal && !f.isZero

/-- Zero goes before renewal -/
def variant (f : ClientFacts) : Variant :=
  if f.isZero then .zero else if f.isRenewal then .renewal else .main

/-- the data archive has its later name -/
def post2010 (f : ClientFacts) : Bool :=
  f.thresholds.post2010 < f.date

/-- register that stack addresses are counted from -/
def stackRegister (f : ClientFacts) : Register :=
  if f.hasFramePointer then .ebp else .esp

def hasHiddenLogin (f : ClientFacts) : Bool :=
  f.thresholds.hiddenLoginFrom < f.date
    && (f.date < f.thresholds.hiddenLoginUntil || (f.date < f.thresholds.hiddenLoginUntilNonZero && !f.isZero))

def hasPacketKeys (f : ClientFacts) : Bool :=
  f.thresholds.packetKeysFrom ≤ f.date

/-- built with the VC14 tools -/
def isVc14 (f : ClientFacts) : Bool :=
  f.thresholds.vc14Major ≤ f.metadata.linker.major

/-- short texts are compared in parts instead of being pushed -/
def splitsComparisons (f : ClientFacts) : Bool :=
  f.metadata.linker == f.thresholds.splitCompareLinker

/-- virtual address as a report field -/
def virtualField (name : String) (v : Option UInt32) : Field :=
  .optionalAddress name (v.map Address.virt)

/-- the facts as fields of a report -/
def fields (f : ClientFacts) : List Field := [
  .text "base_name" (Text.baseName f.metadata.fileName),
  .text "full_version" f.metadata.linker.text,
  .text "build_date" f.metadata.buildDate.text,
  .text "variant" f.variant.name,
  .optionalAddress "rdata_grf" (f.rdataGrf.map Address.phys),
  .flag "is_renewal" f.isRenewal,
  .flag "is_zero" f.isZero,
  .flag "is_main" f.isMain,
  .flag "post_2010" f.post2010,
  .flag "has_frame_pointer" f.hasFramePointer,
  .text "stack_reg" f.stackRegister.text,
  .flag "has_hidden_login" f.hasHiddenLogin,
  .flag "has_packet_keys" f.hasPacketKeys,
  virtualField "cash_shop" f.cashShop,
  virtualField "roulette" f.roulette,
  virtualField "adventurer_agency" f.adventurerAgency,
  virtualField "kernel32" f.kernel32,
  .text "client_info" f.clientInfo,
  virtualField "client_info_addr" f.clientInfoAddress]

end ClientFacts

end Landmark
