import SFrameRatchet.SFrame

/-! How many leading bytes of a frame stay in the clear (`codec-partial.ts`)
and which wire formats a receiver tries (`worker-frame.ts`). Only VP8 leaves a
prefix that depends on the frame's kind. -/
namespace SFrameRatchet.CodecPartial
open SFrame

inductive Codec where
  | vp8
  | vp9
  | h264
  | av1
  | opus
  deriving DecidableEq, Repr

inductive FrameKind where
  | key
  | inter
  deriving DecidableEq, Repr

def getUnencryptedBytes : Option Codec → Option FrameKind → ℕ
  | some .vp8, some .key => 10
  | some .vp8, _ => 3
  | some .h264, _ => 1
  | some .opus, _ => 1
  | some .vp9, _ => 0
  | some .av1, _ => 0
  | none, _ => 0

/-- A wire format: the length of the clear prefix and the form of the
additional data. -/
structure FormatGuess where
  prefixLen : ℕ
  aadForm : AadForm
  deriving DecidableEq, Repr

/-- The formats to try for a sender whose format is not cached, in order. -/
def formatCandidates (codec : Option Codec) (frameKind : Option FrameKind) : List FormatGuess :=
  match codec with
  | some .vp9 | some .av1 => [⟨0, .header⟩, ⟨1, .canonical⟩, ⟨1, .prefixed⟩, ⟨1, .header⟩]
  | _ =>
    let n := getUnencryptedBytes codec frameKind
    if n = 0 then [⟨0, .header⟩, ⟨0, .canonical⟩]
    else [⟨n, .header⟩, ⟨n, .canonical⟩, ⟨n, .prefixed⟩]

/-- The first candidate is the format that this version's sender writes. -/
theorem formatCandidates_first (codec : Option Codec) (frameKind : Option FrameKind) :
    (formatCandidates codec frameKind).head? = some ⟨getUnencryptedBytes codec frameKind, .header⟩ := by
  rcases codec with _ | (_ | _ | _ | _ | _) <;> rcases frameKind with _ | (_ | _) <;> rfl

end SFrameRatchet.CodecPartial
