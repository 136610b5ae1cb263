import DecoderId.Image

/-!
# Overlays

A simulated decoder as the command line describes it: an image, or none, and
assignments that replace single CVs of it. The last assignment of a CV counts.
-/

namespace DecoderId.Overlay

/-- A decoder with one assignment, as a text, applied. -/
def apply (d : Simulator) (raw : Text) : Except Fault Simulator :=
  (Assignment.parse raw).map fun a => d.setSeries a.cv.number ⟨a.value.val, []⟩

/-- The decoder below the assignments. -/
def base (room : Nat) (disk : Disk) : Option Path → Except Fault Simulator
  | none => .ok { source := "<command line>" }
  | some path => Image.load room disk path

/-- The decoder that an image and assignments describe, and what is noted on the way. -/
def build (room : Nat) (disk : Disk) (image : Option Path) (assignments : List Text) :
    List Note × Except Fault Simulator :=
  match base room disk image with
  | .error f => ([], .error f)
  | .ok d => ([d.loaded], assignments.foldlM apply d)

end DecoderId.Overlay
