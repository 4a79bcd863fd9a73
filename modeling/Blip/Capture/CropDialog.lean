import Blip.Capture.ContentRects
import Blip.Capture.Region

/-!
# The crop dialog

The draft of the crop and the drag that changes it. A press begins to resize, to move or to create a crop;
each drag computes a new draft from the one the press found, and normalizes it. The dialog's buttons reset
the draft, and store it.

A crop begun at the far edges of the preview is smaller than a crop is to be until it is dragged. A press
that finds such a draft leads to a clamp with an empty range, so the runs that keep the draft in order are
those that drag it first.
-/

namespace Blip.Capture

inductive CropResizeHandle
  | topLeft
  | top
  | topRight
  | right
  | bottomRight
  | bottom
  | bottomLeft
  | left
deriving DecidableEq, Repr

namespace CropResizeHandle

def atLeft : CropResizeHandle → Bool
  | .topLeft | .left | .bottomLeft => true
  | _ => false

def atRight : CropResizeHandle → Bool
  | .topRight | .right | .bottomRight => true
  | _ => false

def atTop : CropResizeHandle → Bool
  | .topLeft | .top | .topRight => true
  | _ => false

def atBottom : CropResizeHandle → Bool
  | .bottomLeft | .bottom | .bottomRight => true
  | _ => false

end CropResizeHandle

inductive CropDrag
  | create (start : ℚ × ℚ)
  | move (pointerStart : ℚ × ℚ) (original : ScreenCrop)
  | resize (handle : CropResizeHandle) (original : ScreenCrop)
deriving DecidableEq, Repr

/-- The editor's part in the dialog. -/
structure CropDialog where
  screenCrop : Option ScreenCrop
  cropDraft : ScreenCrop
  cropDrag : Option CropDrag
  cropPreviewBounds : Bounds
deriving DecidableEq

inductive CropEvent
  | paint (bounds : Bounds)
  | mouseDown (position : Point)
  | mouseMove (position : Point)
  | mouseUp
  | openDialog
  | reset
  | apply
  | close

/-! ## The functions of a crop -/

def cropContains (crop : ScreenCrop) (point : ℚ × ℚ) : Bool :=
  crop.position.1 ≤ point.1 && point.1 ≤ crop.position.1 + crop.size.1 &&
    crop.position.2 ≤ point.2 && point.2 ≤ crop.position.2 + crop.size.2

def cropHandlePoints : List (CropResizeHandle × (ℚ × ℚ)) :=
  [(.topLeft, (0, 0)), (.top, (0.5, 0)), (.topRight, (1, 0)), (.right, (1, 0.5)),
    (.bottomRight, (1, 1)), (.bottom, (0.5, 1)), (.bottomLeft, (0, 1)), (.left, (0, 0.5))]

/-- `crop_handle_at`: the first handle within ten pixels. -/
def cropHandleAt (position : Point) (viewport : Bounds) (crop : ScreenCrop) :
    Option CropResizeHandle :=
  if viewport.width ≤ 0 ∨ viewport.height ≤ 0 then none
  else (cropHandlePoints.find? fun handle =>
    let x := viewport.x + viewport.width * (crop.position.1 + crop.size.1 * handle.2.1)
    let y := viewport.y + viewport.height * (crop.position.2 + crop.size.2 * handle.2.2)
    |position.x - x| ≤ 10 && |position.y - y| ≤ 10).map Prod.fst

/-- The range of `resized_screen_crop` along an axis, as position and size. -/
def resizedCropAxis (atLow atHigh : Bool) (position size pointer : ℚ) : Option (ℚ × ℚ) := do
  let low ← if atLow then clampChecked 0 (position + size - 0.01) pointer else some position
  let high ← if atHigh then clampChecked (low + 0.01) 1 pointer else some (position + size)
  some (low, high - low)

/-- `resized_screen_crop`. -/
def resizedScreenCrop (original : ScreenCrop) (handle : CropResizeHandle) (pointer : ℚ × ℚ) :
    Option ScreenCrop := do
  let horizontal ← resizedCropAxis handle.atLeft handle.atRight original.position.1 original.size.1
    pointer.1
  let vertical ← resizedCropAxis handle.atTop handle.atBottom original.position.2 original.size.2 pointer.2
  some
    { position := (horizontal.1, vertical.1)
      size := (horizontal.2, vertical.2) }

/-- The crop that a drag makes of the pointer. -/
def CropDrag.crop (current : ℚ × ℚ) : CropDrag → Option ScreenCrop
  | .create start => some
    { position := (min start.1 current.1, min start.2 current.2)
      size := (max |start.1 - current.1| 0.01, max |start.2 - current.2| 0.01) }
  | .move pointerStart original => do
    let x ← clampChecked 0 (1 - original.size.1) (original.position.1 + current.1 - pointerStart.1)
    let y ← clampChecked 0 (1 - original.size.2) (original.position.2 + current.2 - pointerStart.2)
    some { original with position := (x, y) }
  | .resize handle original => resizedScreenCrop original handle current

/-- The crop that a press begins outside the draft. -/
def begunCrop (start : ℚ × ℚ) : ScreenCrop where
  position := start
  size := (min 0.01 (1 - start.1), min 0.01 (1 - start.2))

/-- `normalize_screen_crop`, with the full screen for none. -/
def ScreenCrop.normalized (crop : ScreenCrop) : ScreenCrop :=
  (normalizeScreenCrop (some crop.stored)).getD .full

/-! ## The handlers -/

namespace CropDialog

variable (dialog : CropDialog)

/-- `crop_position_at`. -/
def cropPositionAt (position : Point) : Option (ℚ × ℚ) :=
  let bounds := dialog.cropPreviewBounds
  if bounds.width ≤ 0 ∨ bounds.height ≤ 0 then none
  else some (clampSecs 0 1 ((position.x - bounds.x) / bounds.width),
    clampSecs 0 1 ((position.y - bounds.y) / bounds.height))

/-- `begin_screen_crop`. -/
def beginScreenCrop (position : Point) : CropDialog :=
  match dialog.cropPositionAt position with
  | none => dialog
  | some start =>
    match cropHandleAt position dialog.cropPreviewBounds dialog.cropDraft with
    | some handle => { dialog with cropDrag := some (.resize handle dialog.cropDraft) }
    | none =>
      if cropContains dialog.cropDraft start then
        { dialog with cropDrag := some (.move start dialog.cropDraft) }
      else
        { dialog with
          cropDraft := begunCrop start
          cropDrag := some (.create start) }

/-- `drag_screen_crop`; `none` is a panic. -/
def dragScreenCrop (position : Point) : Option CropDialog :=
  match dialog.cropDrag with
  | none => some dialog
  | some operation =>
    match dialog.cropPositionAt position with
    | none => some dialog
    | some current =>
      (operation.crop current).map fun crop => { dialog with cropDraft := crop.normalized }

def step : CropEvent → Option CropDialog
  | .paint bounds => some { dialog with cropPreviewBounds := bounds }
  | .mouseDown position => some (dialog.beginScreenCrop position)
  | .mouseMove position => dialog.dragScreenCrop position
  | .mouseUp => some { dialog with cropDrag := none }
  | .openDialog => some
    { dialog with
      cropDraft := dialog.screenCrop.getD .full
      cropDrag := none }
  | .reset => some { dialog with cropDraft := .full }
  | .apply => some
    { dialog with
      screenCrop := normalizeScreenCrop (some dialog.cropDraft.stored)
      cropDrag := none }
  | .close => some { dialog with cropDrag := none }

/-- The editor as it is loaded, with any stored crop. -/
def loaded (stored : Option StoredCrop) (bounds : Bounds) : CropDialog where
  screenCrop := normalizeScreenCrop stored
  cropDraft := (normalizeScreenCrop stored).getD .full
  cropDrag := none
  cropPreviewBounds := bounds

end CropDialog

/-- The dialog: an event whose handler panics has no step. -/
def cropDialog : System CropDialog CropEvent where
  init := fun dialog => ∃ stored bounds, dialog = .loaded stored bounds
  step := fun dialog event dialog' => dialog.step event = some dialog'

end Blip.Capture
