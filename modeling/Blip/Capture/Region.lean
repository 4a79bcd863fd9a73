import Blip.Common.Rounding
import Blip.Common.System
import Mathlib.Tactic.Linarith

/-!
# The recording region

Region mode of `main.rs`: one overlay for each display, whose mouse events create, move and resize a
region, the four number fields, and the two copies of the region, the one that is shown and the one
that a recording captures. Pixels are exact numbers; an overlay covers its display.
-/

namespace Blip.Capture

/-! ## Geometry -/

structure Point where
  x : ℚ
  y : ℚ
deriving DecidableEq

structure Bounds where
  x : ℚ
  y : ℚ
  width : ℚ
  height : ℚ
deriving DecidableEq

namespace Bounds

def left (bounds : Bounds) : ℚ := bounds.x

def right (bounds : Bounds) : ℚ := bounds.x + bounds.width

def top (bounds : Bounds) : ℚ := bounds.y

def bottom (bounds : Bounds) : ℚ := bounds.y + bounds.height

def center (bounds : Bounds) : Point where
  x := bounds.x + bounds.width / 2
  y := bounds.y + bounds.height / 2

def contains (bounds : Bounds) (point : Point) : Bool :=
  bounds.x ≤ point.x && point.x < bounds.x + bounds.width && bounds.y ≤ point.y &&
    point.y < bounds.y + bounds.height

end Bounds

/-- The size of an overlay's window. -/
structure Viewport where
  width : ℕ
  height : ℕ
deriving DecidableEq

def normalizedBounds (a b : Point) : Bounds where
  x := min a.x b.x
  y := min a.y b.y
  width := |a.x - b.x|
  height := |a.y - b.y|

def roundedBounds (bounds : Bounds) : Bounds where
  x := f64Round bounds.x
  y := f64Round bounds.y
  width := f64Round bounds.width
  height := f64Round bounds.height

def movedBounds (original : Bounds) (pointer pointerStart : Point) (viewport : Viewport) : Bounds :=
  let maxX := max (viewport.width - original.width) 0
  let maxY := max (viewport.height - original.height) 0
  { original with
    x := min (max (original.x + pointer.x - pointerStart.x) 0) maxX
    y := min (max (original.y + pointer.y - pointerStart.y) 0) maxY }

inductive ResizeHandle
  | topLeft
  | top
  | topRight
  | right
  | bottomRight
  | bottom
  | bottomLeft
  | left
deriving DecidableEq

def regionHandlePoints (bounds : Bounds) : List (ResizeHandle × Point) :=
  let center := bounds.center
  [(.topLeft, ⟨bounds.left, bounds.top⟩), (.top, ⟨center.x, bounds.top⟩),
    (.topRight, ⟨bounds.right, bounds.top⟩), (.right, ⟨bounds.right, center.y⟩),
    (.bottomRight, ⟨bounds.right, bounds.bottom⟩), (.bottom, ⟨center.x, bounds.bottom⟩),
    (.bottomLeft, ⟨bounds.left, bounds.bottom⟩), (.left, ⟨bounds.left, center.y⟩)]

def regionHandleAt (position : Point) (bounds : Bounds) : Option ResizeHandle :=
  ((regionHandlePoints bounds).find? fun handle =>
    |position.x - handle.2.x| ≤ 9 && |position.y - handle.2.y| ≤ 9).map Prod.fst

/-- The smallest width and height of a region that is dragged. -/
def minimum : ℚ := 16

def resizedBounds (original : Bounds) (handle : ResizeHandle) (pointer pointerStart : Point)
    (viewport : Viewport) : Bounds :=
  let deltaX := pointer.x - pointerStart.x
  let deltaY := pointer.y - pointerStart.y
  let left :=
    if handle ∈ [.topLeft, .left, .bottomLeft] then
      min (max (original.left + deltaX) 0) (original.right - minimum)
    else original.left
  let right :=
    if handle ∈ [.topRight, .right, .bottomRight] then
      min (max (original.right + deltaX) (left + minimum)) viewport.width
    else original.right
  let top :=
    if handle ∈ [.topLeft, .top, .topRight] then
      min (max (original.top + deltaY) 0) (original.bottom - minimum)
    else original.top
  let bottom :=
    if handle ∈ [.bottomLeft, .bottom, .bottomRight] then
      min (max (original.bottom + deltaY) (top + minimum)) viewport.height
    else original.bottom
  { x := left
    y := top
    width := right - left
    height := bottom - top }

/-! ## The application and its overlays -/

inductive Mode
  | display
  | window
  | region
deriving DecidableEq

inductive RegionDrag
  | create (start : Point)
  | move (pointerStart : Point) (original : Bounds)
  | resize (handle : ResizeHandle) (pointerStart : Point) (original : Bounds)
deriving DecidableEq

structure Display where
  id : ℕ
  logicalSize : Viewport
deriving DecidableEq

/-- The overlay of a display, with the mode it was last rendered in. -/
structure SelectionOverlay where
  mode : Option Mode
  display : Display
  regionDrag : Option RegionDrag
deriving DecidableEq

/-- A display and the region on it. -/
abbrev RegionSelection := ℕ × Bounds

/-- The parts of the application that region mode uses: `region` is what a recording captures, and
`selection` what the overlays show. -/
structure RegionApp where
  displays : List Display
  mode : Option Mode
  region : Option RegionSelection
  selection : Option RegionSelection
  overlays : List SelectionOverlay
deriving DecidableEq

inductive RegionField
  | x
  | y
  | width
  | height
deriving DecidableEq

namespace RegionApp

def setDrag (app : RegionApp) (index : ℕ) (drag : Option RegionDrag) : RegionApp :=
  { app with overlays := app.overlays.modify index fun overlay => { overlay with regionDrag := drag } }

def selectRegion (app : RegionApp) (displayId : ℕ) (bounds : Bounds) : RegionApp :=
  { app with
    region := some (displayId, bounds)
    selection := some (displayId, bounds) }

/-- The region that the overlay shows. -/
def existing (app : RegionApp) (overlay : SelectionOverlay) : Option Bounds :=
  app.selection.bind fun (displayId, bounds) =>
    if displayId = overlay.display.id then some bounds else none

/-- What a mouse down begins, where a region is shown or not. -/
def beginDrag (position : Point) : Option Bounds → RegionDrag
  | none => .create position
  | some original =>
    match regionHandleAt position original with
    | some handle => .resize handle position original
    | none => if original.contains position then .move position original else .create position

def beginRegion (app : RegionApp) (index : ℕ) (overlay : SelectionOverlay) (position : Point) :
    RegionApp :=
  if app.mode ≠ some .region then app
  else
    let drag := beginDrag position (app.existing overlay)
    let app := app.setDrag index (some drag)
    match drag with
    | .create _ => { app with selection := none }
    | _ => app

/-- The region that a drag makes with the pointer at a position. -/
def draggedBounds (operation : RegionDrag) (position : Point) (viewport : Viewport) : Bounds :=
  roundedBounds <|
    match operation with
    | .create start => normalizedBounds start position
    | .move pointerStart original => movedBounds original position pointerStart viewport
    | .resize handle pointerStart original =>
      resizedBounds original handle position pointerStart viewport

def dragRegion (app : RegionApp) (overlay : SelectionOverlay) (position : Point) : RegionApp :=
  match overlay.regionDrag with
  | none => app
  | some operation =>
    { app with selection := some (overlay.display.id,
        draggedBounds operation position overlay.display.logicalSize) }

def finishRegion (app : RegionApp) (index : ℕ) (overlay : SelectionOverlay) : RegionApp :=
  match overlay.regionDrag with
  | none => app
  | some _ =>
    let app := app.setDrag index none
    match app.selection with
    | none => app
    | some (displayId, bounds) =>
      let bounds := roundedBounds bounds
      if bounds.width < minimum ∨ bounds.height < minimum then { app with selection := none }
      else app.selectRegion displayId bounds

/-- The region with one of its numbers set, within a display. -/
def withField (bounds : Bounds) (size : Viewport) (field : RegionField) (value : ℚ) : Bounds :=
  let value : ℚ := f64Round value
  match field with
  | .x => { bounds with x := min (max value 0) (max (size.width - bounds.width) 0) }
  | .y => { bounds with y := min (max value 0) (max (size.height - bounds.height) 0) }
  | .width => { bounds with width := min (max value 1) (max (size.width - bounds.x) 1) }
  | .height => { bounds with height := min (max value 1) (max (size.height - bounds.y) 1) }

def setRegionField (app : RegionApp) (overlay : SelectionOverlay) (field : RegionField) (value : ℚ) :
    RegionApp :=
  match app.selection with
  | none => app
  | some (displayId, bounds) =>
    let size := overlay.display.logicalSize
    -- sizes that are not an `i32`
    if 2 ^ 31 ≤ size.width ∨ 2 ^ 31 ≤ size.height then app
    else app.selectRegion displayId (withField bounds size field value)

/-- New overlays, one for each display. -/
def openSelectionWindows (app : RegionApp) : RegionApp :=
  { app with overlays := app.displays.map fun display =>
      { mode := app.mode
        display
        regionDrag := none } }

def closeSelectionWindows (app : RegionApp) : RegionApp := { app with overlays := [] }

def setMode (app : RegionApp) (mode : Mode) : RegionApp :=
  if app.mode = some mode then
    closeSelectionWindows { app with
      mode := none
      region := none
      selection := none }
  else
    let app := { app with
      mode := some mode
      region := none
      selection := none }
    if app.overlays = [] then app.openSelectionWindows else app

def selectDisplay (app : RegionApp) : RegionApp :=
  { app with
    region := none
    selection := none }

def escape (app : RegionApp) : RegionApp :=
  match app.mode with
  | none => app
  | some _ =>
    closeSelectionWindows { app with
      mode := none
      region := none
      selection := none }

/-- The mode an overlay sees when it is rendered; a drag ends when the mode is another. -/
def render (app : RegionApp) (index : ℕ) : RegionApp :=
  { app with overlays := app.overlays.modify index fun overlay =>
      if app.mode ≠ overlay.mode then
        { overlay with
          mode := app.mode
          regionDrag := none }
      else overlay }

end RegionApp

inductive RegionEvent
  | mouseDown (overlay : ℕ) (position : Point)
  | mouseMove (overlay : ℕ) (position : Point)
  | mouseUp (overlay : ℕ)
  | setField (overlay : ℕ) (field : RegionField) (value : ℚ)
  | setMode (mode : Mode)
  | selectDisplay
  | escape
  | render (overlay : ℕ)
  /-- The overlays are closed, for a recording or for the profile settings. -/
  | closeOverlays
  | openOverlays

namespace RegionApp

/-- An event for an overlay reaches it in region mode. -/
def onOverlay (app : RegionApp) (index : ℕ) (handle : SelectionOverlay → RegionApp) : RegionApp :=
  match app.overlays[index]? with
  | none => app
  | some overlay => if overlay.mode = some .region then handle overlay else app

def step (app : RegionApp) : RegionEvent → RegionApp
  | .mouseDown index position =>
    app.onOverlay index fun overlay => app.beginRegion index overlay position
  | .mouseMove index position => app.onOverlay index fun overlay => app.dragRegion overlay position
  | .mouseUp index => app.onOverlay index fun overlay => app.finishRegion index overlay
  | .setField index field value =>
    -- the fields are shown with the region
    app.onOverlay index fun overlay =>
      if (app.existing overlay).isSome then app.setRegionField overlay field value else app
  | .setMode mode => app.setMode mode
  | .selectDisplay => app.selectDisplay
  | .escape => app.escape
  | .render index => app.render index
  | .closeOverlays => app.closeSelectionWindows
  | .openOverlays => app.openSelectionWindows

end RegionApp

/-- The application from its start, on displays with distinct ids. -/
def regionSystem (displays : List Display) : System RegionApp RegionEvent where
  init app := (displays.map Display.id).Nodup ∧ app = {
    displays
    mode := none
    region := none
    selection := none
    overlays := [] }
  step app event app' := app' = app.step event

end Blip.Capture
