import Blip.Capture.RegionBounds
import Mathlib.Data.List.Nodup

/-!
# What region mode keeps

In a run whose steps are `Careful`, every region that is shown lies on its display, and as long as no drag
is in progress it is at least of the minimum size and it is the region that a recording captures. What
the steps of such a run avoid is what the handlers do not check: a region that is created over the edge
of its overlay, a low edge that is dragged half-way between two pixels, a number that makes the region
small, a region that goes without the recording's copy of it, and a drag that is abandoned.
-/

namespace Blip.Capture

/-- The start and the position of a creating drag. -/
def OnOverlay (size : Viewport) (start position : Point) : Prop :=
  start.Within size ∧ position.Within size ∧
    (max start.x position.x = size.width → Int.fract (min start.x position.x) ≠ 1 / 2) ∧
    (max start.y position.y = size.height → Int.fract (min start.y position.y) ≠ 1 / 2)

instance (size : Viewport) (start position : Point) : Decidable (OnOverlay size start position) :=
  inferInstanceAs (Decidable (_ ∧ _))

namespace RegionDrag

/-- What a drag needs of the position it is moved to. -/
def Careful (size : Viewport) (position : Point) : RegionDrag → Prop
  | .create start => OnOverlay size start position
  | .move _ _ => True
  | .resize handle start original =>
    (handle.atLeft → OffHalf original.x original.width (position.delta start).x) ∧
      (handle.atTop → OffHalf original.y original.height (position.delta start).y)

/-- A drag resizes only a region of at least the minimum size. -/
def ResizesLarge : RegionDrag → Prop
  | .resize _ _ original => original.Large
  | _ => True

/-- The region that a drag began with. -/
def original : RegionDrag → Option Bounds
  | .create _ => none
  | .move _ original => some original
  | .resize _ _ original => some original

/-- What a drag keeps of the region that it began with. -/
def Keeps (bounds : Bounds) : RegionDrag → Prop
  | .create _ => True
  | .move _ original => bounds.width = original.width ∧ bounds.height = original.height
  | .resize handle _ original => KeepsEdges handle original bounds

end RegionDrag

/-- A drag whose region lies on the overlay makes one that does, and keeps what it must. -/
theorem fits_dragged {size : Viewport} {operation : RegionDrag} {position : Point}
    (horiginal : ∀ original, operation.original = some original → original.Fits size)
    (hlarge : operation.ResizesLarge) (hcareful : operation.Careful size position) :
    (RegionApp.draggedBounds operation position size).Fits size ∧
      operation.Keeps (RegionApp.draggedBounds operation position size) := by
  cases operation with
  | create start =>
    obtain ⟨hstart, hposition, hx, hy⟩ := hcareful
    exact ⟨fits_create hstart hposition hx hy, trivial⟩
  | move start original => exact fits_move (horiginal original rfl) position start
  | resize handle start original =>
    exact fits_resize (horiginal original rfl) hlarge handle hcareful.1 hcareful.2

namespace RegionApp

/-- No drag is in progress. -/
def Idle (app : RegionApp) : Prop := ∀ overlay ∈ app.overlays, overlay.regionDrag = none

instance (app : RegionApp) : Decidable app.Idle :=
  inferInstanceAs (Decidable (∀ overlay ∈ app.overlays, _ = _))

/-- The region that a recording captures. -/
def captured (app : RegionApp) : Option RegionSelection :=
  if app.mode = some .region then app.region else none

/-- The region that the overlays show. -/
def shown (app : RegionApp) : Option RegionSelection :=
  if app.mode = some .region then app.selection else none

/-- The region that the overlays show is of at least the minimum size. -/
def SelectionLarge (app : RegionApp) : Prop :=
  ∀ displayId bounds, app.selection = some (displayId, bounds) → bounds.Large

/-- The region that the overlays show is the one that a recording would capture. -/
def Settled (app : RegionApp) : Prop := app.selection = app.region ∧ app.SelectionLarge

/-- What a step needs so that region mode keeps what it should. -/
def Careful (app : RegionApp) : RegionEvent → Prop
  | .mouseDown index position => ∀ overlay, app.overlays[index]? = some overlay →
      (beginDrag position (app.existing overlay)).ResizesLarge
  | .mouseMove index position => ∀ overlay, app.overlays[index]? = some overlay →
      ∀ operation, overlay.regionDrag = some operation →
        operation.Careful overlay.display.logicalSize position
  | .mouseUp index => ∀ overlay, app.overlays[index]? = some overlay →
      overlay.regionDrag ≠ none → app.region ≠ none → app.selection ≠ none ∧ app.SelectionLarge
  | .setField _ field value =>
      app.SelectionLarge ∧ (field = .width ∨ field = .height → minimum ≤ f64Round value)
  | .closeOverlays => app.Idle
  | .openOverlays => app.Idle
  | _ => True

end RegionApp

/-- Regions that lie on their displays, of an application whose displays stay. -/
structure RegionWf (displays : List Display) (app : RegionApp) : Prop where
  displays_eq : app.displays = displays
  overlay_display : ∀ overlay ∈ app.overlays, overlay.display ∈ displays
  selection_fits : ∀ displayId bounds, app.selection = some (displayId, bounds) →
    ∃ display ∈ displays, display.id = displayId ∧ bounds.Fits display.logicalSize
  drag_mode : ∀ overlay ∈ app.overlays, overlay.regionDrag ≠ none → overlay.mode = some .region
  drag_fits : ∀ overlay ∈ app.overlays, ∀ operation, overlay.regionDrag = some operation →
    (∀ original, operation.original = some original → original.Fits overlay.display.logicalSize) ∧
      operation.ResizesLarge

/-- The invariant of region mode: without a drag in progress, what is shown is settled. -/
structure RegionInv (displays : List Display) (app : RegionApp) : Prop extends
    RegionWf displays app where
  settled : app.mode = some .region → app.Idle → app.Settled

variable {displays : List Display} {app : RegionApp}

/-! ## Regions on their displays -/

namespace RegionWf

/-- Displays with the same id are the same. -/
private theorem display_eq (hnodup : (displays.map Display.id).Nodup) {display other : Display}
    (h : display ∈ displays) (h' : other ∈ displays) (hid : display.id = other.id) :
    display = other :=
  List.inj_on_of_nodup_map hnodup h h' hid

/-- The region that is selected lies on its own display. -/
theorem selection_fits_of (hnodup : (displays.map Display.id).Nodup) (hwf : RegionWf displays app)
    {display : Display} (hdisplay : display ∈ displays) {bounds : Bounds}
    (h : app.selection = some (display.id, bounds)) : bounds.Fits display.logicalSize := by
  obtain ⟨other, hother, hid, hfits⟩ := hwf.selection_fits display.id bounds h
  rwa [display_eq hnodup hother hdisplay hid] at hfits

/-- What an overlay shows is the region that is selected. -/
theorem selection_of_existing {overlay : SelectionOverlay} {bounds : Bounds}
    (h : app.existing overlay = some bounds) :
    app.selection = some (overlay.display.id, bounds) := by
  rw [RegionApp.existing, Option.bind_eq_some_iff] at h
  obtain ⟨⟨displayId, shown⟩, hselection, h⟩ := h
  dsimp only at h
  split at h
  · rename_i hid
    rw [hselection, hid, Option.some.inj h]
  · cases h

/-- A selection of regions that lie on their displays. -/
theorem select (hwf : RegionWf displays app) {selection : Option RegionSelection}
    (h : ∀ displayId bounds, selection = some (displayId, bounds) →
      ∃ display ∈ displays, display.id = displayId ∧ bounds.Fits display.logicalSize)
    (region : Option RegionSelection) (mode : Option Mode) :
    RegionWf displays { app with
      mode
      region
      selection } :=
  { hwf with selection_fits := h }

theorem unselect (hwf : RegionWf displays app) (region : Option RegionSelection)
    (mode : Option Mode) : RegionWf displays { app with
      mode
      region
      selection := none } :=
  hwf.select (fun _ _ h => absurd h (by simp)) region mode

theorem selectRegion (hwf : RegionWf displays app) {display : Display} (hdisplay : display ∈ displays)
    {bounds : Bounds} (hfits : bounds.Fits display.logicalSize) :
    RegionWf displays (app.selectRegion display.id bounds) := by
  refine hwf.select (fun displayId shown h => ?_) _ _
  obtain ⟨rfl, rfl⟩ := Prod.mk.inj (Option.some.inj h)
  exact ⟨display, hdisplay, rfl, hfits⟩

private theorem mem_modify {list : List SelectionOverlay} {index : ℕ} {overlay : SelectionOverlay}
    (h : list[index]? = some overlay) (change : SelectionOverlay → SelectionOverlay)
    {other : SelectionOverlay} (hother : other ∈ list.modify index change) :
    other ∈ list ∨ other = change overlay := by
  obtain ⟨i, hi⟩ := List.mem_iff_getElem?.mp hother
  rw [List.getElem?_modify] at hi
  obtain ⟨old, hold, rfl⟩ := Option.map_eq_some_iff.mp hi
  split
  · rename_i heq
    rw [← heq, h] at hold
    exact .inr (congrArg change (Option.some.inj hold).symm)
  · exact .inl (List.mem_of_getElem? hold)

/-- A change of one overlay that stays on its display. -/
theorem modify (hwf : RegionWf displays app) {index : ℕ} {overlay : SelectionOverlay}
    (hoverlay : app.overlays[index]? = some overlay)
    (change : SelectionOverlay → SelectionOverlay)
    (hdisplay : (change overlay).display = overlay.display)
    (hmode : (change overlay).regionDrag ≠ none → (change overlay).mode = some .region)
    (hdrag : ∀ operation, (change overlay).regionDrag = some operation →
      (∀ original, operation.original = some original →
        original.Fits overlay.display.logicalSize) ∧ operation.ResizesLarge) :
    RegionWf displays { app with overlays := app.overlays.modify index change } := by
  have hold : overlay ∈ app.overlays := List.mem_of_getElem? hoverlay
  refine ⟨hwf.displays_eq, fun other hother => ?_, hwf.selection_fits, fun other hother => ?_,
    fun other hother => ?_⟩
  · rcases mem_modify hoverlay change hother with h | rfl
    · exact hwf.overlay_display other h
    · rw [hdisplay]
      exact hwf.overlay_display overlay hold
  · rcases mem_modify hoverlay change hother with h | rfl
    · exact hwf.drag_mode other h
    · exact hmode
  · rcases mem_modify hoverlay change hother with h | rfl
    · exact hwf.drag_fits other h
    · rw [hdisplay]
      exact hdrag

/-- A drag that begins or ends. -/
theorem setDrag (hwf : RegionWf displays app) {index : ℕ} {overlay : SelectionOverlay}
    (hoverlay : app.overlays[index]? = some overlay) (hmode : overlay.mode = some .region)
    (drag : Option RegionDrag) (hdrag : ∀ operation, drag = some operation →
      (∀ original, operation.original = some original →
        original.Fits overlay.display.logicalSize) ∧ operation.ResizesLarge) :
    RegionWf displays (app.setDrag index drag) :=
  hwf.modify hoverlay _ rfl (fun _ => hmode) hdrag

/-- Without overlays there are no drags. -/
theorem closeSelectionWindows (hwf : RegionWf displays app) :
    RegionWf displays app.closeSelectionWindows where
  displays_eq := hwf.displays_eq
  overlay_display := fun _ h => absurd h (by simp [RegionApp.closeSelectionWindows])
  selection_fits := hwf.selection_fits
  drag_mode := fun _ h => absurd h (by simp [RegionApp.closeSelectionWindows])
  drag_fits := fun _ h => absurd h (by simp [RegionApp.closeSelectionWindows])

/-- New overlays have no drags. -/
theorem openSelectionWindows (hwf : RegionWf displays app) :
    RegionWf displays app.openSelectionWindows where
  displays_eq := hwf.displays_eq
  overlay_display := by
    intro overlay h
    obtain ⟨display, hdisplay, rfl⟩ := List.mem_map.mp h
    rwa [hwf.displays_eq] at hdisplay
  selection_fits := hwf.selection_fits
  drag_mode := by
    intro overlay h hdrag
    obtain ⟨display, -, rfl⟩ := List.mem_map.mp h
    exact absurd rfl hdrag
  drag_fits := by
    intro overlay h operation hdrag
    obtain ⟨display, -, rfl⟩ := List.mem_map.mp h
    cases hdrag

end RegionWf

/-! ## Steps -/

namespace RegionInv

/-- Where nothing is selected, what is shown is settled. -/
private theorem settled_none {mode : Option Mode} {overlays : List SelectionOverlay} :
    RegionApp.Settled { displays, mode, overlays, region := none, selection := none } :=
  ⟨rfl, fun _ _ h => absurd h (by simp)⟩

theorem setMode (hwf : RegionWf displays app) (mode : Mode) :
    RegionInv displays (app.setMode mode) := by
  unfold RegionApp.setMode
  split
  · exact ⟨(hwf.unselect none none).closeSelectionWindows, fun _ _ => settled_none⟩
  · dsimp only
    split
    · exact ⟨(hwf.unselect none (some mode)).openSelectionWindows, fun _ _ => settled_none⟩
    · exact ⟨hwf.unselect none (some mode), fun _ _ => settled_none⟩

theorem escape (hinv : RegionInv displays app) : RegionInv displays app.escape := by
  unfold RegionApp.escape
  split
  · exact hinv
  · exact ⟨(hinv.unselect none none).closeSelectionWindows, fun _ _ => settled_none⟩

/-- While an overlay has a drag, nothing needs to be settled. -/
theorem of_drag (hwf : RegionWf displays app) {index : ℕ} {overlay : SelectionOverlay}
    (hoverlay : app.overlays[index]? = some overlay) (hdrag : overlay.regionDrag ≠ none) :
    RegionInv displays app :=
  ⟨hwf, fun _ hidle => absurd (hidle overlay (List.mem_of_getElem? hoverlay)) hdrag⟩

theorem getElem?_setDrag {index : ℕ} {overlay : SelectionOverlay}
    (hoverlay : app.overlays[index]? = some overlay) (drag : Option RegionDrag) :
    (app.setDrag index drag).overlays[index]? = some { overlay with regionDrag := drag } := by
  rw [RegionApp.setDrag]
  dsimp only
  rw [List.getElem?_modify_eq, hoverlay]
  rfl

/-- The region that a drag begins with is the one that the overlay shows. -/
theorem original_beginDrag {position : Point} {existing : Option Bounds} {original : Bounds}
    (h : (RegionApp.beginDrag position existing).original = some original) :
    existing = some original := by
  unfold RegionApp.beginDrag at h
  split at h
  · cases h
  · split at h
    · exact congrArg some (Option.some.inj h)
    · split at h
      · exact congrArg some (Option.some.inj h)
      · cases h

theorem beginRegion (hnodup : (displays.map Display.id).Nodup) (hinv : RegionInv displays app)
    {index : ℕ} {overlay : SelectionOverlay} (hoverlay : app.overlays[index]? = some overlay)
    (hmode : overlay.mode = some .region) {position : Point}
    (hlarge : (RegionApp.beginDrag position (app.existing overlay)).ResizesLarge) :
    RegionInv displays (app.beginRegion index overlay position) := by
  unfold RegionApp.beginRegion
  split
  · exact hinv
  · dsimp only
    have hbegun := getElem?_setDrag hoverlay
      (some (RegionApp.beginDrag position (app.existing overlay)))
    have hwf := hinv.setDrag hoverlay hmode
      (some (RegionApp.beginDrag position (app.existing overlay))) fun operation hoperation => by
        obtain rfl := Option.some.inj hoperation
        refine ⟨fun original horiginal => ?_, hlarge⟩
        refine hinv.selection_fits_of hnodup
          (hinv.overlay_display overlay (List.mem_of_getElem? hoverlay)) ?_
        exact RegionWf.selection_of_existing (original_beginDrag horiginal)
    split
    · exact of_drag (hwf.unselect _ _) hbegun (by simp)
    · exact of_drag hwf hbegun (by simp)

/-- A drag shows a region on its display, and goes on. -/
theorem dragRegion (hinv : RegionInv displays app) {index : ℕ} {overlay : SelectionOverlay}
    (hoverlay : app.overlays[index]? = some overlay) {position : Point}
    (hcareful : ∀ operation, overlay.regionDrag = some operation →
      operation.Careful overlay.display.logicalSize position) :
    RegionInv displays (app.dragRegion overlay position) := by
  have hmem := List.mem_of_getElem? hoverlay
  unfold RegionApp.dragRegion
  split
  · exact hinv
  · rename_i operation hdrag
    obtain ⟨horiginal, hlarge⟩ := hinv.drag_fits overlay hmem operation hdrag
    have hfits := (fits_dragged horiginal hlarge (hcareful operation hdrag)).1
    refine of_drag (hinv.select (fun displayId bounds h => ?_) _ _) hoverlay (by simp [hdrag])
    obtain ⟨rfl, rfl⟩ := Prod.mk.inj (Option.some.inj h)
    exact ⟨overlay.display, hinv.overlay_display overlay hmem, rfl, hfits⟩

/-- A region that a recording captures is settled, where it is not too small. -/
theorem of_selectRegion (hwf : RegionWf displays app) {display : Display}
    (hdisplay : display ∈ displays) {bounds : Bounds} (hfits : bounds.Fits display.logicalSize)
    (hlarge : bounds.Large) : RegionInv displays (app.selectRegion display.id bounds) := by
  refine ⟨hwf.selectRegion hdisplay hfits, fun _ _ => ⟨rfl, fun displayId shown h => ?_⟩⟩
  obtain ⟨-, rfl⟩ := Prod.mk.inj (Option.some.inj h)
  exact hlarge

theorem finishRegion (hinv : RegionInv displays app) {index : ℕ} {overlay : SelectionOverlay}
    (hoverlay : app.overlays[index]? = some overlay) (hmode : overlay.mode = some .region)
    (hcareful : overlay.regionDrag ≠ none → app.region ≠ none →
      app.selection ≠ none ∧ app.SelectionLarge) :
    RegionInv displays (app.finishRegion index overlay) := by
  have hwf := hinv.setDrag hoverlay hmode none fun _ h => absurd h (by simp)
  unfold RegionApp.finishRegion
  split
  · exact hinv
  · rename_i operation hdrag
    have hregion : app.region ≠ none → app.selection ≠ none ∧ app.SelectionLarge :=
      hcareful (by simp [hdrag])
    dsimp only
    split
    · rename_i hselection
      have hnone : app.region = none := by
        by_contra h
        exact (hregion h).1 hselection
      refine ⟨hwf, fun _ _ => ⟨hselection.trans hnone.symm, fun displayId bounds h => ?_⟩⟩
      exact absurd (hselection.symm.trans h) (by simp)
    · rename_i displayId bounds hselection
      obtain ⟨display, hdisplay, rfl, hfits⟩ := hinv.selection_fits displayId bounds hselection
      rw [hfits.rounded]
      split
      · rename_i hsmall
        have hnone : app.region = none := by
          by_contra h
          obtain ⟨hwidth, hheight⟩ := (hregion h).2 _ bounds hselection
          rcases hsmall with h | h
          · exact absurd hwidth (not_le.mpr h)
          · exact absurd hheight (not_le.mpr h)
        refine ⟨hwf.unselect _ _, fun _ _ => ⟨hnone.symm, fun _ _ h => absurd h (by simp)⟩⟩
      · rename_i hlarge
        obtain ⟨hwidth, hheight⟩ := not_or.mp hlarge
        exact of_selectRegion hwf hdisplay hfits ⟨not_lt.mp hwidth, not_lt.mp hheight⟩

/-- A coordinate that is set, of an extent that stays. -/
private theorem exists_coordinate (extent size : ℕ) (h : extent ≤ size) (value : ℚ) :
    ∃ n : ℕ, min (max (f64Round value : ℚ) 0) (max ((size : ℚ) - extent) 0) = n ∧
      n + extent ≤ size := by
  refine ⟨min (f64Round value).toNat (size - extent), ?_, by omega⟩
  have hroom : ((size - extent : ℕ) : ℚ) = (size : ℚ) - extent := Nat.cast_sub h
  have hvalue : ((f64Round value).toNat : ℚ) = max (f64Round value : ℚ) 0 := by
    exact_mod_cast Int.toNat_eq_max (f64Round value)
  rw [← hroom, max_eq_left (Nat.cast_nonneg _), Nat.cast_min, hvalue]

/-- An extent that is set, of a coordinate that stays. -/
private theorem exists_extent (offset size : ℕ) (h : offset + 16 ≤ size) {value : ℚ}
    (hvalue : minimum ≤ f64Round value) :
    ∃ n : ℕ, min (max (f64Round value : ℚ) 1) (max ((size : ℚ) - offset) 1) = n ∧
      offset + n ≤ size ∧ 16 ≤ n := by
  have hsixteen : (16 : ℤ) ≤ f64Round value := by
    rw [minimum] at hvalue
    exact_mod_cast hvalue
  obtain ⟨n, hn⟩ := Int.eq_ofNat_of_zero_le (show 0 ≤ f64Round value by omega)
  have hroom : ((size - offset : ℕ) : ℚ) = (size : ℚ) - offset := Nat.cast_sub (by omega)
  refine ⟨min n (size - offset), ?_, by omega, by omega⟩
  rw [hn, Int.cast_natCast, ← hroom, max_eq_left, max_eq_left, Nat.cast_min]
  · exact_mod_cast (by omega : 1 ≤ size - offset)
  · exact_mod_cast (by omega : 1 ≤ n)

/-- A number that is set keeps the region on its display, and of at least the minimum size. -/
theorem fits_withField {size : Viewport} {bounds : Bounds} (hfits : bounds.Fits size)
    (hlarge : bounds.Large) {field : RegionField} {value : ℚ}
    (hvalue : field = .width ∨ field = .height → minimum ≤ f64Round value) :
    (RegionApp.withField bounds size field value).Fits size ∧
      (RegionApp.withField bounds size field value).Large := by
  obtain ⟨x, y, width, height, rfl, hx, hy⟩ := hfits
  have hwidth : 16 ≤ width := minimum_le_natCast.mp hlarge.1
  have hheight : 16 ≤ height := minimum_le_natCast.mp hlarge.2
  cases field with
  | x =>
    obtain ⟨n, hn, hsum⟩ := exists_coordinate width size.width (by omega) value
    have hset : RegionApp.withField ⟨x, y, width, height⟩ size .x value = ⟨n, y, width, height⟩ := by
      rw [← hn]
      rfl
    rw [hset]
    exact ⟨⟨n, y, width, height, rfl, hsum, hy⟩, hlarge⟩
  | y =>
    obtain ⟨n, hn, hsum⟩ := exists_coordinate height size.height (by omega) value
    have hset : RegionApp.withField ⟨x, y, width, height⟩ size .y value = ⟨x, n, width, height⟩ := by
      rw [← hn]
      rfl
    rw [hset]
    exact ⟨⟨x, n, width, height, rfl, hx, hsum⟩, hlarge⟩
  | width =>
    obtain ⟨n, hn, hsum, hmin⟩ := exists_extent x size.width (by omega) (hvalue (.inl rfl))
    have hset : RegionApp.withField ⟨x, y, width, height⟩ size .width value = ⟨x, y, n, height⟩ := by
      rw [← hn]
      rfl
    rw [hset]
    exact ⟨⟨x, y, n, height, rfl, hsum, hy⟩, minimum_le_natCast.mpr hmin, hlarge.2⟩
  | height =>
    obtain ⟨n, hn, hsum, hmin⟩ := exists_extent y size.height (by omega) (hvalue (.inr rfl))
    have hset : RegionApp.withField ⟨x, y, width, height⟩ size .height value = ⟨x, y, width, n⟩ := by
      rw [← hn]
      rfl
    rw [hset]
    exact ⟨⟨x, y, width, n, rfl, hx, hsum⟩, hlarge.1, minimum_le_natCast.mpr hmin⟩

theorem setRegionField (hnodup : (displays.map Display.id).Nodup) (hinv : RegionInv displays app)
    {overlay : SelectionOverlay} (hmem : overlay ∈ app.overlays)
    (hexisting : (app.existing overlay).isSome) (hlarge : app.SelectionLarge) {field : RegionField}
    {value : ℚ} (hvalue : field = .width ∨ field = .height → minimum ≤ f64Round value) :
    RegionInv displays (app.setRegionField overlay field value) := by
  have hdisplay := hinv.overlay_display overlay hmem
  obtain ⟨bounds, hbounds⟩ := Option.isSome_iff_exists.mp hexisting
  have hselection := RegionWf.selection_of_existing hbounds
  have hfits := hinv.selection_fits_of hnodup hdisplay hselection
  obtain ⟨hfits', hlarge'⟩ := fits_withField hfits (hlarge _ bounds hselection) hvalue
  unfold RegionApp.setRegionField
  rw [hselection]
  dsimp only
  split
  · exact hinv
  · exact of_selectRegion hinv.toRegionWf hdisplay hfits' hlarge'

/-- An overlay that is rendered in region mode keeps its drag. -/
theorem render (hinv : RegionInv displays app) (index : ℕ) :
    RegionInv displays (app.render index) := by
  rcases hoverlay : app.overlays[index]? with - | overlay
  · have hsame : app.render index = app := by
      rw [RegionApp.render, List.modify_eq_self (List.getElem?_eq_none_iff.mp hoverlay)]
    rwa [hsame]
  · have hmem := List.mem_of_getElem? hoverlay
    refine ⟨hinv.modify hoverlay _ ?_ ?_ ?_, fun hmode hidle => ?_⟩
    · split <;> rfl
    · split
      · exact fun h => absurd rfl h
      · exact hinv.drag_mode overlay hmem
    · split
      · exact fun _ h => absurd h (by simp)
      · exact hinv.drag_fits overlay hmem
    · refine hinv.settled hmode fun other hother => ?_
      by_contra hdrag
      -- an overlay with a drag was rendered in region mode
      have hothermode : app.mode = other.mode := hmode.trans (hinv.drag_mode other hother hdrag).symm
      obtain ⟨i, hi⟩ := List.mem_iff_getElem?.mp hother
      refine hdrag (hidle other (List.mem_of_getElem? (i := i) ?_))
      rw [RegionApp.render]
      dsimp only
      rw [List.getElem?_modify, hi]
      simp [hothermode]

/-- A careful step keeps the invariant. -/
theorem step (hnodup : (displays.map Display.id).Nodup) (hinv : RegionInv displays app)
    {event : RegionEvent} (hcareful : app.Careful event) : RegionInv displays (app.step event) := by
  have honOverlay : ∀ (index : ℕ) (handle : SelectionOverlay → RegionApp),
      (∀ overlay, app.overlays[index]? = some overlay → overlay.mode = some .region →
        RegionInv displays (handle overlay)) → RegionInv displays (app.onOverlay index handle) := by
    intro index handle h
    unfold RegionApp.onOverlay
    split
    · exact hinv
    · rename_i overlay hoverlay
      split
      · rename_i hmode
        exact h overlay hoverlay hmode
      · exact hinv
  cases event with
  | mouseDown index position =>
    exact honOverlay _ _ fun overlay hoverlay hmode =>
      hinv.beginRegion hnodup hoverlay hmode (hcareful overlay hoverlay)
  | mouseMove index position =>
    exact honOverlay _ _ fun overlay hoverlay _ =>
      hinv.dragRegion hoverlay (hcareful overlay hoverlay)
  | mouseUp index =>
    exact honOverlay _ _ fun overlay hoverlay hmode =>
      hinv.finishRegion hoverlay hmode (hcareful overlay hoverlay)
  | setField index field value =>
    refine honOverlay _ _ fun overlay hoverlay _ => ?_
    split
    · rename_i hexisting
      exact hinv.setRegionField hnodup (List.mem_of_getElem? hoverlay) hexisting hcareful.1
        hcareful.2
    · exact hinv
  | setMode mode => exact setMode hinv.toRegionWf mode
  | selectDisplay => exact ⟨hinv.unselect none app.mode, fun _ _ => settled_none⟩
  | escape => exact hinv.escape
  | render index => exact hinv.render index
  | closeOverlays =>
    exact ⟨hinv.closeSelectionWindows, fun hmode _ => hinv.settled hmode hcareful⟩
  | openOverlays =>
    exact ⟨hinv.openSelectionWindows, fun hmode _ => hinv.settled hmode hcareful⟩

theorem of_reachable (h : ((regionSystem displays).restrict RegionApp.Careful).Reachable app) :
    (displays.map Display.id).Nodup ∧ RegionInv displays app := by
  obtain ⟨app₀, events, ⟨hnodup, rfl⟩, hrun⟩ := h
  refine ⟨hnodup, hrun.invariant (P := RegionInv displays) ?_ ?_⟩
  · rintro app event app' hinv ⟨hcareful, rfl⟩
    exact hinv.step hnodup hcareful
  · exact {
      displays_eq := rfl
      overlay_display := fun _ h => absurd h (by simp)
      selection_fits := fun _ _ h => absurd h (by simp)
      drag_mode := fun _ h => absurd h (by simp)
      drag_fits := fun _ h => absurd h (by simp)
      settled := fun _ _ => settled_none }

end RegionInv

end Blip.Capture
