import Blip.Capture.CropDialog

/-!
# What the crop dialog keeps

In a run that drags a crop begun at a far edge before the button is used again, the draft is in the unit
square and of the minimum size, no clamp has an empty range, a resize leaves the other edges alone, and a
move leaves the size alone. A draft that comes within a ten-thousandth of the full screen becomes the full
screen.
-/

namespace Blip.Capture

namespace ScreenCrop

/-- Both sizes are at least the smallest a crop may have. -/
def Large (crop : ScreenCrop) : Prop := 0.01 ≤ crop.size.1 ∧ 0.01 ≤ crop.size.2

instance (crop : ScreenCrop) : Decidable crop.Large := inferInstanceAs (Decidable (_ ∧ _))

/-- In the unit square. -/
structure InSquare (crop : ScreenCrop) : Prop where
  left : 0 ≤ crop.position.1
  top : 0 ≤ crop.position.2
  size : 0 ≤ crop.size.1 ∧ 0 ≤ crop.size.2
  right : crop.position.1 + crop.size.1 ≤ 1
  bottom : crop.position.2 + crop.size.2 ≤ 1

/-- A draft that normalizing leaves as it is. -/
structure Settled (crop : ScreenCrop) : Prop where
  normal : crop.Normal
  full : crop.isFull = true → crop = .full

/-- The edges of a crop that a handle does not move are those of another crop. -/
structure KeepsEdges (crop : ScreenCrop) (handle : CropResizeHandle) (original : ScreenCrop) :
    Prop where
  left : handle.atLeft = false → crop.position.1 = original.position.1
  right : handle.atRight = false →
    crop.position.1 + crop.size.1 = original.position.1 + original.size.1
  top : handle.atTop = false → crop.position.2 = original.position.2
  bottom : handle.atBottom = false →
    crop.position.2 + crop.size.2 = original.position.2 + original.size.2

theorem Normal.large {crop : ScreenCrop} (h : crop.Normal) : crop.Large := h.size

theorem Normal.inSquare {crop : ScreenCrop} (h : crop.Normal) : crop.InSquare where
  left := h.left
  top := h.top
  size := ⟨by linarith [h.size.1], by linarith [h.size.2]⟩
  right := h.right
  bottom := h.bottom

theorem full_normal : full.Normal :=
  ⟨by norm_num [full], by norm_num [full], by norm_num [full], by norm_num [full], by norm_num [full],
    by norm_num [full]⟩

theorem full_settled : full.Settled := ⟨full_normal, fun _ => rfl⟩

theorem isFull_iff {crop : ScreenCrop} : crop.isFull = true ↔ |crop.position.1| < 0.0001 ∧
    |crop.position.2| < 0.0001 ∧ |crop.size.1 - 1| < 0.0001 ∧ |crop.size.2 - 1| < 0.0001 := by
  simp only [isFull, Bool.and_eq_true, decide_eq_true_eq, and_assoc]

/-- Whatever is normalized is settled. -/
theorem settled_of_normalize (crop : Option StoredCrop) :
    ((normalizeScreenCrop crop).getD .full).Settled := by
  cases h : normalizeScreenCrop crop with
  | none => exact full_settled
  | some normalized =>
    obtain ⟨hnormal, hfull⟩ := normalizeScreenCrop_normal h
    exact ⟨hnormal, fun h => absurd (hfull.symm.trans h) (by decide)⟩

theorem normalized_settled (crop : ScreenCrop) : crop.normalized.Settled := settled_of_normalize _

/-- A crop within its limits stays, unless it is almost the full screen. -/
theorem Normal.normalized {crop : ScreenCrop} (h : crop.Normal) :
    crop.normalized = if crop.isFull then .full else crop := by
  rw [ScreenCrop.normalized, h.normalize]
  split
  · rfl
  · rfl

end ScreenCrop

/-! ## Resizing -/

theorem resizedCropAxis_some {atLow atHigh : Bool} {position size pointer : ℚ}
    (hside : atLow = true → atHigh = false) (hposition : 0 ≤ position) (hposition' : position ≤ 0.99)
    (hsize : 0.01 ≤ size) (hend : position + size ≤ 1) :
    ∃ position' size', resizedCropAxis atLow atHigh position size pointer = some (position', size') ∧
      0 ≤ position' ∧ position' ≤ 0.99 ∧ 0.01 ≤ size' ∧ position' + size' ≤ 1 ∧
      (atLow = false → position' = position) ∧
      (atHigh = false → position' + size' = position + size) := by
  cases atLow with
  | true =>
    obtain rfl := hside rfl
    obtain ⟨hlow, hhigh⟩ := clampSecs_mem (show (0 : ℚ) ≤ position + size - 0.01 by linarith) pointer
    refine ⟨clampSecs 0 (position + size - 0.01) pointer,
      position + size - clampSecs 0 (position + size - 0.01) pointer, ?_, hlow, by linarith, by linarith,
      by linarith, fun h => absurd h (by decide), fun _ => by ring⟩
    rw [resizedCropAxis, if_pos rfl, clampChecked_eq (by linarith)]
    rfl
  | false =>
    cases atHigh with
    | true =>
      obtain ⟨hlow, hhigh⟩ := clampSecs_mem (show position + 0.01 ≤ (1 : ℚ) by linarith) pointer
      refine ⟨position, clampSecs (position + 0.01) 1 pointer - position, ?_, hposition, hposition',
        by linarith, by linarith, fun _ => rfl, fun h => absurd h (by decide)⟩
      simp only [resizedCropAxis, Bool.false_eq_true, if_false, if_true, Option.bind_eq_bind,
        Option.bind_some]
      rw [clampChecked_eq (by linarith)]
      rfl
    | false =>
      refine ⟨position, size, ?_, hposition, hposition', hsize, hend, fun _ => rfl, fun _ => rfl⟩
      simp [resizedCropAxis]

/-- A crop within its limits is resized within them, and only at the handle. -/
theorem resizedScreenCrop_some {original : ScreenCrop} (h : original.Normal)
    (handle : CropResizeHandle) (pointer : ℚ × ℚ) :
    ∃ crop, resizedScreenCrop original handle pointer = some crop ∧ crop.Normal ∧
      crop.KeepsEdges handle original := by
  obtain ⟨left, width, hhorizontal, hleft, hleft', hwidth, hright, hkeepLeft, hkeepRight⟩ :=
    @resizedCropAxis_some handle.atLeft handle.atRight original.position.1 original.size.1 pointer.1
      (by cases handle <;> decide) h.left h.position.1 h.size.1 h.right
  obtain ⟨top, height, hvertical, htop, htop', hheight, hbottom, hkeepTop, hkeepBottom⟩ :=
    @resizedCropAxis_some handle.atTop handle.atBottom original.position.2 original.size.2 pointer.2
      (by cases handle <;> decide) h.top h.position.2 h.size.2 h.bottom
  refine ⟨⟨(left, top), (width, height)⟩, ?_,
    ⟨hleft, htop, ⟨hleft', htop'⟩, ⟨hwidth, hheight⟩, hright, hbottom⟩,
    ⟨hkeepLeft, hkeepRight, hkeepTop, hkeepBottom⟩⟩
  rw [resizedScreenCrop, hhorizontal, hvertical]
  rfl

/-! ## Moving -/

/-- A settled crop is moved without a change of its size. -/
theorem move_some {original : ScreenCrop} (h : original.Settled) (pointerStart current : ℚ × ℚ) :
    ∃ crop, (CropDrag.move pointerStart original).crop current = some crop ∧
      crop.normalized.size = original.size := by
  have hright := h.normal.right
  have hbottom := h.normal.bottom
  have hsize := h.normal.size
  have hleft := h.normal.left
  have htop := h.normal.top
  obtain ⟨hx, hx'⟩ := clampSecs_mem (show (0 : ℚ) ≤ 1 - original.size.1 by linarith)
    (original.position.1 + current.1 - pointerStart.1)
  obtain ⟨hy, hy'⟩ := clampSecs_mem (show (0 : ℚ) ≤ 1 - original.size.2 by linarith)
    (original.position.2 + current.2 - pointerStart.2)
  refine ⟨{ original with position := (clampSecs 0 (1 - original.size.1)
    (original.position.1 + current.1 - pointerStart.1), clampSecs 0 (1 - original.size.2)
    (original.position.2 + current.2 - pointerStart.2)) }, ?_, ?_⟩
  · rw [CropDrag.crop, clampChecked_eq (by linarith), clampChecked_eq (by linarith)]
    rfl
  · have hnormal : ScreenCrop.Normal { original with position := (clampSecs 0 (1 - original.size.1)
        (original.position.1 + current.1 - pointerStart.1), clampSecs 0 (1 - original.size.2)
        (original.position.2 + current.2 - pointerStart.2)) } :=
      ⟨hx, hy, ⟨by dsimp only; linarith, by dsimp only; linarith⟩, hsize, by dsimp only; linarith,
        by dsimp only; linarith⟩
    rw [hnormal.normalized]
    split
    · -- a crop of almost the full size was the full screen before
      rename_i hfull
      obtain ⟨-, -, hwidth, hheight⟩ := ScreenCrop.isFull_iff.mp hfull
      dsimp only at hwidth hheight
      have horiginal : original.isFull = true := by
        have hwidth' := abs_lt.mp hwidth
        have hheight' := abs_lt.mp hheight
        refine ScreenCrop.isFull_iff.mpr ⟨?_, ?_, hwidth, hheight⟩
        · rw [abs_of_nonneg hleft]
          linarith
        · rw [abs_of_nonneg htop]
          linarith
      rw [h.full horiginal]
    · rfl

/-! ## Runs of the dialog -/

/-- The crop that a press begins lies in the square; it is settled where there is room for it. -/
theorem begunCrop_inSquare {start : ℚ × ℚ} (h : 0 ≤ start.1 ∧ start.1 ≤ 1)
    (h' : 0 ≤ start.2 ∧ start.2 ≤ 1) : (begunCrop start).InSquare := by
  have hwidth := min_le_right (0.01 : ℚ) (1 - start.1)
  have hheight := min_le_right (0.01 : ℚ) (1 - start.2)
  exact ⟨h.1, h'.1, ⟨le_min (by norm_num) (by linarith), le_min (by norm_num) (by linarith)⟩,
    by dsimp only [begunCrop]; linarith, by dsimp only [begunCrop]; linarith⟩

theorem begunCrop_settled {start : ℚ × ℚ} (h : (begunCrop start).InSquare)
    (hlarge : (begunCrop start).Large) : (begunCrop start).Settled := by
  have hwidth : (begunCrop start).size.1 ≤ 0.01 := min_le_left _ _
  have hheight : (begunCrop start).size.2 ≤ 0.01 := min_le_left _ _
  have hright := h.right
  have hbottom := h.bottom
  refine ⟨⟨h.left, h.top, ⟨by linarith [hlarge.1], by linarith [hlarge.2]⟩, hlarge, hright, hbottom⟩,
    fun hfull => ?_⟩
  obtain ⟨-, -, hsize, -⟩ := ScreenCrop.isFull_iff.mp hfull
  have hsize := (abs_lt.mp hsize).1
  norm_num at hsize hwidth
  linarith

namespace CropDrag

/-- The draft that a drag began with, if it keeps one. -/
def original : CropDrag → Option ScreenCrop
  | .create _ => none
  | .move _ original => some original
  | .resize _ original => some original

/-- What a drag leaves of the draft it began with. -/
def Keeps (crop : ScreenCrop) : CropDrag → Prop
  | .create _ => True
  | .move _ original => crop.size = original.size
  | .resize handle original => crop.KeepsEdges handle original ∨
    crop = .full ∧ ∃ resized : ScreenCrop, resized.KeepsEdges handle original ∧ resized.isFull = true

end CropDrag

/-- A drag of a settled draft leaves of it what it is to leave. -/
theorem crop_some {drag : CropDrag} (h : ∀ original, drag.original = some original → original.Settled)
    (current : ℚ × ℚ) : ∃ crop, drag.crop current = some crop ∧ drag.Keeps crop.normalized := by
  cases drag with
  | create start => exact ⟨_, rfl, trivial⟩
  | move pointerStart original => exact move_some (h original rfl) pointerStart current
  | resize handle original =>
    obtain ⟨crop, hcrop, hnormal, hkeeps⟩ :=
      resizedScreenCrop_some (h original rfl).normal handle current
    refine ⟨crop, hcrop, ?_⟩
    rw [hnormal.normalized]
    split
    · rename_i hfull
      exact .inr ⟨rfl, crop, hkeeps, hfull⟩
    · exact .inl hkeeps

namespace CropDialog

/-- A crop that was begun and has not been dragged yet. -/
def JustBegun (dialog : CropDialog) : Prop :=
  ∃ start, dialog.cropDrag = some (.create start) ∧ dialog.cropDraft = begunCrop start

/-- What the steps of a run keep. -/
structure Inv (dialog : CropDialog) : Prop where
  stored : ∀ crop, dialog.screenCrop = some crop → crop.Settled
  draft : dialog.cropDraft.Settled ∨ dialog.JustBegun ∧ dialog.cropDraft.InSquare
  drag : ∀ drag, dialog.cropDrag = some drag → ∀ original, drag.original = some original →
    original.Settled

/-- The button is used, and the dialog closed, only with a draft of the smallest size a crop may have. -/
def Settles (dialog : CropDialog) : CropEvent → Prop
  | .mouseDown _ | .mouseUp | .apply | .close => dialog.cropDraft.Large
  | _ => True

variable {dialog dialog' : CropDialog}

theorem Inv.inSquare (h : dialog.Inv) : dialog.cropDraft.InSquare :=
  h.draft.elim (fun hsettled => hsettled.normal.inSquare) And.right

/-- A draft of the smallest size is settled. -/
theorem Inv.settled (h : dialog.Inv) (hlarge : dialog.cropDraft.Large) : dialog.cropDraft.Settled := by
  rcases h.draft with hsettled | ⟨⟨start, -, hdraft⟩, hsquare⟩
  · exact hsettled
  · rw [hdraft] at hsquare hlarge ⊢
    exact begunCrop_settled hsquare hlarge

theorem loaded_inv (stored : Option StoredCrop) (bounds : Bounds) : (loaded stored bounds).Inv where
  stored := by
    intro crop hcrop
    have hsettled := ScreenCrop.settled_of_normalize stored
    rwa [show normalizeScreenCrop stored = some crop from hcrop] at hsettled
  draft := .inl (ScreenCrop.settled_of_normalize stored)
  drag := by rintro _ ⟨⟩

theorem cropPositionAt_mem {position : Point} {current : ℚ × ℚ}
    (h : dialog.cropPositionAt position = some current) :
    (0 ≤ current.1 ∧ current.1 ≤ 1) ∧ 0 ≤ current.2 ∧ current.2 ≤ 1 := by
  rw [cropPositionAt] at h
  split at h
  · cases h
  · obtain rfl := Option.some.inj h
    exact ⟨clampSecs_mem zero_le_one _, clampSecs_mem zero_le_one _⟩

/-- What a press begins: a drag of the draft it finds, or a new crop. -/
theorem beginScreenCrop_cases (dialog : CropDialog) (position : Point) :
    (dialog.cropPositionAt position = none ∧ dialog.beginScreenCrop position = dialog) ∨
      (∃ drag : CropDrag, drag.original = some dialog.cropDraft ∧
        dialog.beginScreenCrop position = { dialog with cropDrag := some drag }) ∨
      ∃ start : ℚ × ℚ, (begunCrop start).InSquare ∧ dialog.beginScreenCrop position =
        { dialog with
          cropDraft := begunCrop start
          cropDrag := some (.create start) } := by
  rw [beginScreenCrop]
  cases hstart : dialog.cropPositionAt position with
  | none => exact .inl ⟨rfl, rfl⟩
  | some start =>
    dsimp only
    cases cropHandleAt position dialog.cropPreviewBounds dialog.cropDraft with
    | some handle => exact .inr (.inl ⟨.resize handle dialog.cropDraft, rfl, rfl⟩)
    | none =>
      dsimp only
      split
      · exact .inr (.inl ⟨.move start dialog.cropDraft, rfl, rfl⟩)
      · obtain ⟨hx, hy⟩ := cropPositionAt_mem hstart
        exact .inr (.inr ⟨start, begunCrop_inSquare hx hy, rfl⟩)

theorem Inv.beginScreenCrop (h : dialog.Inv) (hlarge : dialog.cropDraft.Large) (position : Point) :
    (dialog.beginScreenCrop position).Inv := by
  rcases beginScreenCrop_cases dialog position with ⟨-, heq⟩ | ⟨drag, hdrag, heq⟩ | ⟨start, hsquare, heq⟩
  · rw [heq]
    exact h
  · rw [heq]
    refine ⟨h.stored, .inl (h.settled hlarge), fun drag' hdrag' original horiginal => ?_⟩
    obtain rfl := Option.some.inj hdrag'
    obtain rfl := Option.some.inj (hdrag.symm.trans horiginal)
    exact h.settled hlarge
  · rw [heq]
    refine ⟨h.stored, .inr ⟨⟨start, rfl, rfl⟩, hsquare⟩, fun drag' hdrag' original horiginal => ?_⟩
    obtain rfl := Option.some.inj hdrag'
    cases horiginal

/-- A drag goes through, and leaves a settled draft that has what the drag is to leave. -/
theorem Inv.dragScreenCrop (h : dialog.Inv) (position : Point) :
    ∃ dialog', dialog.dragScreenCrop position = some dialog' ∧ dialog'.Inv ∧
      dialog'.cropDrag = dialog.cropDrag ∧ ∀ drag, dialog.cropDrag = some drag → dialog.cropPositionAt position ≠ none →
        drag.Keeps dialog'.cropDraft := by
  rw [CropDialog.dragScreenCrop]
  cases hdrag : dialog.cropDrag with
  | none => exact ⟨dialog, rfl, h, hdrag, by rintro _ ⟨⟩⟩
  | some drag =>
    cases hcurrent : dialog.cropPositionAt position with
    | none => exact ⟨dialog, rfl, h, hdrag, fun _ _ hsome => absurd rfl hsome⟩
    | some current =>
      obtain ⟨crop, hcrop, hkeeps⟩ := crop_some (h.drag drag hdrag) current
      refine ⟨{ dialog with cropDraft := crop.normalized }, ?_,
        ⟨h.stored, .inl (ScreenCrop.normalized_settled crop), h.drag⟩, hdrag, ?_⟩
      · dsimp only
        rw [hcrop, Option.map_some, hdrag]
      · rintro _ ⟨⟩ -
        exact hkeeps

theorem Inv.step (h : dialog.Inv) {event : CropEvent} (hsettles : dialog.Settles event) :
    ∃ dialog', dialog.step event = some dialog' ∧ dialog'.Inv := by
  have hnone : ∀ drag, (none : Option CropDrag) = some drag → ∀ original,
      drag.original = some original → original.Settled := by rintro _ ⟨⟩
  cases event with
  | paint bounds => exact ⟨_, rfl, h.stored, h.draft, h.drag⟩
  | mouseDown position => exact ⟨_, rfl, h.beginScreenCrop hsettles position⟩
  | mouseMove position =>
    obtain ⟨dialog', hstep, hinv, -, -⟩ := h.dragScreenCrop position
    exact ⟨dialog', hstep, hinv⟩
  | mouseUp => exact ⟨_, rfl, h.stored, .inl (h.settled hsettles), hnone⟩
  | openDialog =>
    refine ⟨_, rfl, h.stored, .inl ?_, hnone⟩
    cases hcrop : dialog.screenCrop with
    | none => exact ScreenCrop.full_settled
    | some crop => exact h.stored crop hcrop
  | reset => exact ⟨_, rfl, h.stored, .inl ScreenCrop.full_settled, h.drag⟩
  | apply =>
    refine ⟨_, rfl, fun crop hcrop => ?_, .inl (h.settled hsettles), hnone⟩
    have hsettled := ScreenCrop.settled_of_normalize (some dialog.cropDraft.stored)
    rwa [show normalizeScreenCrop (some dialog.cropDraft.stored) = some crop from hcrop] at hsettled
  | close => exact ⟨_, rfl, h.stored, .inl (h.settled hsettles), hnone⟩

theorem reachable_inv (h : (cropDialog.restrict Settles).Reachable dialog) : dialog.Inv := by
  refine h.invariant ?_ fun dialog event dialog' hinv hstep => ?_
  · rintro _ ⟨stored, bounds, rfl⟩
    exact loaded_inv stored bounds
  · obtain ⟨other, hother, hinv'⟩ := hinv.step hstep.1
    obtain rfl := Option.some.inj (hother.symm.trans hstep.2)
    exact hinv'

end CropDialog

/-- In every run that drags a crop before it uses the button again, if the crop was begun too near an edge,
the draft lies in the unit square and has the smallest size at least, except such a crop until it is
dragged; every event is handled without a panic; a press keeps the draft it finds as the original of its
drag, and a drag leaves that one's size when it moves it, and its other edges when it resizes it, unless
it comes so close to the full screen that it becomes the full screen. -/
theorem crop_dialog_keeps {dialog : CropDialog}
    (h : (cropDialog.restrict CropDialog.Settles).Reachable dialog) :
    dialog.cropDraft.InSquare ∧ (dialog.cropDraft.Large ∨ dialog.JustBegun) ∧
      ∀ event, dialog.Settles event → ∃ dialog', dialog.step event = some dialog' ∧
        (∀ position, event = .mouseDown position → dialog.cropPositionAt position ≠ none →
          ∀ drag, dialog'.cropDrag = some drag → ∀ original, drag.original = some original →
            original = dialog.cropDraft ∧ dialog'.cropDraft = dialog.cropDraft) ∧
        (∀ position, event = .mouseMove position → dialog.cropPositionAt position ≠ none →
          ∀ drag, dialog.cropDrag = some drag →
            dialog'.cropDrag = some drag ∧ drag.Keeps dialog'.cropDraft) := by
  have hinv := CropDialog.reachable_inv h
  refine ⟨hinv.inSquare, ?_, fun event hsettles => ?_⟩
  · exact hinv.draft.imp (fun hsettled => hsettled.normal.large) And.left
  cases event with
  | mouseDown position =>
    refine ⟨_, rfl, ?_, by rintro _ ⟨⟩⟩
    rintro _ ⟨⟩ hposition drag hdrag original horiginal
    rcases dialog.beginScreenCrop_cases position with ⟨hnone, -⟩ | ⟨begun, hbegun, heq⟩ | ⟨start, -, heq⟩
    · exact absurd hnone hposition
    · rw [heq] at hdrag ⊢
      obtain rfl := Option.some.inj hdrag
      exact ⟨Option.some.inj (horiginal.symm.trans hbegun), rfl⟩
    · rw [heq] at hdrag
      obtain rfl := Option.some.inj hdrag
      cases horiginal
  | mouseMove position =>
    obtain ⟨dialog', hstep, -, hdrag, hkeeps⟩ := hinv.dragScreenCrop position
    refine ⟨dialog', hstep, by rintro _ ⟨⟩, ?_⟩
    rintro _ ⟨⟩ hposition drag hdrag'
    exact ⟨hdrag.trans hdrag', hkeeps drag hdrag' hposition⟩
  | paint bounds => exact ⟨_, rfl, by rintro _ ⟨⟩, by rintro _ ⟨⟩⟩
  | mouseUp => exact ⟨_, rfl, by rintro _ ⟨⟩, by rintro _ ⟨⟩⟩
  | openDialog => exact ⟨_, rfl, by rintro _ ⟨⟩, by rintro _ ⟨⟩⟩
  | reset => exact ⟨_, rfl, by rintro _ ⟨⟩, by rintro _ ⟨⟩⟩
  | apply => exact ⟨_, rfl, by rintro _ ⟨⟩, by rintro _ ⟨⟩⟩
  | close => exact ⟨_, rfl, by rintro _ ⟨⟩, by rintro _ ⟨⟩⟩

/-- The preview of the examples: a thousand pixels each way. -/
def cropPreview : Bounds where
  x := 0
  y := 0
  width := 1000
  height := 1000

/-- A press on the full screen, and what it begins moved up. -/
theorem crop_dialog_keeps_pressed :
    ∃ dialog', ((CropDialog.loaded none cropPreview).beginScreenCrop ⟨500, 300⟩).step
      (.mouseMove ⟨500, 200⟩) = some dialog' := by
  have hpressed : (cropDialog.restrict CropDialog.Settles).Reachable
      ((CropDialog.loaded none cropPreview).beginScreenCrop ⟨500, 300⟩) :=
    ⟨_, [.mouseDown ⟨500, 300⟩], ⟨none, cropPreview, rfl⟩,
      .single ⟨ScreenCrop.full_normal.large, rfl⟩⟩
  obtain ⟨dialog', hstep, -⟩ := (crop_dialog_keeps hpressed).2.2 (.mouseMove ⟨500, 200⟩) trivial
  exact ⟨dialog', hstep⟩

/-- The handlers, for a list of events. -/
def CropDialog.steps : CropDialog → List CropEvent → Option CropDialog
  | dialog, [] => some dialog
  | dialog, event :: events => (dialog.step event).bind fun dialog => dialog.steps events

theorem run_of_steps {dialog dialog' : CropDialog} {events : List CropEvent}
    (h : dialog.steps events = some dialog') : cropDialog.Run dialog events dialog' := by
  induction events generalizing dialog with
  | nil =>
    obtain rfl := Option.some.inj h
    exact .nil _
  | cons event events ih =>
    obtain ⟨next, hnext, hrest⟩ := Option.bind_eq_some_iff.mp h
    exact .cons hnext (ih hrest)

/-- The left part of the screen, and one in its middle. -/
def leftCrop : StoredCrop where
  position := (some 0, some 0)
  size := (some 0.5, some 1)

def middleCrop : StoredCrop where
  position := (some 0.3, some 0)
  size := (some 0.5, some 1)

/-- A crop begun at the right edge and not dragged is empty, and resizing it at its right panics. A crop
resized to almost the full screen has its other edge moved to that of the screen. -/
theorem crop_dialog_slips :
    (∃ dialog, cropDialog.Run (.loaded (some leftCrop) cropPreview)
        [.mouseDown ⟨1000, 300⟩, .mouseUp, .mouseDown ⟨1000, 312⟩] dialog ∧
      ¬ dialog.cropDraft.Large ∧ dialog.step (.mouseMove ⟨900, 312⟩) = none) ∧
    ∃ dialog dialog' original, cropDialog.Run (.loaded (some middleCrop) cropPreview)
        [.mouseDown ⟨800, 500⟩, .mouseMove ⟨999.95, 500⟩, .mouseUp, .mouseDown ⟨300, 500⟩] dialog ∧
      dialog.cropDrag = some (.resize .left original) ∧
      dialog.step (.mouseMove ⟨0, 500⟩) = some dialog' ∧
      dialog'.cropDraft.position.1 + dialog'.cropDraft.size.1 ≠
        original.position.1 + original.size.1 := by
  constructor
  · refine ⟨{
      screenCrop := some
        { position := (0, 0)
          size := (0.5, 1) }
      cropDraft := begunCrop (1, 0.3)
      cropDrag := some (.resize .right (begunCrop (1, 0.3)))
      cropPreviewBounds := cropPreview }, run_of_steps ?_, ?_, ?_⟩
    · decide +kernel
    · decide +kernel
    · decide +kernel
  · refine ⟨{
      screenCrop := some
        { position := (0.3, 0)
          size := (0.5, 1) }
      cropDraft :=
        { position := (0.3, 0)
          size := (0.69995, 1) }
      cropDrag := some (.resize .left
        { position := (0.3, 0)
          size := (0.69995, 1) })
      cropPreviewBounds := cropPreview }, {
      screenCrop := some
        { position := (0.3, 0)
          size := (0.5, 1) }
      cropDraft := .full
      cropDrag := some (.resize .left
        { position := (0.3, 0)
          size := (0.69995, 1) })
      cropPreviewBounds := cropPreview }, _, run_of_steps ?_, rfl, ?_, ?_⟩
    · decide +kernel
    · decide +kernel
    · decide +kernel

end Blip.Capture
