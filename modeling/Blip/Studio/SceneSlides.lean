import Blip.Studio.SceneDrags

/-!
# What a drag of a row does to the others

When the order changes, the offsets are taken from the order before, as if every row were at its place.
So the rows start where they are drawn exactly when none is sliding.
-/

namespace Blip.Studio.Exact.SceneRows

variable {rows : SceneRows} {bounds : Bounds} {grabOffset position : ℚ × ℚ} {dragged item : ElementId}

/-! ## One move -/

/-- A move leaves everything, or puts the dragged element where the pointer is and has the
others slide. -/
theorem dragSceneItemOver_cases (hgrab : rows.grabOffset = some grabOffset)
    (hbounds : rows.listBounds = some bounds) (hdragged : dragged ∈ rows.order) (position : ℚ × ℚ) :
    ∃ index, sceneDragRenderIndex position.2 grabOffset.2 bounds rows.scene.elements.length =
      some index ∧
      (rows.order.idxOf dragged = index ∧ rows.dragSceneItemOver dragged position = rows ∨
        rows.order.idxOf dragged ≠ index ∧ ∃ scene,
          sceneOrder scene = (rows.order.erase dragged).insertIdx index dragged ∧
            rows.dragSceneItemOver dragged position =
              { rows with
                scene
                itemOffsets := sceneReorderOffsets rows.order scene dragged
                animationStarted := some rows.now }) := by
  have hlength : 0 < rows.scene.elements.length := by
    rw [← length_sceneOrder]
    exact List.length_pos_of_mem hdragged
  obtain ⟨index, hindex⟩ : ∃ index,
      sceneDragRenderIndex position.2 grabOffset.2 bounds rows.scene.elements.length = some index := by
    obtain ⟨last, hlast⟩ := Nat.exists_eq_succ_of_ne_zero hlength.ne'
    rw [hlast]
    exact ⟨_, rfl⟩
  refine ⟨index, hindex, ?_⟩
  rcases moveToIndex_cases hdragged (sceneDragRenderIndex_lt hindex) with ⟨hsame, hnone⟩ |
    ⟨hother, scene, hsome, horder⟩
  · refine .inl ⟨hsame, ?_⟩
    simp only [dragSceneItemOver, hgrab, hbounds, hindex, hnone]
  · refine .inr ⟨hother, scene, horder, ?_⟩
    simp only [dragSceneItemOver, hgrab, hbounds, hindex, hsome]

/-- The order after a move is that without the dragged element, with it where the pointer is. -/
theorem order_dragSceneItemOver (hgrab : rows.grabOffset = some grabOffset)
    (hbounds : rows.listBounds = some bounds) (hdragged : dragged ∈ rows.order) (position : ℚ × ℚ) :
    ∃ index, sceneDragRenderIndex position.2 grabOffset.2 bounds rows.scene.elements.length =
      some index ∧
      (rows.dragSceneItemOver dragged position).order =
        (rows.order.erase dragged).insertIdx index dragged := by
  obtain ⟨index, hindex, ⟨hsame, heq⟩ | ⟨-, scene, horder, heq⟩⟩ :=
    dragSceneItemOver_cases hgrab hbounds hdragged position
  · refine ⟨index, hindex, ?_⟩
    rw [heq, ← hsame, insertIdx_idxOf_erase hdragged]
  · refine ⟨index, hindex, ?_⟩
    rw [heq]
    exact horder

/-- A drag keeps where it was begun and where the list is, and takes no time. -/
theorem frame_dragSceneItemOver (rows : SceneRows) (dragged : ElementId) (position : ℚ × ℚ) :
    (rows.dragSceneItemOver dragged position).grabOffset = rows.grabOffset ∧
      (rows.dragSceneItemOver dragged position).listBounds = rows.listBounds ∧
        (rows.dragSceneItemOver dragged position).now = rows.now := by
  unfold dragSceneItemOver
  split
  · split
    · exact ⟨rfl, rfl, rfl⟩
    · split <;> exact ⟨rfl, rfl, rfl⟩
  · exact ⟨rfl, rfl, rfl⟩

/-! ## A path -/

/-- The positions of a path, one after another. -/
def dragPath (rows : SceneRows) (dragged : ElementId) (path : List (ℚ × ℚ)) : SceneRows :=
  path.foldl (fun rows position => rows.dragSceneItemOver dragged position) rows

/-- Along a path the other elements keep their order. -/
structure Follows (rows rows' : SceneRows) (dragged : ElementId) : Prop where
  grabOffset : rows'.grabOffset = rows.grabOffset
  listBounds : rows'.listBounds = rows.listBounds
  perm : rows'.order.Perm rows.order
  others : rows'.order.erase dragged = rows.order.erase dragged

theorem follows_dragSceneItemOver (hgrab : rows.grabOffset = some grabOffset)
    (hbounds : rows.listBounds = some bounds) (hdistinct : rows.order.Nodup)
    (hdragged : dragged ∈ rows.order) (position : ℚ × ℚ) :
    rows.Follows (rows.dragSceneItemOver dragged position) dragged := by
  obtain ⟨hgrab', hbounds', -⟩ := frame_dragSceneItemOver rows dragged position
  obtain ⟨index, hindex, horder⟩ := order_dragSceneItemOver hgrab hbounds hdragged position
  have hlt := sceneDragRenderIndex_lt hindex
  rw [← length_sceneOrder] at hlt
  have hlength : (rows.order.erase dragged).length = rows.order.length - 1 :=
    List.length_erase_of_mem hdragged
  have hle : index ≤ (rows.order.erase dragged).length := by
    rw [hlength, order]
    omega
  refine ⟨hgrab', hbounds', ?_, ?_⟩
  · rw [horder]
    exact (List.perm_insertIdx _ _ hle).trans (List.perm_cons_erase hdragged).symm
  · rw [horder, erase_insertIdx hdistinct.not_mem_erase hle]

theorem Follows.trans {rows' rows'' : SceneRows} (h : rows.Follows rows' dragged)
    (h' : rows'.Follows rows'' dragged) : rows.Follows rows'' dragged :=
  ⟨h'.grabOffset.trans h.grabOffset, h'.listBounds.trans h.listBounds, h'.perm.trans h.perm,
    h'.others.trans h.others⟩

theorem follows_dragPath (hgrab : rows.grabOffset = some grabOffset)
    (hbounds : rows.listBounds = some bounds) (hdistinct : rows.order.Nodup)
    (hdragged : dragged ∈ rows.order) (path : List (ℚ × ℚ)) :
    rows.Follows (rows.dragPath dragged path) dragged := by
  induction path generalizing rows with
  | nil => exact ⟨rfl, rfl, .refl _, rfl⟩
  | cons position path ih =>
    have hstep := follows_dragSceneItemOver hgrab hbounds hdistinct hdragged position
    refine hstep.trans (ih (hstep.grabOffset.trans hgrab) (hstep.listBounds.trans hbounds) ?_ ?_)
    · exact hstep.perm.nodup_iff.mpr hdistinct
    · exact hstep.perm.mem_iff.mpr hdragged

/-- The last position of a path decides the order. -/
theorem order_dragPath (hgrab : rows.grabOffset = some grabOffset)
    (hbounds : rows.listBounds = some bounds) (hdistinct : rows.order.Nodup)
    (hdragged : dragged ∈ rows.order) (path : List (ℚ × ℚ)) (last : ℚ × ℚ) :
    (rows.dragPath dragged (path ++ [last])).order = (rows.dragSceneItemOver dragged last).order := by
  have hpath := follows_dragPath hgrab hbounds hdistinct hdragged path
  obtain ⟨index, hindex, horder⟩ := order_dragSceneItemOver hgrab hbounds hdragged last
  obtain ⟨index', hindex', horder'⟩ := order_dragSceneItemOver (hpath.grabOffset.trans hgrab)
    (hpath.listBounds.trans hbounds) (hpath.perm.mem_iff.mpr hdragged) last
  have hlength : (rows.dragPath dragged path).scene.elements.length = rows.scene.elements.length := by
    rw [← length_sceneOrder, ← length_sceneOrder]
    exact hpath.perm.length_eq
  rw [hlength, hindex] at hindex'
  obtain rfl := Option.some.inj hindex'
  rw [dragPath, List.foldl_append, List.foldl_cons, List.foldl_nil, horder, ← hpath.others]
  exact horder'

/-! ## Where the rows are drawn -/

/-- What dragging a row to a position is to do: move its element only, find a row that has not moved at
its place, and start the others where they are drawn, each with the offset it has moved by. -/
structure MovesRow (rows : SceneRows) (bounds : Bounds) (grabOffset : ℚ × ℚ) (dragged : ElementId)
    (position : ℚ × ℚ) : Prop where
  perm : (rows.dragSceneItemOver dragged position).order.Perm rows.order
  others : (rows.dragSceneItemOver dragged position).order.erase dragged = rows.order.erase dragged
  stays : ∀ item origin, sceneItemOrigin rows.scene item bounds = some origin →
    sceneDragRenderIndex (origin.2 + grabOffset.2) grabOffset.2 bounds rows.scene.elements.length =
      some (rows.order.idxOf item)
  offsets : (rows.dragSceneItemOver dragged position).order ≠ rows.order →
    ∀ item ≠ dragged, ∀ before after,
    sceneItemOrigin rows.scene item bounds = some before →
    sceneItemOrigin (rows.dragSceneItemOver dragged position).scene item bounds = some after →
    ((rows.dragSceneItemOver dragged position).itemOffsets item).getD 0 = before.2 - after.2
  drawn : ∀ item ≠ dragged,
    (rows.dragSceneItemOver dragged position).drawnTop bounds item = rows.drawnTop bounds item

/-- Each row is found at its place exactly when the list shows the middle of its last row. -/
theorem stays_iff (grabOffset : ℚ × ℚ) {last : ℕ} (hdistinct : rows.order.Nodup)
    (hlast : rows.order.length = last + 1) (hpos : 0 < last) :
    (∀ item origin, sceneItemOrigin rows.scene item bounds = some origin →
      sceneDragRenderIndex (origin.2 + grabOffset.2) grabOffset.2 bounds rows.scene.elements.length =
        some (rows.order.idxOf item)) ↔ last * sceneRowStride + 16 ≤ bounds.size.2 := by
  have hlength : rows.scene.elements.length = last + 1 := by
    rw [← hlast, order, length_sceneOrder]
  rw [hlength]
  constructor
  · -- the row behind all others is the one that a short list does not reach
    intro hstays
    by_contra hshort
    have hlt : 0 < rows.order.length := by omega
    have hmem : rows.order[0] ∈ rows.order := List.getElem_mem hlt
    have hindex : rows.order.idxOf rows.order[0] = 0 := hdistinct.idxOf_getElem 0 hlt
    have horigin := sceneItemOrigin_of_mem bounds hmem
    have hplace := hstays _ _ horigin
    rw [hindex] at hplace
    refine sceneDragRenderIndex_of_short (not_le.mp hshort) hpos grabOffset.2 ?_
    convert hplace using 3
    change _ = bounds.origin.2 + ((rows.order.length : ℚ) - 1 - rows.order.idxOf
      rows.order[0]) * sceneRowStride
    rw [hindex, hlast]
    push_cast
    ring
  · intro htall item origin horigin
    by_cases hmem : item ∈ rows.order
    swap
    · rw [sceneItemOrigin_of_notMem hmem] at horigin
      cases horigin
    have hlt := List.idxOf_lt_length_iff.mpr hmem
    rw [sceneItemOrigin_of_mem bounds hmem] at horigin
    have hplace := sceneDragRenderIndex_of_tall htall
      (Nat.sub_le last (rows.order.idxOf item)) grabOffset.2
    rw [← Option.some.inj horigin]
    have htop : (rows.order.length - 1 - rows.order.idxOf item : ℚ) =
      (last - rows.order.idxOf item : ℕ) := by
      rw [hlast, Nat.cast_sub (by omega)]
      push_cast
      ring
    change sceneDragRenderIndex (bounds.origin.2 +
      (rows.order.length - 1 - rows.order.idxOf item : ℚ) * sceneRowStride + grabOffset.2) _ _ _ = _
    rw [htop, hplace]
    congr 1
    omega

/-- A list that is tall enough has a position over each of its places. -/
theorem exists_position (grabOffset : ℚ × ℚ) {last index : ℕ}
    (htall : last * sceneRowStride + 16 ≤ bounds.size.2) (hindex : index ≤ last) : ∃ position : ℚ × ℚ,
      sceneDragRenderIndex position.2 grabOffset.2 bounds (last + 1) = some index := by
  have hplace := sceneDragRenderIndex_of_tall htall (Nat.sub_le last index) grabOffset.2
  refine ⟨(0, bounds.origin.2 + (last - index : ℕ) * sceneRowStride + grabOffset.2), hplace.trans ?_⟩
  congr 1
  omega

/-- When the order changes, an offset is what its row has moved by, while places are 32-bit integers. -/
theorem offset_iff {scene : Scene} (hdistinct : rows.order.Nodup)
    (hperm : (sceneOrder scene).Perm rows.order) (hne : item ≠ dragged) {before after : ℚ × ℚ}
    (hbefore : sceneItemOrigin rows.scene item bounds = some before)
    (hafter : sceneItemOrigin scene item bounds = some after) :
    (sceneReorderOffsets rows.order scene dragged item).getD 0 = before.2 - after.2 ↔
      (sceneOrder scene).idxOf item = rows.order.idxOf item ∨
        (sceneOrder scene).idxOf item < 2 ^ 31 ∧ rows.order.idxOf item < 2 ^ 31 := by
  by_cases hitem : item ∈ rows.order
  swap
  · rw [sceneItemOrigin_of_notMem hitem] at hbefore
    cases hbefore
  have hnew : item ∈ sceneOrder scene := hperm.mem_iff.mpr hitem
  have hmoved : before.2 - after.2 =
      (((sceneOrder scene).idxOf item : ℚ) - rows.order.idxOf item) * sceneRowStride := by
    rw [sceneItemOrigin_of_mem bounds hnew, hperm.length_eq] at hafter
    rw [sceneItemOrigin_of_mem bounds hitem] at hbefore
    rw [← Option.some.inj hbefore, ← Option.some.inj hafter]
    simp only [order]
    ring
  rw [sceneReorderOffsets_eq hdistinct (hperm.nodup_iff.mpr hdistinct) hne hitem hnew, hmoved]
  split_ifs with hsmall
  · exact iff_of_true rfl (.inr hsmall)
  · have hstride : sceneRowStride ≠ 0 := by norm_num [sceneRowStride]
    rw [eq_comm, mul_eq_zero, or_iff_left hstride, sub_eq_zero, Nat.cast_inj, or_iff_left hsmall]

/-- In a list that is too long some row gets no offset. -/
theorem exists_unplaced {last : ℕ} (hdistinct : rows.order.Nodup) (hdragged : dragged ∈ rows.order)
    (hlast : rows.order.length = last + 1) (hlong : 2 ^ 31 ≤ last) :
    ∃ index ≤ last, rows.order.idxOf dragged ≠ index ∧ ∃ item ∈ rows.order, item ≠ dragged ∧
      ((rows.order.erase dragged).insertIdx index dragged).idxOf item ≠ rows.order.idxOf item ∧
      ¬ (((rows.order.erase dragged).insertIdx index dragged).idxOf item < 2 ^ 31 ∧
        rows.order.idxOf item < 2 ^ 31) := by
  have hplace := List.idxOf_lt_length_iff.mpr hdragged
  have hothers : (rows.order.erase dragged).length = last := by
    rw [List.length_erase_of_mem hdragged, hlast, Nat.add_sub_cancel]
  have hat : ∀ index (hindex : index < rows.order.length), index ≠ rows.order.idxOf dragged →
      rows.order[index] ≠ dragged ∧ rows.order.idxOf rows.order[index] = index := by
    intro index hindex hne
    have hself := hdistinct.idxOf_getElem index hindex
    exact ⟨fun heq => hne (heq ▸ hself).symm, hself⟩
  by_cases hend : rows.order.idxOf dragged = last
  · -- the row in front is dragged behind all others, and the next one takes its place
    obtain ⟨hne, hself⟩ := hat (last - 1) (by omega) (by omega)
    refine ⟨0, Nat.zero_le _, by omega, rows.order[last - 1], List.getElem_mem _, hne, ?_⟩
    have hbefore := idxOf_eq_of_erase hdragged (List.getElem_mem (by omega)) hne
    rw [idxOf_insertIdx hne ((List.mem_erase_of_ne hne).mpr (List.getElem_mem _)) (Nat.zero_le _), hself]
    rw [hself, hend] at hbefore
    split_ifs at hbefore ⊢ <;> omega
  · obtain ⟨hne, hself⟩ := hat last (by omega) (Ne.symm hend)
    refine ⟨last, le_rfl, hend, rows.order[last], List.getElem_mem _, hne, ?_⟩
    have hbefore := idxOf_eq_of_erase hdragged (List.getElem_mem (by omega)) hne
    rw [idxOf_insertIdx hne ((List.mem_erase_of_ne hne).mpr (List.getElem_mem _)) hothers.ge, hself]
    rw [hself] at hbefore
    split_ifs at hbefore ⊢ <;> omega

/-- The rows that are moved past start where they were drawn if they were not sliding. -/
theorem drawnTop_iff {scene : Scene} (hperm : (sceneOrder scene).Perm rows.order)
    (hitem : item ∈ rows.order)
    (hoffset : ∀ before after, sceneItemOrigin rows.scene item bounds = some before →
      sceneItemOrigin scene item bounds = some after →
      (sceneReorderOffsets rows.order scene dragged item).getD 0 = before.2 - after.2) :
    drawnTop
        { rows with
          scene
          itemOffsets := sceneReorderOffsets rows.order scene dragged
          animationStarted := some rows.now } bounds item = rows.drawnTop bounds item ↔
      rows.slide item = 0 := by
  have hnew : item ∈ sceneOrder scene := hperm.mem_iff.mpr hitem
  have hbefore := sceneItemOrigin_of_mem bounds hitem
  have hafter := sceneItemOrigin_of_mem bounds hnew
  have hremaining : sceneAnimationRemaining (rows.now - rows.now) = 1 := by
    rw [sub_self]
    norm_num [sceneAnimationRemaining]
  have hstart := hoffset _ _ hbefore hafter
  simp only [drawnTop, hbefore, hafter, Option.map_some, Option.some.injEq]
  simp only [slide, remaining, hremaining, mul_one, hstart]
  constructor
  · intro h
    linarith
  · intro h
    linarith

/-! ## Every drag -/

/-- A move that changes the order is right exactly when rows are found at their places, the rows it moves
past get offsets, and none of the others was sliding. -/
theorem movesRow_of_reorder (hgrab : rows.grabOffset = some grabOffset)
    (hbounds : rows.listBounds = some bounds)
    (hdistinct : rows.order.Nodup) (hdragged : dragged ∈ rows.order) {index : ℕ}
    (hindex : sceneDragRenderIndex position.2 grabOffset.2 bounds rows.scene.elements.length =
      some index)
    (hmoves : rows.order.idxOf dragged ≠ index) :
    rows.MovesRow bounds grabOffset dragged position ↔
      (∀ item origin, sceneItemOrigin rows.scene item bounds = some origin →
        sceneDragRenderIndex (origin.2 + grabOffset.2) grabOffset.2 bounds rows.scene.elements.length =
          some (rows.order.idxOf item)) ∧
      (∀ item ∈ rows.order, item ≠ dragged →
        ((rows.order.erase dragged).insertIdx index dragged).idxOf item = rows.order.idxOf item ∨
          ((rows.order.erase dragged).insertIdx index dragged).idxOf item < 2 ^ 31 ∧
            rows.order.idxOf item < 2 ^ 31) ∧
      ∀ item ∈ rows.order, item ≠ dragged → rows.slide item = 0 := by
  obtain ⟨index', hindex', ⟨hsame, -⟩ | ⟨-, scene, horder, hmove⟩⟩ :=
    dragSceneItemOver_cases hgrab hbounds hdragged position
  · rw [hindex] at hindex'
    exact absurd (hsame.trans (Option.some.inj hindex').symm) hmoves
  rw [hindex] at hindex'
  obtain rfl := Option.some.inj hindex'
  have hfollows := follows_dragSceneItemOver hgrab hbounds hdistinct hdragged position
  have hplace : (rows.dragSceneItemOver dragged position).order.idxOf dragged = index := by
    have hlt := sceneDragRenderIndex_lt hindex
    rw [← length_sceneOrder] at hlt
    have hlength : (rows.order.erase dragged).length = rows.order.length - 1 :=
      List.length_erase_of_mem hdragged
    rw [hmove]
    change (sceneOrder scene).idxOf dragged = index
    rw [horder, idxOf_insertIdx_self hdistinct.not_mem_erase]
    rw [hlength, order]
    omega
  -- the dragged row has changed its place, so the offsets are those of this move
  have hchanged : (rows.dragSceneItemOver dragged position).order ≠ rows.order := by
    intro heq
    rw [heq] at hplace
    exact hmoves hplace
  have hperm : (sceneOrder scene).Perm rows.order := by
    have := hfollows.perm
    rwa [hmove] at this
  have hoffset : ∀ {item}, item ∈ rows.order → item ≠ dragged →
      ((∀ before after, sceneItemOrigin rows.scene item bounds = some before →
        sceneItemOrigin scene item bounds = some after →
        (sceneReorderOffsets rows.order scene dragged item).getD 0 = before.2 - after.2) ↔
      ((rows.order.erase dragged).insertIdx index dragged).idxOf item = rows.order.idxOf item ∨
        ((rows.order.erase dragged).insertIdx index dragged).idxOf item < 2 ^ 31 ∧
          rows.order.idxOf item < 2 ^ 31) := by
    intro item hitem hne
    rw [← horder]
    have hbefore := sceneItemOrigin_of_mem bounds hitem
    have hafter := sceneItemOrigin_of_mem bounds (hperm.mem_iff.mpr hitem)
    constructor
    · intro h
      exact (offset_iff hdistinct hperm hne hbefore hafter).mp (h _ _ hbefore hafter)
    · intro h before after hbefore hafter
      exact (offset_iff hdistinct hperm hne hbefore hafter).mpr h
  constructor
  · rintro ⟨-, -, hstays, hoffsets, hdrawn⟩
    rw [hmove] at hoffsets hdrawn
    have hstarts := fun item (hne : item ≠ dragged) => hoffsets (hmove ▸ hchanged) item hne
    refine ⟨hstays, fun item hitem hne => (hoffset hitem hne).mp (hstarts item hne), ?_⟩
    intro item hitem hne
    exact (drawnTop_iff hperm hitem (hstarts item hne)).mp (hdrawn item hne)
  · rintro ⟨hstays, hsmall, hrest⟩
    have hstarts : ∀ item ≠ dragged, ∀ before after, sceneItemOrigin rows.scene item bounds =
      some before →
        sceneItemOrigin scene item bounds = some after →
        (sceneReorderOffsets rows.order scene dragged item).getD 0 = before.2 - after.2 := by
      intro item hne before after hbefore hafter
      by_cases hitem : item ∈ rows.order
      · exact (hoffset hitem hne).mpr (hsmall item hitem hne) before after hbefore hafter
      · rw [sceneItemOrigin_of_notMem hitem] at hbefore
        cases hbefore
    refine ⟨hfollows.perm, hfollows.others, hstays, ?_, ?_⟩
    · rw [hmove]
      exact fun _ => hstarts
    · rw [hmove]
      intro item hne
      by_cases hitem : item ∈ rows.order
      · exact (drawnTop_iff hperm hitem (hstarts item hne)).mpr (hrest item hitem hne)
      · have hnew : item ∉ sceneOrder scene := fun h => hitem (hperm.mem_iff.mp h)
        simp only [drawnTop, sceneItemOrigin_of_notMem hitem, sceneItemOrigin_of_notMem hnew,
          Option.map_none]

theorem movesRow_iff (hgrab : rows.grabOffset = some grabOffset)
    (hbounds : rows.listBounds = some bounds)
    (hdistinct : rows.order.Nodup) (hdragged : dragged ∈ rows.order) :
    (∀ position, rows.MovesRow bounds grabOffset dragged position) ↔
      rows.order.length ≤ 1 ∨
        (rows.order.length - 1 : ℕ) * sceneRowStride + 16 ≤ bounds.size.2 ∧ rows.order.length ≤ 2 ^ 31 ∧
          ∀ item ∈ rows.order, item ≠ dragged → rows.slide item = 0 := by
  obtain ⟨last, hlast⟩ : ∃ last, rows.order.length = last + 1 :=
    Nat.exists_eq_succ_of_ne_zero (List.length_pos_of_mem hdragged).ne'
  have hlength : rows.scene.elements.length = last + 1 := by
    rw [← hlast, order, length_sceneOrder]
  have hstill : ∀ position, rows.dragSceneItemOver dragged position = rows →
      (∀ item origin, sceneItemOrigin rows.scene item bounds = some origin →
        sceneDragRenderIndex (origin.2 + grabOffset.2) grabOffset.2 bounds rows.scene.elements.length =
          some (rows.order.idxOf item)) → rows.MovesRow bounds grabOffset dragged position := by
    intro position hmove hstays
    refine ⟨?_, ?_, hstays, ?_, ?_⟩
    · rw [hmove]
    · rw [hmove]
    · rw [hmove]
      exact fun h => absurd rfl h
    · rw [hmove]
      exact fun _ _ => rfl
  rw [hlast, Nat.add_sub_cancel]
  have hothers : (rows.order.erase dragged).length = last := by
    rw [List.length_erase_of_mem hdragged, hlast, Nat.add_sub_cancel]
  rcases Nat.eq_zero_or_pos last with rfl | hpos
  · -- a single row has one place only
    refine iff_of_true (fun position => ?_) (.inl le_rfl)
    have hfirst : ∀ item ∈ rows.order, rows.order.idxOf item = 0 := by
      intro item hitem
      have := List.idxOf_lt_length_iff.mpr hitem
      omega
    have honly : ∀ {pointerY index}, sceneDragRenderIndex pointerY grabOffset.2 bounds
        rows.scene.elements.length = some index → index = 0 := by
      intro pointerY index h
      have := sceneDragRenderIndex_lt h
      omega
    obtain ⟨index, hindex, ⟨-, hmove⟩ | ⟨hother, -⟩⟩ :=
      dragSceneItemOver_cases hgrab hbounds hdragged position
    · refine hstill position hmove fun item origin horigin => ?_
      by_cases hitem : item ∈ rows.order
      · rw [hfirst item hitem, hlength]
        exact congrArg some (Nat.zero_sub _)
      · rw [sceneItemOrigin_of_notMem hitem] at horigin
        cases horigin
    · exact absurd ((hfirst dragged hdragged).trans (honly hindex).symm) hother
  · rw [or_iff_right (by omega)]
    constructor
    · intro h
      have htall := (stays_iff grabOffset hdistinct hlast hpos).mp (h (0, 0)).stays
      -- a list that is tall enough lets the pointer reach every other place
      have hreach : ∀ index ≤ last, rows.order.idxOf dragged ≠ index → ∃ position, _ :=
        fun index hle hne => by
        obtain ⟨position, hindex⟩ := exists_position grabOffset htall hle
        rw [← hlength] at hindex
        exact ⟨position,
          (movesRow_of_reorder hgrab hbounds hdistinct hdragged hindex hne).mp (h position)⟩
      refine ⟨htall, ?_, ?_⟩
      · -- with more rows than an `i32` counts, some place is out of its range
        by_contra hlong
        obtain ⟨index, hle, hne, item, hitem, hother, hunplaced⟩ :=
          exists_unplaced hdistinct hdragged hlast (by omega)
        obtain ⟨position, -, hplaced, -⟩ := hreach index hle hne
        exact (hplaced item hitem hother).elim hunplaced.1 hunplaced.2
      · obtain ⟨index, hle, hne⟩ : ∃ index ≤ last, rows.order.idxOf dragged ≠ index := by
          by_cases hzero : rows.order.idxOf dragged = 0
          · exact ⟨1, hpos, by omega⟩
          · exact ⟨0, Nat.zero_le _, hzero⟩
        obtain ⟨position, -, -, hrest⟩ := hreach index hle hne
        exact hrest
    · rintro ⟨htall, hsmall, hrest⟩ position
      have hstays := (stays_iff grabOffset hdistinct hlast hpos).mpr htall
      obtain ⟨index, hindex, ⟨-, hmove⟩ | ⟨hother, -⟩⟩ :=
        dragSceneItemOver_cases hgrab hbounds hdragged position
      · exact hstill position hmove hstays
      · have hlt := sceneDragRenderIndex_lt hindex
        refine (movesRow_of_reorder hgrab hbounds hdistinct hdragged hindex hother).mpr
          ⟨hstays, fun item hitem hne => .inr ⟨?_, ?_⟩, hrest⟩
        · have hperm := List.perm_insertIdx dragged (rows.order.erase dragged) (i := index) (by omega)
          have hmem := hperm.mem_iff.mpr
            (List.mem_cons_of_mem dragged ((List.mem_erase_of_ne hne).mpr hitem))
          have := List.idxOf_lt_length_iff.mpr hmem
          rw [hperm.length_eq, List.length_cons, hothers] at this
          omega
        · have := List.idxOf_lt_length_iff.mpr hitem
          omega

/-- The elements always have identifiers of their own. -/
theorem distinct_of_reachable (h : sceneRowsSystem.Reachable rows) : rows.order.Nodup := by
  refine h.invariant (P := fun rows => rows.order.Nodup) ?_ ?_
  · rintro rows ⟨hdistinct, -⟩
    exact hdistinct
  intro rows label rows' hdistinct hstep
  cases label with
  | wait duration =>
    obtain ⟨-, heq⟩ := Option.ite_none_right_eq_some.mp hstep
    rw [← Option.some.inj heq]
    exact hdistinct
  | measure bounds =>
    rw [← Option.some.inj hstep]
    exact hdistinct
  | edit scene =>
    obtain ⟨hscene, heq⟩ := Option.ite_none_right_eq_some.mp hstep
    rw [← Option.some.inj heq]
    exact hscene
  | grab item grabOffset =>
    rw [← Option.some.inj hstep]
    exact hdistinct
  | move position =>
    obtain ⟨item, -, rfl⟩ := Option.map_eq_some_iff.mp hstep
    unfold dragSceneItemOver
    split
    · split
      · exact hdistinct
      · split
        · exact hdistinct
        · rename_i scene hscene
          have hperm := (Scene.moveToIndex_eq_some hscene).1.map SceneElement.id
          exact hperm.nodup_iff.mpr hdistinct
    · exact hdistinct
  | release mouse row =>
    obtain ⟨item, -, rfl⟩ := Option.map_eq_some_iff.mp hstep
    unfold animateSceneDragRelease
    split
    · exact hdistinct
    · dsimp only
      split
      · exact hdistinct
      · split <;> exact hdistinct

/-- At any time, wherever a row is dragged to, the list does what it should exactly when it shows the
middle of its last row, has at most 2^31 rows, and none of the others is sliding. Wherever a path has
led before, its last position decides the order. -/
theorem scene_drag_iff (h : sceneRowsSystem.Reachable rows)
    (hdragging : rows.draggingItem = some dragged)
    (hgrab : rows.grabOffset = some grabOffset) (hbounds : rows.listBounds = some bounds)
    (hdragged : dragged ∈ rows.order) :
    ((∀ position, rows.step (.move position) = some (rows.dragSceneItemOver dragged position) ∧
        rows.MovesRow bounds grabOffset dragged position) ↔
      rows.order.length ≤ 1 ∨
        (rows.order.length - 1 : ℕ) * sceneRowStride + 16 ≤ bounds.size.2 ∧ rows.order.length ≤ 2 ^ 31 ∧
          ∀ item ∈ rows.order, item ≠ dragged → rows.slide item = 0) ∧
    ∀ path last, (rows.dragPath dragged (path ++ [last])).order =
      (rows.dragSceneItemOver dragged last).order := by
  have hdistinct := distinct_of_reachable h
  refine ⟨?_, fun path last => order_dragPath hgrab hbounds hdistinct hdragged path last⟩
  rw [← movesRow_iff hgrab hbounds hdistinct hdragged]
  refine forall_congr' fun position => and_iff_right ?_
  rw [step, hdragging]
  rfl

/-! ### Three rows -/

private def threeRows : SceneRows where
  scene :=
    { elements := [⟨1, .color 1, insetLayout⟩, ⟨2, .color 2, insetLayout⟩, ⟨3, .color 3, insetLayout⟩]
      nextId := 4 }
  draggingItem := none
  grabOffset := none
  itemOffsets := fun _ => none
  animationStarted := none
  listBounds := none
  now := 0

private def shownBounds : Bounds where
  origin := (0, 0)
  size := (256, 200)

private def grabbedRows : SceneRows :=
  { threeRows with
    draggingItem := some 1
    grabOffset := some (0, 0)
    listBounds := some shownBounds }

/-- The row at the bottom has passed the next one. -/
private def slidingRows : SceneRows :=
  { grabbedRows.dragSceneItemOver 1 (0, 36) with now := 0.014 }

private theorem reachable_grabbedRows : sceneRowsSystem.Reachable grabbedRows := by
  refine ⟨threeRows, [.measure shownBounds, .grab 1 (0, 0)], ⟨by decide, rfl, rfl, rfl, rfl, rfl⟩, ?_⟩
  exact .cons rfl (.cons rfl (.nil _))

private theorem reachable_slidingRows : sceneRowsSystem.Reachable slidingRows := by
  have hwait : sceneRowsSystem.Run grabbedRows [.move (0, 36), .wait 0.014] slidingRows := by
    refine .cons rfl (.cons ?_ (.nil _))
    refine (if_pos (by norm_num)).trans ?_
    obtain ⟨-, -, hnow⟩ := frame_dragSceneItemOver grabbedRows 1 (0, 36)
    rw [hnow, slidingRows, show grabbedRows.now + 0.014 = 0.014 from zero_add _]
  exact reachable_grabbedRows.run hwait

theorem scene_drag_three_rows :
    grabbedRows.MovesRow shownBounds (0, 0) 1 (0, 36) ∧
      (grabbedRows.dragPath 1 [(0, 0), (0, 36)]).order =
        (grabbedRows.dragSceneItemOver 1 (0, 36)).order := by
  obtain ⟨hmoves, hpath⟩ := scene_drag_iff reachable_grabbedRows
    (rfl : grabbedRows.draggingItem = some 1)
    rfl rfl (by decide)
  refine ⟨(hmoves.mpr (.inr ⟨?_, by decide, ?_⟩) (0, 36)).2, hpath [(0, 0)] (0, 36)⟩
  · decide +kernel
  · intro item _ _
    exact zero_mul _

/-- The next row jumps when a second one is passed while it is still sliding. -/
theorem sliding_row_jumps :
    sceneRowsSystem.Reachable slidingRows ∧ slidingRows.drawnTop shownBounds 2 = some
      (72 - 36 * 0.59049) ∧
      (slidingRows.dragSceneItemOver 1 (0, 0)).drawnTop shownBounds 2 = some 72 ∧
        ¬ slidingRows.MovesRow shownBounds (0, 0) 1 (0, 0) := by
  have hbefore : slidingRows.drawnTop shownBounds 2 = some (72 - 36 * 0.59049) := by decide +kernel
  have hafter : (slidingRows.dragSceneItemOver 1 (0, 0)).drawnTop shownBounds 2 =
    some 72 := by decide +kernel
  refine ⟨reachable_slidingRows, hbefore, hafter, fun hmoves => ?_⟩
  have hdrawn := hmoves.drawn 2 (by decide)
  rw [hbefore, hafter, Option.some.injEq] at hdrawn
  norm_num at hdrawn

end Blip.Studio.Exact.SceneRows
