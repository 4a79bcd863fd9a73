import Blip.Studio.SceneRows

/-!
# Where a dragged row goes

A move of the pointer takes the dragged element out of the order and puts it in where the pointer is, so
the last position of a path decides. The rows stay where they are drawn as long as none is still sliding,
and a row that has not moved keeps its place as long as the list shows the middle of its last row.
-/

namespace Blip.Studio.Exact

/-! ## Lists with an element moved -/

section

variable {α : Type} [DecidableEq α] {l : List α} {a b : α} {k : ℕ}

theorem insertIdx_idxOf_erase (h : a ∈ l) : (l.erase a).insertIdx (l.idxOf a) a = l := by
  induction l with
  | nil => cases h
  | cons c l ih =>
    by_cases hc : c = a
    · subst hc
      simp
    · have hmem : a ∈ l := (List.mem_cons.mp h).resolve_left (Ne.symm hc)
      rw [List.erase_cons_tail (by simpa using hc), List.idxOf_cons_ne _ hc, List.insertIdx_succ_cons,
        ih hmem]

theorem idxOf_insertIdx (hne : b ≠ a) (hb : b ∈ l) (hk : k ≤ l.length) :
    (l.insertIdx k a).idxOf b = if l.idxOf b < k then l.idxOf b else l.idxOf b + 1 := by
  induction l generalizing k with
  | nil => cases hb
  | cons c l ih =>
    cases k with
    | zero => rw [List.insertIdx_zero, List.idxOf_cons_ne _ (Ne.symm hne), if_neg (Nat.not_lt_zero _)]
    | succ k =>
      rw [List.insertIdx_succ_cons]
      by_cases hc : c = b
      · subst hc
        simp
      · have hmem : b ∈ l := (List.mem_cons.mp hb).resolve_left (Ne.symm hc)
        rw [List.idxOf_cons_ne _ hc, List.idxOf_cons_ne _ hc, ih hmem (Nat.le_of_succ_le_succ hk)]
        split_ifs <;> omega

theorem erase_insertIdx (h : a ∉ l) (hk : k ≤ l.length) : (l.insertIdx k a).erase a = l := by
  induction l generalizing k with
  | nil =>
    obtain rfl := Nat.le_zero.mp hk
    simp
  | cons c l ih =>
    obtain ⟨hne, hrest⟩ := not_or.mp (mt List.mem_cons.mpr h)
    cases k with
    | zero => rw [List.insertIdx_zero, List.erase_cons_head]
    | succ k =>
      rw [List.insertIdx_succ_cons, List.erase_cons_tail (by simpa using Ne.symm hne),
        ih hrest (Nat.le_of_succ_le_succ hk)]

theorem idxOf_insertIdx_self (h : a ∉ l) (hk : k ≤ l.length) : (l.insertIdx k a).idxOf a = k := by
  induction l generalizing k with
  | nil =>
    obtain rfl := Nat.le_zero.mp hk
    simp
  | cons c l ih =>
    obtain ⟨hne, hrest⟩ := not_or.mp (mt List.mem_cons.mpr h)
    cases k with
    | zero => rw [List.insertIdx_zero, List.idxOf_cons_self]
    | succ k =>
      rw [List.insertIdx_succ_cons, List.idxOf_cons_ne _ (Ne.symm hne),
        ih hrest (Nat.le_of_succ_le_succ hk)]

/-- Where another element was before one is taken out. -/
theorem idxOf_eq_of_erase (ha : a ∈ l) (hb : b ∈ l) (hne : b ≠ a) :
    l.idxOf b = if (l.erase a).idxOf b < l.idxOf a then (l.erase a).idxOf b
      else (l.erase a).idxOf b + 1 := by
  have hlength := List.idxOf_lt_length_iff.mpr ha
  have herase := List.length_erase_of_mem ha
  have hmoved := idxOf_insertIdx (l := l.erase a) (k := l.idxOf a) hne
    ((List.mem_erase_of_ne hne).mpr hb) (by omega)
  rwa [insertIdx_idxOf_erase ha] at hmoved

end

/-! ## Maps from entries -/

section

variable {κ ν : Type} [DecidableEq κ] {entries : List (κ × ν)} {key : κ} {value : ν}

private theorem foldl_update_of_notMem (map : κ → Option ν) (h : key ∉ entries.map Prod.fst) :
    entries.foldl (fun (map : κ → Option ν) entry => Function.update map entry.1 (some entry.2)) map
      key =
      map key := by
  induction entries generalizing map with
  | nil => rfl
  | cons entry entries ih =>
    obtain ⟨hne, hrest⟩ := not_or.mp (mt List.mem_cons.mpr h)
    rw [List.foldl_cons, ih _ hrest, Function.update_of_ne hne]

theorem collect_of_notMem (h : key ∉ entries.map Prod.fst) : collect entries key = none :=
  foldl_update_of_notMem _ h

/-- With one entry for each key, a map has the entries it was collected from. -/
theorem collect_of_mem (h : (entries.map Prod.fst).Nodup) (hmem : (key, value) ∈ entries) :
    collect entries key = some value := by
  obtain ⟨before, after, rfl⟩ := List.append_of_mem hmem
  rw [List.map_append, List.map_cons, List.nodup_middle] at h
  have hafter : key ∉ after.map Prod.fst := fun hmem =>
    (List.nodup_cons.mp h).1 (List.mem_append_right _ hmem)
  rw [collect, List.foldl_append, List.foldl_cons, foldl_update_of_notMem _ hafter, Function.update_self]

end

/-! ## Offsets -/

section

variable {previous : List ElementId} {scene : Scene} {item dragged : ElementId} {bounds : Bounds}

private theorem collect_zipIdx (h : previous.Nodup) (hitem : item ∈ previous) :
    collect previous.zipIdx item = some (previous.idxOf item) := by
  have hlt := List.idxOf_lt_length_iff.mpr hitem
  refine collect_of_mem ?_ (List.mem_zipIdx_iff_getElem?.mpr ?_)
  · rw [List.zipIdx_map_fst]
    exact h
  · rw [List.getElem?_eq_getElem hlt, List.getElem_idxOf hlt]

private theorem findIdx?_id (h : item ∈ sceneOrder scene) :
    scene.elements.findIdx? (·.id = item) = some ((sceneOrder scene).idxOf item) := by
  rw [List.findIdx?_eq_some_iff_findIdx_eq]
  have hlt := List.idxOf_lt_length_iff.mpr h
  have hindex : (sceneOrder scene).idxOf item = scene.elements.findIdx (·.id = item) := by
    rw [sceneOrder, List.idxOf, List.findIdx_map]
    rfl
  rw [sceneOrder, List.length_map] at hlt
  exact ⟨hlt, hindex.symm⟩

private theorem idxOf_of_mem_zipIdx (horder : (sceneOrder scene).Nodup) {element : SceneElement}
    {index : ℕ}
    (h : (element, index) ∈ scene.elements.zipIdx) : index = (sceneOrder scene).idxOf element.id := by
  have hget : (sceneOrder scene)[index]? = some element.id := by
    rw [sceneOrder, List.getElem?_map, List.mem_zipIdx_iff_getElem?.mp h]
    rfl
  obtain ⟨hlt, hid⟩ := List.getElem?_eq_some_iff.mp hget
  rw [← hid]
  exact (horder.idxOf_getElem index hlt).symm

private theorem map_fst_filterMap_sublist {α κ ν : Type} {f : α → Option (κ × ν)} {key : α → κ}
    (l : List α) (h : ∀ a entry, f a = some entry → entry.1 = key a) :
    ((l.filterMap f).map Prod.fst).Sublist (l.map key) := by
  induction l with
  | nil => exact List.Sublist.slnil
  | cons a l ih =>
    cases hf : f a with
    | none =>
      rw [List.filterMap_cons_none hf]
      exact ih.cons _
    | some entry =>
      rw [List.filterMap_cons_some hf, List.map_cons, List.map_cons, h a entry hf]
      exact ih.cons_cons _

private theorem reorderOffset_fst {previousIndices : ElementId → Option ℕ} {entry : SceneElement × ℕ}
    {found : ElementId × ℚ} (h : reorderOffset previousIndices dragged entry = some found) :
    found.1 = entry.1.id := by
  obtain ⟨-, h⟩ := Option.ite_none_left_eq_some.mp h
  obtain ⟨_, -, h⟩ := Option.bind_eq_some_iff.mp h
  obtain ⟨_, -, h⟩ := Option.bind_eq_some_iff.mp h
  obtain ⟨_, -, h⟩ := Option.bind_eq_some_iff.mp h
  obtain ⟨-, h⟩ := Option.ite_none_right_eq_some.mp h
  rw [← Option.some.inj h]

private theorem reorderOffset_eq {previousIndices : ElementId → Option ℕ} {element : SceneElement}
    {oldIndex newIndex : ℕ} (hne : element.id ≠ dragged)
    (hold : previousIndices element.id = some oldIndex) :
    reorderOffset previousIndices dragged (element, newIndex) =
      if (newIndex < 2 ^ 31 ∧ oldIndex < 2 ^ 31) ∧ newIndex ≠ oldIndex then
        some (element.id, ((newIndex : ℚ) - oldIndex) * sceneRowStride)
      else none := by
  rw [reorderOffset, if_neg hne]
  simp only [hold, Option.bind_eq_bind, Option.bind_some]
  -- an index that is not an `i32` has no offset, and neither has a row that stays
  by_cases hnew : newIndex < 2 ^ 31
  swap
  · have hindex : i32OfIndex newIndex = none := if_neg hnew
    rw [hindex, Option.bind_none]
    exact (if_neg (by tauto)).symm
  by_cases hprevious : oldIndex < 2 ^ 31
  swap
  · have hindex : i32OfIndex oldIndex = none := if_neg hprevious
    simp only [hindex, Option.bind_none, Option.bind_fun_none]
    exact (if_neg (by tauto)).symm
  have hindices : i32OfIndex newIndex = some (newIndex : ℤ) ∧ i32OfIndex oldIndex = some
    (oldIndex : ℤ) :=
    ⟨if_pos hnew, if_pos hprevious⟩
  rw [hindices.1, hindices.2, Option.bind_some, Option.bind_some]
  by_cases heq : newIndex = oldIndex
  · rw [if_neg (by omega)]
    exact (if_neg (by tauto)).symm
  · rw [if_pos (by omega), if_pos ⟨⟨hnew, hprevious⟩, heq⟩]
    push_cast
    rfl

/-- The offset of a row that is not dragged is what its place has changed by, while places are 32-bit
integers. -/
theorem sceneReorderOffsets_eq (hprevious : previous.Nodup) (horder : (sceneOrder scene).Nodup)
    (hne : item ≠ dragged) (hold : item ∈ previous) (hnew : item ∈ sceneOrder scene) :
    (sceneReorderOffsets previous scene dragged item).getD 0 =
      if (sceneOrder scene).idxOf item < 2 ^ 31 ∧ previous.idxOf item < 2 ^ 31 then
        (((sceneOrder scene).idxOf item : ℚ) - previous.idxOf item) * sceneRowStride
      else 0 := by
  have hentry : ∀ {element : SceneElement} (newIndex : ℕ), element.id = item →
      reorderOffset (collect previous.zipIdx) dragged (element, newIndex) =
        if (newIndex < 2 ^ 31 ∧ previous.idxOf item < 2 ^ 31) ∧ newIndex ≠ previous.idxOf item then
          some (item, ((newIndex : ℚ) - previous.idxOf item) * sceneRowStride)
        else none := by
    rintro element newIndex rfl
    exact reorderOffset_eq hne (collect_zipIdx hprevious hold)
  have hkeys : ((scene.elements.zipIdx.filterMap
      (reorderOffset (collect previous.zipIdx) dragged)).map Prod.fst).Nodup := by
    refine List.Nodup.sublist (map_fst_filterMap_sublist _ fun entry found => reorderOffset_fst) ?_
    have hids : scene.elements.zipIdx.map (fun entry => entry.1.id) = sceneOrder scene := by
      rw [sceneOrder, ← List.zipIdx_map_fst 0 scene.elements, List.map_map]
      rw [List.zipIdx_map_fst]
      rfl
    rw [hids]
    exact horder
  by_cases hmoved : ((sceneOrder scene).idxOf item < 2 ^ 31 ∧ previous.idxOf item < 2 ^ 31) ∧
      (sceneOrder scene).idxOf item ≠ previous.idxOf item
  · -- the entry of the row is found at its new place
    obtain ⟨element, helement, hid⟩ := List.mem_map.mp hnew
    obtain ⟨index, hindex⟩ := List.getElem?_of_mem helement
    have hmem : (element, index) ∈ scene.elements.zipIdx := List.mem_zipIdx_iff_getElem?.mpr hindex
    have hplace := idxOf_of_mem_zipIdx horder hmem
    rw [hid] at hplace
    have hfound := hentry index hid
    rw [hplace, if_pos hmoved, ← hplace] at hfound
    rw [sceneReorderOffsets, collect_of_mem hkeys (List.mem_filterMap.mpr ⟨_, hmem, hfound⟩),
      if_pos hmoved.1, hplace]
    rfl
  · rw [sceneReorderOffsets, collect_of_notMem]
    · split_ifs with hsmall
      · have heq := not_not.mp fun h => hmoved ⟨hsmall, h⟩
        rw [heq, sub_self, zero_mul]
        rfl
      · rfl
    · -- an entry could only come from the row's own element, which has none
      intro hkey
      obtain ⟨found, hfound, hid⟩ := List.mem_map.mp hkey
      obtain ⟨⟨element, index⟩, hmem, hvalue⟩ := List.mem_filterMap.mp hfound
      have helement : element.id = item := (reorderOffset_fst hvalue).symm.trans hid
      have hplace := idxOf_of_mem_zipIdx horder hmem
      rw [hentry index helement, hplace, helement, if_neg hmoved] at hvalue
      cases hvalue

/-- The rows are a stride apart, the last element's at the top. -/
theorem sceneItemOrigin_of_mem (bounds : Bounds) (h : item ∈ sceneOrder scene) :
    sceneItemOrigin scene item bounds = some (bounds.origin.1, bounds.origin.2 +
      ((sceneOrder scene).length - 1 - (sceneOrder scene).idxOf item : ℚ) * sceneRowStride) := by
  have hlt := List.idxOf_lt_length_iff.mpr h
  rw [sceneItemOrigin, findIdx?_id h, Option.map_some, sceneOrder, ← List.length_map SceneElement.id]
  rw [sceneOrder] at hlt
  dsimp only
  rw [Nat.cast_sub hlt]
  push_cast
  congr 2
  ring

theorem sceneItemOrigin_of_notMem (h : item ∉ sceneOrder scene) :
    sceneItemOrigin scene item bounds = none := by
  rw [sceneItemOrigin, Option.map_eq_none_iff, List.findIdx?_eq_none_iff]
  intro element helement
  refine decide_eq_false fun hid => h ?_
  exact List.mem_map.mpr ⟨element, helement, hid⟩

/-! ## Places -/

theorem length_sceneOrder (scene : Scene) : (sceneOrder scene).length = scene.elements.length :=
  List.length_map _

/-- An element is taken out and put in where it should be, unless it is there. -/
theorem moveToIndex_cases {index : ℕ} (hitem : item ∈ sceneOrder scene)
    (hindex : index < scene.elements.length) :
    (sceneOrder scene).idxOf item = index ∧ scene.moveToIndex item index = none ∨
      (sceneOrder scene).idxOf item ≠ index ∧ ∃ scene', scene.moveToIndex item index = some scene' ∧
        sceneOrder scene' = ((sceneOrder scene).erase item).insertIdx index item := by
  have hlt := List.idxOf_lt_length_iff.mpr hitem
  rw [length_sceneOrder] at hlt
  have hmin : min index (scene.elements.length - 1) = index := by omega
  rw [Scene.moveToIndex, findIdx?_id hitem]
  simp only [hmin]
  by_cases heq : (sceneOrder scene).idxOf item = index
  · exact .inl ⟨heq, if_pos heq⟩
  · refine .inr ⟨heq, ?_⟩
    rw [if_neg heq, List.getElem?_eq_getElem hlt]
    refine ⟨_, rfl, ?_⟩
    have hid : (scene.elements[(sceneOrder scene).idxOf item]).id = item := by
      have hget := List.getElem_idxOf (List.idxOf_lt_length_iff.mpr hitem)
      simp only [sceneOrder, List.getElem_map] at hget ⊢
      exact hget
    have herase : (sceneOrder scene).erase item =
        (scene.elements.eraseIdx ((sceneOrder scene).idxOf item)).map SceneElement.id := by
      rw [List.erase_eq_eraseIdx_of_idxOf rfl, sceneOrder, List.eraseIdx_map]
    rw [herase, sceneOrder, List.map_insertIdx, hid]

end

/-! ### Under the pointer -/

section

variable {bounds : Bounds} {last place : ℕ} {grabOffsetY : ℚ}

theorem sceneDragRenderIndex_lt {pointerY : ℚ} {count index : ℕ}
    (h : sceneDragRenderIndex pointerY grabOffsetY bounds count = some index) : index < count := by
  cases count with
  | zero => cases h
  | succ last =>
    rw [← Option.some.inj h]
    omega

/-- Over the place of a row, the index is found from the part of the list that is shown. -/
theorem sceneDragRenderIndex_row (grabOffsetY : ℚ) (bounds : Bounds) (last place : ℕ) :
    sceneDragRenderIndex (bounds.origin.2 + place * sceneRowStride + grabOffsetY) grabOffsetY bounds
        (last + 1) =
      some (last - min ⌊(min (place * sceneRowStride) (max (bounds.size.2 - 32) 0) + 16) /
        sceneRowStride⌋.toNat last) := by
  have hnonneg : (0 : ℚ) ≤ place * sceneRowStride := by
    unfold sceneRowStride
    positivity
  have hcenter : max bounds.origin.2 (min (bounds.origin.2 + place * sceneRowStride + grabOffsetY
    - grabOffsetY)
      (max (bounds.origin.2 + bounds.size.2 - 32) bounds.origin.2)) + 16 - bounds.origin.2 =
        min (place * sceneRowStride) (max (bounds.size.2 - 32) 0) + 16 := by
    have hlimit : max (bounds.origin.2 + bounds.size.2 - 32) bounds.origin.2 =
        bounds.origin.2 + max (bounds.size.2 - 32) 0 := by
      rw [← max_add_add_left, add_zero, add_sub_assoc]
    rw [hlimit, add_sub_cancel_right, min_add_add_left, max_eq_right]
    · ring
    · exact le_add_of_nonneg_right (le_min hnonneg (le_max_right _ _))
  simp only [sceneDragRenderIndex, clampedSceneDragOrigin, hcenter]

/-- A list that shows the middle of its last row finds each row at its own place. -/
theorem sceneDragRenderIndex_of_tall (htall : last * sceneRowStride + 16 ≤ bounds.size.2)
    (hplace : place ≤ last) (grabOffsetY : ℚ) :
    sceneDragRenderIndex (bounds.origin.2 + place * sceneRowStride + grabOffsetY) grabOffsetY bounds
      (last + 1) = some (last - place) := by
  rw [sceneDragRenderIndex_row]
  have hle : (place : ℚ) ≤ last := by exact_mod_cast hplace
  have hfloor : ⌊(min (place * sceneRowStride)
    (max (bounds.size.2 - 32) 0) + 16) / sceneRowStride⌋ = place := by
    unfold sceneRowStride at *
    have hmin : place * 36 - 16 ≤ min ((place : ℚ) * 36) (max (bounds.size.2 - 32) 0) := by
      refine le_min (by linarith) (le_max_of_le_left ?_)
      linarith
    have hle' := min_le_left ((place : ℚ) * 36) (max (bounds.size.2 - 32) 0)
    rw [Int.floor_eq_iff]
    push_cast
    constructor <;> linarith
  rw [hfloor, Int.toNat_natCast, min_eq_left hplace]

/-- Otherwise the last row is not found at its place. -/
theorem sceneDragRenderIndex_of_short (hshort : bounds.size.2 < last * sceneRowStride + 16)
    (hlast : 0 < last) (grabOffsetY : ℚ) :
    sceneDragRenderIndex (bounds.origin.2 + last * sceneRowStride + grabOffsetY) grabOffsetY bounds
      (last + 1) ≠ some 0 := by
  rw [sceneDragRenderIndex_row]
  have hone : (1 : ℚ) ≤ last := by exact_mod_cast hlast
  have hfloor : ⌊(min (last * sceneRowStride) (max (bounds.size.2 - 32) 0) + 16) / sceneRowStride⌋ <
    last := by
    unfold sceneRowStride at *
    have hmax : max (bounds.size.2 - 32) 0 < last * 36 - 16 := max_lt (by linarith) (by linarith)
    have hle := min_le_right ((last : ℚ) * 36) (max (bounds.size.2 - 32) 0)
    rw [Int.floor_lt]
    push_cast
    linarith
  intro heq
  have := Option.some.inj heq
  omega

end

end Blip.Studio.Exact
