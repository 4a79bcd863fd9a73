import Blip.Server.AssetMatches
import Blip.Server.Http
import Mathlib.Data.List.Basic
import Mathlib.Order.CompletePartialOrder

/-!
# The objects of a recording

Which keys belong to a recording: its object key and, for an HLS recording, the assets beside its
playlist. The id of the recording can be read back from each of them, so no key belongs to two
recordings.
-/

namespace Blip.Server

/-! ## Asset names -/

theorem assetContentType_isSome_iff (name : String) :
    (∃ contentType, assetContentType name = some contentType) ↔ AssetName name.toList := by
  rw [assetContentType]
  split
  · rename_i hinit
    exact ⟨fun _ => .inl (congrArg String.toList hinit), fun _ => ⟨_, rfl⟩⟩
  · rename_i hinit
    have hsegment : isSegmentName name = true ↔ AssetName name.toList := by
      rw [isSegmentName, beq_iff_eq, matchSegment_eq_some]
      constructor
      · exact fun ⟨digits, hlength, hdigits, heq, _⟩ => .inr ⟨digits, hlength, hdigits, heq⟩
      · rintro (heq | ⟨digits, hlength, hdigits, heq⟩)
        · exact absurd (String.toList_inj.1 heq) hinit
        · exact ⟨digits, hlength, hdigits, heq, List.prefix_rfl⟩
    rw [← hsegment]
    split
    · rename_i hname
      exact ⟨fun _ => hname, fun _ => ⟨_, rfl⟩⟩
    · rename_i hname
      exact ⟨fun ⟨_, h⟩ => absurd h nofun, fun h => absurd h hname⟩

/-- Whatever the text, only asset names are found in it. -/
theorem assetName_of_mem {text name : List Char} (h : name ∈ assetNames text) : AssetName name := by
  suffices hfrom : ∀ skip, ∀ name ∈ matchAssetsFrom skip text, AssetName name from
    hfrom 0 name (List.mem_eraseDups.1 h)
  clear h
  induction text with
  | nil =>
    intro skip name h
    cases skip <;> exact absurd h List.not_mem_nil
  | cons c text ih =>
    intro skip name h
    cases skip with
    | succ skip => exact ih skip name h
    | zero =>
      rw [matchAssetsFrom] at h
      cases hmatch : matchAsset (c :: text) with
      | none =>
        rw [hmatch] at h
        exact ih 0 name h
      | some found =>
        rw [hmatch] at h
        rcases List.mem_cons.1 h with rfl | h
        · exact (matchAsset_eq_some.1 hmatch).1
        · exact ih _ name h

theorem AssetName.length_le {name : List Char} (h : AssetName name) : name.length ≤ 16 := by
  rcases h with rfl | ⟨digits, hlength, -, rfl⟩
  · decide
  · exact (length_segmentChars hlength).le

theorem AssetName.slash_not_mem {name : List Char} (h : AssetName name) : '/' ∉ name := by
  rcases h with rfl | ⟨digits, -, hdigits, rfl⟩
  · decide
  · unfold segmentChars
    rw [List.mem_append, List.mem_append]
    rintro ((hmem | hmem) | hmem)
    · exact absurd hmem (by decide)
    · exact absurd (hdigits _ hmem) (by decide)
    · exact absurd hmem (by decide)

/-! ## Keys -/

/-- The object key that `create` gives a recording. -/
def recordingKey (userId id : String) (hls : Bool) : String :=
  if hls then "users/" ++ userId ++ "/recordings/" ++ id ++ "/playlist.m3u8"
  else "users/" ++ userId ++ "/recordings/" ++ id ++ ".mp4"

/-- What `crypto.randomUUID` draws: 36 hexadecimal digits and dashes. -/
def IsUuid (id : String) : Prop :=
  id.toList.length = 36 ∧ ∀ c ∈ id.toList, c ∈ "0123456789abcdef-".toList

theorem IsUuid.slash_not_mem {id : String} (h : IsUuid id) : '/' ∉ id.toList := fun hmem =>
  absurd (h.2 _ hmem) (by decide)

/-- The keys of a recording's objects. -/
def VideoRecord.keys (video : VideoRecord) : Set String := fun key =>
  key = video.objectKey ∨
    isHls video.objectKey ∧ ∃ name, AssetName name.toList ∧ key = keyPrefix video.objectKey ++ name

/-- A key with the id in its place. -/
def KeyOf (id key : List Char) : Prop :=
  ∃ before, key = before ++ '/' :: (id ++ ".mp4".toList) ∨
    ∃ name, name.length ≤ 16 ∧ '/' ∉ name ∧ key = (before ++ '/' :: id) ++ '/' :: name

/-- A text is cut in one way at its last slash. -/
theorem append_slash_inj {before before' after after' : List Char} (h : '/' ∉ after)
    (h' : '/' ∉ after') (heq : before ++ '/' :: after = before' ++ '/' :: after') :
    before = before' ∧ after = after' := by
  have hcut := beforeLast_append h before
  rw [heq, beforeLast_append h' before'] at hcut
  have hbefore : before = before' := (String.ofList_injective (Option.some.inj hcut)).symm
  subst hbefore
  exact ⟨rfl, List.tail_eq_of_cons_eq (List.append_cancel_left heq)⟩

theorem slash_not_mem_mp4 {id : List Char} (h : '/' ∉ id) : '/' ∉ id ++ ".mp4".toList := by
  rw [List.mem_append, not_or]
  exact ⟨h, by decide⟩

theorem KeyOf.eq {id id' : String} {key : List Char} (hid : IsUuid id) (hid' : IsUuid id')
    (h : KeyOf id.toList key) (h' : KeyOf id'.toList key) : id = id' := by
  -- An MP4 key has a longer last component than an HLS asset.
  have hlong : ∀ {id : String} {name : List Char}, IsUuid id → name.length ≤ 16 →
      id.toList ++ ".mp4".toList ≠ name := by
    rintro id _ hid hname rfl
    rw [List.length_append, hid.1] at hname
    omega
  obtain ⟨before, rfl | ⟨name, hname, hslash, rfl⟩⟩ := h <;>
    obtain ⟨before', heq | ⟨name', hname', hslash', heq⟩⟩ := h'
  · have hlast := (append_slash_inj (slash_not_mem_mp4 hid.slash_not_mem)
      (slash_not_mem_mp4 hid'.slash_not_mem) heq).2
    exact String.toList_inj.1 (List.append_cancel_right hlast)
  · exact absurd (append_slash_inj (slash_not_mem_mp4 hid.slash_not_mem) hslash' heq).2
      (hlong hid hname')
  · exact absurd (append_slash_inj hslash (slash_not_mem_mp4 hid'.slash_not_mem) heq).2.symm
      (hlong hid' hname)
  · have hdirectory := (append_slash_inj hslash hslash' heq).1
    exact String.toList_inj.1
      (append_slash_inj hid.slash_not_mem hid'.slash_not_mem hdirectory).2

section

variable (userId id : String)

/-- The part of a recording's keys before its id. -/
private def recordingsDirectory : List Char := "users/".toList ++ userId.toList ++ "/recordings".toList

private theorem recordings_slash :
    "users/" ++ userId ++ "/recordings/" = String.ofList (recordingsDirectory userId ++ ['/']) := by
  refine String.toList_inj.1 ?_
  rw [String.toList_ofList, String.toList_append, String.toList_append]
  unfold recordingsDirectory
  rw [List.append_assoc (_ ++ _)]
  exact congrArg _ (by decide)

theorem toList_recordingKey_mp4 : (recordingKey userId id false).toList =
    recordingsDirectory userId ++ '/' :: (id.toList ++ ".mp4".toList) := by
  rw [recordingKey, if_neg Bool.false_ne_true, recordings_slash, String.toList_append,
    String.toList_append, String.toList_ofList]
  simp only [List.append_assoc, List.cons_append, List.nil_append]

theorem toList_recordingKey_hls : (recordingKey userId id true).toList =
    (recordingsDirectory userId ++ '/' :: id.toList) ++ '/' :: "playlist.m3u8".toList := by
  have hname : "/playlist.m3u8".toList = '/' :: "playlist.m3u8".toList := by decide
  rw [recordingKey, if_pos rfl, recordings_slash, String.toList_append,
    String.toList_append, String.toList_ofList, hname]
  simp only [List.append_assoc, List.cons_append, List.nil_append]

theorem toList_keyPrefix : (keyPrefix (recordingKey userId id true)).toList =
    (recordingsDirectory userId ++ '/' :: id.toList) ++ ['/'] := by
  have hkey : recordingKey userId id true = String.ofList
      ((recordingsDirectory userId ++ '/' :: id.toList) ++ '/' :: "playlist.m3u8".toList) :=
    String.toList_inj.1 ((toList_recordingKey_hls userId id).trans String.toList_ofList.symm)
  rw [hkey, keyPrefix, beforeLast_append (by decide)]
  dsimp only
  rw [String.toList_append, String.toList_ofList]
  exact congrArg _ (by decide)

theorem isHls_recordingKey : isHls (recordingKey userId id true) = true := by
  have hname : "/playlist.m3u8".toList = '/' :: "playlist.m3u8".toList := by decide
  rw [isHls, toList_recordingKey_hls, hname]
  exact List.isSuffixOf_iff_suffix.2 (List.suffix_append _ _)

variable {userId id}

theorem not_isHls_recordingKey (hid : IsUuid id) : isHls (recordingKey userId id false) = false := by
  rw [isHls, toList_recordingKey_mp4, ← Bool.not_eq_true, List.isSuffixOf_iff_suffix]
  rintro ⟨before, heq⟩
  have hname : "/playlist.m3u8".toList = '/' :: "playlist.m3u8".toList := by decide
  rw [hname] at heq
  have hlast := (append_slash_inj (by decide) (slash_not_mem_mp4 hid.slash_not_mem) heq).2
  have hlength := congrArg List.length hlast
  rw [List.length_append, hid.1] at hlength
  exact absurd hlength (by decide)

end

/-- A record under the key that `create` gives it. -/
def VideoRecord.Keyed (video : VideoRecord) : Prop :=
  IsUuid video.id ∧ ∃ hls, video.objectKey = recordingKey video.userId video.id hls

variable {video other : VideoRecord}

/-- Every key of a recording has its id in it. -/
theorem VideoRecord.Keyed.keyOf (h : video.Keyed) {key : String} (hkey : key ∈ video.keys) :
    KeyOf video.id.toList key.toList := by
  obtain ⟨hid, hls, hobject⟩ := h
  cases hls with
  | false =>
    rcases hkey with rfl | ⟨hhls, -⟩
    · rw [hobject, toList_recordingKey_mp4]
      exact ⟨_, .inl rfl⟩
    · rw [hobject, not_isHls_recordingKey hid] at hhls
      exact absurd hhls Bool.false_ne_true
  | true =>
    rcases hkey with rfl | ⟨-, name, hname, rfl⟩
    · rw [hobject, toList_recordingKey_hls]
      exact ⟨_, .inr ⟨_, by decide, by decide, rfl⟩⟩
    · rw [hobject, String.toList_append, toList_keyPrefix, List.append_assoc]
      exact ⟨_, .inr ⟨_, hname.length_le, hname.slash_not_mem, rfl⟩⟩

/-- No key belongs to two recordings. -/
theorem VideoRecord.Keyed.disjoint (h : video.Keyed) (hother : other.Keyed)
    (hne : video.id ≠ other.id) : Disjoint video.keys other.keys := by
  rw [Set.disjoint_left]
  exact fun key hkey hkey' => hne (KeyOf.eq h.1 hother.1 (h.keyOf hkey) (hother.keyOf hkey'))

end Blip.Server
