import Blip.Common.Answers
import Blip.Hls.AssetNames
import Blip.Server.RecordKeys

/-!
# Serving an HLS recording

From the names that the writer gives its assets to the URLs that a viewer is sent: the check before
the upload (`upload.rs`), the signing of an upload and the playlist that the server answers with.
-/

namespace Blip.Hls

open Avf Server

/-! ## The check before the upload -/

/-- `Path::extension`, of a file name. -/
def extension (name : String) : Option String :=
  match beforeLast '.' name with
  | none => none
  | some "" => none
  | some stem => some (String.ofList (name.toList.drop (stem.toList.length + 1)))

/-- `str::eq_ignore_ascii_case`. -/
def eqIgnoreAsciiCase (left right : String) : Bool :=
  left.toList.map Char.toLower == right.toList.map Char.toLower

/-- `validate_hls_asset`, of a file name: whether it is the initialization segment. -/
def validateHlsAsset (name : String) : Except String Bool :=
  if name = "init.mp4" then .ok true
  else if ¬ ("segment".toList.isPrefixOf name.toList ∧
      (extension name).any fun extension => eqIgnoreAsciiCase extension "m4s") then
    .error ("HLS recording contains an unexpected file: " ++ name)
  else .ok false

theorem validateHlsAsset_initializationSegmentName :
    validateHlsAsset initializationSegmentName = .ok true :=
  if_pos rfl

theorem extension_append {stem rest : List Char} (hstem : stem ≠ []) (hrest : '.' ∉ rest) :
    extension (String.ofList (stem ++ '.' :: rest)) = some (String.ofList rest) := by
  rw [extension, beforeLast_append hrest]
  split
  · rename_i hnone
    exact absurd hnone nofun
  · rename_i hempty
    have hlist := congrArg String.toList (Option.some.inj hempty)
    rw [String.toList_ofList] at hlist
    exact absurd hlist hstem
  · rename_i text _ hsome
    obtain rfl := Option.some.inj hsome
    rw [String.toList_ofList, String.toList_ofList, ← List.drop_drop, List.drop_left]
    rfl

theorem extension_segmentName (index : ℕ) : extension (segmentName index) = some "m4s" := by
  have heq : segmentName index =
      String.ofList (("segment".toList ++ segmentDigits index) ++ '.' :: "m4s".toList) := by
    refine String.toList_inj.1 ?_
    rw [toList_segmentName, String.toList_ofList]
    unfold segmentChars
    rw [show ".m4s".toList = '.' :: "m4s".toList from by decide]
  rw [heq, extension_append (List.append_ne_nil_of_left_ne_nil (by decide) _) (by decide)]
  exact congrArg some (String.ofList_toList)

theorem validateHlsAsset_segmentName (index : ℕ) :
    validateHlsAsset (segmentName index) = .ok false := by
  have hstart : "segment".toList.isPrefixOf (segmentName index).toList = true := by
    rw [toList_segmentName]
    unfold segmentChars
    rw [List.append_assoc]
    exact List.isPrefixOf_iff_prefix.2 (List.prefix_append _ _)
  have hne : segmentName index ≠ "init.mp4" := (segmentName_ne index).1
  rw [validateHlsAsset, if_neg hne, if_neg]
  rw [extension_segmentName]
  exact not_not_intro ⟨hstart, by decide⟩

/-! ## The playlist that the server answers with -/

/-- The answers to a request for the playlist of a recording: the record, the text in its bucket, and
the signed URL of each asset. -/
def Serves (video : VideoRecord) (text : String) (url : String → String) : (c : Call) → c.Answer → Prop
  | .findVideo _, answer => ∀ found, answer = .ok (some found) → found = video
  | .getObject _ _, answer => ∀ found, answer = .ok (some found) → found = text
  | .presignUrl request, answer => ∀ name signed, request.key = keyPrefix video.objectKey ++ name →
      answer = .ok signed → signed = url name
  | _, _ => True

section

variable {video : VideoRecord} {text : String} {url : String → String}

theorem yields_rewritePlaylist (config : StorageConfig) :
    Fallible.Yields (Serves video text url) (rewritePlaylist config video.objectKey text)
      (· = String.ofList (replaceNames (fun name => (url (String.ofList name)).toList)
        (assetNames text.toList) text.toList)) := by
  rw [rewritePlaylist]
  have hsign : ∀ name ∈ assetNames text.toList, Fallible.Yields (Serves video text url)
      (unavailable (ObjectStorage.signView config
        (keyPrefix video.objectKey ++ String.ofList name))) (· = url (String.ofList name)) := by
    intro name _
    refine .mapError (.mapError ?_)
    rintro (e | signed) hsigned
    · trivial
    · exact hsigned _ _ rfl rfl
  refine (Fallible.Yields.mapM _ hsign).bind fun urls hurls => .pure ?_
  rw [hurls, replaceNames, List.zip_map_right, List.zip_map_right, List.foldl_map, List.foldl_map]
  rfl

theorem yields_playlist (verified : Option (List String)) (request : HttpServerRequest)
    (id : String) :
    Fallible.Yields (Serves video text url) (Server.playlist verified request id)
      (· = String.ofList (replaceNames (fun name => (url (String.ofList name)).toList)
        (assetNames text.toList) text.toList)) := by
  rw [Server.playlist]
  have hfound : Fallible.Yields (Serves video text url) (internal (Repository.findVideo id))
      fun found => ∀ other, found = some other → other = video := by
    refine .mapError ?_
    rintro (e | found) hfound
    · trivial
    · rintro other rfl
      exact hfound other rfl
  refine hfound.bind fun found hvideo => ?_
  cases found with
  | none => exact .throw _
  | some found =>
    obtain rfl := hvideo found rfl
    refine .ite (fun _ => .throw _) fun _ => ?_
    refine (Fallible.Yields.trivial _).bind fun owner _ => ?_
    refine (Fallible.Yields.trivial _).bind fun authorized _ => ?_
    refine .ite (fun _ => ?_) fun _ => .ite (fun _ => .throw _) fun _ => .throw _
    refine (Fallible.Yields.trivial _).bind fun config _ => ?_
    have hread : Fallible.Yields (Serves found text url)
        (unavailable (ObjectStorage.readText config found.objectKey)) (· = text) := by
      refine .mapError (.mapError ?_)
      rintro (e | read) hread
      · trivial
      · cases read with
        | none => trivial
        | some read => exact hread read rfl
    refine hread.bind fun read hread => ?_
    rw [hread]
    exact yields_rewritePlaylist config

end

/-- Signed URLs of the assets that a playlist of some segments lists: none has a replacement pattern
or the name of another asset in it. -/
structure SignedUrls (count : ℕ) (url : String → String) : Prop where
  noPattern : ∀ name ∈ listedAssets count, ¬ HasPattern (url name).toList
  noOther : ∀ name ∈ listedAssets count, ∀ other ∈ listedAssets count, other ≠ name →
    ¬ other.toList <:+: (url name).toList

theorem SignedUrls.clean {configuredDuration : Duration} {durations : List Duration}
    {finished : Bool} {url : String → String} (h : SignedUrls durations.length url) :
    CleanUrls (assetNames (playlist configuredDuration durations finished).toList) fun name =>
      (url (String.ofList name)).toList := by
  have hlisted : ∀ name ∈ assetNames (playlist configuredDuration durations finished).toList,
      String.ofList name ∈ listedAssets durations.length := by
    intro name hname
    rw [← String.toList_ofList (l := name)] at hname
    exact ((mem_assetNames_playlist _ _ _).1 hname).2
  refine ⟨fun name hname => h.noPattern _ (hlisted name hname), fun name hname other hother hne => ?_⟩
  have hno := h.noOther _ (hlisted name hname) _ (hlisted other hother)
    fun heq => hne (String.ofList_inj.1 heq)
  rwa [String.toList_ofList] at hno

theorem assetName_of_mem_listedAssets {count : ℕ} (hcount : count ≤ 100000) {name : String}
    (h : name ∈ listedAssets count) : AssetName name.toList := by
  rcases mem_listedAssets.1 h with rfl | ⟨index, hindex, rfl⟩
  · exact .inl rfl
  · exact (assetName_segmentName_iff index).2 (by omega)

theorem playlistEntriesWith_congr {left right : String → String} {index : ℕ}
    {durations : List Duration}
    (h : ∀ segment < index + durations.length, left (segmentName segment) =
      right (segmentName segment)) :
    playlistEntriesWith left index durations = playlistEntriesWith right index durations := by
  induction durations generalizing index with
  | nil => rfl
  | cons duration durations ih =>
    rw [List.length_cons] at h
    rw [playlistEntriesWith, playlistEntriesWith, h index (by omega),
      ih fun segment hsegment => h segment (by omega)]

theorem playlistWith_congr {left right : String → String} (configuredDuration : Duration)
    {durations : List Duration} (finished : Bool)
    (h : ∀ name ∈ listedAssets durations.length, left name = right name) :
    playlistWith left configuredDuration durations finished =
      playlistWith right configuredDuration durations finished := by
  have hentries : playlistEntriesWith left 0 durations = playlistEntriesWith right 0 durations :=
    playlistEntriesWith_congr fun segment hsegment =>
      h _ (mem_listedAssets.2 (.inr ⟨segment, by omega, rfl⟩))
  unfold playlistWith
  rw [h _ (mem_listedAssets.2 (.inl rfl)), hentries]

/-- What the server answers for a playlist of the writer's with names of five digits: each reference
replaced by its URL. -/
theorem yields_playlistWith {configuredDuration : Duration} {durations : List Duration}
    {finished : Bool} (hcount : durations.length ≤ 100000) {url : String → String}
    (hurl : SignedUrls durations.length url) (video : VideoRecord) (verified : Option (List String))
    (request : HttpServerRequest) (id : String) :
    Fallible.Yields (Serves video (playlist configuredDuration durations finished) url)
      (Server.playlist verified request id)
      (· = playlistWith url configuredDuration durations finished) := by
  refine (yields_playlist verified request id).mono fun body hbody => ?_
  rw [hbody, replaceNames_playlist configuredDuration durations finished hurl.clean]
  exact playlistWith_congr configuredDuration finished fun name hname =>
    if_pos (assetName_of_mem_listedAssets hcount hname)

/-! ## Agreement -/

/-- The uploader, the signer and the server's playlist take the names that a recording is written
under. -/
structure NamesAgree (configured : Duration) (log : OutputLog) : Prop where
  uploaded : ∀ asset ∈ OutputLog.written log, ∃ initialization,
    validateHlsAsset asset.1 = .ok initialization
  signed : ∀ asset ∈ OutputLog.written log, ∃ contentType,
    assetContentType asset.1 = some contentType
  rewritten : ∀ before text files after, log = before ++ ⟨.published text, files⟩ :: after →
    (∀ name ∈ listedAssets (OutputLog.durations before).length,
      name.toList ∈ assetNames text.toList) ∧
    ∃ finished, ∀ url, SignedUrls (OutputLog.durations before).length url →
      ∀ video verified request id, Fallible.Yields (Serves video text url)
        (Server.playlist verified request id)
        (· = playlistWith url configured (OutputLog.durations before) finished)

theorem mem_written {log : OutputLog} {asset : String × List UInt8}
    (h : asset ∈ OutputLog.written log) : asset.1 = initializationSegmentName ∨
      ∃ segment ∈ OutputLog.segments log, asset.1 = segmentName segment.1 := by
  obtain ⟨event, hevent, hwritten⟩ := List.mem_filterMap.1 h
  cases haction : event.action with
  | wroteInitialization data =>
    rw [haction] at hwritten
    exact .inl (congrArg Prod.fst (Option.some.inj hwritten)).symm
  | wroteSegment index data duration =>
    rw [haction] at hwritten
    exact .inr ⟨(index, data, duration), List.mem_filterMap.2 ⟨event, hevent, by rw [haction]; rfl⟩,
      (congrArg Prod.fst (Option.some.inj hwritten)).symm⟩
  | published text =>
    rw [haction] at hwritten
    exact absurd hwritten nofun
  | reported asset =>
    rw [haction] at hwritten
    exact absurd hwritten nofun

theorem written_of_mem_segments {log : OutputLog} {segment : ℕ × List UInt8 × Duration}
    (h : segment ∈ OutputLog.segments log) :
    (segmentName segment.1, segment.2.1) ∈ OutputLog.written log := by
  obtain ⟨event, hevent, hsegment⟩ := List.mem_filterMap.1 h
  refine List.mem_filterMap.2 ⟨event, hevent, ?_⟩
  cases haction : event.action with
  | wroteSegment index data duration =>
    rw [haction] at hsegment
    obtain rfl := Option.some.inj hsegment
    rfl
  | wroteInitialization data =>
    rw [haction] at hsegment
    exact absurd hsegment nofun
  | published text =>
    rw [haction] at hsegment
    exact absurd hsegment nofun
  | reported asset =>
    rw [haction] at hsegment
    exact absurd hsegment nofun

/-- They agree exactly on recordings whose segments have numbers of five digits. -/
theorem namesAgree_of_faithful {configured : Duration} {deliveries : List Delivery}
    {log : OutputLog} (h : OutputLog.Faithful configured deliveries log) :
    NamesAgree configured log ↔ (OutputLog.segments log).length ≤ 100000 := by
  have hnumber : ∀ index, (∃ segment ∈ OutputLog.segments log, segment.1 = index) ↔
      index < (OutputLog.segments log).length := by
    intro index
    rw [← List.mem_range, ← h.numbered, List.mem_map]
  constructor
  · intro hagree
    by_contra hcount
    obtain ⟨segment, hsegment, hindex⟩ := (hnumber 100000).2 (by omega)
    have hsigned := (assetContentType_isSome_iff _).1
      (hagree.signed _ (written_of_mem_segments hsegment))
    exact absurd ((assetName_segmentName_iff segment.1).1 hsigned) (by omega)
  · intro hcount
    have hassetName : ∀ asset ∈ OutputLog.written log, AssetName asset.1.toList := by
      intro asset hasset
      rcases mem_written hasset with hinit | ⟨segment, hsegment, hname⟩
      · exact .inl (congrArg String.toList hinit)
      · rw [hname, assetName_segmentName_iff]
        have := (hnumber segment.1).1 ⟨segment, hsegment, rfl⟩
        omega
    refine ⟨fun asset hasset => ?_, fun asset hasset =>
      (assetContentType_isSome_iff _).2 (hassetName asset hasset), ?_⟩
    · rcases mem_written hasset with hinit | ⟨segment, -, hname⟩
      · exact ⟨true, hinit ▸ validateHlsAsset_initializationSegmentName⟩
      · exact ⟨false, hname ▸ validateHlsAsset_segmentName segment.1⟩
    · intro before text files after hlog
      obtain ⟨⟨finished, rfl⟩, -⟩ := h.fits before _ after hlog
      have hbefore : (OutputLog.durations before).length ≤ 100000 := by
        have hstart : before <+: log := ⟨_, hlog.symm⟩
        have hlength := (hstart.filterMap fun event => event.action.segment).length_le
        rw [OutputLog.durations, List.length_map]
        exact hlength.trans hcount
      refine ⟨fun name hname => ?_, finished, fun url hurl video verified request id =>
        yields_playlistWith hbefore hurl video verified request id⟩
      exact (mem_assetNames_playlist _ _ _).2
        ⟨assetName_of_mem_listedAssets hbefore hname, hname⟩

/-- Whatever is handed over and however finishing goes, the readers of the names agree with the writer
if and only if it has written 100000 segments at most. -/
theorem names_agree_iff (configured : Duration) (hconfigured : configured.asMicros ≤ i64Max)
    (deliveries later : List Delivery) (answers : Answers) (playlistAnswers : PlaylistAnswers)
    (writer : Writer) :
    let log := (HlsWriter.finishOver answers later playlistAnswers writer
      (deliverAll deliveries (.new configured))).2.log
    NamesAgree configured log ↔ (OutputLog.segments log).length ≤ 100000 :=
  namesAgree_of_faithful
    (faithful_finishOver (longest_of_asMicros hconfigured) deliveries later answers
      playlistAnswers writer)

theorem names_agree_iff_two_seconds :
    let writer := Writer.new false ⟨40000000⟩
    let answers : Answers :=
      { ready := true
        accepts := true
        writerError := ""
        audioSampleBuffer := .ok ()
        errorBefore := .ok ()
        errorAfter := .ok ()
        finishAssetWriter := .ok ()
        finishPlaylist := .ok () }
    let log := (HlsWriter.finishOver answers [] ⟨.written, none⟩ writer
      (deliverAll [.written .initialization none] (.new ⟨2000000000⟩))).2.log
    NamesAgree ⟨2000000000⟩ log ↔ (OutputLog.segments log).length ≤ 100000 :=
  names_agree_iff ⟨2000000000⟩ (by decide) [.written .initialization none] [] _ _ _

/-- Segments that are written without an initialization segment. -/
theorem deliverAll_replicate (count : ℕ) {output : HlsOutput} (herror : output.sink.error = none)
    (hinit : output.sink.initialized = false) :
    (deliverAll (List.replicate count (.written .separable none)) output).sink.error = none := by
  induction count generalizing output with
  | zero => exact herror
  | succ count ih =>
    rw [List.replicate_succ, deliverAll, List.foldl_cons]
    have hwritten : (didOutputSegment (.written .separable none) output).sink.error = none ∧
        (didOutputSegment (.written .separable none) output).sink.initialized = false := by
      obtain ⟨⟨configured, durations, callback, initialized, finished, error⟩, files, log⟩ := output
      obtain rfl : error = none := herror
      obtain rfl : initialized = false := hinit
      cases callback <;> exact ⟨rfl, rfl⟩
    exact ih hwritten.1 hwritten.2

/-- The segment after the first 100000 is written under a name that the server does not sign. -/
theorem names_disagree :
    ¬ NamesAgree ⟨2000000000⟩
      (deliverAll (List.replicate 100001 (.written .separable none)) (.new ⟨2000000000⟩)).log := by
  have hnone := @deliverAll_replicate 100001 (.new ⟨2000000000⟩) rfl rfl
  have hafter := after_deliverAll ⟨2000000000⟩ (List.replicate 100001 (.written .separable none))
  rw [namesAgree_of_faithful (hafter.faithful (by decide))]
  rcases hafter with ⟨-, -, hrecorded⟩ | ⟨herror, -⟩
  · have hlength := congrArg List.length hrecorded
    rw [OutputLog.recorded, List.length_map] at hlength
    rw [hlength]
    have hrecording : (Delivery.written .separable none).recording ⟨2000000000⟩ =
      some ([0], ⟨2000000000⟩) := rfl
    rw [List.filterMap_replicate_of_some hrecording, List.length_replicate]
    decide
  · rw [hnone] at herror
    exact absurd herror Bool.false_ne_true

/-! ## The body of the playlist -/

/-- The body that the server answers with, for a playlist of the writer's with at most 100000
segments: the playlist with each reference to an asset replaced by the asset's signed URL, and nothing
else changed. -/
theorem playlist_substituted (configuredDuration : Duration) (durations : List Duration)
    (finished : Bool) (hcount : durations.length ≤ 100000) (url : String → String)
    (hurl : SignedUrls durations.length url) (video : VideoRecord) (verified : Option (List String))
    (request : HttpServerRequest) (id : String) :
    Fallible.Yields (Serves video (playlist configuredDuration durations finished) url)
      (Server.playlist verified request id)
      (· = playlistWith url configuredDuration durations finished) :=
  yields_playlistWith hcount hurl video verified request id

/-- A signed URL as the storage gives it. -/
def bucketUrl (name : String) : String :=
  "https://bucket/recording/" ++ name ++ "?X-Amz-Expires=3600"

theorem signedUrls_bucketUrl : SignedUrls 2 bucketUrl where
  noPattern := by
    rintro name hname ⟨mark, -, hwithin⟩
    have hdollar : ∀ name ∈ listedAssets 2, '$' ∉ (bucketUrl name).toList := by decide +kernel
    exact hdollar name hname (hwithin.subset List.mem_cons_self)
  noOther := by decide +kernel

theorem playlist_substituted_two_segments :
    let text := playlist ⟨2000000000⟩ [⟨2000000000⟩, ⟨1500000000⟩] true
    let video : VideoRecord :=
      { id := "r"
        userId := "u"
        name := "n"
        createdAt := "t"
        objectKey := "users/u/recordings/r/playlist.m3u8"
        uploadId := "p"
        storageConfig := "c"
        status := .complete
        privacy := .«public»
        passwordHash := none }
    Fallible.Yields (Serves video text bucketUrl)
      (Server.playlist none { headers := [], cookies := [], protocol := none } "r")
      (· = playlistWith bucketUrl ⟨2000000000⟩ [⟨2000000000⟩, ⟨1500000000⟩] true) :=
  playlist_substituted ⟨2000000000⟩ [⟨2000000000⟩, ⟨1500000000⟩] true (by decide) bucketUrl
    signedUrls_bucketUrl _ none _ "r"

end Blip.Hls
