import Blip.Avf.HlsOutput
import Blip.Server.AssetMatches

/-!
# The asset names of an HLS playlist

The playlist that the writer publishes, read as the server reads it: which of its names the server's
patterns match, and what replacing them makes of the text.
-/

namespace Blip.Hls

open Avf Server Replace

/-! ## Names -/

/-- The digits in the name of a segment. -/
def segmentDigits (index : ℕ) : List Char := (Nat.toDigits 10 index).leftpad 5 '0'

theorem toList_segmentName (index : ℕ) :
    (segmentName index).toList = segmentChars (segmentDigits index) := by
  unfold segmentName segmentChars
  rw [String.toList_append, String.toList_append]
  exact congrArg (fun digits => "segment".toList ++ digits ++ ".m4s".toList) String.toList_ofList

theorem isDigit_of_mem_segmentDigits {index : ℕ} : ∀ c ∈ segmentDigits index, c.isDigit = true := by
  intro c hc
  rw [segmentDigits, List.leftpad] at hc
  rcases List.mem_append.1 hc with hc | hc
  · obtain rfl := List.eq_of_mem_replicate hc
    rfl
  · exact Nat.isDigit_of_mem_toDigits (by decide) (by decide) hc

theorem length_segmentDigits (index : ℕ) :
    (segmentDigits index).length = max 5 (Nat.toDigits 10 index).length :=
  List.length_leftpad

theorem length_segmentDigits_eq_iff (index : ℕ) :
    (segmentDigits index).length = 5 ↔ index < 100000 := by
  have hlength := @Nat.length_toDigits_le_iff 10 index 5 (by decide) (by decide)
  rw [length_segmentDigits, ← show 10 ^ 5 = 100000 from rfl, ← hlength]
  exact max_eq_left_iff

theorem length_segmentChars_eq (digits : List Char) :
    (segmentChars digits).length = digits.length + 11 := by
  unfold segmentChars
  rw [List.length_append, List.length_append, show "segment".toList.length = 7 from by decide,
    show ".m4s".toList.length = 4 from by decide]
  omega

/-- The server's patterns have room for five digits. -/
theorem assetName_segmentName_iff (index : ℕ) :
    AssetName (segmentName index).toList ↔ index < 100000 := by
  rw [toList_segmentName, ← length_segmentDigits_eq_iff]
  constructor
  · rintro (hname | ⟨digits, hdigits, -, hname⟩)
    · exact absurd (congrArg List.head? hname) (by unfold segmentChars; simp)
    · have hlength := congrArg List.length hname
      rw [length_segmentChars_eq, length_segmentChars_eq, hdigits] at hlength
      omega
  · exact fun hlength => .inr ⟨_, hlength, isDigit_of_mem_segmentDigits, rfl⟩

theorem AssetName.exists_head {name : List Char} (h : AssetName name) :
    ∃ c rest, name = c :: rest ∧ (c = 'i' ∨ c = 's') ∧ rest ≠ [] := by
  rcases h with rfl | ⟨digits, -, -, rfl⟩
  · exact ⟨'i', "nit.mp4".toList, by decide, .inl rfl, by decide⟩
  · refine ⟨'s', "egment".toList ++ (digits ++ ".m4s".toList), ?_, .inr rfl, by simp⟩
    unfold segmentChars
    rw [List.append_assoc, show "segment".toList = 's' :: "egment".toList from by decide]
    rfl

/-- A text in which no asset name can begin. -/
def Plain (text : List Char) : Prop := ∀ c ∈ text, c ≠ 'i' ∧ c ≠ 's'

instance (text : List Char) : Decidable (Plain text) := List.decidableBAll _ _

theorem Plain.absent {text name : List Char} (h : Plain text) (hname : AssetName name) :
    ¬ name <:+: text := by
  obtain ⟨c, rest, rfl, hc, -⟩ := AssetName.exists_head hname
  intro hwithin
  have hmem := h c (hwithin.subset List.mem_cons_self)
  rcases hc with rfl | rfl
  · exact hmem.1 rfl
  · exact hmem.2 rfl

theorem Plain.solid {text : List Char} (h : Plain text) : Solid text := fun _ hname hwithin =>
  absurd hwithin (h.absent hname)

theorem Plain.append {left right : List Char} (hleft : Plain left) (hright : Plain right) :
    Plain (left ++ right) := fun c hc =>
  (List.mem_append.1 hc).elim (hleft c) (hright c)

theorem plain_of_digits {digits : List Char} (h : ∀ c ∈ digits, c.isDigit = true) :
    Plain digits := by
  intro c hc
  have hdigit := h c hc
  constructor <;> rintro rfl <;> exact absurd hdigit (by decide)

theorem eq_nil_of_infix_concat {c last : Char} {rest left : List Char} (hc : c ∉ left)
    (h : c :: rest <:+: left ++ [last]) : rest = [] := by
  obtain ⟨before, after, heq⟩ := h
  by_contra hrest
  have hinit : before ++ c :: rest ++ after = before ++ (c :: (rest ++ after)) := by simp
  rw [hinit] at heq
  have hne : rest ++ after ≠ [] := List.append_ne_nil_of_left_ne_nil hrest after
  obtain ⟨front, final, hfront⟩ := List.eq_nil_or_concat (rest ++ after) |>.resolve_left hne
  rw [hfront, List.concat_eq_append, ← List.cons_append, ← List.append_assoc] at heq
  have hleft := (List.append_inj' heq rfl).1
  exact hc (hleft ▸ List.mem_append_right before List.mem_cons_self)

/-- A segment's name has no asset name in it but itself. -/
theorem solid_segmentName (index : ℕ) : Solid (segmentName index).toList := by
  rw [toList_segmentName]
  intro name hname hwithin
  have hdigits := @isDigit_of_mem_segmentDigits index
  have hlength : 5 ≤ (segmentDigits index).length :=
    (length_segmentDigits index).symm ▸ le_max_left _ _
  generalize segmentDigits index = digits at hwithin hdigits hlength ⊢
  have hchars : segmentChars digits = 's' :: ("egment".toList ++ digits ++ ".m4".toList ++ ['s']) := by
    unfold segmentChars
    rw [show "segment".toList = 's' :: "egment".toList from by decide,
      show ".m4s".toList = ".m4".toList ++ ['s'] from by decide, List.cons_append, List.cons_append,
      List.append_assoc, List.append_assoc, List.append_assoc]
  have hplain : Plain ("egment".toList ++ digits ++ ".m4".toList) :=
    (Plain.append (by decide) (plain_of_digits hdigits)).append (by decide)
  rw [hchars, List.infix_cons_iff, ← hchars] at hwithin
  rcases hwithin with hstart | hwithin
  · rcases hname with rfl | ⟨five, hfive, hfiveDigits, rfl⟩
    · rw [hchars, show "init.mp4".toList = 'i' :: "nit.mp4".toList from by decide,
        List.cons_prefix_cons] at hstart
      exact absurd hstart.1 (by decide)
    · -- The five digits are the first of the name's, and what follows them is no digit.
      unfold segmentChars at hstart ⊢
      rw [List.append_assoc, List.append_assoc, List.prefix_append_right_inj] at hstart
      obtain ⟨after, hafter⟩ := hstart
      rw [List.append_assoc] at hafter
      have hfivePrefix : five <+: digits ++ ".m4s".toList := hafter ▸ List.prefix_append _ _
      obtain ⟨more, rfl⟩ : five <+: digits :=
        List.prefix_of_prefix_length_le hfivePrefix (List.prefix_append _ _) (hfive ▸ hlength)
      rw [List.append_assoc, List.append_cancel_left_eq] at hafter
      cases more with
      | nil => rw [List.append_nil]
      | cons digit more =>
        rw [show ".m4s".toList = '.' :: "m4s".toList from by decide] at hafter
        have hdigit := hdigits digit (by simp)
        rw [← (List.cons_eq_cons.1 hafter).1] at hdigit
        exact absurd hdigit (by decide)
  · obtain ⟨c, rest, rfl, hc, hrest⟩ := AssetName.exists_head hname
    refine absurd (eq_nil_of_infix_concat (fun hmem => ?_) hwithin) hrest
    have hno := hplain c hmem
    rcases hc with rfl | rfl
    · exact hno.1 rfl
    · exact hno.2 rfl

/-- A character that is in none of the fixed parts, and no digit, delimits the names. -/
theorem delimits_of_notMem {c : Char} (hinitialization : c ∉ "init.mp4".toList)
    (hbefore : c ∉ "segment".toList) (hafter : c ∉ ".m4s".toList) (hdigit : c.isDigit = false) :
    Delimits c := by
  intro name hname h
  rcases hname with hname | ⟨digits, -, hdigits, hname⟩
  · rw [hname] at h
    exact hinitialization h
  · rw [hname] at h
    unfold segmentChars at h
    rcases List.mem_append.1 h with h | h
    · rcases List.mem_append.1 h with h | h
      · exact hbefore h
      · exact Bool.noConfusion ((hdigits c h).symm.trans hdigit)
    · exact hafter h

theorem delimits_quote : Delimits '"' :=
  delimits_of_notMem (by decide) (by decide) (by decide) (by decide)

theorem delimits_newline : Delimits '\n' :=
  delimits_of_notMem (by decide) (by decide) (by decide) (by decide)

/-! ## The text -/

/-- The lines about the segments, with each reference to a segment written another way. -/
def playlistEntriesWith (reference : String → String) : ℕ → List Duration → String
  | _, [] => ""
  | index, duration :: durations =>
    "#EXTINF:" ++ sixDecimals duration ++ ",\n" ++ reference (segmentName index) ++ "\n" ++
      playlistEntriesWith reference (index + 1) durations

/-- The text of a playlist, with each reference to an asset written another way. -/
def playlistWith (reference : String → String) (configuredDuration : Duration)
    (segmentDurations : List Duration) (finished : Bool) : String :=
  "#EXTM3U\n#EXT-X-VERSION:7\n#EXT-X-TARGETDURATION:" ++
    toString (targetDuration configuredDuration segmentDurations) ++
    "\n#EXT-X-MEDIA-SEQUENCE:0\n#EXT-X-PLAYLIST-TYPE:" ++ (if finished then "VOD" else "EVENT") ++
    "\n#EXT-X-MAP:URI=\"" ++ reference initializationSegmentName ++ "\"\n" ++
    playlistEntriesWith reference 0 segmentDurations ++ if finished then "#EXT-X-ENDLIST\n" else ""

theorem playlistEntriesWith_id (index : ℕ) (durations : List Duration) :
    playlistEntriesWith id index durations = playlistEntries index durations := by
  induction durations generalizing index with
  | nil => rfl
  | cons duration durations ih =>
    rw [playlistEntriesWith, playlistEntries, ih]
    rfl

/-- With the references as they are it is the playlist. -/
theorem playlistWith_id (configuredDuration : Duration) (durations : List Duration)
    (finished : Bool) :
    playlistWith id configuredDuration durations finished =
      playlist configuredDuration durations finished := by
  unfold playlistWith playlist
  rw [playlistEntriesWith_id]
  rfl

/-- A token of a playlist: a reference to an asset or other text. -/
inductive PlaylistToken
  | text (chars : List Char)
  | reference (name : String)

/-- The characters of a token. -/
def PlaylistToken.chars (reference : String → String) : PlaylistToken → List Char
  | text chars => chars
  | .reference name => (reference name).toList

/-- The tokens about the segments. -/
def entryTokens : ℕ → List Duration → List (PlaylistToken × Char)
  | _, [] => []
  | index, duration :: durations =>
    (.text ("#EXTINF:".toList ++ (sixDecimals duration).toList ++ [',']), '\n') ::
      (.reference (segmentName index), '\n') :: entryTokens (index + 1) durations

/-- The tokens of a playlist, each with its delimiter. -/
def playlistTokens (configuredDuration : Duration) (durations : List Duration) (finished : Bool) :
    List (PlaylistToken × Char) :=
  (.text "#EXTM3U".toList, '\n') :: (.text "#EXT-X-VERSION:7".toList, '\n') ::
    (.text ("#EXT-X-TARGETDURATION:".toList ++
      Nat.toDigits 10 (targetDuration configuredDuration durations)), '\n') ::
    (.text "#EXT-X-MEDIA-SEQUENCE:0".toList, '\n') ::
    (.text ("#EXT-X-PLAYLIST-TYPE:".toList ++ (if finished then "VOD" else "EVENT").toList), '\n') ::
    (.text "#EXT-X-MAP:URI=".toList, '"') :: (.reference initializationSegmentName, '"') ::
    (.text [], '\n') :: (entryTokens 0 durations ++
      if finished then [(.text "#EXT-X-ENDLIST".toList, '\n')] else [])

/-- The tokens with their references written another way. -/
def writtenTokens (reference : String → String) (tokens : List (PlaylistToken × Char)) :
    List (List Char × Char) :=
  tokens.map fun token => (token.1.chars reference, token.2)

theorem toList_playlistEntriesWith (reference : String → String) (index : ℕ)
    (durations : List Duration) :
    (playlistEntriesWith reference index durations).toList =
      delimited (writtenTokens reference (entryTokens index durations)) := by
  induction durations generalizing index with
  | nil => rfl
  | cons duration durations ih =>
    rw [playlistEntriesWith, entryTokens, writtenTokens, List.map_cons, List.map_cons,
      delimited_cons, delimited_cons, ← writtenTokens, ← ih]
    simp [PlaylistToken.chars]

theorem toList_playlistWith (reference : String → String) (configuredDuration : Duration)
    (durations : List Duration) (finished : Bool) :
    (playlistWith reference configuredDuration durations finished).toList =
      delimited (writtenTokens reference (playlistTokens configuredDuration durations finished)) := by
  unfold playlistWith playlistTokens writtenTokens
  simp only [String.toList_append, toList_playlistEntriesWith, List.map_cons, List.map_append,
    delimited_cons, delimited_append, writtenTokens, PlaylistToken.chars]
  cases finished <;> simp [delimited]

/-- What the tokens of a playlist of some segments are: text without asset names, and references to
the initialization segment and to those segments. -/
def PlaylistToken.Fits (count : ℕ) : PlaylistToken → Prop
  | text chars => Plain chars
  | reference name =>
    name = initializationSegmentName ∨ ∃ index < count, name = segmentName index

theorem plain_digits (number : ℕ) : Plain (Nat.toDigits 10 number) :=
  plain_of_digits fun _ hc => Nat.isDigit_of_mem_toDigits (by decide) (by decide) hc

theorem toList_decimals (whole rest : List Char) :
    (String.ofList whole ++ "." ++ String.ofList rest).toList = whole ++ ['.'] ++ rest := by
  simp

theorem plain_sixDecimals (duration : Duration) : Plain (sixDecimals duration).toList := by
  have hleftpad : ∀ number, Plain ((Nat.toDigits 10 number).leftpad 6 '0') := by
    intro number c hc
    rw [List.leftpad] at hc
    rcases List.mem_append.1 hc with hc | hc
    · obtain rfl := List.eq_of_mem_replicate hc
      decide
    · exact plain_digits number c hc
  unfold sixDecimals
  generalize Duration.roundHalfEven (duration.asSecsF64 * 1000000) = micros
  dsimp only
  rw [Nat.toString_eq_ofList_toDigits, toList_decimals]
  exact ((plain_digits _).append (by decide)).append (hleftpad _)

theorem entryTokens_fit (index : ℕ) (durations : List Duration) :
    ∀ token ∈ entryTokens index durations,
      token.2 = '\n' ∧ token.1.Fits (index + durations.length) := by
  induction durations generalizing index with
  | nil => exact fun _ h => absurd h List.not_mem_nil
  | cons duration durations ih =>
    rw [entryTokens, List.forall_mem_cons, List.forall_mem_cons]
    refine ⟨⟨rfl, ?_⟩, ⟨rfl, .inr ⟨index, by simp, rfl⟩⟩, fun token htoken => ?_⟩
    · exact ((show Plain "#EXTINF:".toList by decide).append
        (plain_sixDecimals duration)).append (by decide)
    · have hfits := ih (index + 1) token htoken
      rwa [List.length_cons, Nat.add_comm durations.length, ← Nat.add_assoc]

theorem playlistTokens_fit (configuredDuration : Duration) (durations : List Duration)
    (finished : Bool) : ∀ token ∈ playlistTokens configuredDuration durations finished,
      (token.2 = '"' ∨ token.2 = '\n') ∧ token.1.Fits durations.length := by
  intro token htoken
  unfold playlistTokens at htoken
  simp only [List.mem_cons, List.mem_append] at htoken
  rcases htoken with rfl | rfl | rfl | rfl | rfl | rfl | rfl | rfl | htoken | htoken
  · exact ⟨.inr rfl, show Plain "#EXTM3U".toList by decide⟩
  · exact ⟨.inr rfl, show Plain "#EXT-X-VERSION:7".toList by decide⟩
  · exact ⟨.inr rfl, (show Plain "#EXT-X-TARGETDURATION:".toList by decide).append
      (plain_digits _)⟩
  · exact ⟨.inr rfl, show Plain "#EXT-X-MEDIA-SEQUENCE:0".toList by decide⟩
  · refine ⟨.inr rfl, (show Plain "#EXT-X-PLAYLIST-TYPE:".toList by decide).append ?_⟩
    cases finished <;> decide
  · exact ⟨.inl rfl, show Plain "#EXT-X-MAP:URI=".toList by decide⟩
  · exact ⟨.inl rfl, .inl rfl⟩
  · exact ⟨.inr rfl, show Plain [] by decide⟩
  · have hfits := entryTokens_fit 0 durations token htoken
    rw [Nat.zero_add] at hfits
    exact ⟨.inr hfits.1, hfits.2⟩
  · cases finished
    · exact absurd htoken List.not_mem_nil
    · obtain rfl := List.mem_singleton.1 htoken
      exact ⟨.inr rfl, show Plain "#EXT-X-ENDLIST".toList by decide⟩

theorem reference_mem_entryTokens {index : ℕ} {durations : List Duration} {segment : ℕ}
    (hlower : index ≤ segment) (hupper : segment < index + durations.length) :
    (.reference (segmentName segment), '\n') ∈ entryTokens index durations := by
  induction durations generalizing index with
  | nil => exact absurd hupper (by simp [hlower])
  | cons duration durations ih =>
    rw [entryTokens]
    rcases Nat.eq_or_lt_of_le hlower with rfl | hlower
    · exact List.mem_cons_of_mem _ List.mem_cons_self
    · refine List.mem_cons_of_mem _ (List.mem_cons_of_mem _ (ih hlower ?_))
      rw [List.length_cons] at hupper
      omega

theorem reference_mem_playlistTokens (configuredDuration : Duration) {durations : List Duration}
    (finished : Bool) {name : String} (h : name = initializationSegmentName ∨
      ∃ index < durations.length, name = segmentName index) :
    ∃ delimiter, (.reference name, delimiter) ∈
      playlistTokens configuredDuration durations finished := by
  unfold playlistTokens
  rcases h with rfl | ⟨index, hindex, rfl⟩
  · exact ⟨'"', .tail _ (.tail _ (.tail _ (.tail _ (.tail _ (.tail _ (.head _))))))⟩
  · have hmem : (PlaylistToken.reference (segmentName index), '\n') ∈ entryTokens 0 durations :=
      reference_mem_entryTokens (Nat.zero_le _) (by rwa [Nat.zero_add])
    exact ⟨'\n', .tail _ (.tail _ (.tail _ (.tail _ (.tail _ (.tail _ (.tail _ (.tail _
      (List.mem_append_left _ hmem))))))))⟩

/-! ## What the server makes of it -/

/-- The assets that a playlist of some segments lists. -/
def listedAssets (count : ℕ) : List String :=
  initializationSegmentName :: (List.range count).map segmentName

theorem mem_listedAssets {count : ℕ} {name : String} : name ∈ listedAssets count ↔
    name = initializationSegmentName ∨ ∃ index < count, name = segmentName index := by
  rw [listedAssets, List.mem_cons, List.mem_map]
  simp only [List.mem_range, eq_comm]

theorem solid_initializationSegmentName : Solid initializationSegmentName.toList := by
  rintro name (rfl | ⟨digits, hdigits, -, rfl⟩) hwithin
  · rfl
  · have hlength := hwithin.length_le
    rw [length_segmentChars hdigits] at hlength
    exact absurd hlength (by decide)

theorem solid_of_fits {count : ℕ} {token : PlaylistToken} (h : token.Fits count) :
    Solid (token.chars id) := by
  cases token with
  | text chars => exact Plain.solid h
  | reference name =>
    rcases h with rfl | ⟨index, -, rfl⟩
    · exact solid_initializationSegmentName
    · exact solid_segmentName index

section

variable (configuredDuration : Duration) (durations : List Duration) (finished : Bool)

theorem toList_playlist : (playlist configuredDuration durations finished).toList =
    delimited (writtenTokens id (playlistTokens configuredDuration durations finished)) := by
  rw [← playlistWith_id, toList_playlistWith]

theorem delimits_writtenTokens :
    ∀ token ∈ writtenTokens id (playlistTokens configuredDuration durations finished),
      Delimits token.2 := by
  intro token htoken
  obtain ⟨source, hsource, rfl⟩ := List.mem_map.1 htoken
  rcases (playlistTokens_fit _ _ _ source hsource).1 with hdelimiter | hdelimiter
  · exact hdelimiter ▸ delimits_quote
  · exact hdelimiter ▸ delimits_newline

theorem solid_writtenTokens :
    ∀ token ∈ writtenTokens id (playlistTokens configuredDuration durations finished),
      Solid token.1 := by
  intro token htoken
  obtain ⟨source, hsource, rfl⟩ := List.mem_map.1 htoken
  exact solid_of_fits (playlistTokens_fit _ _ _ source hsource).2

/-- The server finds the listed assets whose names its patterns match. -/
theorem mem_assetNames_playlist {name : String} :
    name.toList ∈ assetNames (playlist configuredDuration durations finished).toList ↔
      AssetName name.toList ∧ name ∈ listedAssets durations.length := by
  rw [toList_playlist, mem_assetNames (delimits_writtenTokens _ _ _) (solid_writtenTokens _ _ _),
    mem_listedAssets]
  refine and_congr_right fun hname => ?_
  constructor
  · rintro ⟨token, htoken, heq⟩
    obtain ⟨source, hsource, rfl⟩ := List.mem_map.1 htoken
    have hfits := (playlistTokens_fit _ _ _ source hsource).2
    obtain ⟨chars | listed, delimiter⟩ := source
    · have hfits : Plain chars := hfits
      have heq : chars = name.toList := heq
      exact absurd List.infix_rfl (hfits.absent (heq ▸ hname))
    · exact String.toList_inj.1 heq ▸ hfits
  · intro hlisted
    obtain ⟨delimiter, hmem⟩ := reference_mem_playlistTokens configuredDuration finished hlisted
    exact ⟨_, List.mem_map_of_mem hmem, rfl⟩

/-- Replacing the names found replaces the references to them, and nothing else. -/
theorem replaceNames_playlist {url : String → String}
    (hurl : CleanUrls (assetNames (playlist configuredDuration durations finished).toList)
      fun name => (url (String.ofList name)).toList) :
    String.ofList (replaceNames (fun name => (url (String.ofList name)).toList)
      (assetNames (playlist configuredDuration durations finished).toList)
      (playlist configuredDuration durations finished).toList) =
    playlistWith (fun name => if AssetName name.toList then url name else name) configuredDuration
      durations finished := by
  rw [toList_playlist] at hurl ⊢
  rw [replaceNames_delimited (delimits_writtenTokens _ _ _) (solid_writtenTokens _ _ _) hurl]
  refine String.toList_inj.1 ?_
  rw [String.toList_ofList, toList_playlistWith, writtenTokens, writtenTokens, List.map_map]
  refine congrArg delimited (List.map_congr_left fun token htoken => ?_)
  have hfits := (playlistTokens_fit _ _ _ token htoken).2
  obtain ⟨chars | name, delimiter⟩ := token
  · have hfits : Plain chars := hfits
    have hnot : ¬ AssetName chars := fun hname => hfits.absent hname List.infix_rfl
    exact congrArg (·, delimiter) (if_neg hnot)
  · refine congrArg (·, delimiter) ?_
    change (if AssetName name.toList then _ else name.toList) = String.toList (if _ then _ else _)
    split
    · change (url (String.ofList name.toList)).toList = (url name).toList
      rw [String.ofList_toList]
    · rfl

end

end Blip.Hls
