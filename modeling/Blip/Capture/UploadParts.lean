import Blip.Common.Chunks
import Blip.Server.Http
import Mathlib.Data.List.Nodup

/-!
# Uploading a file in parts

`upload_parts` and `upload_parts_async` of `upload.rs`, from the reads of the file to the parts that
the server names when it completes the upload. The reader may return fewer bytes than asked for, and
the requests are answered by the server and the storage.
-/

namespace Blip.Capture

open Server

/-! ## Reading -/

/-- A reader: what is left of the file, and how its next reads are answered. An answer is the most
that a read returns, or the text of a failure. -/
structure Reader where
  rest : List UInt8
  answers : ℕ → Except String ℕ

/-- `BufReader::read` into a buffer of `space` bytes: something, unless nothing is left. -/
def Reader.read (space : ℕ) (reader : Reader) : Except String (List UInt8 × Reader) :=
  match reader.answers 0 with
  | .error error => .error ("failed to read recording: " ++ error)
  | .ok most =>
    let count := min space (max 1 most)
    .ok (reader.rest.take count,
      { rest := reader.rest.drop count
        answers := fun call => reader.answers (call + 1) })

/-- The loop that fills a chunk of which `space` bytes are free. -/
def readChunk (space : ℕ) (reader : Reader) : Except String (List UInt8 × Reader) :=
  if space = 0 then .ok ([], reader)
  else
    match reader.read space with
    | .error error => .error error
    | .ok ([], reader) => .ok ([], reader)
    | .ok (byte :: bytes, reader) =>
      match readChunk (space - (bytes.length + 1)) reader with
      | .error error => .error error
      | .ok (more, reader) => .ok (byte :: bytes ++ more, reader)
termination_by space

/-- A read returns some of what is left, and nothing only at the end or for no space. -/
theorem Reader.read_eq_ok {space : ℕ} {reader next : Reader} {bytes : List UInt8}
    (h : reader.read space = .ok (bytes, next)) :
    ∃ count, count ≤ space ∧ (0 < space → 0 < count) ∧ bytes = reader.rest.take count ∧
      next.rest = reader.rest.drop count := by
  rw [Reader.read] at h
  split at h
  · exact absurd h nofun
  · rename_i most _
    obtain ⟨rfl, rfl⟩ := Prod.mk.inj (Except.ok.inj h)
    exact ⟨_, min_le_left _ _, fun hspace => lt_min hspace (lt_max_of_lt_left Nat.one_pos), rfl, rfl⟩

/-- However the reads are split, a chunk is what comes next in the file. -/
theorem readChunk_eq_ok {space : ℕ} {reader next : Reader} {bytes : List UInt8}
    (h : readChunk space reader = .ok (bytes, next)) :
    bytes = reader.rest.take space ∧ next.rest = reader.rest.drop space := by
  induction space using Nat.strongRecOn generalizing reader bytes next with
  | ind space ih =>
    rw [readChunk] at h
    split at h
    · rename_i hspace
      obtain ⟨rfl, rfl⟩ := Prod.mk.inj (Except.ok.inj h)
      rw [hspace]
      exact ⟨rfl, rfl⟩
    · rename_i hspace
      split at h
      · exact absurd h nofun
      · -- The end of the file.
        rename_i after hread
        obtain ⟨rfl, rfl⟩ := Prod.mk.inj (Except.ok.inj h)
        obtain ⟨count, -, hcount, htake, hdrop⟩ := Reader.read_eq_ok hread
        have hempty : reader.rest = [] := by
          rcases List.take_eq_nil_iff.1 htake.symm with hzero | hempty
          · exact absurd (hcount (Nat.pos_of_ne_zero hspace)) (by omega)
          · exact hempty
        rw [hempty] at hdrop ⊢
        rw [hdrop]
        simp
      · rename_i byte some after hread
        obtain ⟨count, hle, hcount, htake, hdrop⟩ := Reader.read_eq_ok hread
        split at h
        · exact absurd h nofun
        · rename_i more final hrest
          obtain ⟨rfl, rfl⟩ := Prod.mk.inj (Except.ok.inj h)
          obtain ⟨hmore, hfinal⟩ := ih _ (by omega) hrest
          have hlength : some.length + 1 = min count reader.rest.length := by
            rw [← List.length_take, ← htake, List.length_cons]
          have hspace : space = (some.length + 1) + (space - (some.length + 1)) := by omega
          have hread : reader.rest.take count = reader.rest.take (some.length + 1) := by
            rw [hlength, List.take_eq_take_min]
          have hrest : reader.rest.drop count = reader.rest.drop (some.length + 1) := by
            rcases Nat.le_total count reader.rest.length with hcount | hcount
            · rw [hlength, min_eq_left hcount]
            · rw [hlength, min_eq_right hcount, List.drop_of_length_le hcount, List.drop_length]
          generalize some.length + 1 = got at hspace hmore hfinal hread hrest
          rw [hspace, List.take_add, ← List.drop_drop, ← hrest, ← hdrop, ← hread, ← htake]
          exact ⟨congrArg _ hmore, hfinal⟩

/-! ## Uploading -/

/-- `UploadedPart`. -/
structure UploadedPart where
  partNumber : ℕ
  etag : String
deriving DecidableEq, Repr

/-- What the requests for the parts are answered: the URL signed for a part, and the `etag` header
after a chunk is put there, if it is readable. -/
structure PartRequests where
  sign : ℕ → Except String String
  put : String → List UInt8 → Except String (Option String)

/-- A chunk put at a URL. -/
abbrev Put := String × List UInt8

/-- `trim_matches('"')`. -/
def trimQuotes (text : String) : String :=
  String.ofList ((text.toList.dropWhile (· == '"')).reverse.dropWhile (· == '"')).reverse

/-- The text of a failed put. -/
def putError (partNumber : ℕ) (error : String) : String :=
  "failed to upload chunk " ++ toString partNumber ++ ": " ++ error

/-- The text of a put without an ETag. -/
def etagError (partNumber : ℕ) : String :=
  "storage did not return an ETag for chunk " ++ toString partNumber

/-- The loop over the parts: what it returns, and what it has put. -/
def uploadPartsFrom (requests : PartRequests) (partSize : ℕ) (reader : Reader)
    (parts : List UploadedPart) (puts : List Put) : Except String (List UploadedPart) × List Put :=
  match _h : readChunk partSize reader with
  | .error error => (.error error, puts)
  | .ok ([], _) =>
    (if parts.isEmpty then .error "cannot upload an empty recording" else .ok parts, puts)
  | .ok (byte :: bytes, next) =>
    let chunk := byte :: bytes
    let partNumber := parts.length + 1
    match requests.sign partNumber with
    | .error error => (.error error, puts)
    | .ok url =>
      let puts := puts ++ [(url, chunk)]
      match requests.put url chunk with
      | .error error => (.error (putError partNumber error), puts)
      | .ok none => (.error (etagError partNumber), puts)
      | .ok (some etag) =>
        let part : UploadedPart :=
          { partNumber
            etag := trimQuotes etag }
        uploadPartsFrom requests partSize next (parts ++ [part]) puts
termination_by reader.rest.length
decreasing_by
  obtain ⟨hchunk, hrest⟩ := readChunk_eq_ok _h
  have hlength := congrArg List.length (List.take_append_drop partSize reader.rest)
  rw [← hchunk, ← hrest, List.length_append, List.length_cons] at hlength
  omega

/-- `upload_parts`, over the blocking client. -/
def uploadParts (requests : PartRequests) (partSize : ℕ) (reader : Reader) :
    Except String (List UploadedPart) × List Put :=
  uploadPartsFrom requests partSize reader [] []

/-- `upload_parts_async`, over the asynchronous client. -/
def uploadPartsAsync (requests : PartRequests) (partSize : ℕ) (reader : Reader) :
    Except String (List UploadedPart) × List Put :=
  uploadPartsFrom requests partSize reader [] []

/-! ## What is uploaded -/

/-- Chunks put one after the other, under part numbers from one on, at the URLs signed for them. -/
inductive PutFrom (requests : PartRequests) : ℕ → List Put → Prop
  | nil (partNumber : ℕ) : PutFrom requests partNumber []
  | cons {partNumber : ℕ} {url : String} (chunk : List UInt8) {puts : List Put} :
    requests.sign partNumber = .ok url → PutFrom requests (partNumber + 1) puts →
      PutFrom requests partNumber ((url, chunk) :: puts)

/-- Chunks uploaded: put at the URLs signed for their numbers, each with the tag that the storage gave
it. -/
inductive Uploaded (requests : PartRequests) : ℕ → List Put → List UploadedPart → Prop
  | nil (partNumber : ℕ) : Uploaded requests partNumber [] []
  | cons {partNumber : ℕ} {url etag : String} {chunk : List UInt8} {puts : List Put}
    {parts : List UploadedPart} :
    requests.sign partNumber = .ok url → requests.put url chunk = .ok (some etag) →
      Uploaded requests (partNumber + 1) puts parts →
      Uploaded requests partNumber ((url, chunk) :: puts) (⟨partNumber, trimQuotes etag⟩ :: parts)

variable {requests : PartRequests} {partSize : ℕ}

/-- What the loop puts is the beginning of the chunks of the file, in order; when it returns parts,
it is all of them. -/
theorem uploadPartsFrom_spec (hsize : 0 < partSize) (reader : Reader) (parts : List UploadedPart)
    (puts : List Put) :
    ∃ more, (uploadPartsFrom requests partSize reader parts puts).2 = puts ++ more ∧
      more.map Prod.snd <+: chunks partSize reader.rest ∧
      PutFrom requests (parts.length + 1) more ∧
      ∀ result, (uploadPartsFrom requests partSize reader parts puts).1 = .ok result →
        more.map Prod.snd = chunks partSize reader.rest ∧ ∃ added, result = parts ++ added ∧
          Uploaded requests (parts.length + 1) more added := by
  induction hlength : reader.rest.length using Nat.strongRecOn generalizing reader parts puts with
  | ind length ih =>
    rw [uploadPartsFrom]
    split
    · exact ⟨[], (List.append_nil _).symm, List.nil_prefix, .nil _, fun _ h => absurd h nofun⟩
    · -- The end of the file.
      rename_i next hread
      have hempty : reader.rest = [] := by
        rcases List.take_eq_nil_iff.1 (readChunk_eq_ok hread).1.symm with hzero | hempty
        · omega
        · exact hempty
      refine ⟨[], (List.append_nil _).symm, List.nil_prefix, .nil _, fun result hresult => ?_⟩
      dsimp only at hresult
      split at hresult
      · exact absurd hresult nofun
      · rw [hempty, chunks_nil]
        exact ⟨rfl, [], (Except.ok.inj hresult) ▸ (List.append_nil _).symm, .nil _⟩
    · rename_i byte bytes next hread
      obtain ⟨hchunk, hrest⟩ := readChunk_eq_ok hread
      have hne : reader.rest ≠ [] := by
        intro hempty
        rw [hempty, List.take_nil] at hchunk
        exact absurd hchunk (List.cons_ne_nil _ _)
      have hchunks : chunks partSize reader.rest =
          (byte :: bytes) :: chunks partSize next.rest := by
        rw [chunks_of_ne_nil hsize hne, ← hchunk, ← hrest]
      have hshorter : next.rest.length < length := by
        have := List.length_pos_iff.2 hne
        rw [hrest, List.length_drop, ← hlength]
        omega
      dsimp only
      split
      · exact ⟨[], (List.append_nil _).symm, List.nil_prefix, .nil _, fun _ h => absurd h nofun⟩
      · rename_i url hsign
        have hfirst : [byte :: bytes] <+: chunks partSize reader.rest := by
          rw [hchunks]
          exact ⟨_, rfl⟩
        split
        · exact ⟨_, rfl, hfirst, .cons _ hsign (.nil _), fun _ h => absurd h nofun⟩
        · exact ⟨_, rfl, hfirst, .cons _ hsign (.nil _), fun _ h => absurd h nofun⟩
        · rename_i etag hput
          obtain ⟨more, hputs, hstart, hfrom, hok⟩ := ih _ hshorter next
            (parts ++ [⟨parts.length + 1, trimQuotes etag⟩]) (puts ++ [(url, byte :: bytes)]) rfl
          rw [List.length_append] at hfrom hok
          refine ⟨(url, byte :: bytes) :: more, ?_, ?_, .cons _ hsign hfrom, fun result hresult => ?_⟩
          · rw [hputs, List.append_assoc]
            rfl
          · rw [hchunks, List.map_cons]
            exact List.cons_prefix_cons.2 ⟨rfl, hstart⟩
          · obtain ⟨hall, added, hresult, huploaded⟩ := hok result hresult
            refine ⟨?_, ⟨parts.length + 1, trimQuotes etag⟩ :: added, ?_, .cons hsign hput huploaded⟩
            · rw [hchunks, List.map_cons, hall]
            · rw [hresult, List.append_assoc]
              rfl

/-- An empty file is refused before anything is put. -/
theorem uploadParts_empty (partSize : ℕ) {reader : Reader} (h : reader.rest = []) :
    (∃ error, (uploadParts requests partSize reader).1 = .error error) ∧
      (uploadParts requests partSize reader).2 = [] := by
  rw [uploadParts, uploadPartsFrom]
  split
  · exact ⟨⟨_, rfl⟩, rfl⟩
  · exact ⟨⟨_, rfl⟩, rfl⟩
  · rename_i hread
    have hchunk := (readChunk_eq_ok hread).1
    rw [h, List.take_nil] at hchunk
    exact absurd hchunk (List.cons_ne_nil _ _)

/-- No read fails. -/
def Reader.Readable (reader : Reader) : Prop := ∀ call, ∃ most, reader.answers call = .ok most

theorem Reader.Readable.readChunk (space : ℕ) {reader : Reader} (h : reader.Readable) :
    ∃ bytes next, readChunk space reader = .ok (bytes, next) ∧ next.Readable := by
  induction space using Nat.strongRecOn generalizing reader with
  | ind space ih =>
    rw [Capture.readChunk]
    split
    · exact ⟨[], reader, rfl, h⟩
    · obtain ⟨most, hmost⟩ := h 0
      have hread : ∃ bytes next, reader.read space = .ok (bytes, next) ∧ next.Readable := by
        rw [Reader.read, hmost]
        exact ⟨_, _, rfl, fun call => h (call + 1)⟩
      obtain ⟨bytes, next, hread, hnext⟩ := hread
      rw [hread]
      cases bytes with
      | nil => exact ⟨[], next, rfl, hnext⟩
      | cons byte bytes =>
        obtain ⟨more, final, hmore, hfinal⟩ := ih (space - (bytes.length + 1)) (by omega) hnext
        refine ⟨byte :: bytes ++ more, final, ?_, hfinal⟩
        dsimp only
        rw [hmore]

/-- Every request succeeds. -/
structure PartRequests.Succeed (requests : PartRequests) : Prop where
  sign : ∀ partNumber, ∃ url, requests.sign partNumber = .ok url
  put : ∀ url chunk, ∃ etag, requests.put url chunk = .ok (some etag)

/-- When no read and no request fails, the parts are returned. -/
theorem uploadPartsFrom_ok (hrequests : requests.Succeed) {reader : Reader}
    (hreadable : reader.Readable) {parts : List UploadedPart} (puts : List Put)
    (h : parts ≠ [] ∨ 0 < partSize ∧ reader.rest ≠ []) :
    ∃ result, (uploadPartsFrom requests partSize reader parts puts).1 = .ok result := by
  induction hlength : reader.rest.length using Nat.strongRecOn generalizing reader parts puts with
  | ind length ih =>
    obtain ⟨bytes, next, hread, hnext⟩ := hreadable.readChunk partSize
    obtain ⟨hchunk, hrest⟩ := readChunk_eq_ok hread
    rw [uploadPartsFrom]
    split
    · rename_i herror
      exact absurd (hread.symm.trans herror) nofun
    · rename_i hend
      rw [if_neg]
      · exact ⟨parts, rfl⟩
      · rcases h with hparts | ⟨hsize, hne⟩
        · rwa [List.isEmpty_iff]
        · have hempty := (readChunk_eq_ok hend).1
          rcases List.take_eq_nil_iff.1 hempty.symm with hzero | hnil
          · omega
          · exact absurd hnil hne
    · rename_i byte more after hmore
      obtain ⟨rfl, rfl⟩ := Prod.mk.inj (Except.ok.inj (hread.symm.trans hmore))
      obtain ⟨url, hurl⟩ := hrequests.sign (parts.length + 1)
      obtain ⟨etag, hetag⟩ := hrequests.put url (byte :: more)
      have hshorter : next.rest.length < length := by
        have hparts := congrArg List.length (List.take_append_drop partSize reader.rest)
        rw [← hchunk, ← hrest, List.length_append, List.length_cons] at hparts
        omega
      dsimp only
      rw [hurl]
      dsimp only
      rw [hetag]
      exact ih _ hshorter hnext _ (.inl (List.append_ne_nil_of_right_ne_nil _ (List.cons_ne_nil _ _)))
        rfl

/-! ## Tags -/

/-- A strong entity tag, of readable characters between quotes. -/
def StrongEtag (etag : String) : Prop :=
  ∃ tag : List Char, etag = String.ofList ('"' :: tag ++ ['"']) ∧
    ∀ c ∈ tag, c ≠ '"' ∧ 0x21 ≤ c.toNat ∧ c.toNat ≤ 0x7E

theorem dropWhile_eq_self {α : Type} {p : α → Bool} {items : List α}
    (h : ∀ item ∈ items, p item = false) : items.dropWhile p = items := by
  cases items with
  | nil => rfl
  | cons item items =>
    exact List.dropWhile_cons_of_neg (by rw [h item List.mem_cons_self]; exact Bool.false_ne_true)

theorem trimQuotes_quoted {tag : List Char} (h : '"' ∉ tag) :
    trimQuotes (String.ofList ('"' :: tag ++ ['"'])) = String.ofList tag := by
  have hquote : ∀ c ∈ tag, (c == '"') = false := fun c hc => by
    rw [beq_eq_false_iff_ne]
    rintro rfl
    exact h hc
  rw [trimQuotes, String.toList_ofList, List.cons_append, List.dropWhile_cons_of_pos (by rfl)]
  cases tag with
  | nil => rfl
  | cons c tag =>
    have hleft : (c :: tag ++ ['"']).dropWhile (· == '"') = c :: tag ++ ['"'] :=
      List.dropWhile_cons_of_neg (by rw [hquote c List.mem_cons_self]; exact Bool.false_ne_true)
    have hright : (c :: tag).reverse.dropWhile (· == '"') = (c :: tag).reverse :=
      dropWhile_eq_self fun c hc => hquote c (List.mem_reverse.1 hc)
    rw [hleft, List.reverse_append, List.reverse_singleton, List.singleton_append,
      List.dropWhile_cons_of_pos (by rfl), hright, List.reverse_reverse]

theorem trim_eq_self {text : List Char} (h : ∀ c ∈ text, isTrimmed c = false) :
    Server.trim (String.ofList text) = String.ofList text := by
  rw [Server.trim, String.toList_ofList, dropWhile_eq_self h,
    dropWhile_eq_self fun c hc => h c (List.mem_reverse.1 hc), List.reverse_reverse]

theorem isTrimmed_of_visible {c : Char} (hlower : 0x21 ≤ c.toNat) (hupper : c.toNat ≤ 0x7E) :
    isTrimmed c = false := by
  rw [isTrimmed, Bool.or_eq_false_iff, Bool.and_eq_false_iff]
  refine ⟨decide_eq_false fun hmem => ?_, .inl (decide_eq_false (by omega))⟩
  simp only [List.mem_cons, List.not_mem_nil, or_false] at hmem
  omega

/-- A strong tag comes out of the client's trimming and the server's quoting as it was. -/
theorem StrongEtag.quoteEtag {etag : String} (h : StrongEtag etag) :
    ObjectStorage.quoteEtag (Server.trim (trimQuotes etag)) = etag := by
  obtain ⟨tag, rfl, htag⟩ := h
  have hquote : '"' ∉ tag := fun hmem => (htag _ hmem).1 rfl
  have hstart : (String.ofList tag).startsWith "\"" = false := by
    rw [Bool.eq_false_iff]
    intro hstart
    have hmem := (String.startsWith_string_iff.1 hstart).subset (show '"' ∈ "\"".toList by decide)
    rw [String.toList_ofList] at hmem
    exact hquote hmem
  rw [trimQuotes_quoted hquote, trim_eq_self fun c hc => isTrimmed_of_visible (htag c hc).2.1
    (htag c hc).2.2, ObjectStorage.quoteEtag, hstart]
  refine String.toList_inj.1 ?_
  simp

/-! ## The assembled object -/

/-- The parts of a completion request, as the server reads them. -/
def UploadedPart.toPart (part : UploadedPart) : Server.Part where
  partNumber := part.partNumber
  etag := part.etag

/-- A part as the server names it to the storage. -/
def quotePart (part : Server.Part) : Server.Part where
  partNumber := part.partNumber
  etag := ObjectStorage.quoteEtag (Server.trim part.etag)

/-- The part that the storage holds under a number: the last chunk put at a URL for it, and its tag.
`partOf` tells which part a signed URL is for. -/
def storedPart (requests : PartRequests) (partOf : String → Option ℕ) (puts : List Put)
    (partNumber : ℕ) : Option (List UInt8 × String) :=
  match (puts.filter fun put => partOf put.1 == some partNumber).getLast? with
  | none => none
  | some put =>
    match requests.put put.1 put.2 with
    | .ok (some etag) => some (put.2, etag)
    | _ => none

/-- The object of the named parts, in their order, if the storage holds them all with these tags. -/
def assemble (stored : ℕ → Option (List UInt8 × String)) : List Server.Part → Option (List UInt8)
  | [] => some []
  | part :: parts =>
    match stored part.partNumber with
    | none => none
    | some (bytes, etag) =>
      if etag = part.etag then (assemble stored parts).map (bytes ++ ·) else none

theorem Uploaded.partNumbers {partNumber : ℕ} {puts : List Put} {parts : List UploadedPart}
    (h : Uploaded requests partNumber puts parts) :
    parts.map UploadedPart.partNumber = List.range' partNumber puts.length := by
  induction h with
  | nil partNumber => rfl
  | cons _ _ _ ih => rw [List.map_cons, ih, List.length_cons, List.range'_succ]

/-- The parts are in order already, so the server only quotes their tags. -/
theorem completedParts_eq {parts : List Server.Part}
    (h : (parts.map Server.Part.partNumber).Pairwise (· < ·)) :
    completedParts parts = parts.map quotePart := by
  have hsorted : parts.Pairwise fun left right =>
      decide (left.partNumber ≤ right.partNumber) = true :=
    (List.pairwise_map.1 h).imp fun hlt => decide_eq_true (Nat.le_of_lt hlt)
  rw [completedParts, List.mergeSort_of_pairwise hsorted]
  rfl

section

variable {partOf : String → Option ℕ}
  (hpartOf : ∀ partNumber url, requests.sign partNumber = .ok url → partOf url = some partNumber)
include hpartOf

/-- What is put later is put under later numbers. -/
theorem Uploaded.partOf_le {partNumber : ℕ} {puts : List Put} {parts : List UploadedPart}
    (h : Uploaded requests partNumber puts parts) :
    ∀ put ∈ puts, ∃ number, partOf put.1 = some number ∧ partNumber ≤ number := by
  induction h with
  | nil partNumber => exact fun _ h => absurd h List.not_mem_nil
  | @cons partNumber url etag chunk puts parts hsign _ _ ih =>
    refine List.forall_mem_cons.2 ⟨⟨partNumber, hpartOf _ _ hsign, le_rfl⟩, fun put hput => ?_⟩
    obtain ⟨number, hnumber, hle⟩ := ih put hput
    exact ⟨number, hnumber, by omega⟩

theorem Uploaded.storedPart_eq {partNumber : ℕ} {url etag : String} {chunk : List UInt8}
    {puts : List Put} {parts : List UploadedPart} (hsign : requests.sign partNumber = .ok url)
    (hput : requests.put url chunk = .ok (some etag))
    (h : Uploaded requests (partNumber + 1) puts parts) (before : List Put) :
    storedPart requests partOf (before ++ (url, chunk) :: puts) partNumber = some (chunk, etag) := by
  have hlater : puts.filter (fun put => partOf put.1 == some partNumber) = [] := by
    rw [List.filter_eq_nil_iff]
    intro put hmem
    obtain ⟨number, hnumber, hle⟩ := h.partOf_le hpartOf put hmem
    rw [hnumber, beq_iff_eq, Option.some.injEq]
    omega
  have hfirst : (partOf url == some partNumber) = true := beq_iff_eq.2 (hpartOf _ _ hsign)
  have hthis : ((url, chunk) :: puts).filter (fun put => partOf put.1 == some partNumber) =
      [(url, chunk)] := by
    rw [List.filter_cons_of_pos (by exact hfirst), hlater]
  rw [storedPart, List.filter_append, hthis, List.getLast?_concat]
  dsimp only
  rw [hput]

/-- The storage assembles the chunks in the order of the part numbers. -/
theorem Uploaded.assemble_eq {partNumber : ℕ} {puts : List Put} {parts : List UploadedPart}
    (h : Uploaded requests partNumber puts parts)
    (hstrong : ∀ url chunk etag, requests.put url chunk = .ok (some etag) → StrongEtag etag)
    (before : List Put) :
    assemble (storedPart requests partOf (before ++ puts))
        ((parts.map UploadedPart.toPart).map quotePart) = some (puts.map Prod.snd).flatten := by
  induction h generalizing before with
  | nil partNumber => rfl
  | @cons partNumber url etag chunk puts parts hsign hput hrest ih =>
    have hstored := hrest.storedPart_eq hpartOf hsign hput before
    have hquoted : quotePart (UploadedPart.toPart ⟨partNumber, trimQuotes etag⟩) =
        ⟨partNumber, etag⟩ :=
      congrArg (Server.Part.mk partNumber) (hstrong url chunk etag hput).quoteEtag
    have htail := ih (before ++ [(url, chunk)])
    rw [List.append_assoc, List.singleton_append] at htail
    rw [List.map_cons, List.map_cons, hquoted, assemble, hstored]
    dsimp only
    rw [if_pos rfl, htail]
    rfl

end

theorem Uploaded.etags {partNumber : ℕ} {puts : List Put} {parts : List UploadedPart}
    (h : Uploaded requests partNumber puts parts)
    (hstrong : ∀ url chunk etag, requests.put url chunk = .ok (some etag) → StrongEtag etag) :
    ∀ part ∈ (parts.map UploadedPart.toPart).map quotePart, ∃ put ∈ puts,
      requests.put put.1 put.2 = .ok (some part.etag) := by
  induction h with
  | nil partNumber => exact fun _ h => absurd h List.not_mem_nil
  | @cons partNumber url etag chunk puts parts hsign hput _ ih =>
    have hquoted : quotePart (UploadedPart.toPart ⟨partNumber, trimQuotes etag⟩) =
        ⟨partNumber, etag⟩ :=
      congrArg (Server.Part.mk partNumber) (hstrong url chunk etag hput).quoteEtag
    rw [List.map_cons, List.map_cons, hquoted, List.forall_mem_cons]
    refine ⟨⟨(url, chunk), List.mem_cons_self, hput⟩, fun part hpart => ?_⟩
    obtain ⟨put, hmem, heq⟩ := ih part hpart
    exact ⟨put, List.mem_cons_of_mem _ hmem, heq⟩

theorem Uploaded.length_eq {partNumber : ℕ} {puts : List Put} {parts : List UploadedPart}
    (h : Uploaded requests partNumber puts parts) : parts.length = puts.length := by
  have hlength := congrArg List.length h.partNumbers
  rwa [List.length_map, List.length_range'] at hlength

/-! ## A whole file -/

/-- The parts returned for a file: numbered from one on, all but the last full, few enough, taken by
the server's check, named to the storage with the tags it gave, and assembled to the file. -/
structure WholeUpload (requests : PartRequests) (partOf : String → Option ℕ) (partSize : ℕ)
    (file : List UInt8) (puts : List Put) (parts : List UploadedPart) : Prop where
  numbers : parts.map UploadedPart.partNumber = List.range' 1 parts.length
  contents : puts.map Prod.snd = chunks partSize file
  full : ∀ chunk ∈ (puts.map Prod.snd).dropLast, chunk.length = partSize
  count : parts.length = puts.length ∧ parts.length ≤ 10000
  accepted : ¬ (parts.map UploadedPart.toPart).length = 0 ∧
    ((parts.map UploadedPart.toPart).map (·.partNumber)).toFinset.card =
      (parts.map UploadedPart.toPart).length
  tags : ∀ part ∈ completedParts (parts.map UploadedPart.toPart), ∃ put ∈ puts,
    requests.put put.1 put.2 = .ok (some part.etag)
  assembled : assemble (storedPart requests partOf puts)
    (completedParts (parts.map UploadedPart.toPart)) = some file

theorem Uploaded.whole {partOf : String → Option ℕ} {file : List UInt8} {puts : List Put}
    {parts : List UploadedPart} (h : Uploaded requests 1 puts parts)
    (hpartOf : ∀ partNumber url, requests.sign partNumber = .ok url → partOf url = some partNumber)
    (hstrong : ∀ url chunk etag, requests.put url chunk = .ok (some etag) → StrongEtag etag)
    (hcontents : puts.map Prod.snd = chunks partSize file) (hsize : 0 < partSize)
    (hfile : file ≠ []) (hlength : file.length ≤ partSize * 10000) :
    WholeUpload requests partOf partSize file puts parts := by
  have hputs : puts.length = (chunks partSize file).length := by
    rw [← hcontents, List.length_map]
  have hnumbers : (parts.map UploadedPart.toPart).map Server.Part.partNumber =
      List.range' 1 puts.length := by
    rw [← h.partNumbers, List.map_map]
    rfl
  have hcompleted : completedParts (parts.map UploadedPart.toPart) =
      (parts.map UploadedPart.toPart).map quotePart :=
    completedParts_eq (hnumbers ▸ List.pairwise_lt_range')
  refine ⟨h.length_eq ▸ h.partNumbers, hcontents, ?_, ⟨h.length_eq, ?_⟩, ⟨?_, ?_⟩, ?_, ?_⟩
  · rw [hcontents]
    exact length_of_mem_dropLast_chunks hsize file
  · rw [h.length_eq, hputs, length_chunks_le_iff hsize]
    exact hlength
  · rw [List.length_map, h.length_eq, hputs, List.length_eq_zero_iff]
    exact chunks_ne_nil hsize hfile
  · rw [hnumbers, List.toFinset_card_of_nodup List.nodup_range', List.length_range', List.length_map,
      h.length_eq]
  · rw [hcompleted]
    exact h.etags hstrong
  · have hassemble := h.assemble_eq hpartOf hstrong []
    rw [List.nil_append] at hassemble
    rw [hcompleted, hassemble, hcontents, chunks_flatten hsize]

end Blip.Capture
