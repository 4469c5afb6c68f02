/-
# Encrypted files

`crates/vt-crypto/src/decrypt.rs`: `encrypt_to_file` writes a file chunk by chunk, each chunk
encrypted under its length, and `DecryptReader` gives its bytes back.

A whole file reads back whole (`reads_whole`).  A file that was cut off is an error when a chunk is
cut, but a cut in the four bytes of a length is taken for the end of the file
(`encrypted_file_iff`).
-/

import ZuTalk.Library.Reading
import ZuTalk.Recorder.Recovered

namespace ZuTalk
namespace Crypto

open Recorder Reading

/-- `CHUNK_SIZE`. -/
def chunkSize : ℕ := 64 * 1024

/-- `data.chunks(CHUNK_SIZE)`. -/
def chunks (data : Bytes) : List Bytes :=
  Cuts.full chunkSize data ++
    if Cuts.rest chunkSize data = [] then [] else [Cuts.rest chunkSize data]

section Files

variable {Key : Type} (aead : Aead Key) (key : Key)

/-- A chunk in the file: the length of the encrypted chunk, and the chunk. -/
def fileChunk (chunk : Bytes) (nonce : Nonce) : Bytes :=
  u32ToLeBytes (encryptChunk aead key chunk nonce).length ++ encryptChunk aead key chunk nonce

/-- The chunks of some data; `nonces i` is drawn for the `i`-th. -/
def sealedChunks (nonces : ℕ → Nonce) (data : Bytes) : List (Bytes × Nonce) :=
  (chunks data).zipIdx.map fun (chunk, i) => (chunk, nonces i)

/-- The chunks of a file one after the other. -/
def fileChunks (nonces : ℕ → Nonce) (data : Bytes) : List Bytes :=
  (sealedChunks nonces data).map fun c => fileChunk aead key c.1 c.2

/-- `encrypt_to_file`: the file. -/
def encryptToFile (nonces : ℕ → Nonce) (data : Bytes) : Bytes :=
  (fileChunks aead key nonces data).flatten

/-- `DecryptReader`. -/
structure DecryptReader where
  fileData : Bytes
  fileOffset : ℕ
  buffer : Bytes
  bufOffset : ℕ

namespace DecryptReader

/-- `DecryptReader::new`. -/
def new (fileData : Bytes) : DecryptReader := ⟨fileData, 0, [], 0⟩

/-- `fill_buffer`. -/
def fillBuffer (reader : DecryptReader) : Except String Bool × DecryptReader :=
  if reader.fileData.length ≤ reader.fileOffset then (.ok false, reader)
  else if reader.fileData.length < reader.fileOffset + 4 then (.ok false, reader)
  else
    let chunkLen := u32FromLeBytes ((reader.fileData.drop reader.fileOffset).take 4)
    let reader := { reader with fileOffset := reader.fileOffset + 4 }
    if reader.fileData.length < reader.fileOffset + chunkLen then
      (.error "decryption failed: truncated encrypted file", reader)
    else
      let encrypted := (reader.fileData.drop reader.fileOffset).take chunkLen
      let reader := { reader with fileOffset := reader.fileOffset + chunkLen }
      match decryptChunk aead key encrypted with
      | .ok buffer => (.ok true, { reader with buffer, bufOffset := 0 })
      | .error e => (.error e, reader)

/-- What a read takes from the buffer. -/
def takeBuffered (reader : DecryptReader) (size : ℕ) : Except String Bytes × DecryptReader :=
  let available := reader.buffer.length - reader.bufOffset
  let toCopy := min available size
  (.ok ((reader.buffer.drop reader.bufOffset).take toCopy),
    { reader with bufOffset := reader.bufOffset + toCopy })

/-- `read`, into a buffer of a size: the bytes that it puts there. -/
def read (reader : DecryptReader) (size : ℕ) : Except String Bytes × DecryptReader :=
  if reader.buffer.length ≤ reader.bufOffset then
    match reader.fillBuffer aead key with
    | (.ok true, reader) => reader.takeBuffered size
    | (.ok false, reader) => (.ok [], reader)
    | (.error e, reader) => (.error e, reader)
  else reader.takeBuffered size

end DecryptReader

end Files

/-! ### The chunks -/

theorem flatten_chunks (data : Bytes) : (chunks data).flatten = data := by
  have hdata := Cuts.flatten_full_append_rest (n := chunkSize) (by decide) data
  unfold chunks
  split
  next hrest =>
    rw [hrest, List.append_nil] at hdata
    rwa [List.append_nil]
  next => simpa using hdata

theorem chunks_bounds {data chunk : Bytes} (h : chunk ∈ chunks data) :
    chunk ≠ [] ∧ chunk.length ≤ chunkSize := by
  rcases List.mem_append.1 h with hfull | hrest
  · have hlength : chunk.length = chunkSize := Cuts.length_of_mem_full (by decide) hfull
    exact ⟨List.ne_nil_of_length_pos (by rw [hlength]; decide), Nat.le_of_eq hlength⟩
  · split at hrest
    · cases hrest
    next hne =>
      have hlt : (Cuts.rest chunkSize data).length < chunkSize :=
        Cuts.length_rest_lt (by decide) data
      rw [List.mem_singleton.1 hrest]
      exact ⟨hne, Nat.le_of_lt hlt⟩

section Reader

variable {Key : Type} {aead : Aead Key} {key : Key}

theorem length_fileChunk (hlawful : aead.Lawful) (chunk : Bytes) (nonce : Nonce) :
    (fileChunk aead key chunk nonce).length = chunk.length + 32 := by
  unfold fileChunk
  rw [List.length_append, length_u32ToLeBytes, length_encryptChunk key hlawful]
  omega

/-- The length of a chunk is what stands before it. -/
theorem chunkLen_fileChunk (hlawful : aead.Lawful) {chunk : Bytes}
    (hchunk : chunk.length ≤ chunkSize) (nonce : Nonce) :
    u32FromLeBytes (u32ToLeBytes (encryptChunk aead key chunk nonce).length) =
      chunk.length + 28 := by
  rw [length_encryptChunk key hlawful]
  refine u32FromLeBytes_u32ToLeBytes ?_
  have hsize : chunkSize = 65536 := rfl
  omega

/-- A reader that stands between two chunks. -/
def Stands (reader : DecryptReader) (rest : Bytes) : Prop :=
  ∃ done, reader.fileData = done ++ rest ∧ reader.fileOffset = done.length

variable {reader : DecryptReader} {rest : Bytes}

/-- **A whole chunk is read into the buffer.** -/
theorem fillBuffer_fileChunk (hlawful : aead.Lawful) {chunk : Bytes}
    (hchunk : chunk.length ≤ chunkSize) (nonce : Nonce)
    (h : Stands reader (fileChunk aead key chunk nonce ++ rest)) :
    ∃ reader', reader.fillBuffer aead key = (.ok true, reader') ∧ Stands reader' rest ∧
      reader'.buffer = chunk ∧ reader'.bufOffset = 0 := by
  obtain ⟨done, hdata, hoffset⟩ := h
  have hlength : (fileChunk aead key chunk nonce).length = chunk.length + 32 :=
    length_fileChunk hlawful chunk nonce
  have hall : reader.fileData.length = done.length + (chunk.length + 32) + rest.length := by
    rw [hdata, List.length_append, List.length_append, hlength]
    omega
  have hsplit : reader.fileData.drop done.length =
      u32ToLeBytes (encryptChunk aead key chunk nonce).length ++
        (encryptChunk aead key chunk nonce ++ rest) := by
    rw [hdata, List.drop_left, fileChunk, List.append_assoc]
  have hencrypted : reader.fileData.drop (done.length + 4) =
      encryptChunk aead key chunk nonce ++ rest := by
    rw [← List.drop_drop, hsplit]
    rfl
  have hwhole := length_encryptChunk key hlawful chunk nonce
  unfold DecryptReader.fillBuffer
  rw [hoffset, if_neg (by omega), if_neg (by omega), hsplit, List.take_left' (by rfl),
    chunkLen_fileChunk hlawful hchunk]
  dsimp only
  rw [if_neg (by omega), hencrypted, List.take_left' hwhole,
    decryptChunk_encryptChunk key hlawful]
  refine ⟨_, rfl, ⟨done ++ fileChunk aead key chunk nonce, ?_, ?_⟩, rfl, rfl⟩
  · rw [hdata, List.append_assoc]
  · show done.length + 4 + (chunk.length + 28) = _
    rw [List.length_append, hlength]
    omega

/-- What is too short for a length is taken for the end of the file. -/
theorem fillBuffer_short (h : Stands reader rest) (hshort : rest.length < 4) :
    reader.fillBuffer aead key = (.ok false, reader) := by
  obtain ⟨done, hdata, hoffset⟩ := h
  unfold DecryptReader.fillBuffer
  rw [hoffset, hdata, List.length_append]
  split
  · rfl
  · rw [if_pos (by omega)]

/-- A chunk that was cut off is an error. -/
theorem fillBuffer_cut (hlawful : aead.Lawful) {chunk : Bytes}
    (hchunk : chunk.length ≤ chunkSize) (nonce : Nonce) (h : Stands reader rest)
    (hcut : rest <+: fileChunk aead key chunk nonce)
    (hlt : rest.length < (fileChunk aead key chunk nonce).length) (hlong : 4 ≤ rest.length) :
    (reader.fillBuffer aead key).1 = .error "decryption failed: truncated encrypted file" := by
  obtain ⟨done, hdata, hoffset⟩ := h
  obtain ⟨missing, hmissing⟩ := hcut
  have hprefix : (reader.fileData.drop done.length).take 4 =
      u32ToLeBytes (encryptChunk aead key chunk nonce).length := by
    rw [hdata, List.drop_left]
    have htake := congrArg (List.take 4) hmissing
    rw [List.take_append_of_le_length hlong, fileChunk, List.take_left' (by rfl)] at htake
    exact htake
  have hlength : (fileChunk aead key chunk nonce).length = chunk.length + 32 :=
    length_fileChunk hlawful chunk nonce
  have hall : reader.fileData.length = done.length + rest.length := by
    rw [hdata, List.length_append]
  unfold DecryptReader.fillBuffer
  rw [hoffset, if_neg (by omega), if_neg (by omega), hprefix, chunkLen_fileChunk hlawful hchunk]
  dsimp only
  rw [if_pos (by omega)]

/-- What is left for a reader: what is in its buffer, and the chunks behind the place where it
stands; `tail` comes after them. -/
def Holds (aead : Aead Key) (key : Key) (tail : Bytes) (reader : DecryptReader) (data : Bytes) :
    Prop :=
  ∃ sealed : List (Bytes × Nonce), (∀ c ∈ sealed, c.1 ≠ [] ∧ c.1.length ≤ chunkSize) ∧
    Stands reader ((sealed.map fun c => fileChunk aead key c.1 c.2).flatten ++ tail) ∧
    data = reader.buffer.drop reader.bufOffset ++ (sealed.map Prod.fst).flatten

/-- What is left of a chunk that was cut off, and what becomes of it. -/
inductive Cut (aead : Aead Key) (key : Key) (tail : Bytes) : Option String → Prop
  | passes (h : tail.length < 4) : Cut aead key tail none
  | fails (chunk : Bytes) (nonce : Nonce) (hchunk : chunk.length ≤ chunkSize)
      (hcut : tail <+: fileChunk aead key chunk nonce)
      (hlt : tail.length < (fileChunk aead key chunk nonce).length) (hlong : 4 ≤ tail.length) :
      Cut aead key tail (some "decryption failed: truncated encrypted file")

/-- A read takes as much of the buffer as there is room for. -/
theorem takeBuffered_spec {size : ℕ} (hsize : 0 < size)
    (hbuffer : reader.buffer.drop reader.bufOffset ≠ []) :
    ∃ out reader', reader.takeBuffered size = (.ok out, reader') ∧ out ≠ [] ∧
      reader.buffer.drop reader.bufOffset = out ++ reader'.buffer.drop reader'.bufOffset ∧
      ∀ rest, Stands reader rest → Stands reader' rest := by
  refine ⟨_, _, rfl, ?_, ?_, fun rest h => h⟩
  · have hpos := List.length_pos_iff.2 hbuffer
    refine List.ne_nil_of_length_pos ?_
    rw [List.length_drop] at hpos
    rw [List.length_take, List.length_drop]
    omega
  · rw [← List.drop_drop, List.take_append_drop]

/-- When no bytes are left the buffer has been read and no chunk is behind the reader's place. -/
theorem nothing_left {tail : Bytes} {sealed : List (Bytes × Nonce)}
    (hsealed : ∀ c ∈ sealed, c.1 ≠ [] ∧ c.1.length ≤ chunkSize)
    (hstands : Stands reader ((sealed.map fun c => fileChunk aead key c.1 c.2).flatten ++ tail))
    (hnil : [] = reader.buffer.drop reader.bufOffset ++ (sealed.map Prod.fst).flatten) :
    reader.buffer.length ≤ reader.bufOffset ∧ Stands reader tail := by
  obtain ⟨hbuffer, hchunks⟩ := List.append_eq_nil_iff.1 hnil.symm
  refine ⟨List.drop_eq_nil_iff.1 hbuffer, ?_⟩
  cases sealed with
  | nil => simpa using hstands
  | cons c sealed =>
      rw [List.map_cons, List.flatten_cons, List.append_eq_nil_iff] at hchunks
      exact absurd hchunks.1 (hsealed c List.mem_cons_self).1

/-- **What one read does**: it gives out some of what is left, and when nothing is left it ends as
the tail of the file has it. -/
theorem delivers (hlawful : aead.Lawful) {tail : Bytes} {ending : Option String}
    (htail : Cut aead key tail ending) :
    Delivers (DecryptReader.read aead key) (Holds aead key tail) ending where
  gives := by
    rintro reader data size ⟨sealed, hsealed, hstands, rfl⟩ hdata hsize
    unfold DecryptReader.read
    split
    next hempty =>
      have hdrop : reader.buffer.drop reader.bufOffset = [] := List.drop_eq_nil_of_le hempty
      rw [hdrop, List.nil_append] at hdata ⊢
      cases sealed with
      | nil => exact absurd rfl hdata
      | cons c sealed =>
          obtain ⟨⟨hne, hlength⟩, hothers⟩ := List.forall_mem_cons.1 hsealed
          rw [List.map_cons, List.flatten_cons, List.append_assoc] at hstands
          obtain ⟨filled, hfill, hstands', hbuffer, hoffset⟩ :=
            fillBuffer_fileChunk hlawful hlength c.2 hstands
          have hall : filled.buffer.drop filled.bufOffset = c.1 := by
            rw [hbuffer, hoffset, List.drop_zero]
          obtain ⟨out, reader', htake, hout, hsplit, hkeeps⟩ :=
            takeBuffered_spec hsize (hall ▸ hne)
          rw [hfill]
          refine ⟨out, _, reader', htake, hout, ?_, sealed, hothers, hkeeps _ hstands', rfl⟩
          rw [List.map_cons, List.flatten_cons, ← hall, hsplit, List.append_assoc]
    next hbuffered =>
      have hbuffer : reader.buffer.drop reader.bufOffset ≠ [] := by
        rw [Ne, List.drop_eq_nil_iff]
        exact hbuffered
      obtain ⟨out, reader', htake, hout, hsplit, hkeeps⟩ := takeBuffered_spec hsize hbuffer
      refine ⟨out, _, reader', htake, hout, ?_, sealed, hsealed, hkeeps _ hstands, rfl⟩
      rw [hsplit, List.append_assoc]
  ends := by
    rintro reader size ⟨sealed, hsealed, hstands, hnil⟩ hsize
    obtain ⟨hempty, hstands'⟩ := nothing_left hsealed hstands hnil
    unfold DecryptReader.read
    rw [if_pos hempty]
    cases htail with
    | passes hshort => rw [fillBuffer_short hstands' hshort]; rfl
    | fails chunk nonce hchunk hcut hlt hlong =>
        have herror := fillBuffer_cut hlawful hchunk nonce hstands' hcut hlt hlong
        cases hfill : reader.fillBuffer aead key with
        | mk result reader' =>
            rw [hfill] at herror
            obtain rfl : result = _ := herror
            rfl
  stays := by
    rintro rfl reader size ⟨sealed, hsealed, hstands, hnil⟩ hsize
    obtain ⟨hempty, hstands'⟩ := nothing_left hsealed hstands hnil
    cases htail with
    | passes hshort =>
        unfold DecryptReader.read
        rw [if_pos hempty, fillBuffer_short hstands' hshort]
        exact ⟨sealed, hsealed, hstands, hnil⟩

end Reader

/-! ### Whole files and files that were cut off -/

section Reading

variable {Key : Type} {aead : Aead Key}

/-- Where the first chunks of a file end. -/
def chunkEnd (aead : Aead Key) (key : Key) (nonces : ℕ → Nonce) (data : Bytes) (k : ℕ) : ℕ :=
  ((fileChunks aead key nonces data).take k).flatten.length

theorem flatten_sealedChunks (nonces : ℕ → Nonce) (data : Bytes) :
    ((sealedChunks nonces data).map Prod.fst).flatten = data := by
  have hfst : (sealedChunks nonces data).map Prod.fst = chunks data := by
    rw [sealedChunks, List.map_map]
    exact List.zipIdx_map_fst 0 _
  rw [hfst, flatten_chunks]

theorem sealedChunks_bounds (nonces : ℕ → Nonce) (data : Bytes) :
    ∀ c ∈ sealedChunks nonces data, c.1 ≠ [] ∧ c.1.length ≤ chunkSize := by
  intro c hc
  obtain ⟨entry, hentry, rfl⟩ := List.mem_map.1 hc
  exact chunks_bounds (List.fst_mem_of_mem_zipIdx hentry)

/-- A reader at the start of a file. -/
theorem holds_new (key : Key) {sealed : List (Bytes × Nonce)}
    (h : ∀ c ∈ sealed, c.1 ≠ [] ∧ c.1.length ≤ chunkSize) (tail : Bytes) :
    Holds aead key tail
      (.new ((sealed.map fun c => fileChunk aead key c.1 c.2).flatten ++ tail))
      (sealed.map Prod.fst).flatten :=
  ⟨sealed, h, ⟨[], rfl, rfl⟩, rfl⟩

/-- **A whole file reads back whole**, into buffers of any sizes: the reads give out the bytes in
their order, and one gives out nothing exactly when all have been given out. -/
theorem reads_whole (hlawful : aead.Lawful) (key : Key) (nonces : ℕ → Nonce) (data : Bytes)
    {sizes : List ℕ} (hsizes : ∀ size ∈ sizes, 0 < size) :
    ∃ outs, reads (DecryptReader.read aead key)
        (.new (encryptToFile aead key nonces data)) sizes = outs.map .ok ∧
      outs.flatten <+: data ∧
      (∀ before out after, outs = before ++ out :: after →
        (out = [] ↔ before.flatten = data)) ∧
      (data.length ≤ sizes.length → outs.flatten = data) := by
  have hholds : Holds aead key [] _ _ := holds_new key (sealedChunks_bounds nonces data) []
  rw [flatten_sealedChunks, List.append_nil] at hholds
  exact (delivers hlawful (.passes (by decide))).reads_eq hholds hsizes

theorem chunkEnd_succ (hlawful : aead.Lawful) (key : Key) {nonces : ℕ → Nonce} {data : Bytes}
    {k : ℕ} (hk : k < (fileChunks aead key nonces data).length) :
    chunkEnd aead key nonces data k + 32 ≤ chunkEnd aead key nonces data (k + 1) := by
  unfold chunkEnd
  rw [List.take_succ_eq_append_getElem hk, List.flatten_append, List.length_append]
  obtain ⟨c, -, hc⟩ := List.mem_map.1 (List.getElem_mem hk)
  rw [← hc, List.flatten_singleton, length_fileChunk hlawful]
  omega

theorem chunkEnd_mono (aead : Aead Key) (key : Key) (nonces : ℕ → Nonce) (data : Bytes)
    {k k' : ℕ} (h : k ≤ k') :
    chunkEnd aead key nonces data k ≤ chunkEnd aead key nonces data k' := by
  obtain ⟨m, rfl⟩ := Nat.exists_eq_add_of_le h
  unfold chunkEnd
  rw [List.take_add, List.flatten_append, List.length_append]
  omega

/-- A cut is in one length only. -/
theorem cut_in_length_iff (hlawful : aead.Lawful) (key : Key) (nonces : ℕ → Nonce) (data : Bytes)
    {n k : ℕ} (hle : chunkEnd aead key nonces data k ≤ n)
    (hlt : k < (fileChunks aead key nonces data).length →
      n < chunkEnd aead key nonces data (k + 1)) :
    (∃ k, chunkEnd aead key nonces data k < n ∧ n < chunkEnd aead key nonces data k + 4) ↔
      chunkEnd aead key nonces data k < n ∧ n < chunkEnd aead key nonces data k + 4 := by
  refine ⟨?_, fun h => ⟨k, h⟩⟩
  rintro ⟨k', hafter, hbefore⟩
  rcases Nat.lt_trichotomy k' k with hearlier | rfl | hlater
  · have hmono : chunkEnd aead key nonces data (k' + 1) ≤ chunkEnd aead key nonces data k :=
      chunkEnd_mono aead key nonces data hearlier
    by_cases hk' : k' < (fileChunks aead key nonces data).length
    · have := chunkEnd_succ hlawful key hk'
      omega
    · have hall : chunkEnd aead key nonces data k' = chunkEnd aead key nonces data k := by
        unfold chunkEnd
        rw [List.take_of_length_le (by omega), List.take_of_length_le (by omega)]
      omega
  · exact ⟨hafter, hbefore⟩
  · by_cases hk : k < (fileChunks aead key nonces data).length
    · have hmono : chunkEnd aead key nonces data (k + 1) ≤ chunkEnd aead key nonces data k' :=
        chunkEnd_mono aead key nonces data hlater
      have := hlt hk
      omega
    · have hall : chunkEnd aead key nonces data k' = chunkEnd aead key nonces data k := by
        unfold chunkEnd
        rw [List.take_of_length_le (by omega), List.take_of_length_le (by omega)]
      rw [hall] at hafter hbefore
      exact ⟨hafter, hbefore⟩

/-- **A file that was cut off between two ends of chunks** reads to the end as an error, unless it
was cut off in the length of a chunk. -/
theorem readToEnd_cut (hlawful : aead.Lawful) (key : Key) (nonces : ℕ → Nonce) (data : Bytes)
    {sizes : List ℕ} (hsizes : ∀ size ∈ sizes, 0 < size) (hlength : data.length < sizes.length)
    {n : ℕ} (hn : n < (encryptToFile aead key nonces data).length)
    (hends : ∀ k, n ≠ chunkEnd aead key nonces data k) :
    (∃ e, readToEnd (DecryptReader.read aead key)
        (.new ((encryptToFile aead key nonces data).take n)) sizes = some (.error e)) ↔
      ¬ ∃ k, chunkEnd aead key nonces data k < n ∧ n < chunkEnd aead key nonces data k + 4 := by
  obtain ⟨k, torn, htake, -, hle, hlt, htorn⟩ :=
    Cuts.take_flatten (fileChunks aead key nonces data) n
  have hcut : (encryptToFile aead key nonces data).take n =
      (((sealedChunks nonces data).take k).map fun c => fileChunk aead key c.1 c.2).flatten ++
        torn := by
    rw [encryptToFile, htake, fileChunks, List.map_take]
  have hcount : n = chunkEnd aead key nonces data k + torn.length := by
    have := congrArg List.length htake
    rw [List.length_take, List.length_append] at this
    unfold encryptToFile at hn
    unfold chunkEnd
    omega
  have hbounds : ∀ c ∈ (sealedChunks nonces data).take k, c.1 ≠ [] ∧ c.1.length ≤ chunkSize :=
    fun c hc => sealedChunks_bounds nonces data c (List.mem_of_mem_take hc)
  have hholds : Holds aead key torn _ _ := holds_new key hbounds torn
  rw [← hcut] at hholds
  have hshorter : (((sealedChunks nonces data).take k).map Prod.fst).flatten.length <
      sizes.length := by
    refine Nat.lt_of_le_of_lt ?_ hlength
    rw [List.map_take]
    conv_rhs => rw [← flatten_sealedChunks nonces data,
      ← List.take_append_drop k ((sealedChunks nonces data).map Prod.fst)]
    rw [List.flatten_append, List.length_append]
    omega
  rw [cut_in_length_iff hlawful key nonces data hle hlt]
  have hpos : torn ≠ [] := fun hnil => hends k (by rw [hcount, hnil]; rfl)
  have htornpos := List.length_pos_iff.2 hpos
  by_cases hshort : torn.length < 4
  · rw [(delivers hlawful (.passes hshort)).readToEnd_eq hholds hsizes hshorter]
    refine iff_of_false (by simp [ended]) (not_not.2 ⟨by omega, by omega⟩)
  · obtain ⟨part, hpart, hprefix, hpartlt⟩ := htorn.resolve_left hpos
    obtain ⟨c, hc, rfl⟩ := List.mem_map.1 hpart
    have hfails := Cut.fails c.1 c.2 (sealedChunks_bounds nonces data c hc).2 hprefix hpartlt
      (Nat.not_lt.1 hshort)
    rw [(delivers hlawful hfails).readToEnd_eq hholds hsizes hshorter]
    exact iff_of_true ⟨_, rfl⟩ fun h => by omega

end Reading

/-- **An encrypted file reads back whole, or fails exactly if it was not cut off in the length of a
chunk**, into buffers of any sizes. -/
theorem encrypted_file_iff {Key : Type} {aead : Aead Key} (hlawful : aead.Lawful) (key : Key)
    (nonces : ℕ → Nonce) (data : Bytes) {sizes : List ℕ} (hsizes : ∀ size ∈ sizes, 0 < size) :
    (∃ outs, reads (DecryptReader.read aead key)
        (.new (encryptToFile aead key nonces data)) sizes = outs.map .ok ∧
      outs.flatten <+: data ∧
      (∀ before out after, outs = before ++ out :: after →
        (out = [] ↔ before.flatten = data)) ∧
      (data.length ≤ sizes.length → outs.flatten = data)) ∧
    (data.length < sizes.length → ∀ n < (encryptToFile aead key nonces data).length,
      (∀ k, n ≠ chunkEnd aead key nonces data k) →
        ((∃ e, readToEnd (DecryptReader.read aead key)
            (.new ((encryptToFile aead key nonces data).take n)) sizes = some (.error e)) ↔
          ¬ ∃ k, chunkEnd aead key nonces data k < n ∧
            n < chunkEnd aead key nonces data k + 4)) :=
  ⟨reads_whole hlawful key nonces data hsizes,
    fun hlength _ hn hends => readToEnd_cut hlawful key nonces data hsizes hlength hn hends⟩

/-- A nonce. -/
def zeros : Nonce := ⟨List.replicate 12 0, length_zeros⟩

/-- A file of one byte. -/
theorem encrypted_file_one_byte :
    (∃ outs, reads (DecryptReader.read Aead.plain ())
        (.new (encryptToFile Aead.plain () (fun _ => zeros) [7])) [2, 1] = outs.map .ok ∧
      outs.flatten <+: [7] ∧
      (∀ before out after, outs = before ++ out :: after →
        (out = [] ↔ before.flatten = [7])) ∧
      ([7].length ≤ 2 → outs.flatten = [7])) ∧
    ([7].length < 2 → ∀ n < (encryptToFile Aead.plain () (fun _ => zeros) [7]).length,
      (∀ k, n ≠ chunkEnd Aead.plain () (fun _ => zeros) [7] k) →
        ((∃ e, readToEnd (DecryptReader.read Aead.plain ())
            (.new ((encryptToFile Aead.plain () (fun _ => zeros) [7]).take n)) [2, 1] =
              some (.error e)) ↔
          ¬ ∃ k, chunkEnd Aead.plain () (fun _ => zeros) [7] k < n ∧
            n < chunkEnd Aead.plain () (fun _ => zeros) [7] k + 4)) :=
  encrypted_file_iff Aead.lawful_plain () (fun _ => zeros) [7] (by decide)

/-- **The file of one byte, cut off after three bytes**, reads to the end as an empty one. -/
theorem cut_length_reads_empty :
    3 < (encryptToFile Aead.plain () (fun _ => zeros) [7]).length ∧
      readToEnd (DecryptReader.read Aead.plain ())
        (.new ((encryptToFile Aead.plain () (fun _ => zeros) [7]).take 3)) [2, 1] =
          some (.ok []) := by
  decide +kernel

end Crypto
end ZuTalk
