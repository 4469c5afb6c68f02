/-
# What slow viewers are shown

The metadata, the parts and the counts of a page are registers that messages write; segments
are only ever added.  So a message whose writes are all written again may make way
(`same_of_replaced`), and a page that follows a room goes on following it when a lasting push
reaches both (`Follows.push`).  `Sound` is what every fit move preserves.
-/

import ZuTalk.Rooms.Viewers

namespace ZuTalk
namespace Rooms

open Machine Registers

variable {α : Type}

section Registers

/-- The part that a message writes. -/
def messagePart : Message α → String × ℕ → Option (Option (List α))
  | .init data, place => some (putAll partOf (fun _ => none) data.sessions place)
  | .push (.blocks data), place => partOf data place
  | _, _ => none

/-- The count that a message writes. -/
def messageCount : Message α → String → Option (Option ℕ)
  | .init data, session => some (putAll countOf (fun _ => none) data.sessions session)
  | .push (.blocks data), session => countOf data session
  | _, _ => none

/-- The metadata that a message writes. -/
def messageMetadata : Message α → Unit → Option (Option α)
  | .init data, _ => some data.metadata
  | .push (.metadata data), _ => some (some data)
  | _, _ => none

theorem part_handle (page : Page α) (message : Message α) :
    (page.handle message).part = put messagePart page.part message := by
  cases message with
  | init data => exact (part_foldl _ data.sessions).trans rfl
  | push data =>
      cases data with
      | blocks data => exact part_ingestTranscript page data
      | frame | metadata | segment => rfl
  | ended purged => rfl
  | ping => rfl

theorem count_handle (page : Page α) (message : Message α) :
    (page.handle message).count = put messageCount page.count message := by
  cases message with
  | init data => exact (count_foldl _ data.sessions).trans rfl
  | push data =>
      cases data with
      | blocks data => exact count_ingestTranscript page data
      | frame | metadata | segment => rfl
  | ended purged => rfl
  | ping => rfl

theorem metadata_foldl (page : Page α) (sessions : List (Blocks α)) :
    (sessions.foldl Page.ingestTranscript page).metadata = page.metadata := by
  induction sessions generalizing page with
  | nil => rfl
  | cons data sessions ih =>
      rw [List.foldl_cons, ih]
      unfold Page.ingestTranscript
      split
      · rfl
      · rfl

theorem metadata_handle (page : Page α) (message : Message α) :
    (page.handle message).metadata = put messageMetadata (fun _ => page.metadata) message () := by
  cases message with
  | init data => exact metadata_foldl _ data.sessions
  | push data =>
      cases data with
      | blocks data => exact metadata_foldl page [data]
      | frame | metadata | segment => rfl
  | ended purged => rfl
  | ping => rfl

theorem part_handleAll (page : Page α) (messages : List (Message α)) :
    (page.handleAll messages).part = putAll messagePart page.part messages := by
  induction messages generalizing page with
  | nil => rfl
  | cons message messages ih =>
      rw [putAll_cons, ← part_handle, ← ih]
      rfl

theorem count_handleAll (page : Page α) (messages : List (Message α)) :
    (page.handleAll messages).count = putAll messageCount page.count messages := by
  induction messages generalizing page with
  | nil => rfl
  | cons message messages ih =>
      rw [putAll_cons, ← count_handle, ← ih]
      rfl

theorem metadata_handleAll (page : Page α) (messages : List (Message α)) :
    (page.handleAll messages).metadata =
      putAll messageMetadata (fun _ => page.metadata) messages () := by
  induction messages generalizing page with
  | nil => rfl
  | cons message messages ih =>
      refine (ih (page.handle message)).trans ?_
      rw [putAll_cons]
      exact putAll_congr (metadata_handle page message) messages

theorem segments_ingestTranscript (page : Page α) (data : Blocks α) :
    (page.ingestTranscript data).segments = page.segments := by
  unfold Page.ingestTranscript
  split
  · rfl
  · rfl

/-- The segments of a page depend on those it had. -/
theorem segments_handleAll_congr {page page' : Page α} (h : page.segments = page'.segments)
    (messages : List (Message α)) :
    (page.handleAll messages).segments = (page'.handleAll messages).segments := by
  induction messages generalizing page page' with
  | nil => exact h
  | cons message messages ih =>
      refine ih ?_
      cases message with
      | init data => rfl
      | push data =>
          cases data with
          | blocks data =>
              exact (segments_ingestTranscript page data).trans
                (h.trans (segments_ingestTranscript page' data).symm)
          | frame data => exact h
          | metadata data => exact h
          | segment data => exact congrArg (· ++ [data]) h
      | ended purged => exact h
      | ping => exact h

/-- A part is one that blocks brought, or there is none. -/
theorem part_eq (sessions : List (Blocks α)) (place : String × ℕ) :
    (putAll partOf (fun _ => none) sessions place = none ∧
        ∀ data ∈ sessions, partOf data place = none) ∨
      ∃ data ∈ sessions,
        partOf data place = some (putAll partOf (fun _ => none) sessions place) :=
  putAll_eq _ _ _

/-- A count is one that blocks brought, or there is none. -/
theorem count_eq (sessions : List (Blocks α)) (session : String) :
    (putAll countOf (fun _ => none) sessions session = none ∧
        ∀ data ∈ sessions, countOf data session = none) ∨
      ∃ data ∈ sessions,
        countOf data session = some (putAll countOf (fun _ => none) sessions session) :=
  putAll_eq _ _ _

end Registers

/-! ### What makes way -/

/-- Two pages hold the same. -/
structure Same (page page' : Page α) : Prop where
  metadata : page.metadata = page'.metadata
  segments : page.segments = page'.segments
  part : page.part = page'.part
  count : page.count = page'.count

/-- A message whose registers are all written again leaves the page as it would have been. -/
theorem same_of_overwritten {page : Page α} {message : Message α} {later : List (Message α)}
    (hsegments : (page.handle message).segments = page.segments)
    (hmetadata : (messageMetadata message ()).isSome → ∃ other ∈ later,
      (messageMetadata other ()).isSome)
    (hpart : ∀ place, (messagePart message place).isSome → ∃ other ∈ later,
      (messagePart other place).isSome)
    (hcount : ∀ session, (messageCount message session).isSome → ∃ other ∈ later,
      (messageCount other session).isSome) :
    Same (page.handleAll (message :: later)) (page.handleAll later) where
  metadata := by
    rw [metadata_handleAll, metadata_handleAll, putAll_cons_of_overwritten hmetadata]
  segments := segments_handleAll_congr hsegments later
  part := by
    rw [part_handleAll, part_handleAll]
    exact funext fun place => putAll_cons_of_overwritten (hpart place)
  count := by
    rw [count_handleAll, count_handleAll]
    exact funext fun session => putAll_cons_of_overwritten (hcount session)

theorem exists_metadata {later : List (Message α)} (h : later.any Message.bringsMetadata = true) :
    ∃ other ∈ later, (messageMetadata other ()).isSome := by
  obtain ⟨other, hother, hbrings⟩ := List.any_eq_true.1 h
  refine ⟨other, hother, ?_⟩
  unfold Message.bringsMetadata at hbrings
  split at hbrings
  · rfl
  · cases hbrings

/-- What blocks write is written again. -/
theorem exists_part_of_replaced {data : Blocks α} {later : List (Message α)}
    (h : data.replaced later = true) {place : String × ℕ} (hwrites : (partOf data place).isSome) :
    ∃ other ∈ later, (messagePart other place).isSome := by
  obtain ⟨hsession, rfl⟩ := partOf_isSome.1 hwrites
  unfold Blocks.replaced at h
  simp only [hsession, decide_false, Bool.false_or, Bool.and_eq_true] at h
  obtain ⟨other, hother, hbrings⟩ := List.any_eq_true.1 h.1
  refine ⟨other, hother, ?_⟩
  unfold Message.bringsPart at hbrings
  split at hbrings
  · rename_i found
    simp only [Bool.and_eq_true, decide_eq_true_eq] at hbrings
    exact partOf_isSome.2 ⟨hbrings.1 ▸ hsession, Prod.ext hbrings.1 hbrings.2⟩
  · cases hbrings

theorem exists_count_of_replaced {data : Blocks α} {later : List (Message α)}
    (h : data.replaced later = true) {session : String}
    (hwrites : (countOf data session).isSome) :
    ∃ other ∈ later, (messageCount other session).isSome := by
  obtain ⟨⟨hsession, rfl⟩, hparts⟩ := countOf_isSome.1 hwrites
  have hnone : data.parts.isNone = false := by
    rw [← Option.not_isSome, hparts]
    rfl
  unfold Blocks.replaced at h
  simp only [hsession, hnone, decide_false, Bool.false_or, Bool.and_eq_true] at h
  obtain ⟨other, hother, hbrings⟩ := List.any_eq_true.1 h.2
  refine ⟨other, hother, ?_⟩
  unfold Message.bringsCount at hbrings
  split at hbrings
  · rename_i found
    simp only [Bool.and_eq_true, decide_eq_true_eq] at hbrings
    exact countOf_isSome.2 ⟨⟨hbrings.1 ▸ hsession, hbrings.1⟩, hbrings.2⟩
  · cases hbrings

/-- A page that was not sent anything yet holds nothing. -/
theorem Page.Kept.blank {page : Page α} (h : page.Kept) (horder : page.transcriptOrder = []) :
    page.part = (fun _ => none) ∧ page.count = fun _ => none := by
  have hblank : ∀ session, page.transcripts session = ⟨[], none⟩ := fun session =>
    h.seen session (by rw [horder]; exact List.not_mem_nil)
  constructor
  · funext place
    unfold Page.part
    rw [hblank]
    rfl
  · funext session
    unfold Page.count
    rw [hblank]

/-- **What is written again may make way.** -/
theorem same_of_replaced {page : Page α} (hkept : page.Kept) {message : Message α}
    {later : List (Message α)} (h : message.replaced page later = true) :
    Same (page.handleAll (message :: later)) (page.handleAll later) := by
  cases message with
  | init data =>
      -- The page holds nothing, so what the `init` does not bring it does not take away.
      simp only [Message.replaced, Bool.and_eq_true, Option.isNone_iff_eq_none,
        List.isEmpty_iff, Bool.or_eq_true] at h
      obtain ⟨⟨⟨⟨⟨hmetadata, hsegments⟩, horder⟩, hbrings⟩, hsessions⟩, hnone⟩ := h
      obtain ⟨hpart, hcount⟩ := hkept.blank horder
      refine ⟨?_, ?_, ?_, ?_⟩
      · rw [metadata_handleAll, metadata_handleAll]
        rcases hbrings with hblank | hlater
        · rw [putAll_cons]
          refine putAll_congr ?_ later
          show data.metadata = page.metadata
          rw [hblank, hmetadata]
        · exact putAll_cons_of_overwritten fun _ => exists_metadata hlater
      · refine segments_handleAll_congr ?_ later
        show data.segments = page.segments
        rw [hsegments, hnone]
      · rw [part_handleAll, part_handleAll]
        funext place
        rcases part_eq data.sessions place with ⟨hsame, -⟩ | ⟨blocks, hblocks, hwrites⟩
        · rw [putAll_cons]
          refine putAll_congr ?_ later
          show (putAll partOf (fun _ => none) data.sessions place) = page.part place
          rw [hsame, hpart]
        · refine putAll_cons_of_overwritten fun _ => ?_
          exact exists_part_of_replaced (List.all_eq_true.1 hsessions blocks hblocks)
            (by rw [hwrites]; rfl)
      · rw [count_handleAll, count_handleAll]
        funext session
        rcases count_eq data.sessions session with ⟨hsame, -⟩ | ⟨blocks, hblocks, hwrites⟩
        · rw [putAll_cons]
          refine putAll_congr ?_ later
          show (putAll countOf (fun _ => none) data.sessions session) = page.count session
          rw [hsame, hcount]
        · refine putAll_cons_of_overwritten fun _ => ?_
          exact exists_count_of_replaced (List.all_eq_true.1 hsessions blocks hblocks)
            (by rw [hwrites]; rfl)
  | push data =>
      cases data with
      | frame data =>
          exact same_of_overwritten rfl (fun h => by cases h) (fun _ h => by cases h)
            fun _ h => by cases h
      | metadata data =>
          exact same_of_overwritten rfl (fun _ => exists_metadata h) (fun _ h => by cases h)
            fun _ h => by cases h
      | blocks data =>
          exact same_of_overwritten (segments_ingestTranscript page data) (fun h => by cases h)
            (fun _ => exists_part_of_replaced h) fun _ => exists_count_of_replaced h
      | segment data => cases h
  | ended purged | ping =>
      exact same_of_overwritten rfl (fun h => by cases h) (fun _ h => by cases h)
        fun _ h => by cases h

/-! ### What a room keeps -/

section Kept

variable {room : Room α} {data : Blocks α}

/-- Where blocks belong. -/
def placeOf (entry : String × Blocks α) : String × ℕ := (entry.2.session, entry.2.part)

/-- A room keeps one entry for an id, and one for a part. -/
structure Room.Tidy (room : Room α) : Prop where
  ids : Table.Distinct Prod.fst room.blocks
  places : Table.Distinct placeOf room.blocks

theorem Blocks.Owned.exists_id (h : data.Owned room) :
    ∃ id, data.wireId = some id ∧ id ≠ "" ∧ ∀ entry ∈ room.blocks,
      entry.1 = id ↔ (entry.2.session, entry.2.part) = (data.session, data.part) := by
  unfold Blocks.Owned at h
  split at h
  · rename_i id hid
    exact ⟨id, hid, h⟩
  · cases h

theorem part_ofRoom (room : Room α) :
    (Page.ofRoom room).part = putAll partOf (fun _ => none) (room.blocks.map Prod.snd) :=
  part_handle Page.start (.init room.init)

theorem count_ofRoom (room : Room α) :
    (Page.ofRoom room).count = putAll countOf (fun _ => none) (room.blocks.map Prod.snd) :=
  count_handle Page.start (.init room.init)

theorem part_ofRoom_iff (h : room.Tidy) {place : String × ℕ} {blocks : List α} :
    (Page.ofRoom room).part place = some blocks ↔
      place.1 ≠ "" ∧ ∃ entry ∈ room.blocks, placeOf entry = place ∧ entry.2.blocks = blocks := by
  rw [part_ofRoom]
  constructor
  · intro hpart
    rcases part_eq (room.blocks.map Prod.snd) place with ⟨hnone, -⟩ | ⟨data, hdata, hwrites⟩
    · rw [hnone] at hpart
      cases hpart
    · obtain ⟨entry, hentry, rfl⟩ := List.mem_map.1 hdata
      obtain ⟨hsession, hplace⟩ := partOf_isSome.1 (by rw [hwrites]; rfl)
      refine ⟨hplace ▸ hsession, entry, hentry, hplace, ?_⟩
      rw [hpart] at hwrites
      unfold partOf at hwrites
      rw [if_pos ⟨hsession, hplace⟩] at hwrites
      exact Option.some.inj (Option.some.inj hwrites)
  · rintro ⟨hsession, entry, hentry, rfl, rfl⟩
    rcases part_eq (room.blocks.map Prod.snd) (placeOf entry) with
      ⟨-, hnone⟩ | ⟨data, hdata, hwrites⟩
    · have hwrote := hnone entry.2 (List.mem_map_of_mem hentry)
      unfold partOf at hwrote
      rw [if_pos ⟨hsession, rfl⟩] at hwrote
      cases hwrote
    · obtain ⟨other, hother, rfl⟩ := List.mem_map.1 hdata
      obtain ⟨-, hplace⟩ := partOf_isSome.1 (by rw [hwrites]; rfl)
      obtain rfl := Table.eq_of_key_eq h.places hother hentry hplace
      unfold partOf at hwrites
      rw [if_pos ⟨hsession, rfl⟩] at hwrites
      exact (Option.some.inj hwrites).symm

/-- A new viewer goes by the count that stands last among the stored blocks. -/
theorem count_ofRoom_eq_lastCount (room : Room α) {session : String} (hsession : session ≠ "") :
    (Page.ofRoom room).count session = Room.lastCount room.blocks session := by
  rw [count_ofRoom]
  unfold Room.lastCount
  induction room.blocks using List.reverseRecOn with
  | nil => rfl
  | append_singleton blocks entry ih =>
      rw [List.map_append, List.map_singleton, putAll_concat, ih, List.filterMap_append]
      unfold countOf
      by_cases hsame : entry.2.session = session
      · rw [if_pos ⟨hsame ▸ hsession, hsame⟩]
        cases hparts : entry.2.parts <;> simp [hsame, hparts]
      · rw [if_neg fun hand => hsame hand.2]
        simp [hsame]

theorem count_ofRoom_eq_none_iff {session : String} (hsession : session ≠ "") :
    (Page.ofRoom room).count session = none ↔
      ∀ entry ∈ room.blocks, entry.2.session = session → entry.2.parts = none := by
  rw [count_ofRoom]
  rcases count_eq (room.blocks.map Prod.snd) session with ⟨hnone, hall⟩ | ⟨data, hdata, hwrites⟩
  · refine iff_of_true hnone fun entry hentry heq => ?_
    have hwrote := hall entry.2 (List.mem_map_of_mem hentry)
    unfold countOf at hwrote
    rw [if_pos ⟨heq ▸ hsession, heq⟩] at hwrote
    exact Option.map_eq_none_iff.1 hwrote
  · obtain ⟨entry, hentry, rfl⟩ := List.mem_map.1 hdata
    obtain ⟨⟨hblank, heq⟩, hparts⟩ := countOf_isSome.1 (by rw [hwrites]; rfl)
    refine iff_of_false (fun hnone => ?_) fun hall => ?_
    · rw [hnone] at hwrites
      unfold countOf at hwrites
      rw [if_pos ⟨hblank, heq⟩] at hwrites
      obtain ⟨parts, -, hsome⟩ := Option.map_eq_some_iff.1 hwrites
      cases hsome
    · rw [hall entry hentry heq] at hparts
      cases hparts

/-- Entries after blocks were stored. -/
theorem mem_storeBlocks {blocks : List (String × Blocks α)} {id : String}
    (hid : data.wireId = some id) (hblank : id ≠ "") {entry : String × Blocks α} :
    entry ∈ Room.storeBlocks blocks data ↔
      entry = (id, data) ∨ (entry ∈ blocks ∧ entry.1 ≠ id) := by
  unfold Room.storeBlocks
  rw [hid]
  dsimp only
  rw [if_neg hblank]
  split
  · rename_i hany
    obtain ⟨old, hold, hkey⟩ := List.any_eq_true.1 hany
    have hkey : old.1 = id := of_decide_eq_true hkey
    constructor
    · intro hmem
      obtain ⟨origin, horigin, ⟨hselected, rfl⟩ | ⟨hselected, rfl⟩⟩ := Table.mem_update hmem
      · exact .inl (Prod.ext (of_decide_eq_true hselected) rfl)
      · exact .inr ⟨horigin, of_decide_eq_false hselected⟩
    · rintro (rfl | ⟨hmem, hne⟩)
      · refine List.mem_map.2 ⟨old, hold, ?_⟩
        exact (if_pos (decide_eq_true hkey)).trans (Prod.ext hkey rfl)
      · refine List.mem_map.2 ⟨entry, hmem, ?_⟩
        exact if_neg (by simpa using hne)
  · rename_i hany
    have hnew : ∀ other ∈ blocks, other.1 ≠ id := by
      intro other hother heq
      exact hany (List.any_eq_true.2 ⟨other, hother, decide_eq_true heq⟩)
    rw [List.mem_append, List.mem_singleton]
    constructor
    · rintro (hmem | rfl)
      · exact .inr ⟨hmem, hnew entry hmem⟩
      · exact .inl rfl
    · rintro (rfl | ⟨hmem, -⟩)
      · exact .inr rfl
      · exact .inl hmem

/-- Blocks that are stored under an id of their own part keep a room tidy. -/
theorem Room.Tidy.storeBlocks (h : room.Tidy) {id : String} (hid : data.wireId = some id)
    (hblank : id ≠ "") (hown : ∀ entry ∈ room.blocks,
      entry.1 = id ↔ (entry.2.session, entry.2.part) = (data.session, data.part)) :
    Room.Tidy { room with blocks := Room.storeBlocks room.blocks data } := by
  unfold Room.storeBlocks
  rw [hid]
  dsimp only
  rw [if_neg hblank]
  split
  · refine ⟨h.ids.update fun entry => rfl, ?_⟩
    have hplaces : (Table.update (fun entry => decide (entry.1 = id))
        (fun entry => (entry.1, data)) room.blocks).map placeOf = room.blocks.map placeOf := by
      unfold Table.update
      rw [List.map_map]
      refine List.map_congr_left fun entry hentry => ?_
      show placeOf (if decide (entry.1 = id) then (entry.1, data) else entry) = placeOf entry
      split
      · rename_i hselected
        exact ((hown entry hentry).1 (of_decide_eq_true hselected)).symm
      · rfl
    show (List.map placeOf _).Nodup
    rw [hplaces]
    exact h.places
  · rename_i hany
    have hnew : ∀ other ∈ room.blocks, other.1 ≠ id := by
      intro other hother heq
      exact hany (List.any_eq_true.2 ⟨other, hother, decide_eq_true heq⟩)
    constructor
    · show (List.map Prod.fst _).Nodup
      rw [List.map_append]
      refine List.nodup_append.2 ⟨h.ids, List.nodup_singleton _, fun a ha b hb heq => ?_⟩
      obtain ⟨entry, hentry, rfl⟩ := List.mem_map.1 ha
      exact hnew entry hentry (heq.trans (List.mem_singleton.1 hb))
    · show (List.map placeOf _).Nodup
      rw [List.map_append]
      refine List.nodup_append.2 ⟨h.places, List.nodup_singleton _, fun a ha b hb heq => ?_⟩
      obtain ⟨entry, hentry, rfl⟩ := List.mem_map.1 ha
      exact hnew entry hentry ((hown entry hentry).2 (heq.trans (List.mem_singleton.1 hb)))

/-- The count of another session is none of theirs. -/
theorem count_storeBlocks_of_ne {id : String} (hid : data.wireId = some id)
    (hown : ∀ entry ∈ room.blocks,
      entry.1 = id ↔ (entry.2.session, entry.2.part) = (data.session, data.part))
    {session : String} (hne : session ≠ data.session) :
    (Page.ofRoom { room with blocks := Room.storeBlocks room.blocks data }).count session =
      (Page.ofRoom room).count session := by
  have hnone : countOf data session = none :=
    if_neg fun h => hne h.2.symm
  rw [count_ofRoom, count_ofRoom]
  unfold Room.storeBlocks
  rw [hid]
  dsimp only
  split
  · rfl
  · split
    · unfold Table.update
      rw [List.map_map, putAll_map, putAll_map]
      refine putAll_writes_congr fun entry hentry => ?_
      show countOf (if decide (entry.1 = id) then (entry.1, data) else entry).2 session =
        countOf entry.2 session
      split
      · rename_i hselected
        have hplace := (hown entry hentry).1 (of_decide_eq_true hselected)
        have hsession : entry.2.session = data.session := congrArg Prod.fst hplace
        exact hnone.trans (if_neg fun h => hne (h.2.symm.trans hsession)).symm
      · rfl
    · rw [List.map_append]
      refine putAll_concat.trans ?_
      rw [hnone]
      rfl

end Kept

/-! ### Following a room -/

/-- A page holds what a room does.  Its counts may be others as long as they cut off the same of
the parts that are there. -/
structure Follows (page : Page α) (room : Room α) : Prop where
  metadata : page.metadata = room.metadata
  segments : page.segments = room.segments
  part : page.part = (Page.ofRoom room).part
  shown : ∀ entry ∈ room.blocks, below (page.count entry.2.session) entry.2.part =
    below ((Page.ofRoom room).count entry.2.session) entry.2.part
  counted : ∀ session, page.count session = none ↔ (Page.ofRoom room).count session = none

section Follows

variable {page page' : Page α} {room : Room α}

theorem Follows.mono (h : Follows page room) {room' : Room α}
    (hmetadata : page'.metadata = room'.metadata) (hsegments : page'.segments = room'.segments)
    (hpart : page'.part = page.part) (hcount : page'.count = page.count)
    (hblocks : room'.blocks = room.blocks) : Follows page' room' := by
  have hpart' : (Page.ofRoom room').part = (Page.ofRoom room).part := by
    rw [part_ofRoom, part_ofRoom, hblocks]
  have hcount' : (Page.ofRoom room').count = (Page.ofRoom room).count := by
    rw [count_ofRoom, count_ofRoom, hblocks]
  refine ⟨hmetadata, hsegments, hpart.trans (h.part.trans hpart'.symm), ?_, ?_⟩
  · rw [hblocks, hcount, hcount']
    exact h.shown
  · rw [hcount, hcount']
    exact h.counted

/-- A page that holds the same. -/
theorem Follows.of_same (h : Follows page room) (hsame : Same page' page) :
    Follows page' room :=
  h.mono (hsame.metadata.trans h.metadata) (hsame.segments.trans h.segments) hsame.part
    hsame.count rfl

/-- A room with the same content. -/
theorem Follows.of_room (h : Follows page room) {room' : Room α}
    (hmetadata : room'.metadata = room.metadata) (hsegments : room'.segments = room.segments)
    (hblocks : room'.blocks = room.blocks) : Follows page room' :=
  h.mono (h.metadata.trans hmetadata.symm) (h.segments.trans hsegments.symm) rfl rfl hblocks

theorem metadata_ofRoom (room : Room α) : (Page.ofRoom room).metadata = room.metadata :=
  metadata_handle Page.start (.init room.init)

/-- A page that is sent the `init` of a room follows it. -/
theorem Follows.init (page : Page α) (room : Room α) :
    Follows (page.handle (.init room.init)) room where
  metadata := metadata_handle page (.init room.init)
  segments := rfl
  part := by
    rw [part_handle, part_ofRoom]
    rfl
  shown := by
    intro entry _
    rw [count_handle, count_ofRoom]
    rfl
  counted := by
    intro session
    rw [count_handle, count_ofRoom]
    rfl

/-- The session without a name has no count. -/
theorem count_ofRoom_blank (room : Room α) : (Page.ofRoom room).count "" = none := by
  rw [count_ofRoom]
  exact putAll_of_none fun message _ => if_neg fun hand => hand.1 hand.2

/-- Blocks that last reach a page and a new viewer alike. -/
theorem Follows.blocks (htidy : room.Tidy) (h : Follows page room) {data : Blocks α}
    (howned : data.Owned room) (hparts : data.Counted room) :
    Follows (page.ingestTranscript data)
      { room with blocks := Room.storeBlocks room.blocks data } := by
  obtain ⟨id, hid, hblank, hown⟩ := howned.exists_id
  unfold Blocks.Counted at hparts
  have htidy' := htidy.storeBlocks hid hblank hown
  have hmem : ∀ entry, entry ∈ Room.storeBlocks room.blocks data ↔
      entry = (id, data) ∨ (entry ∈ room.blocks ∧ entry.1 ≠ id) :=
    fun _ => mem_storeBlocks hid hblank
  refine ⟨(metadata_foldl page [data]).trans h.metadata,
    (segments_ingestTranscript page data).trans h.segments, ?_, ?_, ?_⟩
  · -- A part is the one just brought, or one that was there before under another id.
    rw [part_ingestTranscript]
    funext place
    refine Option.ext fun blocks => ?_
    rw [part_ofRoom_iff htidy']
    unfold put partOf
    by_cases hplace : data.session ≠ "" ∧ (data.session, data.part) = place
    · rw [if_pos hplace]
      obtain ⟨hsession, rfl⟩ := hplace
      constructor
      · intro hsome
        refine ⟨hsession, (id, data), (hmem _).2 (.inl rfl), rfl, ?_⟩
        exact Option.some.inj hsome
      · rintro ⟨-, entry, hentry, hentryPlace, rfl⟩
        rcases (hmem entry).1 hentry with rfl | ⟨hold, hne⟩
        · rfl
        · exact absurd ((hown entry hold).2 hentryPlace) hne
    · rw [if_neg hplace]
      show page.part place = some blocks ↔ _
      rw [h.part, part_ofRoom_iff htidy]
      constructor
      · rintro ⟨hsession, entry, hentry, rfl, rfl⟩
        refine ⟨hsession, entry, (hmem entry).2 (.inr ⟨hentry, fun heq => hplace ?_⟩), rfl, rfl⟩
        have hsame := (hown entry hentry).1 heq
        refine ⟨fun hempty => hsession ?_, hsame.symm⟩
        exact (congrArg Prod.fst hsame).trans hempty
      · rintro ⟨hsession, entry, hentry, rfl, rfl⟩
        rcases (hmem entry).1 hentry with rfl | ⟨hold, -⟩
        · exact absurd ⟨hsession, rfl⟩ hplace
        · exact ⟨hsession, entry, hold, rfl, rfl⟩
  · intro entry hentry
    rw [count_ingestTranscript]
    unfold put countOf
    by_cases hsession : data.session ≠ "" ∧ data.session = entry.2.session
    · rw [if_pos hsession, ← hsession.2]
      cases hnumber : data.parts with
      | some parts =>
          rw [hnumber] at hparts
          have hiff := hparts entry hentry hsession.2.symm
          rw [← count_ofRoom_eq_lastCount { room with
            blocks := Room.storeBlocks room.blocks data } hsession.1] at hiff
          show decide (entry.2.part < parts) = _
          exact (Bool.eq_iff_iff.2 (hiff.trans decide_eq_true_iff.symm)).symm
      | none =>
          rw [hnumber] at hparts
          have hnone : (Page.ofRoom room).count data.session = none :=
            (count_ofRoom_eq_none_iff hsession.1).2 hparts
          have hnone' : (Page.ofRoom { room with
              blocks := Room.storeBlocks room.blocks data }).count data.session = none := by
            refine (count_ofRoom_eq_none_iff hsession.1).2 fun other hother heq => ?_
            rcases (hmem other).1 hother with rfl | ⟨hold, -⟩
            · exact hnumber
            · exact hparts other hold heq
          rw [hnone']
          show below (page.count data.session) entry.2.part = _
          rw [(h.counted data.session).2 hnone]
    · rw [if_neg hsession]
      show below (page.count entry.2.session) entry.2.part = _
      by_cases hsame : entry.2.session = data.session
      · -- Both are the session that is never shown.
        have hempty : data.session = "" := by
          by_contra hne
          exact hsession ⟨hne, hsame.symm⟩
        have hnone : page.count "" = none := (h.counted "").2 (count_ofRoom_blank room)
        rw [hsame, hempty, hnone, count_ofRoom_blank]
      · rw [count_storeBlocks_of_ne hid hown hsame]
        rcases (hmem entry).1 hentry with rfl | ⟨hold, -⟩
        · exact absurd rfl hsame
        · exact h.shown entry hold
  · intro session
    rw [count_ingestTranscript]
    unfold put countOf
    by_cases hsession : data.session ≠ "" ∧ data.session = session
    · rw [if_pos hsession]
      obtain ⟨hne, rfl⟩ := hsession
      rw [count_ofRoom_eq_none_iff hne]
      cases hnumber : data.parts with
      | some parts =>
          refine iff_of_false (fun hnone => by cases hnone) fun hall => ?_
          have hnone := hall (id, data) ((hmem _).2 (.inl rfl)) rfl
          rw [hnumber] at hnone
          cases hnone
      | none =>
          rw [hnumber] at hparts
          refine iff_of_true ?_ fun other hother heq => ?_
          · exact (h.counted data.session).2 ((count_ofRoom_eq_none_iff hne).2 hparts)
          · rcases (hmem other).1 hother with rfl | ⟨hold, -⟩
            · exact hnumber
            · exact hparts other hold heq
    · rw [if_neg hsession]
      show page.count session = none ↔ _
      rw [h.counted]
      by_cases hsame : session = data.session
      · have hempty : session = "" := by
          by_contra hne
          exact hsession ⟨hsame ▸ hne, hsame.symm⟩
        rw [hempty, count_ofRoom_blank, count_ofRoom_blank]
      · rw [count_storeBlocks_of_ne hid hown hsame]

/-- **A page goes on following a room** when a lasting push reaches both. -/
theorem Follows.push (htidy : room.Tidy) (h : Follows page room) {push : Push α}
    (hlasting : push.Lasting room) (now : ℤ) :
    (room.publish now push).Tidy ∧ Follows (page.push push) (room.publish now push) := by
  cases push with
  | frame data => exact ⟨⟨htidy.ids, htidy.places⟩, h.mono h.metadata h.segments rfl rfl rfl⟩
  | metadata data => exact ⟨⟨htidy.ids, htidy.places⟩, h.mono rfl h.segments rfl rfl rfl⟩
  | blocks data =>
      obtain ⟨howned, hcounted⟩ := hlasting
      obtain ⟨id, hid, hblank, hown⟩ := howned.exists_id
      have htidy' := htidy.storeBlocks hid hblank hown
      exact ⟨⟨htidy'.ids, htidy'.places⟩, (h.blocks htidy howned hcounted).of_room rfl rfl rfl⟩
  | segment data =>
      refine ⟨⟨htidy.ids, htidy.places⟩, h.mono h.metadata ?_ rfl rfl rfl⟩
      have hroom : room.segments.length < maxSegmentsPerRoom := hlasting
      have hkeep : (room.segments ++ [data]).length - maxSegmentsPerRoom = 0 := by
        rw [List.length_append, List.length_singleton]
        omega
      unfold Room.publish Page.push
      dsimp only
      rw [hkeep, h.segments, List.drop_zero]

/-- A page that follows a room shows it. -/
theorem Follows.shows (h : Follows page room) (htidy : room.Tidy) (hkept : page.Kept) :
    page.Shows (Page.ofRoom room) := by
  refine ⟨h.metadata.trans (metadata_ofRoom room).symm, fun session => ?_, h.segments⟩
  have hkept' : (Page.ofRoom room).Kept := Page.kept_start.handle (.init room.init)
  have hparts : (page.transcripts session).parts =
      ((Page.ofRoom room).transcripts session).parts := by
    refine (hkept.sorted session).ext (hkept'.sorted session) fun part => ?_
    exact congrFun h.part (session, part)
  unfold Transcript.blocks
  rw [hparts]
  congr 1
  refine List.filter_congr fun shown hshown => ?_
  have hget : (Page.ofRoom room).part (session, shown.1) = some shown.2 :=
    (hkept'.sorted session).get_of_mem hshown
  obtain ⟨-, entry, hentry, hplace, -⟩ := (part_ofRoom_iff htidy).1 hget
  have hsession : entry.2.session = session := congrArg Prod.fst hplace
  have hpart : entry.2.part = shown.1 := congrArg Prod.snd hplace
  have hbelow := h.shown entry hentry
  rw [hsession, hpart] at hbelow
  exact hbelow

end Follows

/-! ### Queues -/

section Queues

theorem Page.handleAll_concat (page : Page α) (messages : List (Message α))
    (message : Message α) :
    page.handleAll (messages ++ [message]) = (page.handleAll messages).handle message := by
  unfold Page.handleAll
  rw [List.foldl_append]
  rfl

theorem length_offer (waiting : List (Message α)) (message : Message α) :
    (offer waiting message).length ≤ subscriberQueueDepth := by
  have hdepth : 0 < subscriberQueueDepth := by decide
  unfold offer
  rw [List.length_append, List.length_drop, List.length_singleton]
  omega

/-- A message that is offered where it may be. -/
theorem same_offer {page : Page α} (hkept : page.Kept) {waiting : List (Message α)}
    (hlength : waiting.length ≤ subscriberQueueDepth) {message : Message α}
    (hspares : ∀ oldest rest, waiting = oldest :: rest → subscriberQueueDepth ≤ rest.length + 1 →
      oldest.replaced page (rest ++ [message]) = true) :
    Same (page.handleAll (offer waiting message)) ((page.handleAll waiting).handle message) := by
  rw [← Page.handleAll_concat]
  unfold offer
  by_cases hroom : waiting.length < subscriberQueueDepth
  · have hkeep : waiting.length + 1 - subscriberQueueDepth = 0 := by omega
    rw [hkeep]
    exact ⟨rfl, rfl, rfl, rfl⟩
  · have hdrop : waiting.length + 1 - subscriberQueueDepth = 1 := by omega
    rw [hdrop]
    cases waiting with
    | nil => exact absurd (by decide : ([] : List ℕ).length < subscriberQueueDepth) hroom
    | cons oldest rest =>
        have hreplaced := hspares oldest rest rfl (by
          rw [List.length_cons] at hroom
          omega)
        obtain ⟨hmetadata, hsegments, hpart, hcount⟩ := same_of_replaced hkept hreplaced
        exact ⟨hmetadata.symm, hsegments.symm, hpart.symm, hcount.symm⟩

end Queues

/-! ### Runs -/

/-- What every fit move preserves: a page that reads its queue to the end will follow the
room. -/
structure Sound (share : Share α) : Prop where
  tidy : share.room.Tidy
  kept : ∀ connection, (share.pages connection).Kept
  depth : ∀ connection, ∀ waiting ∈ share.queues connection,
    waiting.length ≤ subscriberQueueDepth
  attached : ∀ connection, (share.queues connection).isSome →
    connection ∈ share.room.subscribers ∨ share.room.ended = true
  follows : ∀ connection, ∀ waiting ∈ share.queues connection,
    Follows ((share.pages connection).handleAll waiting) share.room

section Runs

variable {share share' : Share α}

theorem Sound.create (roomId publishToken : String) (now : ℤ) :
    Sound (Share.create roomId publishToken now : Share α) where
  tidy := ⟨List.nodup_nil, List.nodup_nil⟩
  kept := fun _ => Page.kept_start
  depth := fun _ _ hwaiting => by cases hwaiting
  attached := fun _ hsome => by cases hsome
  follows := fun _ _ hwaiting => by cases hwaiting

/-- A queue after a message was offered. -/
theorem exists_of_mem_offerAll {queues : ℕ → Option (List (Message α))} {subscribers : List ℕ}
    {message : Message α} {connection : ℕ} {waiting : List (Message α)}
    (h : waiting ∈ offerAll queues subscribers message connection) :
    ∃ before ∈ queues connection, (connection ∈ subscribers ∧ waiting = offer before message) ∨
      (connection ∉ subscribers ∧ waiting = before) := by
  unfold offerAll at h
  split at h
  · rename_i hsubscribed
    obtain ⟨before, hbefore, rfl⟩ := Option.map_eq_some_iff.1 h
    exact ⟨before, hbefore, .inl ⟨hsubscribed, rfl⟩⟩
  · rename_i hnot
    exact ⟨waiting, h, .inr ⟨hnot, rfl⟩⟩

/-- A message to all subscribers of an open room, with what it does to the room. -/
theorem Sound.tell (h : Sound share) (hopen : share.room.ended = false) {room : Room α}
    {message : Message α} (hspares : ∀ connection ∈ share.room.subscribers,
      Spares share message connection)
    (htidy : room.Tidy) (hattached : ∀ connection ∈ share.room.subscribers,
      connection ∈ room.subscribers ∨ room.ended = true)
    (hfollows : ∀ page, Follows page share.room → Follows (page.handle message) room) :
    Sound (share.tell room message) where
  tidy := htidy
  kept := h.kept
  depth := by
    intro connection waiting hwaiting
    obtain ⟨before, hbefore, ⟨-, rfl⟩ | ⟨-, rfl⟩⟩ := exists_of_mem_offerAll hwaiting
    · exact length_offer before message
    · exact h.depth connection waiting hbefore
  attached := by
    intro connection hsome
    obtain ⟨waiting, hwaiting⟩ := Option.isSome_iff_exists.1 hsome
    obtain ⟨before, hbefore, -⟩ := exists_of_mem_offerAll hwaiting
    rcases h.attached connection (by rw [hbefore]; rfl) with hsubscribed | hended
    · exact hattached connection hsubscribed
    · rw [hopen] at hended
      cases hended
  follows := by
    intro connection waiting hwaiting
    obtain ⟨before, hbefore, hcases⟩ := exists_of_mem_offerAll hwaiting
    have hsubscribed : connection ∈ share.room.subscribers := by
      rcases h.attached connection (by rw [hbefore]; rfl) with hmem | hended
      · exact hmem
      · rw [hopen] at hended
        cases hended
    obtain ⟨-, rfl⟩ := hcases.resolve_right fun hand => hand.1 hsubscribed
    refine (hfollows _ (h.follows connection before hbefore)).of_same ?_
    refine same_offer (h.kept connection) (h.depth connection before hbefore) ?_
    rintro oldest rest rfl hfull
    have hspare := hspares connection hsubscribed
    unfold Spares at hspare
    rw [Option.mem_def.1 hbefore] at hspare
    exact hspare hfull

theorem Sound.publish (h : Sound share) (hopen : share.room.ended = false) (now : ℤ)
    {push : Push α}
    (hspares : ∀ connection ∈ share.room.subscribers, Spares share (.push push) connection)
    (hlasting : push.Lasting share.room) :
    Sound (share.tell (share.room.publish now push) (.push push)) := by
  have hsubscribers : (share.room.publish now push).subscribers = share.room.subscribers := by
    cases push with
    | frame | metadata | blocks | segment => rfl
  have htidy : (share.room.publish now push).Tidy :=
    ((Follows.init Page.start share.room).push h.tidy hlasting now).1
  refine h.tell hopen hspares htidy (fun connection hmem => .inl ?_) fun page hpage =>
    (hpage.push h.tidy hlasting now).2
  rw [hsubscribers]
  exact hmem

theorem Sound.endRoom (h : Sound share) (hopen : share.room.ended = false)
    (hspares : ∀ connection ∈ share.room.subscribers, Spares share (.ended false) connection) :
    Sound (share.tell share.room.endRoom (.ended false)) := by
  refine h.tell hopen hspares ⟨h.tidy.ids, h.tidy.places⟩ (fun _ _ => .inr rfl) ?_
  intro page hpage
  exact hpage.mono hpage.metadata hpage.segments rfl rfl rfl

/-- Probing a connection changes nothing that its page holds. -/
theorem Sound.stats (h : Sound share) :
    Sound { share with queues := pingAll share.queues share.room.subscribers } := by
  have hping : ∀ connection waiting,
      waiting ∈ pingAll share.queues share.room.subscribers connection →
        ∃ before ∈ share.queues connection, waiting = before ∨
          (before.length < subscriberQueueDepth ∧ waiting = before ++ [.ping]) := by
    intro connection waiting hwaiting
    unfold pingAll at hwaiting
    split at hwaiting
    · obtain ⟨before, hbefore, rfl⟩ := Option.map_eq_some_iff.1 hwaiting
      refine ⟨before, hbefore, ?_⟩
      split
      · rename_i hroom
        exact .inr ⟨hroom, rfl⟩
      · exact .inl rfl
    · exact ⟨waiting, hwaiting, .inl rfl⟩
  refine ⟨h.tidy, h.kept, ?_, ?_, ?_⟩
  · intro connection waiting hwaiting
    obtain ⟨before, hbefore, rfl | ⟨hroom, rfl⟩⟩ := hping connection waiting hwaiting
    · exact h.depth connection waiting hbefore
    · rw [List.length_append]
      exact hroom
  · intro connection hsome
    obtain ⟨waiting, hwaiting⟩ := Option.isSome_iff_exists.1 hsome
    obtain ⟨before, hbefore, -⟩ := hping connection waiting hwaiting
    exact h.attached connection (by rw [hbefore]; rfl)
  · intro connection waiting hwaiting
    obtain ⟨before, hbefore, rfl | ⟨-, rfl⟩⟩ := hping connection waiting hwaiting
    · exact h.follows connection waiting hbefore
    · rw [Page.handleAll_concat]
      exact h.follows connection before hbefore

/-- The queue of a connection after that of one was set. -/
theorem mem_update_queue {queues : ℕ → Option (List (Message α))} {connection other : ℕ}
    {queue : Option (List (Message α))} {waiting : List (Message α)}
    (h : waiting ∈ Function.update queues connection queue other) :
    (other = connection ∧ waiting ∈ queue) ∨ (other ≠ connection ∧ waiting ∈ queues other) := by
  by_cases heq : other = connection
  · subst heq
    rw [Function.update_self] at h
    exact .inl ⟨rfl, h⟩
  · rw [Function.update_of_ne heq] at h
    exact .inr ⟨heq, h⟩

/-- A new viewer is sent all that the room has. -/
theorem Sound.subscribe (h : Sound share) (connection : ℕ) :
    Sound { share with
      room := share.room.subscribe connection
      queues := Function.update share.queues connection (some share.room.firstQueue) } := by
  have hcontent : ∀ page, Follows page share.room →
      Follows page (share.room.subscribe connection) := by
    intro page hpage
    unfold Room.subscribe
    split
    · exact hpage
    · exact hpage.of_room rfl rfl rfl
  have htidy : (share.room.subscribe connection).Tidy := by
    unfold Room.subscribe
    split
    · exact h.tidy
    · exact ⟨h.tidy.ids, h.tidy.places⟩
  have hqueue : ∀ page : Page α, Follows (page.handleAll share.room.firstQueue) share.room := by
    intro page
    unfold Room.firstQueue
    split
    · exact (Follows.init page share.room).of_same ⟨rfl, rfl, rfl, rfl⟩
    · exact Follows.init page share.room
  have hlength : share.room.firstQueue.length ≤ subscriberQueueDepth := by
    unfold Room.firstQueue
    split
    · exact (by decide : 2 ≤ subscriberQueueDepth)
    · exact (by decide : 1 ≤ subscriberQueueDepth)
  refine ⟨htidy, h.kept, ?_, ?_, ?_⟩
  · intro other waiting hwaiting
    rcases mem_update_queue hwaiting with ⟨rfl, hnew⟩ | ⟨-, hold⟩
    · obtain rfl := Option.some.inj hnew
      exact hlength
    · exact h.depth other waiting hold
  · intro other hsome
    obtain ⟨waiting, hwaiting⟩ := Option.isSome_iff_exists.1 hsome
    unfold Room.subscribe
    split
    · rename_i hended
      exact .inr hended
    · rcases mem_update_queue hwaiting with ⟨rfl, -⟩ | ⟨-, hold⟩
      · exact .inl (List.mem_append_right _ List.mem_cons_self)
      · exact (h.attached other (by rw [hold]; rfl)).imp_left (List.mem_append_left _)
  · intro other waiting hwaiting
    refine hcontent _ ?_
    rcases mem_update_queue hwaiting with ⟨rfl, hnew⟩ | ⟨-, hold⟩
    · obtain rfl := Option.some.inj hnew
      exact hqueue _
    · exact h.follows other waiting hold

/-- A message is read from the front of the queue. -/
theorem Sound.read (h : Sound share) {connection : ℕ} {message : Message α}
    {rest : List (Message α)} (hqueue : share.queues connection = some (message :: rest)) :
    Sound { share with
      queues := Function.update share.queues connection (some rest)
      pages := Function.update share.pages connection
        ((share.pages connection).handle message) } := by
  refine ⟨h.tidy, ?_, ?_, ?_, ?_⟩
  · intro other
    by_cases heq : other = connection
    · subst heq
      simpa using (h.kept other).handle message
    · simpa [Function.update_of_ne heq] using h.kept other
  · intro other waiting hwaiting
    rcases mem_update_queue hwaiting with ⟨rfl, hnew⟩ | ⟨-, hold⟩
    · obtain rfl := Option.some.inj hnew
      have hdepth := h.depth other _ hqueue
      rw [List.length_cons] at hdepth
      omega
    · exact h.depth other waiting hold
  · intro other hsome
    obtain ⟨waiting, hwaiting⟩ := Option.isSome_iff_exists.1 hsome
    rcases mem_update_queue hwaiting with ⟨rfl, -⟩ | ⟨-, hold⟩
    · exact h.attached other (by rw [hqueue]; rfl)
    · exact h.attached other (by rw [hold]; rfl)
  · intro other waiting hwaiting
    rcases mem_update_queue hwaiting with ⟨rfl, hnew⟩ | ⟨hne, hold⟩
    · obtain rfl := Option.some.inj hnew
      have hfollows : Follows (((share.pages other).handle message).handleAll rest) share.room :=
        h.follows other _ hqueue
      simpa using hfollows
    · simpa [Function.update_of_ne hne] using h.follows other waiting hold

theorem Sound.leave (h : Sound share) (connection : ℕ) :
    Sound { share with
      room := share.room.unsubscribe connection
      queues := Function.update share.queues connection none } := by
  refine ⟨⟨h.tidy.ids, h.tidy.places⟩, h.kept, ?_, ?_, ?_⟩
  · intro other waiting hwaiting
    rcases mem_update_queue hwaiting with ⟨-, hnew⟩ | ⟨-, hold⟩
    · cases hnew
    · exact h.depth other waiting hold
  · intro other hsome
    obtain ⟨waiting, hwaiting⟩ := Option.isSome_iff_exists.1 hsome
    rcases mem_update_queue hwaiting with ⟨-, hnew⟩ | ⟨hne, hold⟩
    · cases hnew
    · exact (h.attached other (by rw [hold]; rfl)).imp_left fun hmem =>
        (List.mem_erase_of_ne hne).2 hmem
  · intro other waiting hwaiting
    rcases mem_update_queue hwaiting with ⟨-, hnew⟩ | ⟨-, hold⟩
    · cases hnew
    · exact (h.follows other waiting hold).of_room rfl rfl rfl

/-- **Every fit move** keeps pages following the room. -/
theorem Sound.step (h : Sound share) {move : Move α} (hfit : Fit share move)
    (hstep : share.step move = some share') : Sound share' := by
  cases move with
  | publish now push =>
      simp only [Share.step] at hstep
      split at hstep
      · obtain rfl := Option.some.inj hstep
        exact h
      · rename_i hopen
        obtain rfl := Option.some.inj hstep
        have hopen := Bool.eq_false_iff.2 hopen
        exact h.publish hopen now (hfit hopen).1 (hfit hopen).2
  | setLocked locked =>
      obtain rfl := Option.some.inj hstep
      exact ⟨⟨h.tidy.ids, h.tidy.places⟩, h.kept, h.depth, h.attached,
        fun connection waiting hwaiting =>
          (h.follows connection waiting hwaiting).of_room rfl rfl rfl⟩
  | endRoom =>
      simp only [Share.step] at hstep
      split at hstep
      · obtain rfl := Option.some.inj hstep
        exact h
      · rename_i hopen
        obtain rfl := Option.some.inj hstep
        have hopen := Bool.eq_false_iff.2 hopen
        exact h.endRoom hopen (hfit hopen)
  | stats =>
      obtain rfl := Option.some.inj hstep
      exact h.stats
  | subscribe connection =>
      simp only [Share.step] at hstep
      split at hstep
      · cases hstep
      · split at hstep
        · obtain rfl := Option.some.inj hstep
          exact h.subscribe connection
        · obtain rfl := Option.some.inj hstep
          exact h
  | read connection =>
      simp only [Share.step] at hstep
      split at hstep
      · rename_i message rest hqueue
        obtain rfl := Option.some.inj hstep
        exact h.read hqueue
      · cases hstep
  | leave connection =>
      simp only [Share.step] at hstep
      split at hstep
      · obtain rfl := Option.some.inj hstep
        exact h.leave connection
      · cases hstep

end Runs

end Rooms
end ZuTalk
