/-
# The latest transcript of a live link

What will be in the room once all that is queued has been posted (`arriving`) changes only when
a part is queued.  So whether the room ends up with the final transcript is decided when the
push that read it gets the lock of the link (`latest_shown_iff`): every part that it takes for
sent has to be there or on its way, and no part beyond the last may be left that a page would
take the count from (`Caught`).

A part counts as sent once it is queued.  If its post fails, no later push queues it again
(`lost_part_stays_lost`).
-/

import Mathlib.Algebra.GroupWithZero.Nat
import ZuTalk.Links.Publisher

namespace ZuTalk
namespace Links

open Machine

variable {hash : Hash} {session : String}

/-! ### Ids and parts -/

section Parts

theorem toString_inj {m n : ℕ} (h : toString m = toString n) : m = n := by
  have hrepr : (Nat.repr m).toList = (Nat.repr n).toList := congrArg String.toList h
  rw [Nat.toList_repr, Nat.toList_repr] at hrepr
  rw [← @Nat.ofDigitChars_ten_toDigits m, hrepr, Nat.ofDigitChars_ten_toDigits]

theorem wireIdOf_inj {m n : ℕ} (h : wireIdOf session m = wireIdOf session n) : m = n := by
  unfold wireIdOf at h
  have hchars : (session ++ ":").toList ++ (toString m).toList =
      (session ++ ":").toList ++ (toString n).toList := by
    rw [← String.toList_append, ← String.toList_append, h]
  exact toString_inj (String.ext (List.append_cancel_left hchars))

/-- A part of a session, below its count. -/
def Valid (session : String) (part : WebTranscriptPart) : Prop :=
  part.sessionId = session ∧ part.part < part.parts

theorem mem_partsOf {blocks : List WebBlock} {speakers : List (String × WebSpeaker)}
    {part : WebTranscriptPart} (h : part ∈ partsOf session blocks speakers) :
    Valid session part ∧ part.parts = (partsOf session blocks speakers).length := by
  unfold partsOf at h ⊢
  obtain ⟨chunk, hchunk, rfl⟩ := List.mem_map.1 h
  have hlt := List.snd_lt_of_mem_zipIdx hchunk
  rw [List.length_map, List.length_zipIdx]
  exact ⟨⟨rfl, by simpa using hlt⟩, rfl⟩

/-- The parts are numbered from zero on. -/
theorem map_part_partsOf (session : String) (blocks : List WebBlock)
    (speakers : List (String × WebSpeaker)) :
    (partsOf session blocks speakers).map WebTranscriptPart.part =
      List.range (partsOf session blocks speakers).length := by
  unfold partsOf
  rw [List.map_map, List.length_map, List.length_zipIdx, List.range_eq_range']
  exact List.zipIdx_map_snd 0 _

theorem eq_of_mem_partsOf {blocks : List WebBlock} {speakers : List (String × WebSpeaker)}
    {part part' : WebTranscriptPart} (h : part ∈ partsOf session blocks speakers)
    (h' : part' ∈ partsOf session blocks speakers) (heq : part.part = part'.part) :
    part = part' := by
  have hnodup : ((partsOf session blocks speakers).map WebTranscriptPart.part).Nodup := by
    rw [map_part_partsOf]
    exact List.nodup_range
  exact List.inj_on_of_nodup_map hnodup h h' heq

theorem eq_of_wireId_eq {blocks : List WebBlock} {speakers : List (String × WebSpeaker)}
    {part part' : WebTranscriptPart} (h : part ∈ partsOf session blocks speakers)
    (h' : part' ∈ partsOf session blocks speakers) (heq : part.wireId = part'.wireId) :
    part = part' := by
  unfold WebTranscriptPart.wireId at heq
  rw [(mem_partsOf h).1.1, (mem_partsOf h').1.1] at heq
  exact eq_of_mem_partsOf h h' (wireIdOf_inj heq)

end Parts

/-! ### Entries of the room -/

section Entries

/-- Entries under the ids of their own parts. -/
structure Held (session : String) (entries : List (String × WebTranscriptPart)) : Prop where
  ids : (entries.map Prod.fst).Nodup
  own : ∀ entry ∈ entries, entry.1 = entry.2.wireId ∧ Valid session entry.2

variable {entries added : List (String × WebTranscriptPart)} {part : WebTranscriptPart}

theorem Held.nil : Held session [] := ⟨List.nodup_nil, fun entry hmem => by cases hmem⟩

theorem Held.put (h : Held session entries) (hvalid : Valid session part) :
    Held session (Slots.put part.wireId part entries) := by
  constructor
  · exact Slots.nodup_put h.ids
  · intro entry hentry
    rcases Slots.mem_put hentry with rfl | hold
    · exact ⟨rfl, hvalid⟩
    · exact h.own entry hold

theorem Held.of_sublist (h : Held session entries) (hsub : added.Sublist entries) :
    Held session added :=
  ⟨h.ids.sublist (hsub.map Prod.fst), fun entry hentry => h.own entry (hsub.subset hentry)⟩

/-- The id of an entry is that of its part's number. -/
theorem Held.id_eq (h : Held session entries) {entry : String × WebTranscriptPart}
    (hentry : entry ∈ entries) : entry.1 = wireIdOf session entry.2.part := by
  obtain ⟨hid, hsession, -⟩ := h.own entry hentry
  rw [hid, WebTranscriptPart.wireId, hsession]

theorem byNumber_concat (entry : String × WebTranscriptPart) :
    byNumber (entries ++ [entry]) = Ordered.set entry.2.part entry.2 (byNumber entries) := by
  simp [byNumber]

theorem lastCount_eq (entries : List (String × WebTranscriptPart)) :
    lastCount entries = entries.getLast?.map fun entry => entry.2.parts := by
  induction entries using List.reverseRecOn with
  | nil => rfl
  | append_singleton entries entry ih => simp [lastCount]

theorem sorted_byNumber (entries : List (String × WebTranscriptPart)) :
    Ordered.Sorted (byNumber entries) := by
  induction entries using List.reverseRecOn with
  | nil => exact List.Pairwise.nil
  | append_singleton entries entry ih =>
      rw [byNumber_concat]
      exact ih.set

/-- The part of a number is what is under its id. -/
theorem Held.get_byNumber (h : Held session entries) (number : ℕ) :
    Ordered.get number (byNumber entries) = entries.lookup (wireIdOf session number) := by
  induction entries using List.reverseRecOn with
  | nil => rfl
  | append_singleton entries entry ih =>
      have hold : Held session entries := h.of_sublist (List.sublist_append_left entries [entry])
      have hid := h.id_eq (List.mem_append_right entries (List.mem_singleton_self entry))
      rw [byNumber_concat, Ordered.get_set, ih hold, List.lookup_append]
      by_cases heq : number = entry.2.part
      · have hnone : entries.lookup (wireIdOf session number) = none := by
          refine List.lookup_eq_none_iff.2 fun other hother => ?_
          have hne : other.1 ≠ entry.1 := by
            have hnodup := h.ids
            rw [List.map_append] at hnodup
            exact (List.nodup_append.1 hnodup).2.2 other.1 (List.mem_map_of_mem hother) entry.1
              (List.mem_singleton_self _)
          rw [heq, ← hid]
          exact bne_iff_ne.2 (Ne.symm hne)
        rw [if_pos heq, hnone, heq, ← hid]
        exact List.lookup_cons_self.symm
      · have hne : wireIdOf session number ≠ entry.1 := fun h => heq (wireIdOf_inj (h.trans hid))
        have hlast : [entry].lookup (wireIdOf session number) = none := by
          change [(entry.1, entry.2)].lookup _ = none
          rw [List.lookup_cons, beq_eq_false_iff_ne.2 hne]
          rfl
        rw [if_neg heq, hlast, Option.or_none]

/-- A part that is shown is under its id. -/
theorem Held.lookup_of_mem_shown (h : Held session entries) (hmem : part ∈ shown entries) :
    entries.lookup part.wireId = some part := by
  obtain ⟨⟨number, held⟩, hheld, rfl⟩ := List.mem_map.1 hmem
  have hget := (sorted_byNumber entries).get_of_mem (List.mem_of_mem_filter hheld)
  rw [h.get_byNumber] at hget
  have hentry := Slots.mem_of_lookup hget
  have hid := (h.own _ hentry).1
  dsimp only at hget hid
  rw [hid] at hget
  exact hget

theorem Held.mem_shown (h : Held session entries) (hlookup : entries.lookup part.wireId = some part)
    (hbelow : Rooms.below (lastCount entries) part.part = true) : part ∈ shown entries := by
  have hentry := Slots.mem_of_lookup hlookup
  have hget : Ordered.get part.part (byNumber entries) = some part := by
    rw [h.get_byNumber, ← h.id_eq hentry]
    exact hlookup
  exact List.mem_map.2 ⟨_, List.mem_filter.2 ⟨Ordered.mem_of_get hget, hbelow⟩, rfl⟩

/-- **What a page shows of a room** are the parts of a transcript when each is there under its
id and the last entry is one of them. -/
theorem Held.shown_eq (h : Held session entries) {blocks : List WebBlock}
    {speakers : List (String × WebSpeaker)}
    (hall : ∀ part ∈ partsOf session blocks speakers, entries.lookup part.wireId = some part)
    (hlast : ∀ entry, entries.getLast? = some entry → entry.2 ∈ partsOf session blocks speakers) :
    shown entries = partsOf session blocks speakers := by
  cases hentries : entries.getLast? with
  | none =>
      -- Nothing is there, so there is no part either.
      rw [List.getLast?_eq_none_iff.1 hentries] at hall ⊢
      refine (List.eq_nil_iff_forall_not_mem.2 fun part hpart => ?_).symm
      cases hall part hpart
  | some entry =>
      have hcount : lastCount entries = some (partsOf session blocks speakers).length := by
        rw [lastCount_eq, hentries, Option.map_some, (mem_partsOf (hlast entry hentries)).2]
      have hsorted : Ordered.Sorted ((partsOf session blocks speakers).map fun part =>
          (part.part, part)) := by
        have hrange : ((partsOf session blocks speakers).map
            WebTranscriptPart.part).Pairwise (· < ·) := by
          rw [map_part_partsOf]
          exact List.pairwise_lt_range
        exact List.pairwise_map.2 (List.pairwise_map.1 hrange)
      have hsame : ((byNumber entries).filter fun entry =>
          Rooms.below (lastCount entries) entry.1) =
          (partsOf session blocks speakers).map fun part => (part.part, part) := by
        refine Ordered.Sorted.ext ((sorted_byNumber entries).filter _) hsorted fun number => ?_
        rw [Ordered.get_filter, h.get_byNumber, hcount]
        by_cases hlt : number < (partsOf session blocks speakers).length
        · have hnumber : number ∈ (partsOf session blocks speakers).map
              WebTranscriptPart.part := by
            rw [map_part_partsOf]
            exact List.mem_range.2 hlt
          obtain ⟨part, hpart, rfl⟩ := List.mem_map.1 hnumber
          have hid : wireIdOf session part.part = part.wireId := by
            rw [WebTranscriptPart.wireId, (mem_partsOf hpart).1.1]
          have hbelow : Rooms.below (some (partsOf session blocks speakers).length) part.part =
              true := decide_eq_true hlt
          rw [if_pos hbelow, hid, hall part hpart]
          exact (hsorted.get_of_mem (List.mem_map_of_mem hpart)).symm
        · rw [if_neg (by simpa [Rooms.below] using hlt)]
          cases hget : Ordered.get number ((partsOf session blocks speakers).map fun part =>
              (part.part, part)) with
          | none => rfl
          | some part =>
              obtain ⟨other, hother, heq⟩ := List.mem_map.1 (Ordered.mem_of_get hget)
              obtain ⟨rfl, rfl⟩ := Prod.mk.inj heq
              obtain ⟨⟨-, hother⟩, hparts⟩ := mem_partsOf hother
              exact absurd (hparts ▸ hother) hlt
      unfold shown
      rw [hsame, List.map_map]
      exact List.map_id _

end Entries

/-! ### What the service and the page make of a part -/

section Posted

variable {entries : List (String × WebTranscriptPart)} {part : WebTranscriptPart}

/-- A part as it is posted. -/
def WebTranscriptPart.posted (part : WebTranscriptPart) : Rooms.Blocks WebBlock :=
  ⟨some part.wireId, part.sessionId, part.part, some part.parts, part.blocks⟩

/-- The blocks of a room that has these entries. -/
def postedAll (entries : List (String × WebTranscriptPart)) :
    List (String × Rooms.Blocks WebBlock) :=
  entries.map fun entry => (entry.1, entry.2.posted)

theorem wireId_ne_empty (part : WebTranscriptPart) : part.wireId ≠ "" := by
  intro h
  have hlength : part.wireId.length = 0 := by
    rw [h]
    rfl
  simp [WebTranscriptPart.wireId, wireIdOf, String.length_append] at hlength

/-- **The service stores a part** as the entries of the link do. -/
theorem storeBlocks_posted (h : (entries.map Prod.fst).Nodup) :
    Rooms.Room.storeBlocks (postedAll entries) part.posted =
      postedAll (Slots.put part.wireId part entries) := by
  have hany : ((postedAll entries).any fun entry => entry.1 = part.wireId) = true ↔
      part.wireId ∈ entries.map Prod.fst := by
    simp [postedAll]
  unfold Rooms.Room.storeBlocks
  show (if part.wireId = "" then _ else _) = _
  rw [if_neg (wireId_ne_empty part)]
  split
  · rename_i hmem
    unfold Table.update postedAll
    rw [Slots.put_of_mem h (hany.1 hmem), List.map_map, List.map_map]
    refine List.map_congr_left fun entry _ => ?_
    by_cases heq : entry.1 = part.wireId
    · simp [heq]
    · simp [heq]
  · rename_i hnot
    rw [Slots.put_of_notMem fun hmem => hnot (hany.2 hmem)]
    simp [postedAll]

theorem transcripts_ingest {page : Rooms.Page WebBlock} (hsession : session ≠ "")
    (hown : part.sessionId = session) :
    (page.ingestTranscript part.posted).transcripts session =
      ⟨Ordered.set part.part part.blocks (page.transcripts session).parts, some part.parts⟩ := by
  unfold Rooms.Page.ingestTranscript
  simp [WebTranscriptPart.posted, hown, hsession]

theorem transcripts_foldl {page : Rooms.Page WebBlock} (hsession : session ≠ "")
    (hblank : page.transcripts session = ⟨[], none⟩)
    (hall : ∀ entry ∈ entries, entry.2.sessionId = session) :
    (((postedAll entries).map Prod.snd).foldl Rooms.Page.ingestTranscript page).transcripts
        session =
      ⟨(byNumber entries).map fun entry => (entry.1, entry.2.blocks), lastCount entries⟩ := by
  induction entries using List.reverseRecOn with
  | nil => exact hblank
  | append_singleton entries entry ih =>
      have hold := ih fun other hother => hall other (List.mem_append_left _ hother)
      have hown := hall entry (List.mem_append_right _ (List.mem_singleton_self entry))
      have hlast : lastCount (entries ++ [entry]) = some entry.2.parts := by simp [lastCount]
      have happend : (postedAll (entries ++ [entry])).map Prod.snd =
          (postedAll entries).map Prod.snd ++ [entry.2.posted] := by simp [postedAll]
      rw [happend, List.foldl_append, List.foldl_cons, List.foldl_nil,
        transcripts_ingest hsession hown, hold, byNumber_concat, Ordered.map_set, hlast]

/-- **The page shows the blocks** of the parts that are shown. -/
theorem blocks_ofRoom (hsession : session ≠ "") (h : Held session entries)
    {room : Rooms.Room WebBlock} (hroom : room.blocks = postedAll entries) :
    ((Rooms.Page.ofRoom room).transcripts session).blocks =
      (shown entries).flatMap WebTranscriptPart.blocks := by
  have hblocks : (Rooms.Page.ofRoom room).transcripts session =
      ⟨(byNumber entries).map fun entry => (entry.1, entry.2.blocks), lastCount entries⟩ := by
    have hblank : ({ Rooms.Page.start with
        metadata := room.metadata } : Rooms.Page WebBlock).transcripts session = ⟨[], none⟩ := rfl
    rw [← transcripts_foldl hsession hblank fun entry hentry => (h.own entry hentry).2.1, ← hroom]
    rfl
  rw [hblocks]
  unfold Rooms.Transcript.blocks shown
  rw [List.filter_map, List.flatMap_map, List.flatMap_map]
  rfl

end Posted

/-! ### What is on its way -/

namespace Live

/-- The room once all that is queued has been posted. -/
def arriving (live : Live) : List (String × WebTranscriptPart) :=
  Slots.putAll (Slots.putAll live.room live.batch) live.pendingParts

/-- What every run preserves. -/
structure Sound (session : String) (live : Live) : Prop where
  read : ∀ thread parts, live.pushes thread = .read parts → ∀ part ∈ parts, Valid session part
  queueing : ∀ parts, live.queueing = some parts → ∀ part ∈ parts, Valid session part
  pendingParts : Held session live.pendingParts
  batch : Held session live.batch
  room : Held session live.room

variable {live live' : Live} {act : Act}

theorem sound_start (session : String) (transcript : Transcript) :
    Sound session (start transcript) where
  read thread parts h := by cases h
  queueing parts h := by cases h
  pendingParts := Held.nil
  batch := Held.nil
  room := Held.nil

/-- A thread that comes to its next step keeps a link sound. -/
theorem Sound.moveTo (h : Sound session live) {thread : ℕ} {push : Push}
    (hpush : ∀ parts, push = .read parts → ∀ part ∈ parts, Valid session part) :
    Sound session (live.moveTo thread push) := by
  refine { h with read := fun other parts hread => ?_ }
  by_cases heq : other = thread
  · subst heq
    exact hpush parts (by simpa [Live.moveTo] using hread)
  · exact h.read other parts (by simpa [Live.moveTo, heq] using hread)

/-- What a step of a link does, and under which condition. -/
theorem step_cases (hstep : step hash session live act = some live') :
    (∃ transcript, act = .change transcript ∧ live' = { live with transcript := transcript }) ∨
    (∃ thread, act = .start thread ∧ live.pushes thread = .idle ∧
      live' = live.moveTo thread .started) ∨
    (∃ thread, act = .list thread ∧ live.pushes thread = .started ∧
      live' = live.moveTo thread (.listed live.transcript.spoken)) ∨
    (∃ thread blocks, act = .refine thread ∧ live.pushes thread = .listed blocks ∧
      live' = live.moveTo thread (.settled (live.transcript.orRefined blocks))) ∨
    (∃ thread listed named blocks, act = .name thread listed named ∧
      live.pushes thread = .settled blocks ∧ live' = live.moveTo thread
        (.read (partsOf session blocks (live.transcript.webSpeakers listed named)))) ∨
    (∃ thread, act = .fail thread ∧ live' = live.moveTo thread .idle) ∨
    (∃ thread parts, act = .lock thread ∧ live.pushes thread = .read parts ∧
      live.queueing = none ∧
      live' = { live.moveTo thread .idle with queueing := some parts }) ∨
    (∃ sealed part rest, act = .queue sealed ∧ live.queueing = some (part :: rest) ∧
      live' = { live.queuePart hash part sealed with queueing := some rest }) ∨
    (act = .unlock ∧ live.queueing = some [] ∧ live' = { live with queueing := none }) ∨
    (act = .take ∧ live.batch = [] ∧
      live' = { live with batch := live.pendingParts, pendingParts := [] }) ∨
    (∃ stored entry rest, act = .post stored ∧ live.batch = entry :: rest ∧
      live' = { live with
        batch := rest
        room := if stored then Slots.put entry.1 entry.2 live.room else live.room }) := by
  cases act with
  | change transcript => exact .inl ⟨transcript, rfl, (Option.some.inj hstep).symm⟩
  | start thread =>
      simp only [step] at hstep
      split at hstep
      · rename_i hidle
        exact .inr (.inl ⟨thread, rfl, hidle, (Option.some.inj hstep).symm⟩)
      · cases hstep
  | list thread =>
      simp only [step] at hstep
      split at hstep
      · rename_i hstarted
        exact .inr (.inr (.inl ⟨thread, rfl, hstarted, (Option.some.inj hstep).symm⟩))
      · cases hstep
  | refine thread =>
      simp only [step] at hstep
      split at hstep
      · rename_i blocks hlisted
        exact .inr (.inr (.inr (.inl ⟨thread, blocks, rfl, hlisted,
          (Option.some.inj hstep).symm⟩)))
      · cases hstep
  | name thread listed named =>
      simp only [step] at hstep
      split at hstep
      · rename_i blocks hsettled
        exact .inr (.inr (.inr (.inr (.inl ⟨thread, listed, named, blocks, rfl, hsettled,
          (Option.some.inj hstep).symm⟩))))
      · cases hstep
  | fail thread =>
      simp only [step] at hstep
      refine .inr (.inr (.inr (.inr (.inr (.inl ⟨thread, rfl, ?_⟩)))))
      split at hstep
      · exact (Option.some.inj hstep).symm
      · exact (Option.some.inj hstep).symm
      · cases hstep
  | lock thread =>
      simp only [step] at hstep
      split at hstep
      · rename_i parts hread hfree
        exact .inr (.inr (.inr (.inr (.inr (.inr (.inl ⟨thread, parts, rfl, hread, hfree,
          (Option.some.inj hstep).symm⟩))))))
      · cases hstep
  | queue sealed =>
      simp only [step] at hstep
      split at hstep
      · rename_i part rest hqueueing
        exact .inr (.inr (.inr (.inr (.inr (.inr (.inr (.inl ⟨sealed, part, rest, rfl, hqueueing,
          (Option.some.inj hstep).symm⟩)))))))
      · cases hstep
  | unlock =>
      simp only [step] at hstep
      split at hstep
      · rename_i hqueueing
        exact .inr (.inr (.inr (.inr (.inr (.inr (.inr (.inr (.inl ⟨rfl, hqueueing,
          (Option.some.inj hstep).symm⟩))))))))
      · cases hstep
  | take =>
      simp only [step] at hstep
      split at hstep
      · rename_i hbatch
        exact .inr (.inr (.inr (.inr (.inr (.inr (.inr (.inr (.inr (.inl ⟨rfl, hbatch,
          (Option.some.inj hstep).symm⟩)))))))))
      · cases hstep
  | post stored =>
      simp only [step] at hstep
      split at hstep
      · rename_i entry rest hbatch
        exact .inr (.inr (.inr (.inr (.inr (.inr (.inr (.inr (.inr (.inr ⟨stored, entry, rest, rfl,
          hbatch, (Option.some.inj hstep).symm⟩)))))))))
      · cases hstep

theorem Sound.queuePart (h : Sound session live) {part : WebTranscriptPart}
    (hvalid : Valid session part) (sealed : Bool) :
    Sound session (live.queuePart hash part sealed) := by
  unfold Live.queuePart
  split
  · exact h
  · split
    · exact { h with pendingParts := h.pendingParts.put hvalid }
    · exact h

theorem Sound.step (h : Sound session live) (hstep : step hash session live act = some live') :
    Sound session live' := by
  rcases step_cases hstep with ⟨_, -, rfl⟩ | ⟨_, -, -, rfl⟩ | ⟨_, -, -, rfl⟩ | ⟨_, _, -, -, rfl⟩ |
    ⟨_, _, _, blocks, -, -, rfl⟩ | ⟨_, -, rfl⟩ | ⟨thread, parts, -, hread, -, rfl⟩ |
    ⟨sealed, part, rest, -, hqueueing, rfl⟩ | ⟨-, -, rfl⟩ | ⟨-, -, rfl⟩ |
    ⟨stored, entry, rest, -, hbatch, rfl⟩
  · exact { h with }
  · exact h.moveTo fun parts heq => by cases heq
  · exact h.moveTo fun parts heq => by cases heq
  · exact h.moveTo fun parts heq => by cases heq
  · refine h.moveTo fun parts heq part hpart => ?_
    obtain rfl := Push.read.inj heq
    exact (mem_partsOf hpart).1
  · exact h.moveTo fun parts heq => by cases heq
  · have hmoved : Sound session (live.moveTo thread .idle) := h.moveTo fun parts heq => by cases heq
    refine { hmoved with queueing := fun parts' heq => ?_ }
    obtain rfl := Option.some.inj heq
    exact h.read thread parts hread
  · have hall := h.queueing (part :: rest) hqueueing
    have hqueued : Sound session (live.queuePart hash part sealed) :=
      h.queuePart (hall part List.mem_cons_self) sealed
    refine { hqueued with queueing := fun parts heq => ?_ }
    obtain rfl := Option.some.inj heq
    exact fun other hother => hall other (List.mem_cons_of_mem part hother)
  · exact { h with queueing := fun parts heq => by cases heq }
  · exact { h with pendingParts := Held.nil, batch := h.pendingParts }
  · have hrest : Held session rest :=
      h.batch.of_sublist (hbatch ▸ List.sublist_cons_self entry rest)
    refine { h with batch := hrest, room := ?_ }
    obtain ⟨hid, hvalid⟩ := h.batch.own entry (hbatch ▸ List.mem_cons_self)
    dsimp only
    split
    · rw [hid]
      exact h.room.put hvalid
    · exact h.room

theorem Sound.run (h : Sound session live) {acts : List Act}
    (hrun : run (Live.step hash session) live acts = some live') : Sound session live' :=
  run_invariant (fun _ _ _ => Sound.step) h hrun

end Live

/-! ### From some moment on -/

/-- A step in which the speakers and the participants are read, if the thread reads them. -/
def Act.Answers (thread : ℕ) : Act → Prop
  | .name other listed named => other = thread → listed = true ∧ named = true
  | _ => True

instance (thread : ℕ) (act : Act) : Decidable (act.Answers thread) := by
  cases act with
  | name other listed named =>
      exact inferInstanceAs (Decidable (other = thread → listed = true ∧ named = true))
  | _ => exact isTrue trivial

/-- A step after which the transcript is the same, and with which every post succeeds. -/
def Act.Steady : Act → Prop
  | .change _ => False
  | .post stored => stored = true
  | _ => True

instance (act : Act) : Decidable act.Steady := by
  cases act with
  | change transcript => exact isFalse not_false
  | post stored => exact inferInstanceAs (Decidable (stored = true))
  | _ => exact isTrue trivial

namespace Live

variable {live live' : Live} {act : Act}

/-- **What is on its way changes** only when a part is queued whose fingerprint is new. -/
theorem step_arriving (hsound : Sound session live)
    (hstep : step hash session live act = some live') (hsteady : act.Steady) :
    (live'.arriving = live.arriving ∧ live'.sentParts = live.sentParts) ∨
      ∃ part rest, live.queueing = some (part :: rest) ∧
        live.sentParts part.wireId ≠ some (part.fingerprint hash) ∧
        live'.sentParts =
          Function.update live.sentParts part.wireId (some (part.fingerprint hash)) ∧
        live'.arriving = Slots.put part.wireId part live.arriving := by
  rcases step_cases hstep with ⟨_, rfl, -⟩ | ⟨_, -, -, rfl⟩ | ⟨_, -, -, rfl⟩ | ⟨_, _, -, -, rfl⟩ |
    ⟨_, _, _, _, -, -, rfl⟩ | ⟨_, -, rfl⟩ | ⟨_, _, -, -, -, rfl⟩ |
    ⟨sealed, part, rest, -, hqueueing, rfl⟩ | ⟨-, -, rfl⟩ | ⟨-, hbatch, rfl⟩ |
    ⟨stored, entry, rest, rfl, hbatch, rfl⟩
  · exact hsteady.elim
  · exact .inl ⟨rfl, rfl⟩
  · exact .inl ⟨rfl, rfl⟩
  · exact .inl ⟨rfl, rfl⟩
  · exact .inl ⟨rfl, rfl⟩
  · exact .inl ⟨rfl, rfl⟩
  · exact .inl ⟨rfl, rfl⟩
  · by_cases hsent : live.sentParts part.wireId = some (part.fingerprint hash)
    · have hsame : live.queuePart hash part sealed = live := if_pos hsent
      rw [hsame]
      exact .inl ⟨rfl, rfl⟩
    · cases sealed with
      | false =>
          have hsame : live.queuePart hash part false = live := if_neg hsent
          rw [hsame]
          exact .inl ⟨rfl, rfl⟩
      | true =>
          refine .inr ⟨part, rest, hqueueing, hsent, ?_⟩
          unfold queuePart
          rw [if_neg hsent]
          exact ⟨rfl, Slots.putAll_put hsound.pendingParts.ids⟩
  · exact .inl ⟨rfl, rfl⟩
  · refine .inl ⟨?_, rfl⟩
    unfold arriving
    rw [hbatch]
    rfl
  · refine .inl ⟨?_, rfl⟩
    have hstored : stored = true := hsteady
    unfold arriving
    rw [hbatch, hstored]
    rfl

end Live

/-- What a push knows of the transcript if that did not change since it started. -/
def Push.Of (transcript : Transcript) (session : String) : Push → Prop
  | .idle => True
  | .started => True
  | .listed blocks => blocks = transcript.spoken
  | .settled blocks => blocks = transcript.orRefined transcript.spoken
  | .read parts => parts = transcript.parts session

namespace Live

variable {live live' : Live} {act : Act}

theorem of_moveTo {thread other : ℕ} {push : Push}
    (h : (live.pushes thread).Of live.transcript session)
    (hpush : thread = other → push.Of live.transcript session) :
    ((live.moveTo other push).pushes thread).Of live.transcript session := by
  by_cases heq : thread = other
  · simpa [moveTo, heq] using hpush heq
  · simpa [moveTo, heq] using h

theorem transcript_queuePart (part : WebTranscriptPart) (sealed : Bool) :
    (live.queuePart hash part sealed).transcript = live.transcript := by
  unfold queuePart
  split
  · rfl
  · split
    · rfl
    · rfl

theorem pushes_queuePart (part : WebTranscriptPart) (sealed : Bool) :
    (live.queuePart hash part sealed).pushes = live.pushes := by
  unfold queuePart
  split
  · rfl
  · split
    · rfl
    · rfl

theorem step_transcript (hstep : step hash session live act = some live')
    (hsteady : act.Steady) : live'.transcript = live.transcript := by
  rcases step_cases hstep with ⟨_, rfl, -⟩ | ⟨_, -, -, rfl⟩ | ⟨_, -, -, rfl⟩ | ⟨_, _, -, -, rfl⟩ |
    ⟨_, _, _, _, -, -, rfl⟩ | ⟨_, -, rfl⟩ | ⟨_, _, -, -, -, rfl⟩ | ⟨_, part, _, -, -, rfl⟩ |
    ⟨-, -, rfl⟩ | ⟨-, -, rfl⟩ | ⟨_, _, _, -, -, rfl⟩
  · exact hsteady.elim
  · rfl
  · rfl
  · rfl
  · rfl
  · rfl
  · rfl
  · exact transcript_queuePart part _
  · rfl
  · rfl
  · rfl

/-- A push goes on with what it read of the transcript. -/
theorem step_of (hstep : step hash session live act = some live') (hsteady : act.Steady)
    {thread : ℕ} (hanswers : act.Answers thread)
    (h : (live.pushes thread).Of live.transcript session) :
    (live'.pushes thread).Of live.transcript session := by
  rcases step_cases hstep with ⟨_, rfl, -⟩ | ⟨_, -, -, rfl⟩ | ⟨_, -, -, rfl⟩ |
    ⟨other, blocks, -, hlisted, rfl⟩ | ⟨other, listed, named, blocks, rfl, hsettled, rfl⟩ |
    ⟨_, -, rfl⟩ | ⟨_, _, -, -, -, rfl⟩ | ⟨sealed, part, rest, -, -, rfl⟩ | ⟨-, -, rfl⟩ | ⟨-, -, rfl⟩ |
    ⟨_, _, _, -, -, rfl⟩
  · exact hsteady.elim
  · exact of_moveTo h fun _ => trivial
  · exact of_moveTo h fun _ => rfl
  · refine of_moveTo h fun heq => ?_
    rw [heq, hlisted] at h
    exact congrArg live.transcript.orRefined h
  · refine of_moveTo h fun heq => ?_
    obtain ⟨rfl, rfl⟩ := hanswers heq.symm
    rw [heq, hsettled] at h
    exact congrArg (fun blocks => partsOf session blocks (live.transcript.webSpeakers true true)) h
  · exact of_moveTo h fun _ => trivial
  · exact of_moveTo h fun _ => trivial
  · dsimp only
    rw [pushes_queuePart]
    exact h
  · exact h
  · exact h
  · exact h

/-- The same for a run. -/
theorem run_of {acts : List Act} (hsteady : ∀ act ∈ acts, act.Steady) {thread : ℕ}
    (hanswers : ∀ act ∈ acts, act.Answers thread)
    (hrun : run (step hash session) live acts = some live')
    (h : (live.pushes thread).Of live.transcript session) :
    live'.transcript = live.transcript ∧ (live'.pushes thread).Of live.transcript session := by
  induction acts generalizing live with
  | nil =>
      obtain rfl := Option.some.inj hrun
      exact ⟨rfl, h⟩
  | cons act acts ih =>
      obtain ⟨next, hstep, hrest⟩ := Option.bind_eq_some_iff.1 (run_cons live act acts ▸ hrun)
      have hact := hsteady act List.mem_cons_self
      have htranscript := step_transcript hstep hact
      have hof := step_of hstep hact (hanswers act List.mem_cons_self) h
      rw [← htranscript] at hof ⊢
      exact ih (fun other hother => hsteady other (List.mem_cons_of_mem act hother))
        (fun other hother => hanswers other (List.mem_cons_of_mem act hother)) hrest hof

/-! ### The push that read the final transcript -/

/-- What the push that read the final transcript finds when it gets the lock: what it takes for
sent is on its way, and the last entry is one of its parts or comes to be. -/
structure Caught (hash : Hash) (parts : List WebTranscriptPart) (live : Live) : Prop where
  delivered : ∀ part ∈ parts, live.sentParts part.wireId = some (part.fingerprint hash) →
    live.arriving.lookup part.wireId = some part
  announced : ∀ id, (live.arriving.map Prod.fst).getLast? = some id →
    id ∈ parts.map WebTranscriptPart.wireId ∨
      ∃ part ∈ parts, part.wireId ∉ live.arriving.map Prod.fst

/-- What a step meets once that push has the lock: no push that read an older transcript gets it,
and the envelopes are made. -/
def Fit (session : String) (live : Live) : Act → Prop
  | .lock thread => live.pushes thread = .read (live.transcript.parts session)
  | .queue sealed => sealed = true
  | _ => True

instance (session : String) (live : Live) (act : Act) : Decidable (Fit session live act) := by
  cases act with
  | lock thread =>
      exact inferInstanceAs
        (Decidable (live.pushes thread = .read (live.transcript.parts session)))
  | queue sealed => exact inferInstanceAs (Decidable (sealed = true))
  | _ => exact isTrue trivial

/-- From the moment that push has the lock: each final part is sent or about to be looked at, and
only final parts are. -/
structure Late (hash : Hash) (session : String) (live : Live) : Prop where
  sound : Sound session live
  covered : ∀ part ∈ live.transcript.parts session,
    (∃ parts, live.queueing = some parts ∧ part ∈ parts) ∨
      live.sentParts part.wireId = some (part.fingerprint hash)
  queueing : ∀ parts, live.queueing = some parts →
    ∀ part ∈ parts, part ∈ live.transcript.parts session

/-- Queueing a final part that did not count as sent decides nothing. -/
theorem caught_put {parts : List WebTranscriptPart} {part : WebTranscriptPart}
    (hids : ∀ other ∈ parts, other.wireId = part.wireId → other = part) (hpart : part ∈ parts)
    (hnew : live.sentParts part.wireId ≠ some (part.fingerprint hash))
    (hsent : live'.sentParts =
      Function.update live.sentParts part.wireId (some (part.fingerprint hash)))
    (harriving : live'.arriving = Slots.put part.wireId part live.arriving) :
    Caught hash parts live' ↔ Caught hash parts live := by
  have hdelivered : (∀ other ∈ parts,
      live'.sentParts other.wireId = some (other.fingerprint hash) →
        live'.arriving.lookup other.wireId = some other) ↔
      ∀ other ∈ parts, live.sentParts other.wireId = some (other.fingerprint hash) →
        live.arriving.lookup other.wireId = some other := by
    refine forall₂_congr fun other hother => ?_
    rw [hsent, harriving, Slots.lookup_put]
    by_cases heq : other.wireId = part.wireId
    · obtain rfl := hids other hother heq
      simp [hnew]
    · rw [Function.update_of_ne heq, if_neg heq]
  have hannounced : (∀ id, (live'.arriving.map Prod.fst).getLast? = some id →
      id ∈ parts.map WebTranscriptPart.wireId ∨
        ∃ other ∈ parts, other.wireId ∉ live'.arriving.map Prod.fst) ↔
      ∀ id, (live.arriving.map Prod.fst).getLast? = some id →
        id ∈ parts.map WebTranscriptPart.wireId ∨
          ∃ other ∈ parts, other.wireId ∉ live.arriving.map Prod.fst := by
    rw [harriving, Slots.keys_put]
    split
    · exact Iff.rfl
    · rename_i hnot
      refine iff_of_true (fun id hid => .inl ?_) fun id _ => .inr ⟨part, hpart, hnot⟩
      rw [List.getLast?_concat] at hid
      exact Option.some.inj hid ▸ List.mem_map_of_mem hpart
  constructor
  · rintro ⟨h, h'⟩
    exact ⟨hdelivered.1 h, hannounced.1 h'⟩
  · rintro ⟨h, h'⟩
    exact ⟨hdelivered.2 h, hannounced.2 h'⟩

/-- What becomes of the parts that are looked at. -/
theorem step_queueing (hstep : step hash session live act = some live') :
    (∃ thread parts, act = .lock thread ∧ live.queueing = none ∧
        live.pushes thread = .read parts ∧ live'.queueing = some parts) ∨
      (∃ sealed part rest, act = .queue sealed ∧ live.queueing = some (part :: rest) ∧
        live'.queueing = some rest ∧
        live'.sentParts = (live.queuePart hash part sealed).sentParts) ∨
      (live.queueing = some [] ∧ live'.queueing = none) ∨ live'.queueing = live.queueing := by
  rcases step_cases hstep with ⟨_, -, rfl⟩ | ⟨_, -, -, rfl⟩ | ⟨_, -, -, rfl⟩ | ⟨_, _, -, -, rfl⟩ |
    ⟨_, _, _, _, -, -, rfl⟩ | ⟨_, -, rfl⟩ | ⟨thread, parts, hact, hread, hfree, rfl⟩ |
    ⟨sealed, part, rest, hact, hqueueing, rfl⟩ | ⟨-, hqueueing, rfl⟩ | ⟨-, -, rfl⟩ |
    ⟨_, _, _, -, -, rfl⟩
  · exact .inr (.inr (.inr rfl))
  · exact .inr (.inr (.inr rfl))
  · exact .inr (.inr (.inr rfl))
  · exact .inr (.inr (.inr rfl))
  · exact .inr (.inr (.inr rfl))
  · exact .inr (.inr (.inr rfl))
  · exact .inl ⟨thread, parts, hact, hfree, hread, rfl⟩
  · exact .inr (.inl ⟨sealed, part, rest, hact, hqueueing, rfl, rfl⟩)
  · exact .inr (.inr (.inl ⟨hqueueing, rfl⟩))
  · exact .inr (.inr (.inr rfl))
  · exact .inr (.inr (.inr rfl))

/-- What was sent stays sent while only final parts are queued. -/
theorem sent_step (hstep : step hash session live act = some live') (hsteady : act.Steady)
    (h : Late hash session live) {part : WebTranscriptPart}
    (hpart : part ∈ live.transcript.parts session)
    (hsent : live.sentParts part.wireId = some (part.fingerprint hash)) :
    live'.sentParts part.wireId = some (part.fingerprint hash) := by
  rcases step_arriving h.sound hstep hsteady with ⟨-, hsame⟩ | ⟨other, rest, hqueueing, -, hnew, -⟩
  · rw [hsame]
    exact hsent
  · rw [hnew]
    by_cases heq : part.wireId = other.wireId
    · obtain rfl := eq_of_wireId_eq hpart (h.queueing _ hqueueing other List.mem_cons_self) heq
      exact Function.update_self _ _ _
    · rw [Function.update_of_ne heq]
      exact hsent

theorem sentParts_queuePart (part : WebTranscriptPart) :
    (live.queuePart hash part true).sentParts part.wireId = some (part.fingerprint hash) := by
  unfold queuePart
  split
  · assumption
  · exact Function.update_self _ _ _

theorem Late.step (h : Late hash session live) (hstep : step hash session live act = some live')
    (hsteady : act.Steady) (hfit : Fit session live act) : Late hash session live' := by
  have htranscript := step_transcript hstep hsteady
  have hstays : ∀ part ∈ live.transcript.parts session,
      live.sentParts part.wireId = some (part.fingerprint hash) →
      live'.sentParts part.wireId = some (part.fingerprint hash) :=
    fun part hpart hsent => sent_step hstep hsteady h hpart hsent
  rcases step_queueing hstep with ⟨thread, parts, rfl, hfree, hread, hqueueing⟩ |
    ⟨sealed, part, rest, rfl, hold, hqueueing, hsent⟩ | ⟨hold, hqueueing⟩ | hqueueing
  · -- The push that gets the lock has read the final transcript.
    have hfinal : live.pushes thread = .read (live.transcript.parts session) := hfit
    obtain rfl := Push.read.inj (hread.symm.trans hfinal)
    refine ⟨h.sound.step hstep, ?_, ?_⟩
    · rw [htranscript]
      exact fun part hpart => .inl ⟨_, hqueueing, hpart⟩
    · rw [htranscript, hqueueing]
      intro parts heq part hpart
      obtain rfl := Option.some.inj heq
      exact hpart
  · refine ⟨h.sound.step hstep, ?_, ?_⟩
    · rw [htranscript]
      intro other hother
      rcases h.covered other hother with ⟨parts, hparts, hmem⟩ | hsentOther
      · obtain rfl := Option.some.inj (hold.symm.trans hparts)
        rcases List.mem_cons.1 hmem with rfl | hrest
        · have hsealed : sealed = true := hfit
          rw [hsent, hsealed]
          exact .inr (sentParts_queuePart other)
        · exact .inl ⟨rest, hqueueing, hrest⟩
      · exact .inr (hstays other hother hsentOther)
    · rw [htranscript, hqueueing]
      intro parts heq other hother
      obtain rfl := Option.some.inj heq
      exact h.queueing _ hold other (List.mem_cons_of_mem part hother)
  · refine ⟨h.sound.step hstep, ?_, ?_⟩
    · rw [htranscript]
      intro part hpart
      rcases h.covered part hpart with ⟨parts, hparts, hmem⟩ | hsent
      · obtain rfl := Option.some.inj (hold.symm.trans hparts)
        cases hmem
      · exact .inr (hstays part hpart hsent)
    · rw [hqueueing]
      intro parts heq
      cases heq
  · refine ⟨h.sound.step hstep, ?_, ?_⟩
    · rw [htranscript, hqueueing]
      exact fun part hpart => (h.covered part hpart).imp_right (hstays part hpart)
    · rw [htranscript, hqueueing]
      exact h.queueing

/-- **A fit step decides nothing.** -/
theorem caught_step (h : Late hash session live) (hstep : step hash session live act = some live')
    (hsteady : act.Steady) : Caught hash (live.transcript.parts session) live' ↔
      Caught hash (live.transcript.parts session) live := by
  rcases step_arriving h.sound hstep hsteady with
    ⟨harriving, hsent⟩ | ⟨part, rest, hqueueing, hnew, hsent, harriving⟩
  · constructor
    · rintro ⟨hdelivered, hannounced⟩
      rw [harriving, hsent] at *
      exact ⟨hdelivered, hannounced⟩
    · rintro ⟨hdelivered, hannounced⟩
      rw [← harriving, ← hsent] at *
      exact ⟨hdelivered, hannounced⟩
  · have hpart := h.queueing _ hqueueing part List.mem_cons_self
    exact caught_put (fun other hother heq => eq_of_wireId_eq hother hpart heq) hpart hnew hsent
      harriving

/-- A run of fit steps decides nothing. -/
theorem caught_run {acts : List Act} (h : Late hash session live)
    (hsteady : ∀ act ∈ acts, act.Steady)
    (hfit : Along (Live.step hash session) (Fit session) live acts)
    (hrun : run (Live.step hash session) live acts = some live') :
    Late hash session live' ∧ live'.transcript = live.transcript ∧
      (Caught hash (live.transcript.parts session) live' ↔
        Caught hash (live.transcript.parts session) live) := by
  induction acts generalizing live with
  | nil =>
      obtain rfl := Option.some.inj hrun
      exact ⟨h, rfl, Iff.rfl⟩
  | cons act acts ih =>
      obtain ⟨next, hstep, hrest⟩ := Option.bind_eq_some_iff.1 (run_cons live act acts ▸ hrun)
      have hact := hsteady act List.mem_cons_self
      obtain ⟨hlate, htranscript, hiff⟩ := ih (h.step hstep hact hfit.1)
        (fun other hother => hsteady other (List.mem_cons_of_mem act hother)) (hfit.2 next hstep)
        hrest
      rw [step_transcript hstep hact] at htranscript hiff
      exact ⟨hlate, htranscript, hiff.trans (caught_step h hstep hact)⟩

/-- When all is done, the room shows the final transcript exactly if nothing was missed. -/
theorem Late.shown_iff (h : Late hash session live) (hquiet : live.Quiet) :
    shown live.room = live.transcript.parts session ↔
      Caught hash (live.transcript.parts session) live := by
  have harriving : live.arriving = live.room := by
    unfold arriving
    rw [hquiet.batch, hquiet.pendingParts]
    rfl
  have hsent : ∀ part ∈ live.transcript.parts session,
      live.sentParts part.wireId = some (part.fingerprint hash) := by
    intro part hpart
    rcases h.covered part hpart with ⟨parts, hparts, -⟩ | hsent
    · rw [hquiet.queueing] at hparts
      cases hparts
    · exact hsent
  have hroom := h.sound.room
  constructor
  · intro hshown
    have hlookup : ∀ part ∈ live.transcript.parts session,
        live.arriving.lookup part.wireId = some part := by
      rw [harriving, ← hshown]
      exact fun part hpart => hroom.lookup_of_mem_shown hpart
    refine ⟨fun part hpart _ => hlookup part hpart, fun id hid => .inl ?_⟩
    -- The last entry is below its own count, so it is shown.
    rw [harriving, List.getLast?_map] at hid
    obtain ⟨entry, hentry, rfl⟩ := Option.map_eq_some_iff.1 hid
    have hmem := List.mem_of_getLast? hentry
    obtain ⟨hown, -, hlt⟩ := hroom.own entry hmem
    have hcount : lastCount live.room = some entry.2.parts := by
      rw [lastCount_eq, hentry]
      rfl
    have hentryShown : entry.2 ∈ shown live.room := by
      refine hroom.mem_shown ?_ ?_
      · rw [← hown]
        exact Slots.lookup_of_mem hroom.ids hmem
      · rw [hcount]
        exact decide_eq_true hlt
    rw [hown]
    exact List.mem_map_of_mem (hshown ▸ hentryShown)
  · rintro ⟨hdelivered, hannounced⟩
    rw [harriving] at hdelivered hannounced
    have hlookup := fun part hpart => hdelivered part hpart (hsent part hpart)
    refine hroom.shown_eq hlookup fun entry hentry => ?_
    have hmem := List.mem_of_getLast? hentry
    have hlast : (live.room.map Prod.fst).getLast? = some entry.1 := by
      rw [List.getLast?_map, hentry]
      rfl
    rcases hannounced entry.1 hlast with hid | ⟨part, hpart, hnot⟩
    · obtain ⟨part, hpart, hid⟩ := List.mem_map.1 hid
      have hself := Slots.lookup_of_mem hroom.ids hmem
      rw [← hid, hlookup part hpart] at hself
      exact Option.some.inj hself ▸ hpart
    · exact absurd (List.mem_map_of_mem (Slots.mem_of_lookup (hlookup part hpart))) hnot

/-- **The live link ends up with the latest transcript** exactly if the push that read it missed
nothing when it got the lock.  A link has run in any way (`before`); then a push starts that reads
all of the transcript, which does not change any more, and every post succeeds (`mid`); it gets the
lock, and what follows (`tail`) meets `Fit` until all pushes have returned and all queued work is
done. -/
theorem latest_shown_iff {transcript : Transcript} {before mid tail : List Act} {thread : ℕ}
    {started locked : Live}
    (hbefore : run (step hash session) (start transcript) (before ++ .start thread :: mid) =
      some started)
    (hlock : step hash session started (.lock thread) = some locked)
    (htail : run (step hash session) locked tail = some live)
    (hmidSteady : ∀ act ∈ mid, act.Steady) (hanswers : ∀ act ∈ mid, act.Answers thread)
    (htailSteady : ∀ act ∈ tail, act.Steady)
    (hfit : Along (step hash session) (Fit session) locked tail) (hquiet : live.Quiet) :
    shown live.room = live.transcript.parts session ↔
      Caught hash (started.transcript.parts session) started := by
  obtain ⟨first, hfirst, hrest⟩ := run_append_eq_some.1 hbefore
  obtain ⟨begun, hbegun, hmid⟩ := Option.bind_eq_some_iff.1 (run_cons first _ mid ▸ hrest)
  have hsound : Sound session started := (sound_start session transcript).run hbefore
  -- What the push has read is the transcript that is final.
  have hof : (begun.pushes thread).Of begun.transcript session := by
    simp only [step] at hbegun
    split at hbegun
    · obtain rfl := Option.some.inj hbegun
      simp [moveTo, Push.Of]
    · cases hbegun
  obtain ⟨htranscript, hread⟩ := run_of hmidSteady hanswers hmid hof
  rw [← htranscript] at hread
  have hlate : Late hash session locked ∧ locked.transcript = started.transcript ∧
      (Caught hash (started.transcript.parts session) locked ↔
        Caught hash (started.transcript.parts session) started) := by
    have hlocked := hlock
    simp only [step] at hlocked
    split at hlocked
    · rename_i parts hparts hfree
      obtain rfl := Option.some.inj hlocked
      rw [hparts] at hread
      obtain rfl : parts = started.transcript.parts session := hread
      refine ⟨⟨hsound.step hlock, fun part hpart => .inl ⟨_, rfl, hpart⟩, ?_⟩, rfl, ?_⟩
      · intro parts heq part hpart
        obtain rfl := Option.some.inj heq
        exact hpart
      · constructor
        · rintro ⟨hdelivered, hannounced⟩
          exact ⟨hdelivered, hannounced⟩
        · rintro ⟨hdelivered, hannounced⟩
          exact ⟨hdelivered, hannounced⟩
    · cases hlocked
  obtain ⟨hlate, hsame, hcaught⟩ := hlate
  obtain ⟨hend, hfinal, hiff⟩ := caught_run hlate htailSteady hfit htail
  rw [hsame] at hfinal hiff
  rw [hend.shown_iff hquiet, hfinal]
  exact hiff.trans hcaught

/-! ### A part whose post failed -/

/-- A hash that tells short texts apart. -/
def textHash : Hash := fun parts blocks speakers =>
  UInt64.ofNat (parts + speakers.length + (blocks.map fun block => block.text.length).sum)

/-- A transcript of one block. -/
def oneBlock (text : String) : Transcript := ⟨[⟨"b", "s", text, [], none, none⟩], [], [], []⟩

/-- What a thread reads in a push. -/
def reads (thread : ℕ) : List Act := [.list thread, .refine thread, .name thread true true]

/-- A push whose post fails. -/
def lostPush : List Act :=
  .start 0 :: reads 0 ++ [.lock 0, .queue true, .unlock, .take, .post false]

/-- The link that the steps lead to. -/
def after (transcript : Transcript) (acts : List Act) : Live :=
  (run (step textHash "s") (start transcript) acts).getD (start transcript)

/-- A part that changed since is queued again, whatever became of the post. -/
theorem latest_shown_once :
    shown (after (oneBlock "a") (lostPush ++ .change (oneBlock "ab") :: .start 1 :: reads 1 ++
      [.lock 1, .queue true, .unlock, .take, .post true])).room = (oneBlock "ab").parts "s" := by
  have hbefore : run (step textHash "s") (start (oneBlock "a"))
      ((lostPush ++ [.change (oneBlock "ab")]) ++ .start 1 :: reads 1) =
      some (after (oneBlock "a") (lostPush ++ .change (oneBlock "ab") :: .start 1 :: reads 1)) :=
    rfl
  have hlock : step textHash "s"
      (after (oneBlock "a") (lostPush ++ .change (oneBlock "ab") :: .start 1 :: reads 1))
      (.lock 1) = some (after (oneBlock "a")
        (lostPush ++ .change (oneBlock "ab") :: .start 1 :: reads 1 ++ [.lock 1])) := rfl
  have htail : run (step textHash "s") (after (oneBlock "a")
        (lostPush ++ .change (oneBlock "ab") :: .start 1 :: reads 1 ++ [.lock 1]))
      [.queue true, .unlock, .take, .post true] = some (after (oneBlock "a")
        (lostPush ++ .change (oneBlock "ab") :: .start 1 :: reads 1 ++
          [.lock 1, .queue true, .unlock, .take, .post true])) := rfl
  refine (latest_shown_iff hbefore hlock htail (by decide) (by decide) (by decide) (by decide +kernel) ?_).2 ?_
  · exact ⟨fun thread => by rcases thread with _ | _ | thread <;> rfl, rfl, rfl, rfl⟩
  · exact ⟨by decide +kernel, fun id hid => by cases hid⟩

/-- **A part whose post failed stays lost**: the next push, which reads the same transcript when
every post succeeds again, takes it for sent. -/
theorem lost_part_stays_lost : ∃ live,
    run (step textHash "s") (start (oneBlock "a"))
      (lostPush ++ .start 1 :: reads 1 ++ [.lock 1, .queue true, .unlock]) = some live ∧
    (∀ act ∈ .start 1 :: reads 1 ++ [.lock 1, .queue true, .unlock], act.Steady) ∧
    live.Quiet ∧ shown live.room ≠ live.transcript.parts "s" := by
  refine ⟨_, rfl, by decide, ?_, by decide +kernel⟩
  exact ⟨fun thread => by rcases thread with _ | _ | thread <;> rfl, rfl, rfl, rfl⟩

end Live

end Links
end ZuTalk
