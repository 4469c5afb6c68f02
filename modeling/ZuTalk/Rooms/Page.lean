/-
# The viewing page

The part of `VIEWER_PAGE` that keeps what the page has been sent: `ingestTranscript` and the
listeners of `start`.  Events are handled in the order in which they arrive.
-/

import ZuTalk.Library.Ordered
import ZuTalk.Library.Registers
import ZuTalk.Rooms.Room

namespace ZuTalk
namespace Rooms

variable {α : Type}

/-- An entry of `state.transcripts`: the parts by their numbers, and how many there are. -/
structure Transcript (α : Type) where
  parts : List (ℕ × List α)
  count : Option ℕ
  deriving DecidableEq, Repr

/-- Whether a part is shown: it is below the count, if there is one. -/
def below (count : Option ℕ) (part : ℕ) : Bool := count.all fun parts => part < parts

/-- The blocks of a session: those of its parts, without the parts beyond the count. -/
def Transcript.blocks (transcript : Transcript α) : List α :=
  (transcript.parts.filter fun entry => below transcript.count entry.1).flatMap Prod.snd

/-- `state`. -/
structure Page (α : Type) where
  metadata : Option α
  frame : Option α
  segments : List (Segment α)
  transcripts : String → Transcript α
  transcriptOrder : List String
  ended : Bool
  purged : Bool

namespace Page

/-- The page as it is opened. -/
def start : Page α := ⟨none, none, [], fun _ => ⟨[], none⟩, [], false, false⟩

/-- `ingestTranscript`. -/
def ingestTranscript (page : Page α) (data : Blocks α) : Page α :=
  if data.session = "" then page
  else
    let entry := page.transcripts data.session
    { page with
      transcripts := Function.update page.transcripts data.session
        ⟨Ordered.set data.part data.blocks entry.parts, data.parts <|> entry.count⟩
      transcriptOrder := if data.session ∈ page.transcriptOrder then page.transcriptOrder
        else page.transcriptOrder ++ [data.session] }

/-- The listeners of `meta`, `frame`, `blocks` and `segment`. -/
def push (page : Page α) : Push α → Page α
  | .frame data => { page with frame := some data }
  | .metadata data => { page with metadata := some data }
  | .blocks data => page.ingestTranscript data
  | .segment data => { page with
      segments := page.segments ++ [data]
      frame := if data.kind = "paused" then none else page.frame }

/-- The listener of `init`. -/
def init (page : Page α) (data : Init α) : Page α :=
  let cleared : Page α := { page with
    metadata := data.metadata
    transcripts := fun _ => ⟨[], none⟩
    transcriptOrder := [] }
  { data.sessions.foldl ingestTranscript cleared with
    frame := data.frame, segments := data.segments }

/-- What a message does to the page. -/
def handle (page : Page α) : Message α → Page α
  | .init data => page.init data
  | .push data => page.push data
  | .ended purged => { page with ended := true, purged := purged }
  | .ping => page

/-- What the page comes to when it has read the messages. -/
def handleAll (page : Page α) (messages : List (Message α)) : Page α := messages.foldl handle page

/-- The page of a viewer who subscribes now. -/
def ofRoom (room : Room α) : Page α := start.handle (.init room.init)

end Page

/-! ### What the page holds of a session -/

section Held

open Registers

/-- The part of a session. -/
def Page.part (page : Page α) (place : String × ℕ) : Option (List α) :=
  Ordered.get place.2 (page.transcripts place.1).parts

/-- The number of parts of a session, as far as it was told. -/
def Page.count (page : Page α) (session : String) : Option ℕ := (page.transcripts session).count

/-- The part that blocks write. -/
def partOf (data : Blocks α) (place : String × ℕ) : Option (Option (List α)) :=
  if data.session ≠ "" ∧ (data.session, data.part) = place then some (some data.blocks) else none

/-- The count that blocks write. -/
def countOf (data : Blocks α) (session : String) : Option (Option ℕ) :=
  if data.session ≠ "" ∧ data.session = session then data.parts.map some else none

theorem partOf_isSome {data : Blocks α} {place : String × ℕ} :
    (partOf data place).isSome ↔ data.session ≠ "" ∧ (data.session, data.part) = place := by
  unfold partOf
  split
  · rename_i h
    exact iff_of_true rfl h
  · rename_i h
    exact iff_of_false Bool.false_ne_true h

theorem countOf_isSome {data : Blocks α} {session : String} : (countOf data session).isSome ↔
    (data.session ≠ "" ∧ data.session = session) ∧ data.parts.isSome := by
  unfold countOf
  split
  · rename_i h
    rw [Option.isSome_map]
    exact ⟨fun hparts => ⟨h, hparts⟩, fun hparts => hparts.2⟩
  · rename_i h
    exact ⟨fun hnone => (Bool.false_ne_true hnone).elim, fun hall => absurd hall.1 h⟩

theorem part_ingestTranscript (page : Page α) (data : Blocks α) :
    (page.ingestTranscript data).part = put partOf page.part data := by
  funext place
  unfold Page.ingestTranscript put partOf
  by_cases hblank : data.session = ""
  · simp [hblank]
  · by_cases hsession : place.1 = data.session
    · by_cases hpart : place.2 = data.part
      · have hplace : (data.session, data.part) = place := Prod.ext hsession.symm hpart.symm
        simp [hblank, Page.part, hplace, hsession, Ordered.get_set, hpart]
      · have hplace : (data.session, data.part) ≠ place := fun h => hpart (congrArg Prod.snd h).symm
        simp [hblank, Page.part, hplace, hsession, Ordered.get_set, hpart]
    · have hplace : (data.session, data.part) ≠ place := fun h =>
        hsession (congrArg Prod.fst h).symm
      simp [hblank, Page.part, hplace, Function.update_of_ne hsession]

theorem count_ingestTranscript (page : Page α) (data : Blocks α) :
    (page.ingestTranscript data).count = put countOf page.count data := by
  funext session
  unfold Page.ingestTranscript put countOf
  by_cases hblank : data.session = ""
  · simp [hblank]
  · by_cases hsession : session = data.session
    · cases data.parts with
      | none => simp [hblank, Page.count, hsession]
      | some parts => simp [hblank, Page.count, hsession]
    · simp [hblank, Page.count, Ne.symm hsession, Function.update_of_ne hsession]

theorem part_foldl (page : Page α) (sessions : List (Blocks α)) :
    (sessions.foldl Page.ingestTranscript page).part = putAll partOf page.part sessions := by
  induction sessions generalizing page with
  | nil => rfl
  | cons data sessions ih => rw [List.foldl_cons, ih, part_ingestTranscript, putAll_cons]

theorem count_foldl (page : Page α) (sessions : List (Blocks α)) :
    (sessions.foldl Page.ingestTranscript page).count = putAll countOf page.count sessions := by
  induction sessions generalizing page with
  | nil => rfl
  | cons data sessions ih => rw [List.foldl_cons, ih, count_ingestTranscript, putAll_cons]

/-- What a page keeps in order: the parts by their numbers, and only of sessions it has seen. -/
structure Page.Kept (page : Page α) : Prop where
  sorted : ∀ session, Ordered.Sorted (page.transcripts session).parts
  seen : ∀ session, session ∉ page.transcriptOrder → page.transcripts session = ⟨[], none⟩

theorem Page.Kept.ingestTranscript {page : Page α} (h : page.Kept) (data : Blocks α) :
    (page.ingestTranscript data).Kept := by
  unfold Page.ingestTranscript
  split
  · exact h
  · constructor
    · intro session
      by_cases hsession : session = data.session
      · subst hsession
        simpa using (h.sorted data.session).set
      · simpa [Function.update_of_ne hsession] using h.sorted session
    · intro session hnot
      have hne : session ≠ data.session := by
        rintro rfl
        dsimp only at hnot
        split at hnot
        · rename_i hmem
          exact hnot hmem
        · exact hnot (by simp)
      have hold : session ∉ page.transcriptOrder := by
        intro hmem
        dsimp only at hnot
        split at hnot
        · exact hnot hmem
        · exact hnot (List.mem_append_left _ hmem)
      simpa [Function.update_of_ne hne] using h.seen session hold

theorem Page.Kept.foldl {page : Page α} (h : page.Kept) (sessions : List (Blocks α)) :
    (sessions.foldl Page.ingestTranscript page).Kept := by
  induction sessions generalizing page with
  | nil => exact h
  | cons data sessions ih => exact ih (h.ingestTranscript data)

theorem Page.Kept.handle {page : Page α} (h : page.Kept) (message : Message α) :
    (page.handle message).Kept := by
  cases message with
  | init data =>
      have hcleared : Page.Kept ({ page with
          metadata := data.metadata
          transcripts := fun _ => ⟨[], none⟩
          transcriptOrder := [] } : Page α) := ⟨fun _ => List.Pairwise.nil, fun _ _ => rfl⟩
      obtain ⟨hsorted, hseen⟩ := hcleared.foldl data.sessions
      exact ⟨hsorted, hseen⟩
  | push data =>
      cases data with
      | blocks data => exact h.ingestTranscript data
      | frame | metadata | segment => exact ⟨h.sorted, h.seen⟩
  | ended purged => exact ⟨h.sorted, h.seen⟩
  | ping => exact h

theorem Page.kept_start : (Page.start : Page α).Kept :=
  ⟨fun _ => List.Pairwise.nil, fun _ _ => rfl⟩

end Held

end Rooms
end ZuTalk
