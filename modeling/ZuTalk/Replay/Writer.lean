/-
# Writing the lines of a note as blocks

`BlockWriter` of `crates/vt-store/src/replay_migration.rs`.  A block has its text in a container of
its own, and the writer knows the container of each id.  From a document that shows the lines of one
text, the writer makes one that shows the lines of the next (`InStep.apply`).
-/

import ZuTalk.Library.Checks
import ZuTalk.Library.Entries
import ZuTalk.Library.Rows
import ZuTalk.Replay.Lines

namespace ZuTalk
namespace Replay

open Checks

/-- `ReplayMigrationError`, and the panic of `expect`. -/
inductive ReplayMigrationError
  | shallowHistory
  | nonLinearHistory (peer : ℕ) (counter : Int)
  | frontierMismatch (step oldLen newLen : ℕ)
  | loro (message : String)
  | panicked (message : String)
  deriving DecidableEq, Repr

/-- A block of the document: its text is the number of a container. -/
structure Block where
  id : String
  owner : String
  text : ℕ
  lanes : List (String × String)
  deriving DecidableEq, Repr

/-- The document: its blocks, and what is in the text containers. -/
structure Target where
  utterances : List Block
  contents : List String
  deriving DecidableEq, Repr

/-- `BlockWriter`: the text container of each id. -/
abbrev BlockWriter := List (String × ℕ)

namespace Target

variable (target : Target)

/-- `list.delete(index, 1)`. -/
def delete (index : ℕ) : Except ReplayMigrationError Target :=
  if index < target.utterances.length then
    .ok { target with utterances := target.utterances.eraseIdx index }
  else .error (.loro "index out of bound")

/-- `list.insert_container(index, …)` and what is put into the block: its id, `user` for its owner,
a container with its text, and no lanes. -/
def insert (index : ℕ) (id text : String) : Except ReplayMigrationError Target :=
  if index ≤ target.utterances.length then
    .ok {
      utterances := target.utterances.insertIdx index ⟨id, "user", target.contents.length, []⟩
      contents := target.contents ++ [text] }
  else .error (.loro "index out of bound")

/-- `text.update`. -/
def update (container : ℕ) (text : String) : Target :=
  { target with contents := target.contents.set container text }

/-- `render`. -/
def render : String :=
  joinLines (target.utterances.map fun block => (target.contents[block.text]?).getD "")

end Target

/-- The first loop of `BlockWriter::apply`: what is not among the next lines goes, from the last
on. -/
def deleteLines (previous next : List Line) (start : ℕ) (state : Target × BlockWriter) :
    Except ReplayMigrationError (Target × BlockWriter) :=
  (previous.zipIdx start).foldrM (fun entry state =>
    if entry.1.id ∈ next.map (·.id) then .ok state
    else do
      let target ← state.1.delete entry.2
      .ok (target, Entries.remove entry.1.id state.2)) state

/-- A turn of the second loop of `BlockWriter::apply`. -/
def writeLine (previous : List Line) (state : Target × BlockWriter) (entry : Line × ℕ) :
    Except ReplayMigrationError (Target × BlockWriter) :=
  if entry.1.id ∈ previous.map (·.id) then
    match state.2.lookup entry.1.id with
    | none => .error (.panicked "登记表与文档同步维护,已存块必有文本容器")
    | some container =>
        if state.1.contents[container]? ≠ some entry.1.text then
          .ok (state.1.update container entry.1.text, state.2)
        else .ok state
  else do
    let target ← state.1.insert entry.2 entry.1.id entry.1.text
    .ok (target, Entries.put entry.1.id state.1.contents.length state.2)

/-- `BlockWriter::apply`. -/
def apply (previous next : List Line) (state : Target × BlockWriter) :
    Except ReplayMigrationError (Target × BlockWriter) := do
  let state ← deleteLines previous next 0 state
  next.zipIdx.foldlM (writeLine previous) state

/-! ### Blocks that show lines -/

/-- A block shows a line: it has the id and the text, and the writer knows its container. -/
def Shows (contents : List String) (writer : BlockWriter) (line : Line) (block : Block) : Prop :=
  block.id = line.id ∧ contents[block.text]? = some line.text ∧
    writer.lookup line.id = some block.text

/-- **The document shows the lines**, each block in a container of its own. -/
structure InStep (lines : List Line) (state : Target × BlockWriter) : Prop where
  shows : List.Forall₂ (Shows state.1.contents state.2) lines state.1.utterances
  containers : (state.1.utterances.map (·.text)).Nodup

section Steps

variable {previous next lines : List Line} {contents : List String} {writer : BlockWriter}
  {blocks : List Block}

/-- What a document that shows lines reads. -/
theorem InStep.render_eq {state : Target × BlockWriter} (h : InStep lines state) :
    state.1.render = joinLines (lines.map (·.text)) := by
  have htexts : ∀ {lines : List Line} {blocks : List Block},
      List.Forall₂ (Shows state.1.contents state.2) lines blocks →
        blocks.map (fun block => (state.1.contents[block.text]?).getD "") =
          lines.map (·.text) := by
    intro lines blocks h
    induction h with
    | nil => rfl
    | cons hshows _ ih =>
        rw [List.map_cons, List.map_cons, ih, hshows.2.1]
        rfl
  rw [Target.render, htexts h.shows]

/-- A line of another id does not see what the writer does to an id. -/
theorem Shows.of_lookup {line : Line} {block : Block} {writer' : BlockWriter}
    (h : Shows contents writer line block)
    (hlookup : writer'.lookup line.id = writer.lookup line.id) :
    Shows contents writer' line block :=
  ⟨h.1, h.2.1, hlookup.trans h.2.2⟩

theorem deleteLines_cons (line : Line) (lines next : List Line) (start : ℕ)
    (state : Target × BlockWriter) :
    deleteLines (line :: lines) next start state =
      deleteLines lines next (start + 1) state >>= fun state =>
        if line.id ∈ next.map (·.id) then .ok state
        else state.1.delete start >>= fun target =>
          .ok (target, Entries.remove line.id state.2) := by
  rw [deleteLines, List.zipIdx_cons, List.foldrM_cons]
  rfl

/-- **Deleting** leaves the blocks of the lines that stay. -/
theorem deleteLines_ok {front : List Block}
    (hshows : List.Forall₂ (Shows contents writer) lines blocks)
    (hdistinct : (lines.map (·.id)).Nodup) :
    ∃ blocks' writer', deleteLines lines next front.length (⟨front ++ blocks, contents⟩, writer) =
        .ok (⟨front ++ blocks', contents⟩, writer') ∧
      List.Forall₂ (Shows contents writer')
        (lines.filter (·.id ∈ next.map (·.id))) blocks' ∧
      blocks'.Sublist blocks ∧
      ∀ id ∉ lines.map (·.id), writer'.lookup id = writer.lookup id := by
  induction lines generalizing front blocks with
  | nil =>
      cases hshows
      exact ⟨[], writer, rfl, .nil, List.Sublist.refl _, fun _ _ => rfl⟩
  | cons line lines ih =>
      obtain ⟨block, rest, hblock, hrest, rfl⟩ := List.forall₂_cons_left_iff.1 hshows
      rw [List.map_cons, List.nodup_cons] at hdistinct
      obtain ⟨blocks', writer', hrun, hshows', hsub, hlookup⟩ :=
        @ih rest (front ++ [block]) hrest hdistinct.2
      rw [List.length_append, List.length_singleton, List.append_assoc, List.append_assoc,
        List.singleton_append, List.singleton_append] at hrun
      have hstep := deleteLines_cons line lines next front.length
        (⟨front ++ block :: rest, contents⟩, writer)
      rw [hrun] at hstep
      rw [hstep]
      have hblock' : Shows contents writer' line block := hblock.of_lookup (hlookup _ hdistinct.1)
      by_cases hkeep : line.id ∈ next.map (·.id)
      · refine ⟨block :: blocks', writer', if_pos hkeep, ?_, hsub.cons_cons _, fun id hid => ?_⟩
        · rw [List.filter_cons, if_pos (decide_eq_true hkeep)]
          exact .cons hblock' hshows'
        · exact hlookup id fun h => hid (List.mem_cons_of_mem _ h)
      · have hlt : front.length < (front ++ block :: blocks').length := by
          rw [List.length_append, List.length_cons]
          omega
        have herase : (front ++ block :: blocks').eraseIdx front.length = front ++ blocks' := by
          rw [List.eraseIdx_append_of_length_le (Nat.le_refl _), Nat.sub_self,
            List.eraseIdx_cons_zero]
        refine ⟨blocks', Entries.remove line.id writer', (if_neg hkeep).trans ?_, ?_,
          hsub.cons _, fun id hid => ?_⟩
        · rw [Target.delete, if_pos hlt, herase]
          rfl
        · rw [List.filter_cons, if_neg (by simpa using hkeep)]
          refine Rows.forall₂_imp_mem hshows' fun other hother b _ hb => hb.of_lookup ?_
          refine Entries.lookup_remove_of_ne ?_
          rintro heq
          exact hdistinct.1 (heq ▸ List.mem_map_of_mem (List.mem_of_mem_filter hother))
        · rw [List.map_cons, List.mem_cons, not_or] at hid
          rw [Entries.lookup_remove_of_ne hid.1, hlookup id hid.2]

/-- A text written to a container is not seen by the blocks of other containers. -/
theorem shows_update {container : ℕ} {text : String}
    (h : List.Forall₂ (Shows contents writer) lines blocks)
    (hother : container ∉ blocks.map (·.text)) :
    List.Forall₂ (Shows (contents.set container text) writer) lines blocks := by
  refine Rows.forall₂_imp_mem h fun line _ block hblock hshows => ⟨hshows.1, ?_, hshows.2.2⟩
  rw [List.getElem?_set_ne]
  · exact hshows.2.1
  · rintro rfl
    exact hother (List.mem_map_of_mem hblock)

/-- A new container is not seen by the blocks there are, nor is a new id. -/
theorem shows_put {id text : String} (h : List.Forall₂ (Shows contents writer) lines blocks)
    (hid : id ∉ lines.map (·.id)) :
    List.Forall₂ (Shows (contents ++ [text]) (Entries.put id contents.length writer)) lines
      blocks := by
  refine Rows.forall₂_imp_mem h fun line hline block _ hshows => ⟨hshows.1, ?_, ?_⟩
  · obtain ⟨hlt, -⟩ := List.getElem?_eq_some_iff.1 hshows.2.1
    rw [List.getElem?_append_left hlt]
    exact hshows.2.1
  · rw [Entries.lookup_put_of_ne]
    · exact hshows.2.2
    · rintro rfl
      exact hid (List.mem_map_of_mem hline)

theorem shows_lt (h : List.Forall₂ (Shows contents writer) lines blocks) :
    ∀ container ∈ blocks.map (·.text), container < contents.length := by
  induction h with
  | nil => exact nofun
  | cons hshows _ ih =>
      exact List.forall_mem_cons.2 ⟨(List.getElem?_eq_some_iff.1 hshows.2.1).1, ih⟩

/-- **Writing** the lines that are left: before them stand the blocks of those that are written, and
after them those of the lines that were kept. -/
theorem writeLines_ok {kept written left : List Line} {front : List Block}
    (hfront : List.Forall₂ (Shows contents writer) written front)
    (hkept : List.Forall₂ (Shows contents writer) kept blocks)
    (hcontainers : ((front ++ blocks).map (·.text)).Nodup)
    (hdistinct : ((written ++ left).map (·.id)).Nodup)
    (horder : kept.map (·.id) = (left.map (·.id)).filter (· ∈ previous.map (·.id))) :
    ∃ state, (left.zipIdx written.length).foldlM (writeLine previous)
        (⟨front ++ blocks, contents⟩, writer) = .ok state ∧ InStep (written ++ left) state := by
  have hlength : written.length = front.length := hfront.length_eq
  induction left generalizing kept written front blocks contents writer with
  | nil =>
      obtain rfl := List.map_eq_nil_iff.1 horder
      cases hkept
      rw [List.append_nil] at hcontainers ⊢
      rw [List.append_nil]
      exact ⟨_, rfl, hfront, hcontainers⟩
  | cons line left ih =>
      have hsplit : written ++ line :: left = (written ++ [line]) ++ left := by
        rw [List.append_assoc, List.singleton_append]
      have hnext : (written ++ [line]).length = written.length + 1 := by
        rw [List.length_append, List.length_singleton]
      have hids := hdistinct
      rw [List.map_append, List.map_cons, List.nodup_append] at hids
      rw [List.zipIdx_cons, List.foldlM_cons, writeLine, hsplit]
      rw [hsplit] at hdistinct
      by_cases hold : line.id ∈ previous.map (·.id)
      · -- the next block is that of the line
        rw [List.map_cons, List.filter_cons, if_pos (decide_eq_true hold)] at horder
        obtain ⟨keptLine, keptRest, rfl, hid, hrest⟩ := List.map_eq_cons_iff.1 horder
        obtain ⟨block, rest, hblock, hblocks, rfl⟩ := List.forall₂_cons_left_iff.1 hkept
        have happend : front ++ block :: rest = (front ++ [block]) ++ rest := by
          rw [List.append_assoc, List.singleton_append]
        have hlookup : writer.lookup line.id = some block.text := hid ▸ hblock.2.2
        have hother := hcontainers
        rw [List.map_append, List.map_cons] at hother
        have hfrontOther : block.text ∉ front.map (·.text) := fun hmem =>
          (List.nodup_append.1 hother).2.2 _ hmem _ List.mem_cons_self rfl
        have hrestOther : block.text ∉ rest.map (·.text) :=
          (List.nodup_cons.1 (List.nodup_append.1 hother).2.1).1
        rw [if_pos hold]
        dsimp only
        rw [hlookup, happend, ← hnext]
        rw [happend] at hcontainers
        dsimp only
        split
        · have hlt := (List.getElem?_eq_some_iff.1 hblock.2.1).1
          refine @ih _ _ _ keptRest (written ++ [line]) (front ++ [block]) ?_
            (shows_update hblocks hrestOther) hcontainers hdistinct hrest
            (by rw [List.length_append, List.length_append, hlength]; rfl)
          refine List.rel_append (shows_update hfront hfrontOther) (.cons ⟨?_, ?_, hlookup⟩ .nil)
          · exact hblock.1.trans hid
          · exact List.getElem?_set_self hlt
        · rename_i hsame
          refine @ih _ _ _ keptRest (written ++ [line]) (front ++ [block]) ?_ hblocks hcontainers
            hdistinct hrest (by rw [List.length_append, List.length_append, hlength]; rfl)
          refine List.rel_append hfront (.cons ⟨hblock.1.trans hid, ?_, hlookup⟩ .nil)
          exact not_not.1 hsame
      · -- the line gets a block of its own, before those of the kept lines
        rw [List.map_cons, List.filter_cons, if_neg (by simpa using hold)] at horder
        have hle : written.length ≤ (front ++ blocks).length := by
          rw [List.length_append, hlength]
          exact Nat.le_add_right _ _
        have hinsert : (front ++ blocks).insertIdx written.length
            ⟨line.id, "user", contents.length, []⟩ =
              (front ++ [⟨line.id, "user", contents.length, []⟩]) ++ blocks := by
          rw [hlength, List.append_assoc, List.singleton_append]
          exact Rows.insertIdx_at front blocks _
        have hwritten : line.id ∉ written.map (·.id) := fun hmem =>
          hids.2.2 _ hmem _ List.mem_cons_self rfl
        have hkeptIds : line.id ∉ kept.map (·.id) := fun hmem => by
          rw [horder] at hmem
          exact (List.nodup_cons.1 hids.2.1).1 (List.mem_of_mem_filter hmem)
        have hlt : ∀ container ∈ (front ++ blocks).map (·.text), container < contents.length := by
          rw [List.map_append]
          exact List.forall_mem_append.2 ⟨shows_lt hfront, shows_lt hkept⟩
        rw [if_neg hold]
        dsimp only
        rw [Target.insert, if_pos hle, hinsert, ← hnext]
        refine @ih _ _ _ kept (written ++ [line]) (front ++ [_]) ?_
          (shows_put hkept hkeptIds) ?_ hdistinct horder
          (by rw [List.length_append, List.length_append, hlength]; rfl)
        · refine List.rel_append (shows_put hfront hwritten) (.cons ⟨rfl, ?_, ?_⟩ .nil)
          · exact List.getElem?_concat_length
          · exact Entries.lookup_put_self
        · let block : Block := ⟨line.id, "user", contents.length, []⟩
          have hperm : ((front ++ [block]) ++ blocks).Perm (block :: (front ++ blocks)) := by
            rw [List.append_assoc, List.singleton_append]
            exact List.perm_middle
          refine ((hperm.map (·.text)).nodup_iff).2 (List.nodup_cons.2 ⟨fun hmem => ?_, ?_⟩)
          · exact absurd (hlt _ hmem) (Nat.lt_irrefl _)
          · exact hcontainers

/-- **The writer makes the next text of one text.** -/
theorem InStep.apply {state : Target × BlockWriter} (h : InStep previous state)
    (hprevious : (previous.map (·.id)).Nodup) (hnext : (next.map (·.id)).Nodup)
    (horder : SameOrder previous next) :
    ∃ state', Replay.apply previous next state = .ok state' ∧ InStep next state' := by
  obtain ⟨⟨blocks, contents⟩, writer⟩ := state
  obtain ⟨blocks', writer', hrun, hshows, hsub, -⟩ :=
    @deleteLines_ok next previous contents writer blocks [] h.shows hprevious
  have hids : (previous.filter (·.id ∈ next.map (·.id))).map (·.id) =
      (next.map (·.id)).filter (· ∈ previous.map (·.id)) := by
    rw [← horder, List.filter_map]
    rfl
  obtain ⟨state', hwrite, hstep⟩ := @writeLines_ok previous contents writer' blocks' _ []
    next [] .nil hshows ((hsub.map (·.text)).nodup h.containers) hnext hids
  refine ⟨state', ?_, hstep⟩
  exact bind_eq_ok.2 ⟨_, hrun, hwrite⟩

end Steps

end Replay
end ZuTalk
