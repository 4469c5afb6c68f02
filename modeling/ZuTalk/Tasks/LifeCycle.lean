/-
# The life of a task

What one operation may do to a row (`Moves`), for each operation, and from it what
holds in every run (`task_life_cycle`): a lease is there exactly while a task runs, a
task that is not finished has retries left, and what is finished changes only as said.

A row does not say who has it.  So the operations of a worker act on any task that is
running (`life_cycle_not_as_claimed`), and `fail_terminal` acts on any task at all.
-/

import ZuTalk.Library.Checks
import ZuTalk.Library.Machine
import ZuTalk.Tasks.Queue

namespace ZuTalk
namespace Tasks

open Table

/-- **What holds of a row:** its lease is there while it runs, and it has retries left
while it is not finished. -/
structure TaskRow.Ok (row : TaskRow) : Prop where
  lease : row.leaseExpiresAtMs.isSome = true ↔ row.status = .running
  heartbeat : row.lastHeartbeatAtMs.isSome = true ↔ row.status = .running
  budget : row.status = .pending ∨ row.status = .running → row.retryCount < row.maxRetries

/-- The operations that a worker uses on a task it has claimed. -/
def TaskOp.ofWorker : TaskOp → Bool
  | .heartbeat .. | .complete .. | .releaseWithoutRetry .. | .fail .. | .failLocalPreflight .. =>
      true
  | _ => false

/-- A finished task. -/
def TaskRow.Finished (row : TaskRow) : Prop := row.status = .completed ∨ row.status = .failed

/-- **What an operation may do to a row.** -/
structure Moves (op : TaskOp) (row row' : TaskRow) : Prop where
  ok : row.Ok → row'.Ok
  retryCount : row.retryCount ≤ row'.retryCount
  maxRetries : row'.maxRetries = row.maxRetries
  failed : row.status = .failed →
    row'.status = .failed ∨ op = .completeFromDurableProviderReceipt row.id
  completed : row.status = .completed →
    row'.status = .completed ∨ ∃ error, op = .failTerminal row.id error
  bounded : row.Ok → row.retryCount ≤ row.maxRetries →
    (∀ error, op = .failTerminal row.id error → ¬ row.Finished) → row'.retryCount ≤ row'.maxRetries
  ofWorker : op.ofWorker = true → row'.status ≠ row.status → row.status = .running

namespace Moves

variable {op : TaskOp} {row row' row'' : TaskRow}

theorem refl (op : TaskOp) (row : TaskRow) : Moves op row row where
  ok := id
  retryCount := Nat.le_refl _
  maxRetries := rfl
  failed := .inl
  completed := .inl
  bounded := fun _ hle _ => hle
  ofWorker := fun _ hne => absurd rfl hne

/-- Rounds of one operation, other than `fail_terminal` and those of a worker. -/
theorem trans (hid : row'.id = row.id) (h : Moves op row row') (h' : Moves op row' row'')
    (hterminal : ∀ taskId error, op ≠ .failTerminal taskId error) (hworker : op.ofWorker = false) :
    Moves op row row'' where
  ok := fun hok => h'.ok (h.ok hok)
  retryCount := Nat.le_trans h.retryCount h'.retryCount
  maxRetries := h'.maxRetries.trans h.maxRetries
  failed := fun hfailed => by
    rcases h.failed hfailed with hmiddle | hop
    · rcases h'.failed hmiddle with hlast | hop
      · exact .inl hlast
      · exact .inr (hid ▸ hop)
    · exact .inr hop
  completed := fun hcompleted => by
    rcases h.completed hcompleted with hmiddle | ⟨error, hop⟩
    · rcases h'.completed hmiddle with hlast | ⟨error, hop⟩
      · exact .inl hlast
      · exact absurd hop (hterminal _ error)
    · exact absurd hop (hterminal _ error)
  bounded := fun hok hle _ =>
    h'.bounded (h.ok hok) (h.bounded hok hle fun error hop => absurd hop (hterminal _ error))
      fun error hop => absurd hop (hterminal _ error)
  ofWorker := fun htrue => by
    rw [hworker] at htrue
    cases htrue

/-- A claim, or a heartbeat. -/
theorem leased (leaseSeconds : ℕ) (nowMs : ℤ)
    (hlive : row.status = .pending ∨ row.status = .running)
    (hworker : op.ofWorker = true → row.status = .running) :
    Moves op row (row.leased leaseSeconds nowMs) where
  ok := fun hok => ⟨by simp [TaskRow.leased], by simp [TaskRow.leased], fun _ => hok.budget hlive⟩
  retryCount := Nat.le_refl _
  maxRetries := rfl
  failed := fun hfailed => by
    rcases hlive with h | h <;> rw [hfailed] at h <;> cases h
  completed := fun hcompleted => by
    rcases hlive with h | h <;> rw [hcompleted] at h <;> cases h
  bounded := fun _ hle _ => hle
  ofWorker := fun htrue _ => hworker htrue

/-- A status that is set without a failure being counted. -/
theorem unleased {status : TaskStatus} {nowMs : ℤ} {errorMsg : Option String}
    (hstatus : status ≠ .running)
    (hpending : status = .pending → row.status = .running)
    (hfailed : row.status = .failed →
      status = .failed ∨ op = .completeFromDurableProviderReceipt row.id)
    (hcompleted : row.status = .completed → status = .completed)
    (hworker : op.ofWorker = true → row.status = .running) :
    Moves op row { row.unleased status nowMs with errorMsg := errorMsg } where
  ok := fun hok => by
    have hnone : ∀ status' : TaskStatus, status' = .running →
        status' = status → False := fun _ h h' => hstatus (h'.symm.trans h)
    refine ⟨⟨fun h => (by cases h), fun h => (hnone _ h rfl).elim⟩,
      ⟨fun h => (by cases h), fun h => (hnone _ h rfl).elim⟩, fun hlive => ?_⟩
    rcases hlive with h | h
    · exact hok.budget (.inr (hpending h))
    · exact absurd h hstatus
  retryCount := Nat.le_refl _
  maxRetries := rfl
  failed := hfailed
  completed := fun h => .inl (hcompleted h)
  bounded := fun _ hle _ => hle
  ofWorker := fun htrue _ => hworker htrue

/-- A failure that is counted. -/
theorem failedWith {status : TaskStatus} {error : String} {nowMs : ℤ}
    (hstatus : status = .failed ∨ status = .pending ∧ row.retryCount + 1 < row.maxRetries ∧
      row.status = .running)
    (hcompleted : row.status = .completed → ∃ error, op = .failTerminal row.id error)
    (hlive : row.Finished → ∃ error, op = .failTerminal row.id error)
    (hworker : op.ofWorker = true → row.status = .running) :
    Moves op row (row.failedWith status error nowMs) where
  ok := fun _ => by
    refine ⟨⟨fun h => (by cases h), fun h => ?_⟩, ⟨fun h => (by cases h), fun h => ?_⟩, fun h => ?_⟩
    · rcases hstatus with rfl | ⟨rfl, -⟩ <;> cases h
    · rcases hstatus with rfl | ⟨rfl, -⟩ <;> cases h
    · rcases hstatus with rfl | ⟨-, hbudget, -⟩
      · rcases h with h | h <;> cases h
      · exact hbudget
  retryCount := Nat.le_succ _
  maxRetries := rfl
  failed := fun hfailed => by
    rcases hstatus with rfl | ⟨-, -, hrunning⟩
    · exact .inl rfl
    · rw [hfailed] at hrunning
      cases hrunning
  completed := fun h => .inr (hcompleted h)
  bounded := fun hok hle hspared => by
    have hnotFinished : ¬ row.Finished := fun hfinished => by
      obtain ⟨error, hop⟩ := hlive hfinished
      exact hspared error hop hfinished
    have hactive : row.status = .pending ∨ row.status = .running := by
      cases hcase : row.status with
      | pending => exact .inl rfl
      | running => exact .inr rfl
      | completed => exact absurd (.inl hcase) hnotFinished
      | failed => exact absurd (.inr hcase) hnotFinished
    exact hok.budget hactive
  ofWorker := fun htrue _ => hworker htrue

end Moves

/-! ### Statements -/

section Statements

variable {codec : Codec} {rows : List TaskRow} {op : TaskOp}

/-- Rows moved one by one, keeping their ids. -/
abbrev MovesAll (op : TaskOp) (rows rows' : List TaskRow) : Prop :=
  List.Forall₂ (fun row row' => row'.id = row.id ∧ Moves op row row') rows rows'

theorem MovesAll.refl (op : TaskOp) (rows : List TaskRow) : MovesAll op rows rows :=
  List.forall₂_same.2 fun row _ => ⟨rfl, Moves.refl op row⟩

theorem MovesAll.update {selects : TaskRow → Bool} {set : TaskRow → TaskRow}
    (hid : ∀ row, (set row).id = row.id)
    (hset : ∀ row ∈ rows, selects row = true → Moves op row (set row)) :
    MovesAll op rows (Table.update selects set rows) :=
  forall₂_update (fun row => ⟨rfl, Moves.refl op row⟩) fun row hrow hselects =>
    ⟨hid row, hset row hrow hselects⟩

theorem MovesAll.trans {rows' rows'' : List TaskRow} (h : MovesAll op rows rows')
    (h' : MovesAll op rows' rows'')
    (hterminal : ∀ taskId error, op ≠ .failTerminal taskId error) (hworker : op.ofWorker = false) :
    MovesAll op rows rows'' := by
  induction h generalizing rows'' with
  | nil => exact h'
  | cons hhead _ ih =>
      cases h' with
      | cons hhead' htail' =>
          exact .cons ⟨hhead'.1.trans hhead.1, hhead.2.trans hhead.1 hhead'.2 hterminal hworker⟩
            (ih htail')

theorem isRunning_iff {row : TaskRow} : isRunning row = true ↔ row.status = .running :=
  decide_eq_true_iff

theorem claimable_live {row : TaskRow} {nowMs : ℤ} (h : row.claimable nowMs = true) :
    row.status = .pending ∨ row.status = .running := by
  unfold TaskRow.claimable at h
  rcases Bool.or_eq_true_iff.1 h with h | h
  · exact .inl (decide_eq_true_iff.1 h)
  · exact .inr (decide_eq_true_iff.1 (Bool.and_eq_true_iff.1 h).1)

theorem mem_of_foldl_best (prefers : TaskRow → TaskRow → Prop) [DecidableRel prefers]
    {l : List TaskRow} {best : Option TaskRow} {row : TaskRow}
    (h : l.foldl (fun best row => match best with
      | none => some row
      | some chosen => if prefers chosen row then some row else best) best = some row) :
    row ∈ l ∨ best = some row := by
  induction l generalizing best with
  | nil => exact .inr h
  | cons next l ih =>
      rcases ih h with hmem | hnext
      · exact .inl (List.mem_cons_of_mem next hmem)
      · cases best with
        | none => exact .inl (List.mem_cons.2 (.inl (Option.some.inj hnext).symm))
        | some chosen =>
            dsimp only at hnext
            split at hnext
            · exact .inl (List.mem_cons.2 (.inl (Option.some.inj hnext).symm))
            · exact .inr hnext

/-- The task that is claimed next can be claimed. -/
theorem nextTask_some {nowMs : ℤ} {row : TaskRow} (h : nextTask rows nowMs = some row) :
    row ∈ rows ∧ row.claimable nowMs = true := by
  unfold nextTask at h
  rcases mem_of_foldl_best (fun chosen row : TaskRow => chosen.priority < row.priority ∨
      (chosen.priority = row.priority ∧ row.createdAt < chosen.createdAt)) h with hmem | hnone
  · exact List.mem_filter.1 hmem
  · cases hnone

theorem claimTask_moves (taskId : String) (leaseSeconds : ℕ) (nowMs : ℤ)
    (hworker : op.ofWorker = false) :
    MovesAll op rows (claimTask rows taskId leaseSeconds nowMs) := by
  refine MovesAll.update (fun row => rfl) fun row _ hselects => ?_
  have hclaimable := (Bool.and_eq_true_iff.1 hselects).2
  refine Moves.leased leaseSeconds nowMs (claimable_live hclaimable) fun htrue => ?_
  rw [hworker] at htrue
  cases htrue

/-- **One round of a claim** that fails a task. -/
theorem failUnsupported_moves (hdistinct : Distinct (·.id) rows) {row : TaskRow} (hrow : row ∈ rows)
    (hlive : row.status = .pending ∨ row.status = .running) (error : TaskQueueError) (nowMs : ℤ)
    (hworker : op.ofWorker = false) :
    MovesAll op rows (failUnsupported rows row.id error nowMs) := by
  refine MovesAll.update (fun row => rfl) fun other hother hselects => ?_
  -- The id is that of the row which was chosen.
  obtain rfl := eq_of_key_eq hdistinct hother hrow (decide_eq_true_iff.1 hselects)
  have hfinished : ¬ other.Finished := by
    rintro (h | h) <;> rcases hlive with h' | h' <;> rw [h] at h' <;> cases h'
  refine Moves.failedWith (.inl rfl) (fun h => absurd (.inl h) hfinished)
    (fun h => absurd h hfinished) fun htrue => ?_
  rw [hworker] at htrue
  cases htrue

theorem MovesAll.map_id {rows' : List TaskRow} (h : MovesAll op rows rows') :
    rows'.map (·.id) = rows.map (·.id) := by
  induction h with
  | nil => rfl
  | cons hhead _ ih => rw [List.map_cons, List.map_cons, hhead.1, ih]

theorem MovesAll.distinct {rows' : List TaskRow} (h : MovesAll op rows rows')
    (hdistinct : Distinct (·.id) rows) : Distinct (·.id) rows' := by
  unfold Distinct
  rw [h.map_id]
  exact hdistinct

theorem claimNext_moves (hdistinct : Distinct (·.id) rows) (clock : ℕ → ℤ) (leaseSeconds : ℕ)
    (rounds : ℕ) (hterminal : ∀ taskId error, op ≠ .failTerminal taskId error)
    (hworker : op.ofWorker = false) :
    MovesAll op rows (claimNext codec clock leaseSeconds rounds rows).2 := by
  induction rounds generalizing rows with
  | zero => exact MovesAll.refl op rows
  | succ rounds ih =>
      unfold claimNext
      cases hnext : nextTask rows (clock rounds) with
      | none => exact MovesAll.refl op rows
      | some row =>
          obtain ⟨hrow, hclaimable⟩ := nextTask_some hnext
          dsimp only
          cases readPayload codec row.payload with
          | error error =>
              have hround := failUnsupported_moves hdistinct hrow (claimable_live hclaimable) error
                (clock rounds) hworker
              exact hround.trans (ih (hround.distinct hdistinct)) hterminal hworker
          | ok _ => exact claimTask_moves row.id leaseSeconds (clock rounds) hworker

/-- The rounds are enough: a claim that gives nothing has found no task in its last round. -/
theorem claimNext_rounds (clock : ℕ → ℤ) (leaseSeconds : ℕ) {rounds : ℕ}
    (hrounds : rows.countP (fun row => row.status = .pending || row.status = .running) < rounds)
    (hnone : (claimNext codec clock leaseSeconds rounds rows).1 = none) :
    ∃ round < rounds,
      nextTask (claimNext codec clock leaseSeconds rounds rows).2 (clock round) = none := by
  induction rounds generalizing rows with
  | zero => cases hrounds
  | succ rounds ih =>
      unfold claimNext at hnone ⊢
      cases hnext : nextTask rows (clock rounds) with
      | none => exact ⟨rounds, Nat.lt_succ_self _, hnext⟩
      | some row =>
          obtain ⟨hrow, hclaimable⟩ := nextTask_some hnext
          rw [hnext] at hnone
          dsimp only at hnone ⊢
          cases hread : readPayload codec row.payload with
          | error error =>
              rw [hread] at hnone
              have hlive : (decide (row.status = .pending) || decide (row.status = .running)) =
                  true := by
                rcases claimable_live hclaimable with h | h <;> simp [h]
              have hfewer : (failUnsupported rows row.id error (clock rounds)).countP
                  (fun row => row.status = .pending || row.status = .running) <
                    rows.countP (fun row => row.status = .pending || row.status = .running) :=
                countP_update_lt (fun other _ => rfl) hrow (by simp) hlive
              obtain ⟨round, hlt, hlast⟩ := ih (by omega) hnone
              exact ⟨round, Nat.lt_succ_of_lt hlt, hlast⟩
          | ok _ =>
              rw [hread] at hnone
              cases hnone

/-! ### Operations -/

/-- A purge that takes a task. -/
def TaskOp.Purges (codec : Codec) (op : TaskOp) (row : TaskRow) : Prop :=
  op = .purgeTask row.id ∨
    ∃ sessionId payload, op = .purgeSession sessionId ∧ codec.fromJson row.payload = .ok payload ∧
      payload.sessionId = sessionId

/-- **What an operation does to the table:** a row is moved, new or purged. -/
structure Acts (codec : Codec) (op : TaskOp) (rows rows' : List TaskRow) : Prop where
  distinct : Distinct (·.id) rows'
  moves : Related (·.id) (Moves op) rows rows'
  fresh : ∀ row' ∈ rows', (∃ row ∈ rows, row'.id = row.id) ∨
    row'.Ok ∧ row'.retryCount ≤ row'.maxRetries
  stays : ∀ row ∈ rows, (∃ row' ∈ rows', row'.id = row.id) ∨ op.Purges codec row

/-- Rows that are moved one by one come from a row each. -/
theorem MovesAll.origin {rows' : List TaskRow} (h : MovesAll op rows rows') :
    ∀ row' ∈ rows', ∃ row ∈ rows, row'.id = row.id := by
  intro row' hrow'
  have hmem : row'.id ∈ rows.map (·.id) := by
    rw [← h.map_id]
    exact List.mem_map_of_mem hrow'
  obtain ⟨row, hrow, heq⟩ := List.mem_map.1 hmem
  exact ⟨row, hrow, heq.symm⟩

/-- Rows that are moved one by one all stay. -/
theorem MovesAll.image {rows' : List TaskRow} (h : MovesAll op rows rows') :
    ∀ row ∈ rows, ∃ row' ∈ rows', row'.id = row.id := by
  intro row hrow
  have hmem : row.id ∈ rows'.map (·.id) := by
    rw [h.map_id]
    exact List.mem_map_of_mem hrow
  exact List.mem_map.1 hmem

theorem Acts.of_moves {rows' : List TaskRow} (hdistinct : Distinct (·.id) rows)
    (h : MovesAll op rows rows') : Acts codec op rows rows' where
  distinct := h.distinct hdistinct
  moves := Related.of_forall₂ hdistinct h
  fresh := fun row' hrow' => .inl (h.origin row' hrow')
  stays := fun row hrow => .inl (h.image row hrow)

theorem Acts.refl (codec : Codec) (op : TaskOp) (hdistinct : Distinct (·.id) rows) :
    Acts codec op rows rows := Acts.of_moves hdistinct (MovesAll.refl op rows)

theorem Acts.delete (selects : TaskRow → Bool) (hdistinct : Distinct (·.id) rows)
    (hpurges : ∀ row ∈ rows, selects row = true → op.Purges codec row) :
    Acts codec op rows (Table.delete selects rows) where
  distinct := hdistinct.delete
  moves := related_delete hdistinct (Moves.refl op)
  fresh := fun row' hrow' => .inl ⟨row', mem_of_mem_delete hrow', rfl⟩
  stays := fun row hrow => by
    cases hselects : selects row with
    | true => exact .inr (hpurges row hrow hselects)
    | false => exact .inl ⟨row, List.mem_filter.2 ⟨hrow, by simp [hselects]⟩, rfl⟩

theorem Acts.insert {row : TaskRow} (hdistinct : Distinct (·.id) rows) (hok : row.Ok)
    (hle : row.retryCount ≤ row.maxRetries) :
    Acts codec op rows (Table.insert (·.id) row rows) where
  distinct := hdistinct.insert
  moves := related_insert hdistinct (Moves.refl op)
  fresh := fun row' hrow' => by
    rcases mem_insert hrow' with hmem | rfl
    · exact .inl ⟨row', hmem, rfl⟩
    · exact .inr ⟨hok, hle⟩
  stays := fun old hold => by
    refine .inl ⟨old, ?_, rfl⟩
    unfold Table.insert
    split
    · exact hold
    · exact List.mem_append_left [row] hold

/-- A statement on a task that runs. -/
theorem Acts.updateRunning {taskId action : String} {set : TaskRow → TaskRow}
    (hdistinct : Distinct (·.id) rows) (hid : ∀ row, (set row).id = row.id)
    (hset : ∀ row ∈ rows, row.id = taskId → row.status = .running → Moves op row (set row)) :
    Acts codec op rows (updateTask rows taskId isRunning set action).2 :=
  Acts.of_moves hdistinct <| MovesAll.update hid fun row hrow hselects => by
    obtain ⟨hrowId, hrunning⟩ := Bool.and_eq_true_iff.1 hselects
    exact hset row hrow (decide_eq_true_iff.1 hrowId) (isRunning_iff.1 hrunning)

/-- A running task is released, completed or failed without a failure being counted. -/
theorem Moves.settled {row : TaskRow} {status : TaskStatus} {nowMs : ℤ}
    {errorMsg : Option String} (hstatus : status ≠ .running) (hrunning : row.status = .running) :
    Moves op row { row.unleased status nowMs with errorMsg := errorMsg } := by
  refine Moves.unleased hstatus (fun _ => hrunning) (fun hfailed => ?_) (fun hcompleted => ?_)
    fun _ => hrunning
  · rw [hfailed] at hrunning
    cases hrunning
  · rw [hcompleted] at hrunning
    cases hrunning

/-- The ids that a purge of a session takes are of its tasks. -/
theorem matchingTaskIds_mem (hdistinct : Distinct (·.id) rows) {sessionId : String}
    {taskIds : List String} (h : matchingTaskIds codec rows sessionId = .ok taskIds)
    {row : TaskRow} (hrow : row ∈ rows) (hmem : row.id ∈ taskIds) :
    ∃ payload, codec.fromJson row.payload = .ok payload ∧ payload.sessionId = sessionId := by
  -- An id that is gathered is of a row that was read; ids are distinct.
  suffices hread : ∀ taskId ∈ taskIds, ∃ other ∈ rows, other.id = taskId ∧
      ∃ payload, codec.fromJson other.payload = .ok payload ∧ payload.sessionId = sessionId by
    obtain ⟨other, hother, heq, hpayload⟩ := hread row.id hmem
    obtain rfl := eq_of_key_eq hdistinct hother hrow heq
    exact hpayload
  unfold matchingTaskIds at h
  refine Checks.foldlM_invariant (P := fun gathered => ∀ taskId ∈ gathered, ∃ other ∈ rows,
    other.id = taskId ∧
      ∃ payload, codec.fromJson other.payload = .ok payload ∧ payload.sessionId = sessionId)
    (fun gathered next gathered' hnext hgathered hstep => ?_) (List.forall_mem_nil _) h
  cases hpayload : codec.fromJson next.payload with
  | error message =>
      rw [hpayload] at hstep
      cases hstep
  | ok payload =>
      rw [hpayload] at hstep
      obtain rfl := Except.ok.inj hstep
      split
      · rename_i hsession
        refine List.forall_mem_append.2 ⟨hgathered, fun taskId htaskId => ?_⟩
        exact ⟨next, hnext, (List.mem_singleton.1 htaskId).symm, payload, hpayload, hsession⟩
      · exact hgathered

theorem enqueue_acts (hdistinct : Distinct (·.id) rows) (stableId : String)
    (payload : TaskPayload) (priority : ℤ) (maxRetries : ℕ) (nowMs : ℤ) :
    Acts codec op rows
      (enqueueWithStableIdAndMaxRetries codec rows stableId payload priority maxRetries nowMs).2 := by
  unfold enqueueWithStableIdAndMaxRetries
  dsimp only
  by_cases hempty : Text.trimStr stableId = ""
  · rw [if_pos hempty]
    exact Acts.refl codec op hdistinct
  rw [if_neg hempty]
  by_cases hretries : maxRetries < 1 ∨ 20 < maxRetries
  · rw [if_pos hretries]
    exact Acts.refl codec op hdistinct
  rw [if_neg hretries]
  cases validatePayload payload with
  | error _ => exact Acts.refl codec op hdistinct
  | ok _ =>
      cases findTask rows (Text.trimStr stableId) with
      | none =>
          refine Acts.insert hdistinct ⟨⟨(nomatch ·), (nomatch ·)⟩, ⟨(nomatch ·), (nomatch ·)⟩,
            fun _ => ?_⟩ (Nat.zero_le _)
          show 0 < maxRetries
          omega
      | some existing =>
          dsimp only
          split <;> exact Acts.refl codec op hdistinct

theorem fail_acts (hdistinct : Distinct (·.id) rows) (taskId error : String) (nowMs : ℤ) :
    Acts codec op rows (fail rows taskId error nowMs).2 := by
  unfold fail
  cases hfind : findTask rows taskId with
  | none => exact Acts.refl codec op hdistinct
  | some found =>
      refine Acts.updateRunning hdistinct (fun _ => rfl) fun row hrow hid hrunning => ?_
      -- The row whose retries were read is the one that is set.
      have hfound : found.id = taskId := by
        have hselected := List.find?_some hfind
        exact decide_eq_true_iff.1 hselected
      obtain rfl := eq_of_key_eq hdistinct (List.mem_of_find?_eq_some hfind) hrow
        (hfound.trans hid.symm)
      have hnotFinished : ¬ found.Finished := by
        rintro (h | h) <;> rw [h] at hrunning <;> cases hrunning
      refine Moves.failedWith ?_ (fun h => absurd (.inl h) hnotFinished)
        (fun h => absurd h hnotFinished) fun _ => hrunning
      by_cases hlast : found.maxRetries ≤ found.retryCount + 1
      · exact .inl (if_pos hlast)
      · exact .inr ⟨if_neg hlast, Nat.lt_of_not_le hlast, hrunning⟩

/-- **Every operation acts as said.** -/
theorem act_acts (hdistinct : Distinct (·.id) rows) (nowMs : ℤ) (op : TaskOp) :
    Acts codec op rows (act codec nowMs rows op).1 := by
  cases op with
  | enqueue stableId payload priority maxRetries =>
      exact enqueue_acts hdistinct stableId payload priority maxRetries nowMs
  | claimNext permit clock leaseSeconds =>
      cases permit with
      | false => exact Acts.refl codec _ hdistinct
      | true =>
          exact Acts.of_moves hdistinct
            (claimNext_moves hdistinct clock leaseSeconds _ (fun _ _ h => nomatch h) rfl)
  | claimById permit taskId leaseSeconds =>
      cases permit with
      | false => exact Acts.refl codec _ hdistinct
      | true =>
          show Acts codec _ rows (claimById codec rows taskId leaseSeconds nowMs).2
          unfold claimById
          cases rows.find? fun row => decide (row.id = taskId) && row.claimable nowMs with
          | none => exact Acts.refl codec _ hdistinct
          | some row =>
              dsimp only
              cases readPayload codec row.payload with
              | error _ => exact Acts.refl codec _ hdistinct
              | ok _ =>
                  exact Acts.of_moves hdistinct (claimTask_moves row.id leaseSeconds nowMs rfl)
  | heartbeat taskId leaseSeconds =>
      show Acts codec _ rows (heartbeat rows taskId leaseSeconds nowMs).2
      unfold heartbeat
      exact Acts.updateRunning hdistinct (fun _ => rfl) fun row _ _ hrunning =>
        Moves.leased leaseSeconds nowMs (.inr hrunning) fun _ => hrunning
  | complete taskId =>
      show Acts codec _ rows (complete rows taskId nowMs).2
      unfold complete
      exact Acts.updateRunning hdistinct (fun _ => rfl) fun row _ _ hrunning =>
        Moves.settled (by decide) hrunning
  | completeFromDurableProviderReceipt taskId =>
      refine Acts.of_moves hdistinct (MovesAll.update (fun _ => rfl) fun row _ hselects => ?_)
      obtain ⟨hid, hopen⟩ := Bool.and_eq_true_iff.1 hselects
      obtain rfl := decide_eq_true_iff.1 hid
      exact Moves.unleased (by decide) (fun h => nomatch h) (fun _ => .inr rfl) (fun _ => rfl)
        fun h => nomatch h
  | releaseWithoutRetry taskId =>
      show Acts codec _ rows (releaseWithoutRetry rows taskId nowMs).2
      unfold releaseWithoutRetry
      exact Acts.updateRunning hdistinct (fun _ => rfl) fun row _ _ hrunning =>
        Moves.settled (by decide) hrunning
  | fail taskId error => exact fail_acts hdistinct taskId error nowMs
  | failTerminal taskId error =>
      refine Acts.of_moves hdistinct (MovesAll.update (fun _ => rfl) fun row _ hselects => ?_)
      obtain ⟨hid, -⟩ := Bool.and_eq_true_iff.1 hselects
      obtain rfl := decide_eq_true_iff.1 hid
      exact Moves.failedWith (.inl rfl) (fun _ => ⟨error, rfl⟩) (fun _ => ⟨error, rfl⟩)
        fun h => nomatch h
  | failLocalPreflight taskId error =>
      show Acts codec _ rows (failLocalPreflight rows taskId error nowMs).2
      unfold failLocalPreflight
      exact Acts.updateRunning hdistinct (fun _ => rfl) fun row _ _ hrunning =>
        Moves.settled (by decide) hrunning
  | recoverAbandonedTasks =>
      refine Acts.of_moves hdistinct (MovesAll.update (fun _ => rfl) fun row _ hselects => ?_)
      exact Moves.settled (by decide) (isRunning_iff.1 hselects)
  | purgeTask taskId =>
      refine Acts.delete _ hdistinct fun row _ hselects => .inl ?_
      rw [decide_eq_true_iff.1 hselects]
  | purgeSession sessionId =>
      show Acts codec _ rows (purgeSession codec rows sessionId).2
      unfold purgeSession
      cases hmatching : matchingTaskIds codec rows sessionId with
      | error _ => exact Acts.refl codec _ hdistinct
      | ok taskIds =>
          refine Acts.delete _ hdistinct fun row hrow hselects => .inr ?_
          obtain ⟨payload, hpayload, hsession⟩ :=
            matchingTaskIds_mem hdistinct hmatching hrow (List.contains_iff_mem.1 hselects)
          exact ⟨sessionId, payload, rfl, hpayload, hsession⟩

end Statements

/-! ### Runs -/

section Runs

variable (codec : Codec)

/-- A step that does not call `fail_terminal` on a finished task. -/
def SparesFinished (world : TaskWorld) (s : TaskStep) : Prop :=
  ∀ row ∈ world.rows, ∀ error, s.op = .failTerminal row.id error → ¬ row.Finished

/-- What holds of the table of every run. -/
structure TaskWorld.Ok (world : TaskWorld) : Prop where
  distinct : Distinct (·.id) world.rows
  ok : ∀ row ∈ world.rows, row.Ok

variable {codec} {world : TaskWorld}

/-- **One step:** what it does, and that it keeps the table as it should be. -/
theorem TaskWorld.Ok.step (h : world.Ok) (s : TaskStep) :
    (world.step codec s).Ok ∧ Acts codec s.op world.rows (world.step codec s).rows := by
  have hacts : Acts codec s.op world.rows (world.step codec s).rows :=
    act_acts h.distinct s.nowMs s.op
  refine ⟨⟨hacts.distinct, fun row' hrow' => ?_⟩, hacts⟩
  rcases hacts.fresh row' hrow' with ⟨row, hrow, hid⟩ | ⟨hok, -⟩
  · exact (hacts.moves row hrow row' hrow' hid).ok (h.ok row hrow)
  · exact hok

/-- One step keeps the retries within bounds. -/
theorem TaskWorld.Ok.step_bounded (h : world.Ok) {s : TaskStep} (hspares : SparesFinished world s)
    (hle : ∀ row ∈ world.rows, row.retryCount ≤ row.maxRetries) :
    ∀ row ∈ (world.step codec s).rows, row.retryCount ≤ row.maxRetries := by
  have hacts : Acts codec s.op world.rows (world.step codec s).rows := (h.step s).2
  intro row' hrow'
  rcases hacts.fresh row' hrow' with ⟨row, hrow, hid⟩ | ⟨-, hnew⟩
  · exact (hacts.moves row hrow row' hrow' hid).bounded (h.ok row hrow) (hle row hrow)
      fun error hop => hspares row hrow error hop
  · exact hnew

theorem TaskWorld.empty_ok : TaskWorld.empty.Ok where
  distinct := List.nodup_nil
  ok := fun _ hrow => nomatch hrow

theorem TaskWorld.run_concat (steps : List TaskStep) (s : TaskStep) :
    TaskWorld.run codec (steps ++ [s]) = (TaskWorld.run codec steps).step codec s :=
  List.foldl_concat ..

theorem TaskWorld.run_ok (steps : List TaskStep) : (TaskWorld.run codec steps).Ok := by
  induction steps using List.reverseRecOn with
  | nil => exact TaskWorld.empty_ok
  | append_singleton steps s ih =>
      rw [TaskWorld.run_concat]
      exact (ih.step s).1

theorem TaskWorld.run_bounded {steps : List TaskStep}
    (hspares : ∀ earlier s later, steps = earlier ++ s :: later →
      SparesFinished (TaskWorld.run codec earlier) s) :
    ∀ row ∈ (TaskWorld.run codec steps).rows, row.retryCount ≤ row.maxRetries := by
  induction steps using List.reverseRecOn with
  | nil => exact fun _ hrow => nomatch hrow
  | append_singleton steps s ih =>
      rw [TaskWorld.run_concat]
      refine (TaskWorld.run_ok steps).step_bounded (hspares steps s [] rfl) (ih ?_)
      intro earlier s' later hsteps
      refine hspares earlier s' (later ++ [s]) ?_
      rw [hsteps, List.append_assoc, List.cons_append]

/-- **The life of a task.**  In every run a lease is there exactly while a task runs, and
a task that is not finished has retries left.  A step takes a task away only by purging it;
it never takes retries back; only a provider's receipt changes the status of a failed task,
only `fail_terminal` that of a completed one; and a worker changes that of a running task
only.  As long as `fail_terminal` spares finished tasks, retries stay within bounds. -/
theorem task_life_cycle (codec : Codec) (steps : List TaskStep) :
    Distinct (·.id) (TaskWorld.run codec steps).rows ∧
    (∀ row ∈ (TaskWorld.run codec steps).rows,
      (row.leaseExpiresAtMs.isSome = true ↔ row.status = .running) ∧
      (row.lastHeartbeatAtMs.isSome = true ↔ row.status = .running) ∧
      (row.status = .pending ∨ row.status = .running → row.retryCount < row.maxRetries)) ∧
    ((∀ earlier s later, steps = earlier ++ s :: later →
        SparesFinished (TaskWorld.run codec earlier) s) →
      ∀ row ∈ (TaskWorld.run codec steps).rows, row.retryCount ≤ row.maxRetries) ∧
    ∀ s : TaskStep,
      (∀ row ∈ (TaskWorld.run codec steps).rows,
        (∃ row' ∈ (TaskWorld.run codec (steps ++ [s])).rows, row'.id = row.id) ∨
          s.op.Purges codec row) ∧
      ∀ row ∈ (TaskWorld.run codec steps).rows,
        ∀ row' ∈ (TaskWorld.run codec (steps ++ [s])).rows, row'.id = row.id →
          row.retryCount ≤ row'.retryCount ∧
          (row.status = .failed → row'.status = .failed ∨
            s.op = .completeFromDurableProviderReceipt row.id) ∧
          (row.status = .completed → row'.status = .completed ∨
            ∃ error, s.op = .failTerminal row.id error) ∧
          (s.op.ofWorker = true → row'.status ≠ row.status → row.status = .running) := by
  have hrun : (TaskWorld.run codec steps).Ok := TaskWorld.run_ok steps
  refine ⟨hrun.distinct, fun row hrow => ?_, TaskWorld.run_bounded, fun s => ?_⟩
  · have hok := hrun.ok row hrow
    exact ⟨hok.lease, hok.heartbeat, hok.budget⟩
  · rw [TaskWorld.run_concat]
    obtain ⟨-, hacts⟩ : _ ∧ Acts codec s.op (TaskWorld.run codec steps).rows _ := hrun.step s
    refine ⟨hacts.stays, fun row hrow row' hrow' hid => ?_⟩
    have hmoves := hacts.moves row hrow row' hrow' hid
    exact ⟨hmoves.retryCount, hmoves.failed, hmoves.completed, hmoves.ofWorker⟩

/-- An authorization. -/
def authorization : RemoteTaskAuthorization :=
  { schema := "zutalk.remote_processing_authorization.v1", provider := "soniox"
    dataClass := "recorded_audio", purpose := "post_recording_transcription"
    authorized := true, authorizedAtMs := 1 }

/-- A session's transcription. -/
def transcription : TaskPayload :=
  { sessionId := "session", languageHint := none, remoteAuthorization := some authorization }

/-- A codec that knows one payload. -/
def oneCodec : Codec where
  toJson := fun payload => payload.sessionId
  fromJson := fun text => if text = "session" then .ok transcription else .error "expected value"

/-- The first worker's lease runs out and the second takes the task. -/
def lostLease : List TaskStep :=
  [⟨1, 0, .enqueue "task" transcription 5 1⟩, ⟨1, 1000, .claimById true "task" 60⟩,
   ⟨2, 70000, .claimById true "task" 60⟩]

/-- **What a task does not do:** the first worker completes what the second has taken, and
`fail_terminal` fails a completed task and counts one failure more than there may be. -/
theorem life_cycle_not_as_claimed :
    ((TaskWorld.run oneCodec lostLease).holder "task" = some 2 ∧
      (TaskWorld.run oneCodec lostLease).rows.map (·.status) = [.running] ∧
      (TaskWorld.run oneCodec (lostLease ++ [⟨1, 71000, .complete "task"⟩])).rows.map
        (·.status) = [.completed]) ∧
    (TaskWorld.run oneCodec (lostLease ++ [⟨2, 71000, .complete "task"⟩,
      ⟨2, 72000, .failTerminal "task" "late"⟩])).rows.map (·.status) = [.failed] ∧
    (TaskWorld.run oneCodec (lostLease ++ [⟨2, 71000, .fail "task" "provider"⟩,
      ⟨2, 72000, .failTerminal "task" "late"⟩])).rows.map
        (fun row => (row.status, row.retryCount, row.maxRetries)) = [(.failed, 2, 1)] := by
  decide +kernel

end Runs

end Tasks
end ZuTalk
