/-
# The link pulls

Either end pulls what the other has: a link, seen from one end, is a `Pull.State`, and an
action at one of the ends moves both of these (`act_moves`), as long as no call of the
document store fails that brings contents.
-/

import ZuTalk.Sync.Link

namespace ZuTalk
namespace Sync

open Pull

section

variable {C D : Type}

/-- The documents that are still to be asked for. -/
def asksIn (queue : List Outbound) : List DocId :=
  queue.filterMap fun item => match item with
    | .want doc => some doc
    | _ => none

/-- The questions that were read and are still to be answered. -/
def servesIn (queue : List Outbound) : List (DocId × List UInt8) :=
  queue.filterMap fun item => match item with
    | .serve doc version => some (doc, version)
    | _ => none

/-- The questions on the wire. -/
def wantsIn (written : List (Message C D)) : List (DocId × List UInt8) :=
  written.filterMap fun message => match message with
    | .want doc version => some (doc, version)
    | _ => none

/-- The answers on the wire, after what was read of the first one. -/
def answersIn : Option (DocId × List UInt8) → List (Message C D) → List (DocId × List UInt8)
  | _, [] => []
  | assembling, .update doc bytes last :: rest =>
      let buffer := (assembling.map Prod.snd).getD [] ++ bytes
      if last then (doc, buffer) :: answersIn none rest else answersIn (some (doc, buffer)) rest
  | assembling, .summary .. :: rest => answersIn assembling rest
  | assembling, .want .. :: rest => answersIn assembling rest
  | assembling, .requestSummary :: rest => answersIn assembling rest

/-- What of an answer is read when all on the wire is read. -/
def carried : Option (DocId × List UInt8) → List (Message C D) → Option (DocId × List UInt8)
  | assembling, [] => assembling
  | assembling, .update doc bytes last :: rest =>
      let buffer := (assembling.map Prod.snd).getD [] ++ bytes
      if last then carried none rest else carried (some (doc, buffer)) rest
  | assembling, .summary .. :: rest => carried assembling rest
  | assembling, .want .. :: rest => carried assembling rest
  | assembling, .requestSummary :: rest => carried assembling rest

theorem lookup_insert_update (pending : AList fun _ : DocId => Bool) (doc : DocId) (stale : Bool) :
    (fun other => (pending.insert doc stale).lookup other) =
      Function.update (fun other => pending.lookup other) doc (some stale) := by
  funext other
  by_cases heq : other = doc
  · rw [heq, Function.update_self, AList.lookup_insert]
  · rw [Function.update_of_ne heq, AList.lookup_insert_ne heq]

theorem lookup_erase_update (pending : AList fun _ : DocId => Bool) (doc : DocId) :
    (fun other => (pending.erase doc).lookup other) =
      Function.update (fun other => pending.lookup other) doc none := by
  funext other
  by_cases heq : other = doc
  · rw [heq, Function.update_self, AList.lookup_erase]
  · rw [Function.update_of_ne heq, AList.lookup_erase_ne heq]

theorem wantsIn_append (written added : List (Message C D)) :
    wantsIn (written ++ added) = wantsIn written ++ wantsIn added := List.filterMap_append ..

theorem answersIn_append (assembling : Option (DocId × List UInt8))
    (written added : List (Message C D)) :
    answersIn assembling (written ++ added) =
      answersIn assembling written ++ answersIn (carried assembling written) added := by
  induction written generalizing assembling with
  | nil => rfl
  | cons message rest ih =>
      cases message with
      | update doc bytes last =>
          cases last with
          | true => exact congrArg _ (ih none)
          | false => exact ih _
      | _ => exact ih assembling

theorem carried_append (assembling : Option (DocId × List UInt8))
    (written added : List (Message C D)) :
    carried assembling (written ++ added) = carried (carried assembling written) added := by
  induction written generalizing assembling with
  | nil => rfl
  | cons message rest ih =>
      cases message with
      | update doc bytes last =>
          cases last with
          | true => exact ih none
          | false => exact ih _
      | _ => exact ih assembling

/-- Chunks are put together again. -/
theorem answersIn_chunked (doc : DocId) (assembling : Option (DocId × List UInt8))
    {chunks : List (List UInt8)} (hchunks : chunks ≠ []) :
    answersIn assembling (chunked (C := C) (D := D) doc chunks) =
      [(doc, (assembling.map Prod.snd).getD [] ++ chunks.flatten)] ∧
    carried assembling (chunked (C := C) (D := D) doc chunks) = none := by
  induction chunks generalizing assembling with
  | nil => exact absurd rfl hchunks
  | cons chunk rest ih =>
      cases rest with
      | nil => simp [chunked, answersIn, carried]
      | cons next rest =>
          obtain ⟨hanswers, hcarried⟩ :=
            ih (some (doc, (assembling.map Prod.snd).getD [] ++ chunk)) (List.cons_ne_nil _ _)
          refine ⟨?_, hcarried⟩
          change answersIn (some _) _ = _
          rw [hanswers, Option.map_some, Option.getD_some, List.append_assoc]
          rfl

/-- **An update that is written arrives as it was.** -/
theorem answersIn_writeUpdate (doc : DocId) (update : List UInt8) :
    answersIn none (writeUpdate (C := C) (D := D) doc update) = [(doc, update)] ∧
      carried none (writeUpdate (C := C) (D := D) doc update) = none := by
  unfold writeUpdate
  split
  · rename_i hempty
    rw [List.isEmpty_iff.1 hempty]
    exact ⟨rfl, rfl⟩
  · obtain ⟨hanswers, hcarried⟩ := answersIn_chunked (C := C) (D := D) doc none
      (Cuts.pieces_ne_nil (n := updateChunkBytes) update)
    refine ⟨?_, hcarried⟩
    rw [hanswers, Cuts.flatten_pieces (by decide)]
    rfl

theorem wantsIn_writeUpdate (doc : DocId) (update : List UInt8) :
    wantsIn (writeUpdate (C := C) (D := D) doc update) = [] := by
  unfold writeUpdate
  split
  · rfl
  · generalize Cuts.pieces updateChunkBytes update = chunks
    induction chunks with
    | nil => rfl
    | cons chunk rest ih =>
        cases rest with
        | nil => rfl
        | cons next rest => exact ih

end

section

variable {C D : Type} [SemilatticeSup C] [OrderBot C]

/-- The link, seen from the end that pulls. -/
def pull (me peer : Party C D) : State DocId C D UInt8 where
  theirs := peer.store.content
  mine := me.store.content
  heard := ((me.comparing.map Comparing.todo).getD [] : List _)
  wanted := ((me.comparing.map Comparing.wanted).getD [] : List _)
  pending := fun doc => me.pending.lookup doc
  asked := (asksIn me.queue : List _)
  wants := (wantsIn me.written ++ servesIn peer.queue : List _)
  answers := (answersIn me.assembling peer.written : List _)

/-- Answers are written whole. -/
def Whole (me peer : Party C D) : Prop := carried me.assembling peer.written = none

/-- What both ends see of an action: only the end that acts may pass over a document. -/
structure Follows (crdt : Crdt C D UInt8) (kept : DocId → Prop) (me peer me' peer' : Party C D) :
    Prop where
  pulls : Moves crdt kept (pull me peer) (pull me' peer')
  pulled : Moves crdt (fun _ => True) (pull peer me) (pull peer' me')
  whole : Whole me' peer'
  wholePeer : Whole peer' me'

/-- A summary that is being written loses what could not be looked up. -/
def losesNews : Action C → Bool
  | .gather found => !found
  | .gatherFails => true
  | _ => false

/-- A call fails that contents depend on: the comparison, the export or the merge. -/
def losesContent (me peer : Party C D) : Action C → Bool
  | .compareFails => true
  | .dequeue answers =>
      !answers && match me.queue with
        | .serve .. :: _ => true
        | _ => false
  | .read applies =>
      !applies && match peer.written with
        | .update doc bytes last :: _ =>
            last && !((assembled me.assembling doc bytes).getD []).isEmpty
        | _ => false
  | _ => false

section Frames

variable {crdt : Crdt C D UInt8} {kept : DocId → Prop} {me peer me' : Party C D}

/-- An action that leaves the contents and the questions alone. -/
theorem Follows.idle (hwhole : Whole me peer) (hwholePeer : Whole peer me)
    (hcontent : me'.store.content = me.store.content) (hcomparing : me'.comparing = me.comparing)
    (hpending : me'.pending = me.pending) (hassembling : me'.assembling = me.assembling)
    (hasks : asksIn me'.queue = asksIn me.queue) (hserves : servesIn me'.queue = servesIn me.queue)
    (hwritten : ∃ added, me'.written = me.written ++ added ∧ wantsIn added = [] ∧
      answersIn none added = [] ∧ carried none added = none) :
    Follows crdt kept me peer me' peer := by
  obtain ⟨added, hwritten, hwants, hanswers, hcarried⟩ := hwritten
  have hpulls : pull me' peer = pull me peer := by
    unfold pull
    rw [hcontent, hcomparing, hpending, hasks, hassembling, hwritten]
    rw [wantsIn_append, hwants, List.append_nil]
  have hpulled : pull peer me' = pull peer me := by
    unfold pull
    rw [hcontent, hserves, hwritten, answersIn_append, hwholePeer, hanswers, List.append_nil]
  refine ⟨hpulls ▸ .refl, hpulled ▸ .refl, ?_, ?_⟩
  · unfold Whole
    rw [hassembling]
    exact hwhole
  · unfold Whole
    rw [hwritten, carried_append, hwholePeer, hcarried]

@[simp] theorem content_put (store : Store C) (doc : DocId) (content : C) :
    (store.put doc content).content = Function.update store.content doc content := rfl

/-- A change, here or from another device. -/
theorem follows_change (hwhole : Whole me peer) (hwholePeer : Whole peer me) (doc : DocId)
    (added : C) (unnotified : List DocId) :
    Follows crdt kept me peer
      { me with
        store := me.store.put doc (me.store.content doc ⊔ added)
        unnotified := unnotified } peer := by
  have hle : ∀ other, me.store.content other ≤
      Function.update me.store.content doc (me.store.content doc ⊔ added) other := by
    intro other
    by_cases heq : other = doc
    · rw [heq, Function.update_self]
      exact le_sup_left
    · rw [Function.update_of_ne heq]
  exact ⟨.single (.grow (fun _ => le_rfl) hle), .single (.grow hle fun _ => le_rfl), hwhole,
    hwholePeer⟩

/-- A summary is read. -/
theorem follows_readSummary (hwhole : Whole me peer) (hwholePeer : Whole peer me)
    {docs : List (DocId × D)} {complete : Bool} {had : DocId → C} {rest : List (Message C D)}
    (hidle : me.comparing = none) (hwritten : peer.written = .summary docs complete had :: rest)
    (told : Option (DocId → C)) :
    Follows crdt kept me peer { me with comparing := some ⟨docs, [], complete⟩, told := told }
      { peer with written := rest } := by
  refine ⟨.single ?_, ?_, ?_, hwholePeer⟩
  · have hmove : Move crdt kept (pull me peer) _ := .hear (docs : Multiset (DocId × D))
    convert hmove using 1
    refine State.ext rfl rfl ?_ ?_ rfl rfl rfl ?_
    · change (docs : Multiset (DocId × D)) = (docs : Multiset (DocId × D)) + (pull me peer).heard
      unfold pull
      rw [hidle]
      exact (Multiset.add_zero _).symm
    · unfold pull
      rw [hidle]
      rfl
    · unfold pull
      rw [hwritten]
      rfl
  · have hpulled : pull { peer with written := rest }
        { me with comparing := some ⟨docs, [], complete⟩, told := told } = pull peer me := by
      unfold pull
      rw [hwritten]
      rfl
    rw [hpulled]
  · unfold Whole at hwhole ⊢
    rw [hwritten] at hwhole
    exact hwhole

/-- A question is read. -/
theorem follows_readWant (hwhole : Whole me peer) (hwholePeer : Whole peer me) {doc : DocId}
    {version : List UInt8} {rest : List (Message C D)}
    (hwritten : peer.written = .want doc version :: rest) :
    Follows crdt kept me peer { me with queue := me.queue ++ [.serve doc version] }
      { peer with written := rest } := by
  have hserves : servesIn (me.queue ++ [.serve doc version]) =
      servesIn me.queue ++ [(doc, version)] := List.filterMap_append
  have hasks : asksIn (me.queue ++ [.serve doc version]) = asksIn me.queue :=
    List.filterMap_append.trans (List.append_nil _)
  refine ⟨?_, ?_, ?_, hwholePeer⟩
  · have hpull : pull { me with queue := me.queue ++ [.serve doc version] }
        { peer with written := rest } = pull me peer := by
      unfold pull
      rw [hwritten, hasks]
      rfl
    rw [hpull]
  · have hpulled : pull { peer with written := rest }
        { me with queue := me.queue ++ [.serve doc version] } = pull peer me := by
      refine State.ext rfl rfl rfl rfl rfl rfl ?_ rfl
      have hperm : (wantsIn rest ++ servesIn (me.queue ++ [.serve doc version])).Perm
          (wantsIn peer.written ++ servesIn me.queue) := by
        rw [hserves, hwritten, ← List.append_assoc]
        exact List.perm_append_singleton _ _
      exact Multiset.coe_eq_coe.2 hperm
    rw [hpulled]
  · unfold Whole at hwhole ⊢
    rw [hwritten] at hwhole
    exact hwhole

/-- A request for a summary is read. -/
theorem follows_readRequest (hwhole : Whole me peer) (hwholePeer : Whole peer me)
    {rest : List (Message C D)} (hwritten : peer.written = .requestSummary :: rest) :
    Follows crdt kept me peer { me with queue := me.queue ++ [.summary] }
      { peer with written := rest } := by
  have hserves : servesIn (me.queue ++ [.summary]) = servesIn me.queue :=
    List.filterMap_append.trans (List.append_nil _)
  have hasks : asksIn (me.queue ++ [.summary]) = asksIn me.queue :=
    List.filterMap_append.trans (List.append_nil _)
  refine ⟨?_, ?_, ?_, hwholePeer⟩
  · have hpull : pull { me with queue := me.queue ++ [.summary] }
        { peer with written := rest } = pull me peer := by
      unfold pull
      rw [hwritten, hasks]
      rfl
    rw [hpull]
  · have hpulled : pull { peer with written := rest }
        { me with queue := me.queue ++ [.summary] } = pull peer me := by
      unfold pull
      rw [hwritten, hserves]
      rfl
    rw [hpulled]
  · unfold Whole at hwhole ⊢
    rw [hwritten] at hwhole
    exact hwhole

/-- What was assembled is what was carried. -/
theorem eq_of_assembled {assembling : Option (DocId × List UInt8)} {doc : DocId}
    {bytes buffer : List UInt8} (h : assembled assembling doc bytes = some buffer) :
    buffer = (assembling.map Prod.snd).getD [] ++ bytes := by
  unfold assembled at h
  split at h
  · split at h
    · exact (Option.some.inj h).symm
    · cases h
  · exact (Option.some.inj h).symm

/-- A part of an answer is read. -/
theorem follows_readChunk (hwhole : Whole me peer) (hwholePeer : Whole peer me) {doc : DocId}
    {bytes buffer : List UInt8} {rest : List (Message C D)}
    (hwritten : peer.written = .update doc bytes false :: rest)
    (hbuffer : assembled me.assembling doc bytes = some buffer) :
    Follows crdt kept me peer { me with assembling := some (doc, buffer) }
      { peer with written := rest } := by
  have hcarry := eq_of_assembled hbuffer
  refine ⟨?_, ?_, ?_, hwholePeer⟩
  · have hpull : pull { me with assembling := some (doc, buffer) } { peer with written := rest } =
        pull me peer := by
      unfold pull
      rw [hwritten, hcarry]
      rfl
    rw [hpull]
  · have hpulled : pull { peer with written := rest }
        { me with assembling := some (doc, buffer) } = pull peer me := by
      unfold pull
      rw [hwritten]
      rfl
    rw [hpulled]
  · unfold Whole at hwhole ⊢
    rw [hwritten] at hwhole
    rw [hcarry]
    exact hwhole

@[simp] theorem pull_checkSynced (me peer : Party C D) :
    pull me.checkSynced peer = pull me peer ∧ pull peer me.checkSynced = pull peer me := by
  unfold Party.checkSynced
  split
  · exact ⟨rfl, rfl⟩
  · exact ⟨rfl, rfl⟩

theorem whole_checkSynced (me peer : Party C D) :
    (Whole me.checkSynced peer ↔ Whole me peer) ∧ (Whole peer me.checkSynced ↔ Whole peer me) := by
  unfold Party.checkSynced
  split
  · exact ⟨Iff.rfl, Iff.rfl⟩
  · exact ⟨Iff.rfl, Iff.rfl⟩

theorem Follows.checkSynced {me' peer' : Party C D} (h : Follows crdt kept me peer me' peer') :
    Follows crdt kept me peer me'.checkSynced peer' where
  pulls := (pull_checkSynced me' peer').1 ▸ h.pulls
  pulled := (pull_checkSynced me' peer').2 ▸ h.pulled
  whole := (whole_checkSynced me' peer').1.2 h.whole
  wholePeer := (whole_checkSynced me' peer').2.2 h.wholePeer

/-- What is merged, or not there to merge, is taken in. -/
theorem content_taken (crdt : Crdt C D UInt8) (store : Store C) (doc : DocId)
    (update : List UInt8) {applies : Bool}
    (happlies : applies = true ∨ update.isEmpty = true) :
    (if !update.isEmpty && applies then store.apply crdt doc update else store).content =
      Function.update store.content doc (crdt.take (store.content doc) update) := by
  unfold Crdt.take
  cases hempty : update.isEmpty with
  | true => exact (Function.update_eq_self ..).symm
  | false =>
      obtain rfl : applies = true := by
        rcases happlies with h | h
        · exact h
        · rw [hempty] at h
          cases h
      rfl

/-- The last part of an answer is read. -/
theorem follows_readAnswer (hwhole : Whole me peer) (hwholePeer : Whole peer me)
    (hsound : Pull.Sound crdt (pull me peer)) {doc : DocId} {bytes buffer : List UInt8}
    {rest : List (Message C D)} (hwritten : peer.written = .update doc bytes true :: rest)
    (hbuffer : assembled me.assembling doc bytes = some buffer) {applies : Bool}
    (happlies : applies = true ∨ buffer.isEmpty = true) :
    Follows crdt kept me peer
      ({ me with assembling := none }.answered crdt doc buffer applies)
      { peer with written := rest } := by
  have hcarry := eq_of_assembled hbuffer
  have hanswers : (pull me peer).answers =
      (doc, buffer) ::ₘ (answersIn none rest : Multiset (DocId × List UInt8)) := by
    unfold pull
    rw [hwritten, hcarry]
    rfl
  have hmem : (doc, buffer) ∈ (pull me peer).answers := hanswers ▸ Multiset.mem_cons_self _ _
  have hwholeRest : carried none rest = none := by
    unfold Whole at hwhole
    rw [hwritten] at hwhole
    exact hwhole
  have hle := le_take hsound hmem
  have hpulled : ∀ me' : Party C D, me'.written = me.written →
      servesIn me'.queue = servesIn me.queue →
      me'.store.content = Function.update me.store.content doc
        (crdt.take (me.store.content doc) buffer) →
      Move crdt (fun _ => True) (pull peer me) (pull { peer with written := rest } me') := by
    intro me' hsame hserves hcontent
    have hmove : Move crdt (fun _ => True) (pull peer me) _ := .grow hle fun _ => le_rfl
    convert hmove using 1
    unfold pull
    rw [hsame, hserves, hcontent, hwritten]
    rfl
  unfold Party.answered
  have hcontent := content_taken crdt me.store doc buffer happlies
  cases hpending : me.pending.lookup doc with
  | none => exact absurd hpending (hsound.pending_of_answer hmem)
  | some stale =>
      dsimp only
      refine Follows.checkSynced ?_
      cases stale with
      | false =>
          refine ⟨.single ?_, .single (hpulled _ rfl rfl hcontent), hwholeRest, hwholePeer⟩
          have hmove : Move crdt kept (pull me peer) _ := .take hanswers hpending
          convert hmove using 1
          exact State.ext rfl hcontent rfl rfl (lookup_erase_update me.pending doc) rfl rfl rfl
      | true =>
          have hserves : servesIn (me.queue ++ [.want doc]) = servesIn me.queue :=
            List.filterMap_append.trans (List.append_nil _)
          refine ⟨.single ?_, .single (hpulled _ rfl hserves hcontent), hwholeRest, hwholePeer⟩
          have hmove : Move crdt kept (pull me peer) _ := .takeStale hanswers hpending
          convert hmove using 1
          refine State.ext rfl hcontent rfl rfl ?_ ?_ rfl rfl
          · refine (lookup_insert_update (me.pending.erase doc) doc false).trans ?_
            rw [lookup_erase_update, Function.update_idem]
            rfl
          · have hasks : asksIn (me.queue ++ [.want doc]) = asksIn me.queue ++ [doc] :=
              List.filterMap_append
            have hperm : (asksIn (me.queue ++ [.want doc])).Perm (doc :: asksIn me.queue) := by
              rw [hasks]
              exact List.perm_append_singleton _ _
            exact Multiset.coe_eq_coe.2 hperm

/-- A document that is wanted is asked for, or once more later. -/
theorem move_markWanted {doc : DocId} {rest : List DocId} :
    Move crdt kept { pull me peer with wanted := (doc :: rest : List DocId) }
      { pull (me.markWanted doc) peer with wanted := (rest : List DocId) } := by
  unfold Party.markWanted
  cases hpending : me.pending.lookup doc with
  | some stale =>
      have hmove : Move crdt kept { pull me peer with wanted := (doc :: rest : List DocId) } _ :=
        .again (Multiset.cons_coe doc rest).symm hpending
      convert hmove using 1
      exact State.ext rfl rfl rfl rfl (lookup_insert_update me.pending doc true) rfl rfl rfl
  | none =>
      have hmove : Move crdt kept { pull me peer with wanted := (doc :: rest : List DocId) } _ :=
        .ask (Multiset.cons_coe doc rest).symm hpending
      convert hmove using 1
      refine State.ext rfl rfl rfl rfl (lookup_insert_update me.pending doc false) ?_ rfl rfl
      have hasks : asksIn (me.queue ++ [.want doc]) = asksIn me.queue ++ [doc] :=
        List.filterMap_append
      have hperm : (asksIn (me.queue ++ [.want doc])).Perm (doc :: asksIn me.queue) := by
        rw [hasks]
        exact List.perm_append_singleton _ _
      exact Multiset.coe_eq_coe.2 hperm

/-- Marking leaves alone what the other end sees. -/
theorem markWanted_frame (me : Party C D) (doc : DocId) :
    (me.markWanted doc).store = me.store ∧ (me.markWanted doc).written = me.written ∧
      (me.markWanted doc).assembling = me.assembling ∧
      (me.markWanted doc).comparing = me.comparing ∧
      servesIn (me.markWanted doc).queue = servesIn me.queue := by
  unfold Party.markWanted
  split
  · exact ⟨rfl, rfl, rfl, rfl, rfl⟩
  · exact ⟨rfl, rfl, rfl, rfl, List.filterMap_append.trans (List.append_nil _)⟩

/-- The summary that was compared is marked. -/
theorem follows_mark (crdt : Crdt C D UInt8) (kept : DocId → Prop) (wanted : List DocId)
    (hwhole : Whole me peer) (hwholePeer : Whole peer me) (hidle : me.comparing = none) :
    Moves crdt kept { pull me peer with wanted := (wanted : List DocId) }
      (pull (wanted.foldl Party.markWanted me) peer) ∧
    pull peer (wanted.foldl Party.markWanted me) = pull peer me ∧
    Whole (wanted.foldl Party.markWanted me) peer ∧
    Whole peer (wanted.foldl Party.markWanted me) := by
  induction wanted generalizing me with
  | nil =>
      refine ⟨?_, rfl, hwhole, hwholePeer⟩
      have hsame : { pull me peer with wanted := ([] : List DocId) } = pull me peer := by
        unfold pull
        rw [hidle]
        rfl
      rw [hsame]
      exact .refl
  | cons doc rest ih =>
      obtain ⟨hstore, hwritten, hassembling, hcomparing, hserves⟩ := markWanted_frame me doc
      have hwhole' : Whole (me.markWanted doc) peer := by
        unfold Whole
        rw [hassembling]
        exact hwhole
      have hwholePeer' : Whole peer (me.markWanted doc) := by
        unfold Whole
        rw [hwritten]
        exact hwholePeer
      obtain ⟨hpulls, hpulled, hwholes⟩ := ih hwhole' hwholePeer' (hcomparing.trans hidle)
      refine ⟨.head move_markWanted hpulls, hpulled.trans ?_, hwholes⟩
      unfold pull
      rw [hstore, hserves, hwritten]

end Frames

section Actions

variable [DecidableEq C] {crdt : Crdt C D UInt8} {kept : DocId → Prop} {me peer : Party C D}

/-- A question is written, with the version that is there now, or with none. -/
theorem follows_sendWant (hwhole : Whole me peer) (hwholePeer : Whole peer me) {doc : DocId}
    {rest : List Outbound} (hqueue : me.queue = .want doc :: rest) (answers : Bool) :
    Follows crdt kept me peer ({ me with queue := rest }.send crdt answers (.want doc)) peer := by
  obtain ⟨held, hheld, hversion⟩ : ∃ held ≤ me.store.content doc,
      (if answers then (me.store.version crdt doc).getD [] else []) = crdt.version held := by
    cases answers with
    | false => exact ⟨⊥, bot_le, crdt.version_bot.symm⟩
    | true =>
        refine ⟨me.store.content doc, le_rfl, ?_⟩
        unfold Store.version
        by_cases hbot : me.store.content doc = ⊥
        · rw [if_pos rfl, if_pos hbot, hbot]
          exact crdt.version_bot.symm
        · rw [if_pos rfl, if_neg hbot]
          rfl
  unfold Party.send
  dsimp only
  rw [hversion]
  refine ⟨.single ?_, ?_, hwhole, ?_⟩
  · have hasked : (pull me peer).asked = doc ::ₘ (asksIn rest : Multiset DocId) := by
      unfold pull
      rw [hqueue]
      rfl
    have hmove : Move crdt kept (pull me peer) _ := .send hasked hheld
    convert hmove using 1
    refine State.ext rfl rfl rfl rfl rfl rfl ?_ rfl
    change ((wantsIn (me.written ++ [.want doc (crdt.version held)]) ++ servesIn peer.queue :
      List _) : Multiset _) = (doc, crdt.version held) ::ₘ
        ((wantsIn me.written ++ servesIn peer.queue : List _) : Multiset _)
    rw [wantsIn_append, List.append_assoc]
    exact Multiset.coe_eq_coe.2 List.perm_middle
  · have hpulled : pull peer { me with
        queue := rest, written := me.written ++ [.want doc (crdt.version held)] } =
        pull peer me := by
      unfold pull
      rw [answersIn_append, hwholePeer, hqueue]
      congr 1
      exact congrArg _ (List.append_nil _)
    rw [hpulled]
  · unfold Whole
    rw [carried_append, hwholePeer]
    rfl

/-- A question is answered with what is missing now. -/
theorem follows_sendServe (hwhole : Whole me peer) (hwholePeer : Whole peer me) {doc : DocId}
    {version : List UInt8} {rest : List Outbound} (hqueue : me.queue = .serve doc version :: rest) :
    Follows crdt kept me peer
      ({ me with queue := rest }.send crdt true (.serve doc version)) peer := by
  unfold Party.send
  dsimp only
  rw [if_pos rfl]
  have hupdate : (me.store.updatesSince crdt doc version).getD [] =
      crdt.answer (me.store.content doc) version := rfl
  rw [hupdate]
  generalize crdt.answer (me.store.content doc) version = update at hupdate ⊢
  obtain ⟨hanswers, hcarried⟩ := answersIn_writeUpdate (C := C) (D := D) doc update
  refine ⟨?_, .single ?_, hwhole, ?_⟩
  · have hpull : pull { me with
        queue := rest, written := me.written ++ writeUpdate doc update } peer = pull me peer := by
      unfold pull
      rw [hqueue, wantsIn_append, wantsIn_writeUpdate, List.append_nil]
      rfl
    rw [hpull]
  · have hwants : (pull peer me).wants = (doc, version) ::ₘ
        ((wantsIn peer.written ++ servesIn rest : List _) : Multiset _) := by
      unfold pull
      rw [hqueue]
      exact Multiset.coe_eq_coe.2 List.perm_middle
    have hmove : Move crdt (fun _ => True) (pull peer me) _ := .serve hwants
    convert hmove using 1
    refine State.ext rfl rfl rfl rfl rfl rfl rfl ?_
    change ((answersIn peer.assembling (me.written ++ writeUpdate doc update) : List _) :
      Multiset _) = (doc, crdt.answer (me.store.content doc) version) ::ₘ
        ((answersIn peer.assembling me.written : List _) : Multiset _)
    rw [answersIn_append, hwholePeer, hanswers, ← hupdate]
    exact Multiset.coe_eq_coe.2 (List.perm_append_singleton _ _)
  · unfold Whole
    rw [carried_append, hwholePeer, hcarried]

variable [DecidableEq D]

/-- A document of a summary is compared. -/
theorem follows_compare (hwhole : Whole me peer) (hwholePeer : Whole peer me)
    (hkept : ∀ doc, kept doc → me.accepts doc = true) {doc : DocId} {digest : D}
    {todo : List (DocId × D)} {wanted : List DocId} {complete : Bool}
    (hcomparing : me.comparing = some ⟨(doc, digest) :: todo, wanted, complete⟩) (found : Bool) :
    Follows crdt kept me peer { me with
      comparing := some ⟨todo,
        if me.wants crdt found doc digest then wanted ++ [doc] else wanted, complete⟩ } peer := by
  have hheard : (pull me peer).heard = (doc, digest) ::ₘ (todo : Multiset (DocId × D)) := by
    unfold pull
    rw [hcomparing]
    rfl
  have hwanted : (pull me peer).wanted = (wanted : Multiset DocId) := by
    unfold pull
    rw [hcomparing]
    rfl
  refine ⟨.single ?_, .refl, hwhole, hwholePeer⟩
  cases hwants : me.wants crdt found doc digest with
  | true =>
      have hmove : Move crdt kept (pull me peer) _ := .want hheard
      convert hmove using 1
      refine State.ext rfl rfl rfl ?_ rfl rfl rfl rfl
      rw [hwanted]
      exact Multiset.coe_eq_coe.2 (List.perm_append_singleton _ _)
  | false =>
      have hsame : ∀ hmove : Move crdt kept (pull me peer)
          { pull me peer with heard := (todo : Multiset (DocId × D)) },
          Move crdt kept (pull me peer)
            (pull { me with comparing := some ⟨todo, wanted, complete⟩ } peer) := by
        intro hmove
        convert hmove using 1
        exact State.ext rfl rfl rfl hwanted.symm rfl rfl rfl rfl
      refine hsame ?_
      unfold Party.wants at hwants
      split at hwants
      · rename_i mine hmine
        -- the digest is that of the content here
        have hdigest : digest = crdt.digest (me.store.content doc) := by
          cases found with
          | false => cases hmine
          | true =>
              rw [if_pos rfl] at hmine
              unfold Store.digest at hmine
              split at hmine
              · cases hmine
              · exact ((of_not_not (of_decide_eq_false hwants)).symm.trans
                  (Option.some.inj hmine).symm)
        exact .know (hdigest ▸ hheard)
      · refine .decline hheard fun hdoc => ?_
        rw [hkept doc hdoc] at hwants
        cases hwants

/-- **An action moves both pulls**, if it fails at nothing that brings contents, and what is
kept is accepted here. -/
theorem act_follows (hwhole : Whole me peer) (hwholePeer : Whole peer me)
    (hsound : Pull.Sound crdt (pull me peer)) (hkept : ∀ doc, kept doc → me.accepts doc = true)
    {action : Action C} (hcontent : losesContent me peer action = false) {me' peer' : Party C D}
    (hact : act crdt me peer action = some (me', peer')) :
    Follows crdt kept me peer me' peer' := by
  have hquiet : ∃ added, me.written = me.written ++ added ∧ wantsIn added = [] ∧
      answersIn none added = [] ∧ carried none added = none :=
    ⟨[], (List.append_nil _).symm, rfl, rfl, rfl⟩
  cases action with
  | change doc added =>
      cases hact
      exact follows_change hwhole hwholePeer doc added _
  | notify doc | accept accepts =>
      cases hact
      exact .idle hwhole hwholePeer rfl rfl rfl rfl rfl rfl hquiet
  | request =>
      cases hact
      exact .idle hwhole hwholePeer rfl rfl rfl rfl
        (List.filterMap_append.trans (List.append_nil _))
        (List.filterMap_append.trans (List.append_nil _)) hquiet
  | tick | takeDirty | gather found | gatherFails =>
      unfold act at hact
      dsimp only at hact
      split at hact
      · cases hact
        exact .idle hwhole hwholePeer rfl rfl rfl rfl rfl rfl hquiet
      · cases hact
  | dequeue answers =>
      unfold act at hact
      dsimp only at hact
      split at hact
      · rename_i item rest _ hqueue
        cases hact
        cases item with
        | summary =>
            refine .idle hwhole hwholePeer rfl rfl rfl rfl ?_ ?_ hquiet
            · rw [hqueue]
              rfl
            · rw [hqueue]
              rfl
        | requestSummary =>
            refine .idle hwhole hwholePeer rfl rfl rfl rfl ?_ ?_
              ⟨[.requestSummary], rfl, rfl, rfl, rfl⟩
            · rw [hqueue]
              rfl
            · rw [hqueue]
              rfl
        | want doc => exact follows_sendWant hwhole hwholePeer hqueue answers
        | serve doc version =>
            cases answers with
            | true => exact follows_sendServe hwhole hwholePeer hqueue
            | false =>
                unfold losesContent at hcontent
                rw [hqueue] at hcontent
                cases hcontent
      · cases hact
  | announce =>
      unfold act at hact
      dsimp only at hact
      split at hact
      · cases hact
        refine .idle hwhole hwholePeer rfl rfl rfl rfl rfl rfl ⟨_, rfl, ?_⟩
        split
        · exact ⟨rfl, rfl, rfl⟩
        · exact ⟨rfl, rfl, rfl⟩
      · cases hact
  | read applies =>
      unfold act at hact
      dsimp only at hact
      split at hact
      · rename_i message rest hidle hwritten
        obtain ⟨read, hreceive, hboth⟩ := Option.map_eq_some_iff.1 hact
        cases hboth
        cases message with
        | summary docs complete had =>
            cases hreceive
            exact follows_readSummary hwhole hwholePeer hidle hwritten _
        | want doc version =>
            cases hreceive
            exact follows_readWant hwhole hwholePeer hwritten
        | requestSummary =>
            cases hreceive
            exact follows_readRequest hwhole hwholePeer hwritten
        | update doc bytes last =>
            unfold Party.receive at hreceive
            dsimp only at hreceive
            split at hreceive
            · cases hreceive
            · rename_i buffer hbuffer
              split at hreceive
              · cases hreceive
              · split at hreceive
                · rename_i hlast
                  subst hlast
                  cases hreceive
                  refine follows_readAnswer hwhole hwholePeer hsound hwritten hbuffer ?_
                  unfold losesContent at hcontent
                  dsimp only at hcontent
                  rw [hwritten] at hcontent
                  dsimp only at hcontent
                  rw [hbuffer, Option.getD_some] at hcontent
                  cases happlies : applies with
                  | true => exact .inl rfl
                  | false =>
                      right
                      rw [happlies] at hcontent
                      cases hempty : buffer.isEmpty with
                      | true => rfl
                      | false =>
                          rw [hempty] at hcontent
                          cases hcontent
                · rename_i hnot
                  obtain rfl : last = false := Bool.eq_false_of_not_eq_true hnot
                  cases hreceive
                  exact follows_readChunk hwhole hwholePeer hwritten hbuffer
      · cases hact
  | compare found =>
      unfold act at hact
      dsimp only at hact
      split at hact
      · rename_i hcomparing
        cases hact
        exact follows_compare hwhole hwholePeer hkept hcomparing found
      · cases hact
  | compareFails => cases hcontent
  | mark =>
      unfold act at hact
      dsimp only at hact
      split at hact
      · rename_i wanted complete hcomparing
        cases hact
        have hidle : Whole { me with comparing := none } peer := hwhole
        have hidlePeer : Whole peer { me with comparing := none } := hwholePeer
        obtain ⟨hpulls, hpulled, hwhole', hwholePeer'⟩ :=
          follows_mark crdt kept wanted hidle hidlePeer rfl
        have hstart : { pull { me with comparing := none } peer with
            wanted := (wanted : List DocId) } = pull me peer := by
          unfold pull
          rw [hcomparing]
          rfl
        have hfollows : Follows crdt kept me peer
            (wanted.foldl Party.markWanted { me with comparing := none }) peer :=
          ⟨hstart ▸ hpulls, hpulled ▸ .refl, hwhole', hwholePeer'⟩
        split
        · exact hfollows.checkSynced
        · exact hfollows
      · cases hact

end Actions

end

end Sync
end ZuTalk
