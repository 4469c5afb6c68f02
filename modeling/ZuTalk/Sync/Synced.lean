/-
# When a device says that it is synced

`synced_at` is set when nothing is pending.  That is true to its word (`Told`) as long as no
call of the document store fails that contents depend on, or that a complete summary depends
on: a merge that fails leaves nothing pending either.
-/

import ZuTalk.Sync.Announced

namespace ZuTalk
namespace Sync

open Machine Pull

section

variable {C D : Type}

/-- Whether a complete summary is on the wire. -/
def hasComplete : List (Message C D) → Bool
  | [] => false
  | .summary _ complete _ :: rest => complete || hasComplete rest
  | .want .. :: rest => hasComplete rest
  | .requestSummary :: rest => hasComplete rest
  | .update .. :: rest => hasComplete rest

/-- Whether an answer is on the wire before any complete summary. -/
def answersFirst : List (Message C D) → Bool
  | [] => false
  | .summary _ complete _ :: rest => !complete && answersFirst rest
  | .want .. :: rest => answersFirst rest
  | .requestSummary :: rest => answersFirst rest
  | .update .. :: _ => true

theorem hasComplete_append (written added : List (Message C D)) :
    hasComplete (written ++ added) = (hasComplete written || hasComplete added) := by
  induction written with
  | nil => rfl
  | cons message rest ih =>
      cases message with
      | summary docs complete had =>
          change (complete || hasComplete (rest ++ added)) = _
          rw [ih, ← Bool.or_assoc]
          rfl
      | _ => exact ih

/-- What is written behind a complete summary does not come first. -/
theorem answersFirst_append {written : List (Message C D)} (added : List (Message C D))
    (h : answersFirst written = false)
    (hbehind : hasComplete written = true ∨ answersFirst added = false) :
    answersFirst (written ++ added) = false := by
  induction written with
  | nil => exact hbehind.elim (fun hnone => nomatch hnone) id
  | cons message rest ih =>
      cases message with
      | summary docs complete had =>
          cases complete with
          | true => rfl
          | false => exact ih h hbehind
      | update doc bytes last => cases h
      | _ => exact ih h hbehind

/-- What is written of an update holds no summary. -/
theorem summary_notMem_writeUpdate {docs : List (DocId × D)} {complete : Bool} {had : DocId → C}
    (other : DocId) (update : List UInt8) :
    .summary docs complete had ∉ (writeUpdate other update : List (Message C D)) := by
  unfold writeUpdate
  split
  · exact fun hmem => nomatch List.mem_singleton.1 hmem
  · generalize Cuts.pieces updateChunkBytes update = chunks
    induction chunks with
    | nil => exact List.not_mem_nil
    | cons chunk rest ih =>
        cases rest with
        | nil => exact fun hmem => nomatch List.mem_singleton.1 hmem
        | cons next rest =>
            intro hmem
            rcases List.mem_cons.1 hmem with heq | hrest
            · cases heq
            · exact ih hrest

end

section

variable {C D : Type} [SemilatticeSup C] [OrderBot C]

/-- A summary that is being written is complete, and a lookup fails. -/
def losesSummary (me : Party C D) (action : Action C) : Bool :=
  losesNews action && (me.gathering.map Gathering.complete).getD false

/-- What the end `me` was told of a document by the other end's complete summaries.  Whether it
comes in is said only of a document that `counts`. -/
structure Told (crdt : Crdt C D UInt8) (counts : Prop) (doc : DocId) (me peer : Party C D) :
    Prop where
  gathering : ∀ gathering, peer.gathering = some gathering → gathering.complete = true →
    gathering.had doc ≤ peer.store.content doc ∧ (gathering.had doc = ⊥ ∨ doc ∈ gathering.todo ∨
      ∃ content, gathering.had doc ≤ content ∧ (doc, crdt.digest content) ∈ gathering.docs)
  written : ∀ docs had, .summary docs true had ∈ peer.written →
    had doc ≤ peer.store.content doc ∧
      (had doc = ⊥ ∨ ∃ content, had doc ≤ content ∧ (doc, crdt.digest content) ∈ docs)
  told : counts → ∀ had, me.told = some had →
    had doc ≤ peer.store.content doc ∧ Awaited crdt (pull me peer) doc (had doc)
  comparing : ∀ comparing, me.comparing = some comparing → comparing.complete = true →
    me.told ≠ none
  first : me.told = none → answersFirst peer.written = false ∧
    (hasComplete peer.written = true ∨
      (∃ gathering, peer.gathering = some gathering ∧ gathering.complete = true) ∨
      peer.queue.head? = some .summary)

/-- An end that goes on writing what it was writing. -/
structure Stays (me me' : Party C D) : Prop where
  gathering : me'.gathering = me.gathering
  written : me'.written = me.written
  queue : me.queue <+: me'.queue

theorem Stays.trans {me me' me'' : Party C D} (h : Stays me me') (h' : Stays me' me'') :
    Stays me me'' :=
  ⟨h'.gathering.trans h.gathering, h'.written.trans h.written, h.queue.trans h'.queue⟩

theorem Stays.of_queue {me me' : Party C D} (hgathering : me'.gathering = me.gathering)
    (hwritten : me'.written = me.written) {added : List Outbound}
    (hqueue : me'.queue = me.queue ++ added) : Stays me me' :=
  ⟨hgathering, hwritten, hqueue ▸ List.prefix_append _ _⟩

theorem Stays.of_eq {me me' : Party C D} (hgathering : me'.gathering = me.gathering)
    (hwritten : me'.written = me.written) (hqueue : me'.queue = me.queue) : Stays me me' :=
  ⟨hgathering, hwritten, hqueue ▸ List.prefix_rfl⟩

theorem stays_checkSynced (me : Party C D) : Stays me me.checkSynced := by
  unfold Party.checkSynced
  split
  · exact .of_eq rfl rfl rfl
  · exact .of_eq rfl rfl rfl

theorem stays_markWanted (me : Party C D) (wanted : List DocId) :
    Stays me (wanted.foldl Party.markWanted me) := by
  induction wanted generalizing me with
  | nil => exact .of_eq rfl rfl rfl
  | cons doc rest ih =>
      refine .trans ?_ (ih (me.markWanted doc))
      unfold Party.markWanted
      split
      · exact .of_eq rfl rfl rfl
      · exact .of_queue rfl rfl rfl

theorem stays_receive {crdt : Crdt C D UInt8} {me me' : Party C D} {applies : Bool}
    {message : Message C D} (hreceive : me.receive crdt applies message = some me') :
    Stays me me' := by
  cases message with
  | update doc bytes last =>
      unfold Party.receive at hreceive
      dsimp only at hreceive
      split at hreceive
      · cases hreceive
      split at hreceive
      · cases hreceive
      split at hreceive
      · cases hreceive
        unfold Party.answered
        split
        · exact .of_eq rfl rfl rfl
        · dsimp only
          refine .trans ?_ (stays_checkSynced _)
          split
          · exact .of_queue rfl rfl rfl
          · exact .of_eq rfl rfl rfl
      · cases hreceive
        exact .of_eq rfl rfl rfl
  | summary docs complete had =>
      cases hreceive
      exact .of_eq rfl rfl rfl
  | _ =>
      cases hreceive
      exact .of_queue rfl rfl rfl

theorem told_checkSynced (me : Party C D) :
    me.checkSynced.told = me.told ∧ me.checkSynced.comparing = me.comparing := by
  unfold Party.checkSynced
  split
  · exact ⟨rfl, rfl⟩
  · exact ⟨rfl, rfl⟩

theorem told_start {crdt : Crdt C D UInt8} {counts : Prop} {doc : DocId}
    (stores : Side → Store C) (accepts : Side → DocId → Bool) (side : Side) :
    Told crdt counts doc (Ends.start (D := D) stores accepts side)
      (Ends.start stores accepts side.other) where
  gathering := fun _ hsome => nomatch hsome
  written := fun _ _ hmem => nomatch hmem
  told := fun _ _ hsome => nomatch hsome
  comparing := fun _ hsome => nomatch hsome
  first := fun _ => ⟨rfl, .inr (.inr rfl)⟩

/-- `synced_at` is set when nothing is pending. -/
theorem keys_of_checkSynced {me : Party C D} (h : me.checkSynced.synced ≠ me.synced) :
    me.checkSynced.pending.keys = [] := by
  rw [(pending_checkSynced me).1]
  unfold Party.checkSynced at h
  split at h
  · rename_i hempty
    exact List.isEmpty_iff.1 hempty
  · exact absurd rfl h

theorem keys_of_answered {crdt : Crdt C D UInt8} {me : Party C D} {doc : DocId}
    {update : List UInt8} {applies : Bool}
    (h : (me.answered crdt doc update applies).synced ≠ me.synced) :
    (me.answered crdt doc update applies).pending.keys = [] := by
  unfold Party.answered at h ⊢
  cases hpending : me.pending.lookup doc with
  | none =>
      rw [hpending] at h
      exact absurd rfl h
  | some stale =>
      rw [hpending] at h
      dsimp only at h ⊢
      refine keys_of_checkSynced fun heq => h (heq.trans ?_)
      split
      · rfl
      · rfl

/-- What is read besides a summary tells nothing. -/
theorem receive_keeps_told {crdt : Crdt C D UInt8} {me me' : Party C D} {applies : Bool}
    {message : Message C D}
    (hmessage : ∀ docs complete had, message ≠ .summary docs complete had)
    (hreceive : me.receive crdt applies message = some me') :
    me'.told = me.told ∧ me'.comparing = me.comparing := by
  cases message with
  | summary docs complete had => exact absurd rfl (hmessage docs complete had)
  | update other bytes last =>
      unfold Party.receive at hreceive
      dsimp only at hreceive
      split at hreceive
      · cases hreceive
      split at hreceive
      · cases hreceive
      split at hreceive
      · cases hreceive
        unfold Party.answered
        split
        · exact ⟨rfl, rfl⟩
        · dsimp only
          rw [(told_checkSynced _).1, (told_checkSynced _).2]
          split
          · exact ⟨rfl, rfl⟩
          · exact ⟨rfl, rfl⟩
      · cases hreceive
        exact ⟨rfl, rfl⟩
  | _ =>
      cases hreceive
      exact ⟨rfl, rfl⟩

/-- What an end said goes on holding while it stays as it is and grows. -/
theorem Told.of_stays {crdt : Crdt C D UInt8} {counts : Prop} {doc : DocId}
    {me peer me' peer' : Party C D} (h : Told crdt counts doc peer me) (hstays : Stays me me')
    (htold : peer'.told = peer.told)
    (hcomparing : peer'.comparing = peer.comparing)
    (hgrown : me.store.content doc ≤ me'.store.content doc)
    (hawaited : counts → ∀ target, target ≤ me.store.content doc →
      Awaited crdt (pull peer me) doc target → Awaited crdt (pull peer' me') doc target) :
    Told crdt counts doc peer' me' where
  gathering := by
    rw [hstays.gathering]
    exact fun gathering hsome hcomplete =>
      (h.gathering gathering hsome hcomplete).imp_left fun hle => hle.trans hgrown
  written := by
    rw [hstays.written]
    exact fun docs had hmem => (h.written docs had hmem).imp_left fun hle => hle.trans hgrown
  told := by
    rw [htold]
    intro hcounts had htold
    obtain ⟨hle, hcomes⟩ := h.told hcounts had htold
    exact ⟨hle.trans hgrown, hawaited hcounts _ hle hcomes⟩
  comparing := by
    rw [htold, hcomparing]
    exact h.comparing
  first := by
    rw [htold, hstays.gathering, hstays.written]
    intro hnone
    refine (h.first hnone).imp_right (.imp_right (.imp_right fun hhead => ?_))
    obtain ⟨added, hadded⟩ := hstays.queue
    rw [← hadded, List.head?_append, hhead]
    rfl

/-- Nothing but the wire and what is being written changes. -/
theorem Told.of_writes {crdt : Crdt C D UInt8} {counts : Prop} {doc : DocId}
    {me peer me' : Party C D} (h : Told crdt counts doc peer me) (hstore : me'.store = me.store)
    (hawaited : counts → ∀ target, target ≤ me.store.content doc →
      Awaited crdt (pull peer me) doc target → Awaited crdt (pull peer me') doc target)
    (hgathering : ∀ gathering, me'.gathering = some gathering → gathering.complete = true →
      gathering.had doc ≤ me.store.content doc ∧ (gathering.had doc = ⊥ ∨ doc ∈ gathering.todo ∨
        ∃ content, gathering.had doc ≤ content ∧ (doc, crdt.digest content) ∈ gathering.docs))
    (hwritten : ∀ docs had, .summary docs true had ∈ me'.written →
      had doc ≤ me.store.content doc ∧
        (had doc = ⊥ ∨ ∃ content, had doc ≤ content ∧ (doc, crdt.digest content) ∈ docs))
    (hfirst : peer.told = none → answersFirst me'.written = false ∧
      (hasComplete me'.written = true ∨
        (∃ gathering, me'.gathering = some gathering ∧ gathering.complete = true) ∨
        me'.queue.head? = some .summary)) : Told crdt counts doc peer me' where
  gathering := hstore ▸ hgathering
  written := hstore ▸ hwritten
  told := by
    intro hcounts had htold
    obtain ⟨hle, hcomes⟩ := h.told hcounts had htold
    exact ⟨hstore ▸ hle, hawaited hcounts _ hle hcomes⟩
  comparing := h.comparing
  first := hfirst

end

section

variable {C D : Type} [SemilatticeSup C] [OrderBot C] [DecidableEq C] [DecidableEq D]
  {crdt : Crdt C D UInt8} {counts : Prop} {kept : DocId → Prop} {me peer me' peer' : Party C D}
  {doc : DocId} {action : Action C}

/-- What the other end was told goes on holding when this end acts. -/
theorem act_tells (h : Told crdt counts doc peer me)
    (hfollows : Follows crdt kept me peer me' peer')
    (hsoundPeer : Pull.Sound crdt (pull peer me))
    (hsummary : losesSummary me action = false)
    (hact : act crdt me peer action = some (me', peer')) : Told crdt counts doc peer' me' := by
  obtain ⟨-, hgrown, hkeep⟩ := hfollows.pulled.spec hsoundPeer
  have hawaited : counts → ∀ target, target ≤ me.store.content doc →
      Awaited crdt (pull peer me) doc target → Awaited crdt (pull peer' me') doc target :=
    fun _ target htarget => hkeep doc target trivial htarget
  have hstays : ∀ (hstays : Stays me me') (htold : peer'.told = peer.told)
      (hcomparing : peer'.comparing = peer.comparing), Told crdt counts doc peer' me' :=
    fun hstays htold hcomparing => h.of_stays hstays htold hcomparing (hgrown doc).1 hawaited
  cases action with
  | change other added | notify other | accept accepts =>
      cases hact
      exact hstays (.of_eq rfl rfl rfl) rfl rfl
  | request =>
      cases hact
      exact hstays (.of_queue rfl rfl rfl) rfl rfl
  | tick =>
      unfold act at hact
      dsimp only at hact
      split at hact
      · cases hact
        refine h.of_writes rfl hawaited ?_ h.written
          fun hnone => ⟨(h.first hnone).1, .inr (.inl ⟨_, rfl, rfl⟩)⟩
        rintro _ ⟨⟩ -
        exact ⟨le_rfl, (em (me.store.content doc = ⊥)).imp_right fun hbot =>
          .inl (me.store.listed doc hbot)⟩
      · cases hact
  | takeDirty =>
      unfold act at hact
      dsimp only at hact
      split at hact
      · rename_i hidle
        cases hact
        refine h.of_writes rfl hawaited ?_ h.written fun hnone => (h.first hnone).imp_right ?_
        · rintro _ ⟨⟩ hcomplete
          cases hcomplete
        · rintro (hwire | ⟨_, hsome, -⟩ | hhead)
          · exact .inl hwire
          · rw [hsome] at hidle
            cases hidle
          · exact .inr (.inr hhead)
      · cases hact
  | dequeue answers =>
      unfold act at hact
      dsimp only at hact
      split at hact
      · rename_i item rest hidle hqueue
        cases hact
        -- behind the first item there is a complete summary on the wire already
        have hwrites : item ≠ .summary → ∀ added : List (Message C D),
            (∀ docs had, .summary docs true had ∉ added) →
            (counts → ∀ target, target ≤ me.store.content doc →
              Awaited crdt (pull peer me) doc target →
              Awaited crdt (pull peer { me with queue := rest, written := me.written ++ added })
                doc target) →
            Told crdt counts doc peer
              { me with queue := rest, written := me.written ++ added } := by
          intro hitem added hadded hawaited
          refine h.of_writes rfl hawaited ?_ (fun docs had hmem => ?_) fun hnone => ?_
          · intro _ hsome
            cases hidle.symm.trans hsome
          · rcases List.mem_append.1 hmem with hold | hnew
            · exact h.written docs had hold
            · exact absurd hnew (hadded docs had)
          · obtain ⟨hfirst, hwire | ⟨_, hsome, -⟩ | hhead⟩ := h.first hnone
            · exact ⟨answersFirst_append added hfirst (.inl hwire),
                .inl (by rw [hasComplete_append, hwire, Bool.true_or])⟩
            · cases hidle.symm.trans hsome
            · rw [hqueue] at hhead
              exact absurd (Option.some.inj hhead) hitem
        cases item with
        | summary =>
            refine h.of_writes rfl hawaited ?_ h.written
              fun hnone => ⟨(h.first hnone).1, .inr (.inl ⟨_, rfl, rfl⟩)⟩
            rintro _ ⟨⟩ -
            exact ⟨le_rfl, (em (me.store.content doc = ⊥)).imp_right fun hbot =>
              .inl (me.store.listed doc hbot)⟩
        | requestSummary =>
            exact hwrites nofun _ (fun _ _ hmem => nomatch List.mem_singleton.1 hmem) hawaited
        | want other =>
            exact hwrites nofun _ (fun _ _ hmem => nomatch List.mem_singleton.1 hmem) hawaited
        | serve other version =>
            exact hwrites nofun _ (fun _ _ => summary_notMem_writeUpdate other _) hawaited
      · cases hact
  | gather found =>
      unfold act at hact
      dsimp only at hact
      split at hact
      · rename_i other todo docs complete had hgathering
        cases hact
        refine h.of_writes rfl hawaited ?_ h.written fun hnone => (h.first hnone).imp_right ?_
        · rintro _ ⟨⟩ hcomplete
          dsimp only at hcomplete ⊢
          subst hcomplete
          obtain rfl : found = true := by
            cases found with
            | true => rfl
            | false =>
                unfold losesSummary at hsummary
                rw [hgathering] at hsummary
                cases hsummary
          obtain ⟨hle, hcovered⟩ := h.gathering _ hgathering rfl
          refine ⟨hle, ?_⟩
          rcases hcovered with hbot | hmem | ⟨content, hcontent, hmem⟩
          · exact .inl hbot
          · rcases List.mem_cons.1 hmem with rfl | hrest
            · by_cases hbot : me.store.content doc = ⊥
              · exact .inl (le_bot_iff.1 (hle.trans_eq hbot))
              · refine .inr (.inr ⟨_, hle, List.mem_append_right _ ?_⟩)
                unfold Store.digest
                rw [if_pos rfl, if_neg hbot]
                exact List.mem_singleton_self _
            · exact .inr (.inl hrest)
          · exact .inr (.inr ⟨content, hcontent, List.mem_append_left _ hmem⟩)
        · rintro (hwire | ⟨gathering, hsome, hcomplete⟩ | hhead)
          · exact .inl hwire
          · obtain rfl := Option.some.inj (hgathering.symm.trans hsome)
            exact .inr (.inl ⟨_, rfl, hcomplete⟩)
          · exact .inr (.inr hhead)
      · cases hact
  | gatherFails =>
      unfold act at hact
      dsimp only at hact
      split at hact
      · rename_i todo docs complete had hgathering
        obtain rfl : complete = false := by
          unfold losesSummary at hsummary
          rw [hgathering] at hsummary
          exact hsummary
        cases hact
        refine h.of_writes rfl hawaited ?_ h.written fun hnone => (h.first hnone).imp_right ?_
        · rintro _ ⟨⟩ hcomplete
          cases hcomplete
        · rintro (hwire | ⟨gathering, hsome, hcomplete⟩ | hhead)
          · exact .inl hwire
          · obtain rfl := Option.some.inj (hgathering.symm.trans hsome)
            cases hcomplete
          · exact .inr (.inr hhead)
      · cases hact
  | announce =>
      unfold act at hact
      dsimp only at hact
      split at hact
      · rename_i docs complete had hgathering
        cases hact
        have hempty : ∀ gathering : Gathering C D,
            (none : Option (Gathering C D)) = some gathering →
            gathering.complete = true → gathering.had doc ≤ me.store.content doc ∧
              (gathering.had doc = ⊥ ∨ doc ∈ gathering.todo ∨ ∃ content,
                gathering.had doc ≤ content ∧ (doc, crdt.digest content) ∈ gathering.docs) :=
          fun _ hsome => nomatch hsome
        cases complete with
        | true =>
            rw [Bool.not_true, Bool.and_false, if_neg Bool.false_ne_true] at hawaited ⊢
            refine h.of_writes rfl hawaited hempty (fun docs' had' hmem => ?_) fun hnone => ?_
            · rcases List.mem_append.1 hmem with hold | hnew
              · exact h.written docs' had' hold
              · obtain ⟨rfl, -, rfl⟩ := Message.summary.inj (List.mem_singleton.1 hnew)
                obtain ⟨hle, hcovered⟩ := h.gathering _ hgathering rfl
                exact ⟨hle, hcovered.imp_right fun hcovered =>
                  hcovered.elim (fun hmem => absurd hmem List.not_mem_nil) id⟩
            · exact ⟨answersFirst_append _ (h.first hnone).1 (.inr rfl),
                .inl (by rw [hasComplete_append]; exact Bool.or_true _)⟩
        | false =>
            have hquiet : ∀ added : List (Message C D),
                (∀ docs had, .summary docs true had ∉ added) → answersFirst added = false →
                (counts → ∀ target, target ≤ me.store.content doc →
                  Awaited crdt (pull peer me) doc target →
                  Awaited crdt (pull peer
                    { me with gathering := none, written := me.written ++ added }) doc target) →
                Told crdt counts doc peer
                  { me with gathering := none, written := me.written ++ added } := by
              intro added hadded hanswers hawaited
              refine h.of_writes rfl hawaited hempty (fun docs' had' hmem => ?_) fun hnone => ?_
              · rcases List.mem_append.1 hmem with hold | hnew
                · exact h.written docs' had' hold
                · exact absurd hnew (hadded docs' had')
              · obtain ⟨hfirst, hrest⟩ := h.first hnone
                refine ⟨answersFirst_append added hfirst (.inr hanswers), ?_⟩
                rcases hrest with hwire | ⟨gathering, hsome, hcomplete⟩ | hhead
                · exact .inl (by rw [hasComplete_append, hwire, Bool.true_or])
                · obtain rfl := Option.some.inj (hgathering.symm.trans hsome)
                  cases hcomplete
                · exact .inr (.inr hhead)
            cases hdocs : docs.isEmpty with
            | true =>
                rw [hdocs] at hawaited
                exact hquiet [] (fun _ _ => List.not_mem_nil) rfl hawaited
            | false =>
                rw [hdocs] at hawaited
                exact hquiet [.summary docs false had]
                  (fun _ _ hmem => nomatch List.mem_singleton.1 hmem) rfl hawaited
      · cases hact
  | read applies =>
      obtain ⟨message, rest, -, -, rfl, hreceive⟩ := act_read hact
      exact hstays (stays_receive hreceive) rfl rfl
  | compare found | compareFails =>
      unfold act at hact
      dsimp only at hact
      split at hact
      · cases hact
        exact hstays (.of_eq rfl rfl rfl) rfl rfl
      · cases hact
  | mark =>
      unfold act at hact
      dsimp only at hact
      split at hact
      · rename_i wanted complete hcomparing
        cases hact
        have hidle : Stays me { me with comparing := none } := .of_eq rfl rfl rfl
        have hmarked := hidle.trans (stays_markWanted { me with comparing := none } wanted)
        cases complete with
        | true => exact hstays (hmarked.trans (stays_checkSynced _)) rfl rfl
        | false => exact hstays hmarked rfl rfl
      · cases hact

/-- What an end was told is kept by what it does besides reading. -/
theorem act_keeps_told (hread : ∀ applies, action ≠ .read applies)
    (hact : act crdt me peer action = some (me', peer')) :
    me'.told = me.told ∧ ∀ comparing, me'.comparing = some comparing →
      ∃ before, me.comparing = some before ∧ before.complete = comparing.complete := by
  have htold : ∀ (party : Party C D) (wanted : List DocId),
      (wanted.foldl Party.markWanted party).told = party.told := by
    intro party wanted
    induction wanted generalizing party with
    | nil => rfl
    | cons first rest ih =>
        refine (ih (party.markWanted first)).trans ?_
        unfold Party.markWanted
        split <;> rfl
  have hidle : ∀ (party : Party C D) (wanted : List DocId), party.comparing = none →
      (wanted.foldl Party.markWanted party).comparing = none := by
    intro party wanted hnone
    induction wanted generalizing party with
    | nil => exact hnone
    | cons first rest ih => exact ih _ ((markWanted_frame party first).2.2.2.1.trans hnone)
  cases action with
  | read applies => exact absurd rfl (hread applies)
  | dequeue answers =>
      unfold act at hact
      dsimp only at hact
      split at hact
      · rename_i item rest _ _
        cases hact
        cases item <;> exact ⟨rfl, fun comparing hsome => ⟨comparing, hsome, rfl⟩⟩
      · cases hact
  | compare found | compareFails =>
      unfold act at hact
      dsimp only at hact
      split at hact
      · rename_i hcomparing
        cases hact
        refine ⟨rfl, fun comparing hsome => ⟨_, hcomparing, ?_⟩⟩
        rw [← Option.some.inj hsome]
      · cases hact
  | mark =>
      unfold act at hact
      dsimp only at hact
      split at hact
      · rename_i wanted complete hcomparing
        cases hact
        have hnone := hidle { me with comparing := none } wanted rfl
        have hsame := htold { me with comparing := none } wanted
        cases complete with
        | true =>
            rw [if_pos rfl, (told_checkSynced _).1, (told_checkSynced _).2]
            exact ⟨hsame, fun _ hsome => nomatch hnone.symm.trans hsome⟩
        | false =>
            rw [if_neg Bool.false_ne_true]
            exact ⟨hsame, fun _ hsome => nomatch hnone.symm.trans hsome⟩
      · cases hact
  | _ =>
      unfold act at hact
      dsimp only at hact
      repeat' split at hact
      all_goals first
        | cases hact; exact ⟨rfl, fun comparing hsome => ⟨comparing, hsome, rfl⟩⟩
        | cases hact

/-- **What this end was told goes on holding** when it acts, and so does what it is told now. -/
theorem act_told (h : Told crdt counts doc me peer) (hfollows : Follows crdt kept me peer me' peer')
    (hsound : Pull.Sound crdt (pull me peer)) (hkept : counts → kept doc)
    (hact : act crdt me peer action = some (me', peer')) : Told crdt counts doc me' peer' := by
  obtain ⟨-, -, hkeep⟩ := hfollows.pulls.spec hsound
  have hkeeps : counts → ∀ had, me.told = some had → had doc ≤ peer.store.content doc ∧
      Awaited crdt (pull me' peer') doc (had doc) := by
    intro hcounts had htold
    obtain ⟨hle, hcomes⟩ := h.told hcounts had htold
    exact ⟨hle, hkeep doc _ (hkept hcounts) hle hcomes⟩
  by_cases hread : ∃ applies, action = .read applies
  · obtain ⟨applies, rfl⟩ := hread
    obtain ⟨message, rest, hidle, hwritten, rfl, hreceive⟩ := act_read hact
    have hrest : ∀ docs had, .summary docs true had ∈ rest → had doc ≤ peer.store.content doc ∧
        (had doc = ⊥ ∨ ∃ content, had doc ≤ content ∧ (doc, crdt.digest content) ∈ docs) := by
      intro docs had hmem
      exact h.written docs had (hwritten ▸ List.mem_cons_of_mem _ hmem)
    cases message with
    | summary docs complete had =>
        cases hreceive
        refine ⟨h.gathering, hrest, fun hcounts had' htold => ?_, ?_, ?_⟩
        · cases complete with
          | false => exact hkeeps hcounts had' htold
          | true =>
              obtain rfl := Option.some.inj htold
              obtain ⟨hle, hcovered⟩ := h.written docs had (hwritten ▸ List.mem_cons_self)
              refine ⟨hle, ?_⟩
              rcases hcovered with hbot | ⟨content, hcontent, hmem⟩
              · exact .held (hbot ▸ bot_le)
              · exact .heard content (hcontent.trans le_sup_left) hmem
        · rintro _ ⟨⟩ hcomplete
          dsimp only at hcomplete ⊢
          rw [if_pos hcomplete]
          exact Option.some_ne_none _
        · intro hnone
          cases complete with
          | true => cases hnone
          | false =>
              have hfirst := h.first hnone
              rw [hwritten] at hfirst
              exact hfirst
    | update other bytes last =>
        obtain ⟨htold, hcomparing⟩ := receive_keeps_told (by nofun) hreceive
        refine ⟨h.gathering, hrest, ?_, ?_, fun hnone => ?_⟩
        · rw [htold]
          exact hkeeps
        · rw [hcomparing, hidle]
          exact fun _ hsome => nomatch hsome
        · -- an answer comes behind a complete summary
          have hfirst := h.first (htold ▸ hnone)
          rw [hwritten] at hfirst
          cases hfirst.1
    | want other version | requestSummary =>
        obtain ⟨htold, hcomparing⟩ := receive_keeps_told (by nofun) hreceive
        refine ⟨h.gathering, hrest, ?_, ?_, fun hnone => ?_⟩
        · rw [htold]
          exact hkeeps
        · rw [hcomparing, hidle]
          exact fun _ hsome => nomatch hsome
        · have hfirst := h.first (htold ▸ hnone)
          rw [hwritten] at hfirst
          exact hfirst
  · have hread : ∀ applies, action ≠ .read applies := fun applies heq => hread ⟨applies, heq⟩
    obtain rfl := act_peer hread hact
    obtain ⟨htold, hcomparing⟩ := act_keeps_told hread hact
    refine ⟨h.gathering, h.written, ?_, fun comparing hsome hcomplete => ?_, ?_⟩
    · rw [htold]
      exact hkeeps
    · obtain ⟨before, hbefore, hsame⟩ := hcomparing comparing hsome
      rw [htold]
      exact h.comparing before hbefore (hsame.trans hcomplete)
    · rw [htold]
      exact h.first

/-- `synced_at` is set when nothing is pending, behind a complete summary. -/
theorem act_synced (h : Told crdt counts doc me peer)
    (hact : act crdt me peer action = some (me', peer')) (hsynced : me'.synced ≠ me.synced) :
    me'.pending.keys = [] ∧ me'.comparing = none ∧ me'.told ≠ none := by
  cases action with
  | read applies =>
      obtain ⟨message, rest, hidle, hwritten, -, hreceive⟩ := act_read hact
      cases message with
      | update other bytes last =>
          obtain ⟨htold, hcomparing⟩ := receive_keeps_told (by nofun) hreceive
          refine ⟨?_, hcomparing.trans hidle, fun hnone => ?_⟩
          · unfold Party.receive at hreceive
            dsimp only at hreceive
            split at hreceive
            · cases hreceive
            split at hreceive
            · cases hreceive
            split at hreceive
            · cases hreceive
              exact keys_of_answered hsynced
            · cases hreceive
              exact absurd rfl hsynced
          · have hfirst := h.first (htold ▸ hnone)
            rw [hwritten] at hfirst
            cases hfirst.1
      | _ =>
          cases hreceive
          exact absurd rfl hsynced
  | mark =>
      obtain ⟨htold, -⟩ := act_keeps_told (fun _ => by nofun) hact
      unfold act at hact
      dsimp only at hact
      split at hact
      · rename_i wanted complete hcomparing
        cases hact
        have hmarked : ∀ (party : Party C D) (wanted : List DocId),
            (wanted.foldl Party.markWanted party).synced = party.synced ∧
              (wanted.foldl Party.markWanted party).comparing = party.comparing := by
          intro party wanted
          induction wanted generalizing party with
          | nil => exact ⟨rfl, rfl⟩
          | cons first rest ih =>
              obtain ⟨hsynced, hcomparing⟩ := ih (party.markWanted first)
              refine ⟨hsynced.trans ?_, hcomparing.trans (markWanted_frame party first).2.2.2.1⟩
              unfold Party.markWanted
              split
              · rfl
              · rfl
        obtain ⟨hsame, hnone⟩ := hmarked { me with comparing := none } wanted
        cases complete with
        | true =>
            rw [if_pos rfl] at hsynced htold ⊢
            rw [(told_checkSynced _).2, htold]
            exact ⟨keys_of_checkSynced fun heq => hsynced (heq.trans hsame), hnone,
              h.comparing _ hcomparing rfl⟩
        | false =>
            rw [if_neg Bool.false_ne_true] at hsynced
            exact absurd hsame hsynced
      · cases hact
  | dequeue answers =>
      unfold act at hact
      dsimp only at hact
      split at hact
      · rename_i item rest _ _
        cases hact
        cases item <;> exact absurd rfl hsynced
      · cases hact
  | _ =>
      unfold act at hact
      dsimp only at hact
      repeat' split at hact
      all_goals first | cases hact; exact absurd rfl hsynced | cases hact

/-- What the ends keep of what they were told. -/
theorem Linked.told {ends ends' : Ends C D} {actor side : Side} (h : Linked crdt ends)
    (htold : Told crdt counts doc (ends side) (ends side.other))
    (hsummary : losesSummary (ends actor) action = false)
    (hcontent : losesContent (ends actor) (ends actor.other) action = false)
    (haccepts : counts → (ends side).accepts doc = true)
    (hstep : ends.step crdt (actor, action) = some ends') :
    Told crdt counts doc (ends' side) (ends' side.other) := by
  have hfollows := h.follows hcontent hstep
  have hact := step_act hstep
  by_cases heq : side = actor
  · subst heq
    exact act_told htold hfollows (h.sound side) haccepts hact
  · obtain rfl : side = actor.other := by
      cases side <;> cases actor <;> first | rfl | exact absurd rfl heq
    have hpeer := h.sound actor.other
    rw [Side.other_other] at hpeer htold ⊢
    exact act_tells htold hfollows hpeer hsummary hact

/-- **When `synced_at` is set, what the peer had is here.**  As long as no call of the store fails
that contents or complete summaries depend on: whenever an end sets it, that end has read a
complete summary, and it holds all that the other end had of a document when it began the last
one of them, if the document was accepted here all the time. -/
theorem synced_holds (crdt : Crdt C D UInt8) {stores : Side → Store C}
    {accepts : Side → DocId → Bool} {events : List (Side × Action C)} {event : Side × Action C}
    {ends ends' : Ends C D} {side : Side}
    (hrun : run (Ends.step crdt) (Ends.start stores accepts) events = some ends)
    (hstep : ends.step crdt event = some ends')
    (hcalls : Along (Ends.step crdt) (fun ends event =>
      losesSummary (ends event.1) event.2 = false ∧
        losesContent (ends event.1) (ends event.1.other) event.2 = false)
      (Ends.start stores accepts) (events ++ [event]))
    (hsynced : (ends' side).synced ≠ (ends side).synced) :
    ∃ had, (ends' side).told = some had ∧ ∀ doc,
      Along (Ends.step crdt) (fun ends _ => (ends side).accepts doc = true)
        (Ends.start stores accepts) (events ++ [event]) →
      had doc ≤ (ends' side).store.content doc := by
  obtain ⟨actor, action⟩ := event
  -- what is kept before the last step and behind it
  have hall : ∀ (doc : DocId) (counts : Prop), (counts → Along (Ends.step crdt)
      (fun ends _ => (ends side).accepts doc = true) (Ends.start stores accepts)
        (events ++ [(actor, action)])) →
      (Linked crdt ends ∧ Told crdt counts doc (ends side) (ends side.other)) ∧
      Linked crdt ends' ∧ Told crdt counts doc (ends' side) (ends' side.other) := by
    intro doc counts hcounts
    obtain ⟨hbefore, hlast⟩ := (hcalls.and (Along.of_imp hcounts)).of_append
    obtain ⟨⟨⟨hsummary, hcontent⟩, haccepts⟩, -⟩ := hlast ends hrun
    have hkept : Linked crdt ends ∧ Told crdt counts doc (ends side) (ends side.other) := by
      refine hbefore.invariant (I := fun ends => Linked crdt ends ∧
        Told crdt counts doc (ends side) (ends side.other)) ?_
        ⟨linked_start stores accepts, told_start stores accepts side⟩ hrun
      rintro ends ⟨actor, action⟩ ends' ⟨hlinked, htold⟩ ⟨⟨hsummary, hcontent⟩, haccepts⟩ hstep
      exact ⟨hlinked.step hcontent hstep, hlinked.told htold hsummary hcontent haccepts hstep⟩
    exact ⟨hkept, hkept.1.step hcontent hstep,
      hkept.1.told hkept.2 hsummary hcontent haccepts hstep⟩
  have hact := step_act hstep
  have heq : side = actor := by
    by_contra hne
    obtain rfl : side = actor.other := by
      cases side <;> cases actor <;> first | rfl | exact absurd rfl hne
    by_cases hread : ∃ applies, action = .read applies
    · obtain ⟨applies, rfl⟩ := hread
      obtain ⟨_, _, -, -, hpeer, -⟩ := act_read hact
      exact hsynced (by rw [hpeer])
    · have hpeer := act_peer (fun applies heq => hread ⟨applies, heq⟩) hact
      exact hsynced (by rw [hpeer])
  subst heq
  -- no document has to count for a complete summary to have been read
  have hfirst := (hall "" False (fun hfalse => hfalse.elim)).1.2
  obtain ⟨hkeys, hcomparing, htold⟩ := act_synced hfirst hact hsynced
  obtain ⟨had, hhad⟩ := Option.ne_none_iff_exists'.1 htold
  refine ⟨had, hhad, fun doc haccepts => ?_⟩
  obtain ⟨-, hlinked, htold⟩ := hall doc True (fun _ => haccepts)
  refine (htold.told trivial had hhad).2.held_of_idle (hlinked.sound side) ?_ ?_ ?_
  · unfold pull
    rw [hcomparing]
    rfl
  · unfold pull
    rw [hcomparing]
    rfl
  · refine AList.lookup_eq_none.2 fun hmem => ?_
    rw [AList.mem_keys, hkeys] at hmem
    cases hmem

/-- The document arrives before the device says that it is synced. -/
theorem synced_holds_exchange :
    ∃ ends ends' had, run (Ends.step tally) (Ends.start tallies fun _ _ => true)
        exchange.dropLast = some ends ∧
      ends.step tally (.higher, .read true) = some ends' ∧ (ends' .higher).told = some had ∧
      had "notes" ≤ (ends' .higher).store.content "notes" := by
  have hcheck : ((run (Ends.step tally) (Ends.start tallies fun _ _ => true)
      exchange.dropLast).bind fun ends => (ends.step tally (.higher, .read true)).map fun ends' =>
        decide ((ends' .higher).synced ≠ (ends .higher).synced)) = some true := by decide +kernel
  obtain ⟨ends, hends, hnext⟩ := Option.bind_eq_some_iff.1 hcheck
  obtain ⟨ends', hstep, hsynced⟩ := Option.map_eq_some_iff.1 hnext
  obtain ⟨had, htold, hheld⟩ := synced_holds tally hends hstep (by decide +kernel)
    (of_decide_eq_true hsynced)
  exact ⟨ends, ends', had, hends, hstep, htold, hheld "notes" (by decide +kernel)⟩

/-- A merge that fails leaves nothing pending: the device says that it is synced, and lacks what
it was told of. -/
theorem synced_without_contents :
    ∃ ends ends' had, run (Ends.step tally) (Ends.start tallies fun _ _ => true)
        exchange.dropLast = some ends ∧
      ends.step tally (.higher, .read false) = some ends' ∧
      (ends' .higher).synced ≠ (ends .higher).synced ∧ (ends' .higher).told = some had ∧
      (∀ side, (ends' side).accepts "notes" = true) ∧
      ¬ had "notes" ≤ (ends' .higher).store.content "notes" := by
  have hcheck : ((run (Ends.step tally) (Ends.start tallies fun _ _ => true)
      exchange.dropLast).bind fun ends => (ends.step tally (.higher, .read false)).bind fun ends' =>
        (ends' .higher).told.map fun had =>
          decide ((ends' .higher).synced ≠ (ends .higher).synced ∧
            (∀ side, (ends' side).accepts "notes" = true) ∧
            ¬ had "notes" ≤ (ends' .higher).store.content "notes")) = some true := by
    decide +kernel
  obtain ⟨ends, hends, hnext⟩ := Option.bind_eq_some_iff.1 hcheck
  obtain ⟨ends', hstep, hnext⟩ := Option.bind_eq_some_iff.1 hnext
  obtain ⟨had, htold, hfinal⟩ := Option.map_eq_some_iff.1 hnext
  obtain ⟨hsynced, haccepts, hlacks⟩ := of_decide_eq_true hfinal
  exact ⟨ends, ends', had, hends, hstep, hsynced, htold, haccepts, hlacks⟩

end

end Sync
end ZuTalk
