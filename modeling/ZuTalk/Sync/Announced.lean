/-
# No announced version is lost

What one end has and the other lacks is always on its way (`OnItsWay`): it is still to be
said, or said and not read, or the pull brings it in.  So when nothing is under way any more,
both ends have the same.
-/

import Mathlib.Order.Lattice.Nat
import Mathlib.Order.Nat
import ZuTalk.Sync.Pulls

namespace ZuTalk
namespace Sync

open Machine Pull

/-- The digests on the wire. -/
def digestsIn {C D : Type} (written : List (Message C D)) : List (DocId × D) :=
  written.flatMap fun message => match message with
    | .summary docs _ _ => docs
    | _ => []

theorem digestsIn_append {C D : Type} (written added : List (Message C D)) :
    digestsIn (written ++ added) = digestsIn written ++ digestsIn added := List.flatMap_append

section

variable {C D : Type} [SemilatticeSup C] [OrderBot C]

/-- A digest of the document is still to be taken. -/
def Unsaid (party : Party C D) (doc : DocId) : Prop :=
  doc ∈ party.unnotified ∨ doc ∈ party.dirty ∨
    (∃ gathering, party.gathering = some gathering ∧ doc ∈ gathering.todo) ∨
    Outbound.summary ∈ party.queue

/-- The digests that were taken and not read yet. -/
def said (party : Party C D) : List (DocId × D) :=
  (party.gathering.map Gathering.docs).getD [] ++ digestsIn party.written

/-- What the peer has of a document is here, or comes in. -/
def OnItsWay (crdt : Crdt C D UInt8) (me peer : Party C D) (doc : DocId) : Prop :=
  Awaited crdt (pull me peer) doc (peer.store.content doc) ∨ Unsaid peer doc ∨
    ∃ content, peer.store.content doc ≤ content ⊔ me.store.content doc ∧
      (doc, crdt.digest content) ∈ said peer

variable {crdt : Crdt C D UInt8} {kept : DocId → Prop} {me peer me' peer' : Party C D}
  {doc : DocId}

/-- What the other end lacks stays on its way, as long as what is still to be said is said,
and what comes in from there is no more than it has. -/
theorem OnItsWay.pulled (h : OnItsWay crdt peer me doc)
    (hfollows : Follows crdt kept me peer me' peer') (hsound : Pull.Sound crdt (pull peer me))
    (hle : me'.store.content doc ≤ me.store.content doc ⊔ peer.store.content doc)
    (hunsaid : Unsaid me doc → Unsaid me' doc ∨
      Awaited crdt (pull peer' me') doc (me'.store.content doc) ∨
      (doc, crdt.digest (me'.store.content doc)) ∈ said me')
    (hsaid : ∀ digest ∈ said me, digest ∈ said me') : OnItsWay crdt peer' me' doc := by
  obtain ⟨-, hgrown, hkeep⟩ := hfollows.pulled.spec hsound
  have hpeer : peer.store.content doc ≤ peer'.store.content doc := (hgrown doc).2
  rcases h with hawaited | hstill | ⟨content, hcontent, hmem⟩
  · have hnext := hkeep doc _ trivial le_rfl hawaited
    exact .inl ((hnext.sup hpeer).mono hle)
  · rcases hunsaid hstill with hstill | hawaited | hmem
    · exact .inr (.inl hstill)
    · exact .inl hawaited
    · exact .inr (.inr ⟨_, le_sup_left, hmem⟩)
  · refine .inr (.inr ⟨content, ?_, hsaid _ hmem⟩)
    calc me'.store.content doc
        ≤ me.store.content doc ⊔ peer.store.content doc := hle
      _ ≤ (content ⊔ peer.store.content doc) ⊔ peer.store.content doc :=
          sup_le_sup_right hcontent _
      _ = content ⊔ peer.store.content doc := sup_assoc .. |>.trans (by rw [sup_idem])
      _ ≤ content ⊔ peer'.store.content doc := sup_le_sup_left hpeer _

/-- What is missing here stays on its way when this end acts. -/
theorem OnItsWay.pulls (h : OnItsWay crdt me peer doc)
    (hfollows : Follows crdt kept me peer me' peer') (hsound : Pull.Sound crdt (pull me peer))
    (hkept : kept doc) (hstore : peer'.store = peer.store)
    (hunsaid : Unsaid peer doc → Unsaid peer' doc)
    (hsaid : ∀ digest ∈ said peer, digest ∈ said peer' ∨ digest ∈ (pull me' peer').heard) :
    OnItsWay crdt me' peer' doc := by
  obtain ⟨-, hgrown, hkeep⟩ := hfollows.pulls.spec hsound
  have hmine : me.store.content doc ≤ me'.store.content doc := (hgrown doc).2
  rcases h with hawaited | hstill | ⟨content, hcontent, hmem⟩
  · have hnext := hkeep doc (peer.store.content doc) hkept le_rfl hawaited
    rw [← hstore] at hnext
    exact .inl hnext
  · exact .inr (.inl (hunsaid hstill))
  · have hgrow := hcontent.trans (sup_le_sup_left hmine content)
    rw [← hstore] at hgrow
    rcases hsaid _ hmem with hsaid | hheard
    · exact .inr (.inr ⟨content, hgrow, hsaid⟩)
    · exact .inl (.heard content hgrow hheard)

/-- What is to be said and what was said stay, or more is to be said. -/
structure SameNews (me me' : Party C D) : Prop where
  unnotified : me'.unnotified = me.unnotified
  dirty : me'.dirty = me.dirty
  gathering : me'.gathering = me.gathering
  written : me'.written = me.written
  queue : Outbound.summary ∈ me.queue → Outbound.summary ∈ me'.queue

theorem SameNews.refl (me : Party C D) : SameNews me me := ⟨rfl, rfl, rfl, rfl, id⟩

theorem SameNews.trans {me'' : Party C D} (h : SameNews me me') (h' : SameNews me' me'') :
    SameNews me me'' :=
  ⟨h'.unnotified.trans h.unnotified, h'.dirty.trans h.dirty, h'.gathering.trans h.gathering,
    h'.written.trans h.written, fun hmem => h'.queue (h.queue hmem)⟩

theorem SameNews.unsaid (h : SameNews me me') (hunsaid : Unsaid me doc) : Unsaid me' doc := by
  unfold Unsaid
  rw [h.unnotified, h.dirty, h.gathering]
  exact hunsaid.imp_right (.imp_right (.imp_right h.queue))

theorem SameNews.said (h : SameNews me me') : said me' = said me := by
  unfold Sync.said
  rw [h.gathering, h.written]

theorem sameNews_checkSynced (me : Party C D) : SameNews me me.checkSynced := by
  unfold Party.checkSynced
  split
  · exact ⟨rfl, rfl, rfl, rfl, id⟩
  · exact .refl me

theorem sameNews_markWanted (me : Party C D) (wanted : List DocId) :
    SameNews me (wanted.foldl Party.markWanted me) ∧
      (wanted.foldl Party.markWanted me).store = me.store := by
  induction wanted generalizing me with
  | nil => exact ⟨.refl me, rfl⟩
  | cons doc rest ih =>
      obtain ⟨hrest, hstore⟩ := ih (me.markWanted doc)
      have hfirst : SameNews me (me.markWanted doc) := by
        unfold Party.markWanted
        split
        · exact ⟨rfl, rfl, rfl, rfl, id⟩
        · exact ⟨rfl, rfl, rfl, rfl, List.mem_append_left _⟩
      exact ⟨hfirst.trans hrest, hstore.trans (markWanted_frame me doc).1⟩

theorem store_checkSynced (me : Party C D) : me.checkSynced.store = me.store := by
  unfold Party.checkSynced
  split
  · rfl
  · rfl

/-- What a message changes at the end that reads it. -/
theorem receive_news (hsound : Pull.Sound crdt (pull me peer)) {applies : Bool}
    {message : Message C D} {rest : List (Message C D)} (hwritten : peer.written = message :: rest)
    (hreceive : me.receive crdt applies message = some me') :
    SameNews me me' ∧ me'.store.content doc ≤ me.store.content doc ⊔ peer.store.content doc := by
  cases message with
  | summary docs complete had =>
      cases hreceive
      exact ⟨⟨rfl, rfl, rfl, rfl, id⟩, le_sup_left⟩
  | want other version | requestSummary =>
      cases hreceive
      exact ⟨⟨rfl, rfl, rfl, rfl, List.mem_append_left _⟩, le_sup_left⟩
  | update other bytes last =>
      unfold Party.receive at hreceive
      dsimp only at hreceive
      split at hreceive
      · cases hreceive
      · rename_i buffer hbuffer
        split at hreceive
        · cases hreceive
        · split at hreceive
          · rename_i hlast
            subst hlast
            cases hreceive
            unfold Party.answered
            cases hpending : me.pending.lookup other with
            | none => exact ⟨⟨rfl, rfl, rfl, rfl, id⟩, le_sup_left⟩
            | some stale =>
                dsimp only
                -- what is taken in was there to give
                have hmem : (other, buffer) ∈ (pull me peer).answers := by
                  unfold pull
                  rw [hwritten, eq_of_assembled hbuffer]
                  exact List.mem_cons_self
                obtain ⟨given, hgiven, htake⟩ := hsound.take_eq hmem
                have hcontent : (if !buffer.isEmpty && applies then
                    me.store.apply crdt other buffer else me.store).content doc ≤
                    me.store.content doc ⊔ peer.store.content doc := by
                  split
                  · rename_i happly
                    obtain ⟨hsome, rfl⟩ := Bool.and_eq_true_iff.1 happly
                    have happlies : true = true ∨ buffer.isEmpty = true := .inl rfl
                    have htaken := content_taken crdt me.store other buffer happlies
                    rw [hsome, Bool.and_true, if_pos rfl] at htaken
                    rw [htaken]
                    by_cases heq : doc = other
                    · subst heq
                      rw [Function.update_self]
                      exact htake.trans_le (sup_le_sup_left hgiven _)
                    · rw [Function.update_of_ne heq]
                      exact le_sup_left
                  · exact le_sup_left
                rw [store_checkSynced]
                refine ⟨.trans ?_ (sameNews_checkSynced _), ?_⟩
                · split
                  · exact ⟨rfl, rfl, rfl, rfl, List.mem_append_left _⟩
                  · exact ⟨rfl, rfl, rfl, rfl, id⟩
                · split
                  · exact hcontent
                  · exact hcontent
          · cases hreceive
            exact ⟨⟨rfl, rfl, rfl, rfl, id⟩, le_sup_left⟩

/-- Marking leaves a document that is pending as stale, and makes it so if it is wanted. -/
theorem lookup_markWanted (me : Party C D) (wanted : List DocId)
    (hpending : me.pending.lookup doc = some true ∨
      doc ∈ wanted ∧ me.pending.lookup doc ≠ none) :
    (wanted.foldl Party.markWanted me).pending.lookup doc = some true := by
  induction wanted generalizing me with
  | nil => exact hpending.elim id fun hnot => absurd hnot.1 List.not_mem_nil
  | cons first rest ih =>
      refine ih (me.markWanted first) ?_
      unfold Party.markWanted
      by_cases heq : doc = first
      · subst heq
        have hsome : me.pending.lookup doc ≠ none := by
          rcases hpending with hstale | ⟨-, hsome⟩
          · rw [hstale]
            exact Option.some_ne_none _
          · exact hsome
        obtain ⟨stale, hstale⟩ := Option.ne_none_iff_exists'.1 hsome
        rw [hstale]
        exact .inl (AList.lookup_insert _)
      · have hlookup : ∀ stale, (me.pending.insert first stale).lookup doc =
            me.pending.lookup doc := fun stale => AList.lookup_insert_ne heq
        have hrest : me.pending.lookup doc = some true ∨
            doc ∈ rest ∧ me.pending.lookup doc ≠ none :=
          hpending.imp_right fun h => ⟨List.mem_of_ne_of_mem heq h.1, h.2⟩
        split
        · rwa [hlookup]
        · rwa [hlookup]

theorem pending_checkSynced (me : Party C D) :
    me.checkSynced.pending = me.pending ∧ me.checkSynced.queue = me.queue := by
  unfold Party.checkSynced
  split
  · exact ⟨rfl, rfl⟩
  · exact ⟨rfl, rfl⟩

/-- A stale answer is not the end of it. -/
def AskedAgain (party : Party C D) (doc : DocId) : Prop :=
  party.pending.lookup doc = some true ∨
    party.pending.lookup doc = some false ∧ Outbound.want doc ∈ party.queue

end

section

variable {C D : Type} [SemilatticeSup C] [OrderBot C] [DecidableEq C] [DecidableEq D]
  {crdt : Crdt C D UInt8} {kept : DocId → Prop} {me peer me' peer' : Party C D} {doc : DocId}
  {action : Action C}

/-- Reading takes a message from the other end. -/
theorem act_read {applies : Bool} (hact : act crdt me peer (.read applies) = some (me', peer')) :
    ∃ message rest, me.comparing = none ∧ peer.written = message :: rest ∧
      peer' = { peer with written := rest } ∧ me.receive crdt applies message = some me' := by
  unfold act at hact
  dsimp only at hact
  split at hact
  · rename_i message rest hidle hwritten
    obtain ⟨read, hreceive, hboth⟩ := Option.map_eq_some_iff.1 hact
    cases hboth
    exact ⟨message, rest, hidle, hwritten, rfl, hreceive⟩
  · cases hact

/-- Nothing else changes the other end. -/
theorem act_peer (hread : ∀ applies, action ≠ .read applies)
    (hact : act crdt me peer action = some (me', peer')) : peer' = peer := by
  cases action with
  | read applies => exact absurd rfl (hread applies)
  | _ =>
      unfold act at hact
      dsimp only at hact
      repeat' split at hact
      all_goals first | cases hact; rfl | cases hact

/-- What the other end has to say stays said, or is heard here. -/
theorem act_said (hact : act crdt me peer action = some (me', peer')) :
    peer'.store = peer.store ∧ (Unsaid peer doc → Unsaid peer' doc) ∧
      ∀ digest ∈ said peer, digest ∈ said peer' ∨ digest ∈ (pull me' peer').heard := by
  by_cases hread : ∃ applies, action = .read applies
  · obtain ⟨applies, rfl⟩ := hread
    obtain ⟨message, rest, hidle, hwritten, rfl, hreceive⟩ := act_read hact
    refine ⟨rfl, id, fun digest hmem => ?_⟩
    unfold said at hmem ⊢
    rw [hwritten] at hmem
    rcases List.mem_append.1 hmem with hgathered | hwire
    · exact .inl (List.mem_append_left _ hgathered)
    · rcases List.mem_append.1 (digestsIn_append [message] rest ▸ hwire) with hfirst | hrest
      · cases message with
        | summary docs complete had =>
            cases hreceive
            refine .inr ?_
            have hdocs : digest ∈ docs := (List.append_nil docs) ▸ hfirst
            exact hdocs
        | _ => cases hfirst
      · exact .inl (List.mem_append_right _ hrest)
  · obtain rfl := act_peer (fun applies heq => hread ⟨applies, heq⟩) hact
    exact ⟨rfl, id, fun _ hmem => .inl hmem⟩

/-- **What the other end lacks stays on its way** when this end acts. -/
theorem act_pulled (h : OnItsWay crdt peer me doc) (hfollows : Follows crdt kept me peer me' peer')
    (hsound : Pull.Sound crdt (pull me peer)) (hsoundPeer : Pull.Sound crdt (pull peer me))
    (hnews : losesNews action = false)
    (hact : act crdt me peer action = some (me', peer')) : OnItsWay crdt peer' me' doc := by
  have hsame : ∀ hnews : SameNews me me', me'.store.content doc ≤
      me.store.content doc ⊔ peer.store.content doc → OnItsWay crdt peer' me' doc :=
    fun hnews hle => h.pulled hfollows hsoundPeer hle
      (fun hunsaid => .inl (hnews.unsaid hunsaid)) fun _ hmem => hnews.said ▸ hmem
  have hstore : ∀ hstore : me'.store = me.store,
      (Unsaid me doc → Unsaid me' doc ∨ me.store.content doc = ⊥ ∨
        (doc, crdt.digest (me.store.content doc)) ∈ said me') →
      (∀ digest ∈ said me, digest ∈ said me') → OnItsWay crdt peer' me' doc := by
    intro hstore hunsaid hsaid
    refine h.pulled hfollows hsoundPeer (hstore ▸ le_sup_left) (fun hstill => ?_) hsaid
    rw [hstore]
    rcases hunsaid hstill with hstill | hbot | hmem
    · exact .inl hstill
    · exact .inr (.inl (.held (hbot ▸ bot_le)))
    · exact .inr (.inr hmem)
  cases action with
  | change other added =>
      cases hact
      by_cases heq : doc = other
      · exact .inr (.inl (.inl (heq ▸ List.mem_cons_self)))
      · refine h.pulled hfollows hsoundPeer ?_ (fun hunsaid => .inl ?_) fun _ hmem => hmem
        · rw [content_put, Function.update_of_ne heq]
          exact le_sup_left
        · exact hunsaid.imp_left (List.mem_cons_of_mem _)
  | notify other =>
      cases hact
      refine hstore rfl (fun hunsaid => .inl ?_) fun _ hmem => hmem
      have hdirty : ∀ doc, doc ∈ me.dirty ∨ doc = other →
          doc ∈ if other ∈ me.dirty then me.dirty else me.dirty ++ [other] := by
        intro doc hdoc
        split
        · rename_i hin
          exact hdoc.elim id fun heq => heq ▸ hin
        · exact List.mem_append.2 (hdoc.imp id List.mem_singleton.2)
      rcases hunsaid with hunnotified | hin | hrest
      · by_cases heq : doc = other
        · exact .inr (.inl (hdirty doc (.inr heq)))
        · exact .inl (List.mem_filter.2 ⟨hunnotified, decide_eq_true heq⟩)
      · exact .inr (.inl (hdirty doc (.inl hin)))
      · exact .inr (.inr hrest)
  | accept accepts =>
      cases hact
      exact hsame ⟨rfl, rfl, rfl, rfl, id⟩ le_sup_left
  | request =>
      cases hact
      exact hsame ⟨rfl, rfl, rfl, rfl, List.mem_append_left _⟩ le_sup_left
  | tick =>
      unfold act at hact
      dsimp only at hact
      split at hact
      · rename_i hnone
        have hnone := Option.isNone_iff_eq_none.1 hnone
        cases hact
        refine hstore rfl (fun hunsaid => .inl ?_) fun digest hmem => ?_
        · rcases hunsaid with hunnotified | hdirty | ⟨_, hsome, -⟩ | hqueue
          · exact .inl hunnotified
          · exact .inr (.inl hdirty)
          · rw [hnone] at hsome
            cases hsome
          · exact .inr (.inr (.inr hqueue))
        · unfold said at hmem
          rw [hnone] at hmem
          exact hmem
      · cases hact
  | takeDirty =>
      unfold act at hact
      dsimp only at hact
      split at hact
      · rename_i hnone
        have hnone := Option.isNone_iff_eq_none.1 hnone
        cases hact
        refine hstore rfl (fun hunsaid => .inl ?_) fun digest hmem => ?_
        · rcases hunsaid with hunnotified | hdirty | ⟨_, hsome, -⟩ | hqueue
          · exact .inl hunnotified
          · exact .inr (.inr (.inl ⟨_, rfl, hdirty⟩))
          · rw [hnone] at hsome
            cases hsome
          · exact .inr (.inr (.inr hqueue))
        · unfold said at hmem
          rw [hnone] at hmem
          exact hmem
      · cases hact
  | dequeue answers =>
      unfold act at hact
      dsimp only at hact
      split at hact
      · rename_i item rest hnone hqueue
        cases hact
        have hkeeps : ∀ added : List (Message C D), ∀ digest ∈ said me,
            digest ∈ said { me with queue := rest, written := me.written ++ added } := by
          intro added digest hmem
          unfold said at hmem ⊢
          rw [digestsIn_append, ← List.append_assoc]
          exact List.mem_append_left _ hmem
        have hrest : item ≠ .summary → ∀ added : List (Message C D), Unsaid me doc →
            Unsaid { me with queue := rest, written := me.written ++ added } doc := by
          intro hitem added hunsaid
          refine hunsaid.imp_right (.imp_right (.imp_right fun hmem => ?_))
          rw [hqueue] at hmem
          exact List.mem_of_ne_of_mem (Ne.symm hitem) hmem
        cases item with
        | summary =>
            refine hstore rfl (fun hunsaid => ?_) fun digest hmem => ?_
            · by_cases hbot : me.store.content doc = ⊥
              · exact .inr (.inl hbot)
              · exact .inl (.inr (.inr (.inl ⟨_, rfl, me.store.listed doc hbot⟩)))
            · unfold said at hmem
              rw [hnone] at hmem
              exact hmem
        | requestSummary =>
            exact hstore rfl (fun hunsaid => .inl (hrest (by decide) _ hunsaid)) (hkeeps _)
        | want other =>
            exact hstore rfl (fun hunsaid => .inl (hrest nofun _ hunsaid)) (hkeeps _)
        | serve other version =>
            exact hstore rfl (fun hunsaid => .inl (hrest nofun _ hunsaid)) (hkeeps _)
      · cases hact
  | gather found =>
      obtain rfl : found = true := by
        cases found with
        | true => rfl
        | false => cases hnews
      unfold act at hact
      dsimp only at hact
      split at hact
      · rename_i other todo docs complete had hgathering
        cases hact
        refine hstore rfl (fun hunsaid => ?_) fun digest hmem => ?_
        · rcases hunsaid with hunnotified | hdirty | ⟨gathering, hsome, hmem⟩ | hqueue
          · exact .inl (.inl hunnotified)
          · exact .inl (.inr (.inl hdirty))
          · rw [hgathering] at hsome
            obtain rfl := Option.some.inj hsome
            rcases List.mem_cons.1 hmem with rfl | htodo
            · -- its digest is taken now
              by_cases hbot : me.store.content doc = ⊥
              · exact .inr (.inl hbot)
              · refine .inr (.inr (List.mem_append_left _ (List.mem_append_right _ ?_)))
                unfold Store.digest
                rw [if_pos rfl, if_neg hbot]
                exact List.mem_singleton_self _
            · exact .inl (.inr (.inr (.inl ⟨_, rfl, htodo⟩)))
          · exact .inl (.inr (.inr (.inr hqueue)))
        · unfold said at hmem ⊢
          rw [hgathering] at hmem
          rcases List.mem_append.1 hmem with hdocs | hwire
          · exact List.mem_append_left _ (List.mem_append_left _ hdocs)
          · exact List.mem_append_right _ hwire
      · cases hact
  | gatherFails => cases hnews
  | announce =>
      unfold act at hact
      dsimp only at hact
      split at hact
      · rename_i docs complete had hgathering
        cases hact
        refine hstore rfl (fun hunsaid => .inl ?_) fun digest hmem => ?_
        · rcases hunsaid with hunnotified | hdirty | ⟨gathering, hsome, hmem⟩ | hqueue
          · exact .inl hunnotified
          · exact .inr (.inl hdirty)
          · rw [hgathering] at hsome
            obtain rfl := Option.some.inj hsome
            cases hmem
          · exact .inr (.inr (.inr hqueue))
        · unfold said at hmem ⊢
          rw [hgathering] at hmem
          rcases List.mem_append.1 hmem with hdocs | hwire
          · refine List.mem_append_right _
              (digestsIn_append me.written _ ▸ List.mem_append_right _ ?_)
            have hsome : docs.isEmpty = false := by
              cases docs with
              | nil => cases hdocs
              | cons _ _ => rfl
            rw [hsome, Bool.false_and, if_neg Bool.false_ne_true]
            exact List.mem_append_left _ hdocs
          · exact List.mem_append_right _
              (digestsIn_append me.written _ ▸ List.mem_append_left _ hwire)
      · cases hact
  | read applies =>
      obtain ⟨message, rest, -, hwritten, rfl, hreceive⟩ := act_read hact
      obtain ⟨hnews, hle⟩ := receive_news hsound hwritten hreceive
      exact hsame hnews hle
  | compare found | compareFails =>
      unfold act at hact
      dsimp only at hact
      split at hact
      · cases hact
        exact hsame ⟨rfl, rfl, rfl, rfl, id⟩ le_sup_left
      · cases hact
  | mark =>
      unfold act at hact
      dsimp only at hact
      split at hact
      · rename_i wanted complete hcomparing
        cases hact
        obtain ⟨hmarked, hsameStore⟩ := sameNews_markWanted { me with comparing := none } wanted
        have hidle : SameNews me { me with comparing := none } := ⟨rfl, rfl, rfl, rfl, id⟩
        have hmarked := hidle.trans hmarked
        cases complete with
        | true =>
            refine hsame (hmarked.trans (sameNews_checkSynced _)) ?_
            rw [if_pos rfl, store_checkSynced, hsameStore]
            exact le_sup_left
        | false =>
            refine hsame hmarked ?_
            rw [if_neg Bool.false_ne_true, hsameStore]
            exact le_sup_left
      · cases hact

/-- A document that is pending as stale stays so, or is asked for again. -/
theorem act_askedAgain (hstale : me.pending.lookup doc = some true)
    (hact : act crdt me peer action = some (me', peer')) : AskedAgain me' doc := by
  cases action with
  | read applies =>
      obtain ⟨message, rest, -, -, -, hreceive⟩ := act_read hact
      cases message with
      | update other bytes last =>
          unfold Party.receive at hreceive
          dsimp only at hreceive
          split at hreceive
          · cases hreceive
          split at hreceive
          · cases hreceive
          split at hreceive
          · cases hreceive
            unfold AskedAgain Party.answered
            cases hpending : me.pending.lookup other with
            | none => exact .inl hstale
            | some stale =>
                dsimp only
                rw [(pending_checkSynced _).1, (pending_checkSynced _).2]
                by_cases heq : doc = other
                · subst heq
                  obtain rfl := Option.some.inj (hpending.symm.trans hstale)
                  exact .inr ⟨AList.lookup_insert _,
                    List.mem_append_right _ (List.mem_singleton_self _)⟩
                · left
                  split
                  · exact (AList.lookup_insert_ne heq).trans
                      ((AList.lookup_erase_ne heq).trans hstale)
                  · exact (AList.lookup_erase_ne heq).trans hstale
          · cases hreceive
            exact .inl hstale
      | _ =>
          cases hreceive
          exact .inl hstale
  | mark =>
      unfold act at hact
      dsimp only at hact
      split at hact
      · rename_i wanted complete hcomparing
        cases hact
        have hidle : ({ me with comparing := none } : Party C D).pending.lookup doc = some true :=
          hstale
        have hmarked := lookup_markWanted { me with comparing := none } wanted (.inl hidle)
        left
        split
        · rwa [(pending_checkSynced _).1]
        · exact hmarked
      · cases hact
  | dequeue answers =>
      unfold act at hact
      dsimp only at hact
      split at hact
      · rename_i item rest _ _
        cases hact
        cases item <;> exact .inl hstale
      · cases hact
  | _ =>
      unfold act at hact
      dsimp only at hact
      repeat' split at hact
      all_goals first | cases hact; exact .inl hstale | cases hact

end

section

variable {C D : Type} [SemilatticeSup C] [OrderBot C]

/-- Nothing is under way at this end. -/
structure Idle (party : Party C D) : Prop where
  unnotified : party.unnotified = []
  dirty : party.dirty = []
  gathering : party.gathering = none
  queue : party.queue = []
  written : party.written = []
  comparing : party.comparing = none
  pending : party.pending = ∅

instance (party : Party C D) : Decidable (Idle party) :=
  decidable_of_iff (party.unnotified = [] ∧ party.dirty = [] ∧ party.gathering = none ∧
      party.queue = [] ∧ party.written = [] ∧ party.comparing = none ∧ party.pending.entries = [])
    ⟨fun ⟨h₁, h₂, h₃, h₄, h₅, h₆, h₇⟩ => ⟨h₁, h₂, h₃, h₄, h₅, h₆, AList.ext h₇⟩,
      fun ⟨h₁, h₂, h₃, h₄, h₅, h₆, h₇⟩ => ⟨h₁, h₂, h₃, h₄, h₅, h₆, h₇ ▸ rfl⟩⟩

/-- What both ends keep. -/
structure Linked (crdt : Crdt C D UInt8) (ends : Ends C D) : Prop where
  whole : ∀ side, Whole (ends side) (ends side.other)
  sound : ∀ side, Pull.Sound crdt (pull (ends side) (ends side.other))

/-- What holds at the end that acts and at the other one. -/
theorem forall_side {P : Side → Prop} {side : Side} (h : P side) (hother : P side.other) :
    ∀ side, P side := by
  intro other
  cases side <;> cases other <;> assumption

variable {crdt : Crdt C D UInt8}

theorem linked_start (stores : Side → Store C) (accepts : Side → DocId → Bool) :
    Linked crdt (Ends.start (D := D) stores accepts) where
  whole := fun _ => rfl
  sound := fun _ => ⟨fun _ => rfl, fun _ h => absurd h (Multiset.notMem_zero _),
    fun _ h => absurd h (Multiset.notMem_zero _)⟩

/-- When nothing is under way, nothing is missing. -/
theorem le_of_idle {me peer : Party C D} {doc : DocId} (hsound : Pull.Sound crdt (pull me peer))
    (hme : Idle me) (hpeer : Idle peer) (h : OnItsWay crdt me peer doc) :
    peer.store.content doc ≤ me.store.content doc := by
  rcases h with hawaited | hunsaid | ⟨content, -, hmem⟩
  · refine hawaited.held_of_idle hsound ?_ ?_ ?_
    · unfold pull
      rw [hme.comparing]
      rfl
    · unfold pull
      rw [hme.comparing]
      rfl
    · change me.pending.lookup doc = none
      rw [hme.pending]
      rfl
  · rcases hunsaid with hmem | hmem | ⟨_, hsome, -⟩ | hmem
    · exact absurd (hpeer.unnotified ▸ hmem) List.not_mem_nil
    · exact absurd (hpeer.dirty ▸ hmem) List.not_mem_nil
    · rw [hpeer.gathering] at hsome
      cases hsome
    · exact absurd (hpeer.queue ▸ hmem) List.not_mem_nil
  · unfold said at hmem
    rw [hpeer.gathering, hpeer.written] at hmem
    cases hmem

variable [DecidableEq C] [DecidableEq D] {ends ends' : Ends C D} {side : Side}
  {action : Action C} {doc : DocId}

/-- A step is an action at one end. -/
theorem step_act (hstep : ends.step crdt (side, action) = some ends') :
    act crdt (ends side) (ends side.other) action = some (ends' side, ends' side.other) := by
  obtain ⟨both, hact, rfl⟩ := Option.map_eq_some_iff.1 hstep
  dsimp only at hact ⊢
  rw [hact, if_pos rfl, if_neg (Side.other_ne side)]

/-- What both ends see of a step. -/
theorem Linked.follows (h : Linked crdt ends)
    (hcontent : losesContent (ends side) (ends side.other) action = false)
    (hstep : ends.step crdt (side, action) = some ends') :
    Follows crdt (fun doc => (ends side).accepts doc = true) (ends side) (ends side.other)
      (ends' side) (ends' side.other) := by
  have hpeer := h.whole side.other
  rw [Side.other_other] at hpeer
  exact act_follows (h.whole side) hpeer (h.sound side) (fun _ => id) hcontent (step_act hstep)

theorem Linked.step (h : Linked crdt ends)
    (hcontent : losesContent (ends side) (ends side.other) action = false)
    (hstep : ends.step crdt (side, action) = some ends') : Linked crdt ends' := by
  have hfollows := h.follows hcontent hstep
  have hpeer := h.sound side.other
  rw [Side.other_other] at hpeer
  refine ⟨forall_side hfollows.whole ?_, forall_side (hfollows.pulls.spec (h.sound side)).1 ?_⟩
  · rw [Side.other_other]
    exact hfollows.wholePeer
  · rw [Side.other_other]
    exact (hfollows.pulled.spec hpeer).1

/-- **What one end has and the other lacks stays on its way**, whichever end acts. -/
theorem Linked.onItsWay (h : Linked crdt ends) (hnews : losesNews action = false)
    (hcontent : losesContent (ends side) (ends side.other) action = false)
    (haccepts : (ends side).accepts doc = true)
    (hstep : ends.step crdt (side, action) = some ends')
    (hway : ∀ side, OnItsWay crdt (ends side) (ends side.other) doc) :
    ∀ side, OnItsWay crdt (ends' side) (ends' side.other) doc := by
  have hfollows := h.follows hcontent hstep
  have hact := step_act hstep
  have hpeer := h.sound side.other
  have hwayPeer := hway side.other
  rw [Side.other_other] at hpeer hwayPeer
  obtain ⟨hstore, hunsaid, hsaid⟩ := act_said hact
  refine forall_side ((hway side).pulls hfollows (h.sound side) haccepts hstore hunsaid hsaid) ?_
  rw [Side.other_other]
  exact act_pulled hwayPeer hfollows (h.sound side) hpeer hnews hact

/-- **The link loses no announced version.**  In a run in which no call of the store fails that
contents or summaries depend on, and in which both ends accept the document throughout: when
nothing is under way any more, both ends have the same of it.  A document that is pending and
wanted once more is marked as stale, and a document that is pending as stale stays so or is
asked for again, whatever happens next. -/
theorem announced_versions_arrive (crdt : Crdt C D UInt8) {stores : Side → Store C}
    {accepts : Side → DocId → Bool} {events : List (Side × Action C)} {ends : Ends C D}
    {doc : DocId} (hrun : run (Ends.step crdt) (Ends.start stores accepts) events = some ends)
    (hcalls : Along (Ends.step crdt) (fun ends event => losesNews event.2 = false ∧
      losesContent (ends event.1) (ends event.1.other) event.2 = false)
      (Ends.start stores accepts) events)
    (haccepts : Along (Ends.step crdt) (fun ends _ => ∀ side, (ends side).accepts doc = true)
      (Ends.start stores accepts) events) :
    ((∀ side, Idle (ends side)) →
      (ends .lower).store.content doc = (ends .higher).store.content doc) ∧
    (∀ side ends' wanted complete, ends.step crdt (side, .mark) = some ends' →
      (ends side).comparing = some ⟨[], wanted, complete⟩ → doc ∈ wanted →
      (ends side).pending.lookup doc ≠ none → (ends' side).pending.lookup doc = some true) ∧
    ∀ side event ends', ends.step crdt event = some ends' →
      (ends side).pending.lookup doc = some true → AskedAgain (ends' side) doc := by
  have hall : Linked crdt ends ∧ ∀ side, OnItsWay crdt (ends side) (ends side.other) doc := by
    refine (hcalls.and haccepts).invariant (I := fun ends => Linked crdt ends ∧
      ∀ side, OnItsWay crdt (ends side) (ends side.other) doc) ?_
      ⟨linked_start stores accepts, fun side => ?_⟩ hrun
    · rintro ends ⟨side, action⟩ ends' ⟨hlinked, hway⟩ ⟨⟨hnews, hcontent⟩, haccepts⟩ hstep
      exact ⟨hlinked.step hcontent hstep,
        hlinked.onItsWay hnews hcontent (haccepts side) hstep hway⟩
    · exact .inr (.inl (.inr (.inr (.inr (List.mem_singleton_self _)))))
  obtain ⟨hlinked, hway⟩ := hall
  refine ⟨fun hidle => ?_, ?_, ?_⟩
  · have hle : ∀ side : Side, (ends side.other).store.content doc ≤ (ends side).store.content doc :=
      fun side => le_of_idle (hlinked.sound side) (hidle side) (hidle side.other) (hway side)
    exact le_antisymm (hle .higher) (hle .lower)
  · intro side ends' wanted complete hstep hcomparing hmem hpending
    have hact := step_act hstep
    unfold act at hact
    rw [hcomparing] at hact
    dsimp only at hact
    obtain ⟨hme, -⟩ := Prod.mk.inj (Option.some.inj hact)
    have hidle : ({ ends side with comparing := none } : Party C D).pending.lookup doc ≠ none :=
      hpending
    have hmarked := lookup_markWanted { ends side with comparing := none } wanted
      (.inr ⟨hmem, hidle⟩)
    rw [← hme]
    split
    · rwa [(pending_checkSynced _).1]
    · exact hmarked
  · rintro side ⟨actor, action⟩ ends' hstep hstale
    have hact := step_act hstep
    by_cases heq : side = actor
    · subst heq
      exact act_askedAgain hstale hact
    · obtain rfl : side = actor.other := by
        cases side <;> cases actor <;> first | rfl | exact absurd rfl heq
      left
      by_cases hread : ∃ applies, action = .read applies
      · obtain ⟨applies, rfl⟩ := hread
        obtain ⟨_, _, -, -, hpeer, -⟩ := act_read hact
        rw [hpeer]
        exact hstale
      · rw [act_peer (fun applies heq => hread ⟨applies, heq⟩) hact]
        exact hstale

/-- Contents that are numbers, as long as they are large. -/
def tally : Crdt ℕ ℕ UInt8 where
  digest := id
  version := fun held => List.replicate held 0
  updatesSince := fun given version =>
    if given ≤ version.length then none else some (List.replicate given 0)
  apply := fun now update => max now update.length
  digest_injective := Function.injective_id
  version_bot := rfl
  nothing_missing := by
    intro held given hnothing
    split at hnothing
    · rename_i hle
      rwa [List.length_replicate] at hle
    · rw [Option.getD_some, List.replicate_eq_nil_iff] at hnothing
      exact hnothing ▸ Nat.zero_le held
  apply_updates := by
    intro held given now hsome hle
    split at hsome
    · exact absurd rfl hsome
    · rename_i hlt
      rw [if_neg hlt, Option.getD_some, List.length_replicate]

/-- The lower id has a document, the other one nothing. -/
def tallies : Side → Store ℕ
  | .lower => ⟨["notes"], fun doc => if doc = "notes" then 2 else 0, fun doc hdoc => by
      by_cases heq : doc = "notes"
      · exact List.mem_singleton.2 heq
      · exact absurd (if_neg heq) hdoc⟩
  | .higher => ⟨[], fun _ => 0, fun _ h => absurd rfl h⟩

/-- Both summaries, a question and its answer. -/
def exchange : List (Side × Action ℕ) :=
  [(.lower, .dequeue true), (.lower, .gather true), (.lower, .announce), (.higher, .read true),
    (.higher, .compare true), (.higher, .mark), (.higher, .dequeue true), (.higher, .announce),
    (.lower, .read true), (.lower, .mark), (.higher, .dequeue true), (.lower, .read true),
    (.lower, .dequeue true), (.higher, .read true)]

/-- The document arrives. -/
theorem announced_versions_arrive_exchange :
    ∃ ends, run (Ends.step tally) (Ends.start tallies fun _ _ => true) exchange = some ends ∧
      (ends .lower).store.content "notes" = (ends .higher).store.content "notes" := by
  have hsome : (run (Ends.step tally) (Ends.start tallies fun _ _ => true) exchange).isSome :=
    by decide +kernel
  have hidle : (run (Ends.step tally) (Ends.start tallies fun _ _ => true) exchange).all
      (fun ends => decide (∀ side, Idle (ends side))) = true := by decide +kernel
  obtain ⟨ends, hends⟩ := Option.isSome_iff_exists.1 hsome
  rw [hends] at hidle
  exact ⟨ends, hends, (announced_versions_arrive tally hends (by decide +kernel)
    (by decide +kernel)).1 (of_decide_eq_true hidle)⟩

end

end Sync
end ZuTalk
