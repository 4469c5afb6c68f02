/-
# The transcript of a live link

`crates/vt-ffi/src/link_share.rs`: `transcript_parts`, `push_live_link_transcript`,
`LiveLink::queue_transcript` and the task of `LivePublisher` that posts what is queued.

A transcript goes to the shared room in parts.  Each push reads the transcript without the lock
of the link, and then, with it, queues the parts whose fingerprint is not the last one it
queued under their id; what it queued counts as sent.  The task takes all that is queued and
posts it part by part, and whether a post succeeds changes nothing here.

What `t2_machine_block_write` makes of the utterances and `refined_blocks` of the refined
transcript stand for them.  The hash is a parameter.
-/

import Mathlib.Data.List.Sort
import ZuTalk.Library.Machine
import ZuTalk.Library.Slots
import ZuTalk.Library.Text
import ZuTalk.Rooms.Page

namespace ZuTalk
namespace Links

/-- `BLOCKS_PER_PART`. -/
def blocksPerPart : ℕ := 120

/-- `WebBlock`. -/
structure WebBlock where
  id : String
  owner : String
  text : String
  lanes : List (String × String)
  speaker : Option String
  sourceLanguage : Option String
  deriving DecidableEq, Repr

/-- `WebSpeaker`. -/
structure WebSpeaker where
  name : Option String
  label : String
  deriving DecidableEq, Repr

/-- `WebTranscriptPart`. -/
structure WebTranscriptPart where
  sessionId : String
  part : ℕ
  parts : ℕ
  blocks : List WebBlock
  speakers : List (String × WebSpeaker)
  deriving DecidableEq, Repr

/-- The id of a part of a session. -/
def wireIdOf (session : String) (part : ℕ) : String := session ++ ":" ++ toString part

/-- `wire_id`. -/
def WebTranscriptPart.wireId (part : WebTranscriptPart) : String :=
  wireIdOf part.sessionId part.part

/-- `DefaultHasher` on what `fingerprint` feeds it. -/
abbrev Hash := ℕ → List WebBlock → List (String × WebSpeaker) → UInt64

/-- `fingerprint`. -/
def WebTranscriptPart.fingerprint (hash : Hash) (part : WebTranscriptPart) : UInt64 :=
  hash part.parts part.blocks part.speakers

/-- What `web_speakers` reads of a speaker of a session. -/
structure SessionSpeaker where
  id : String
  localDisplayName : Option String
  participantId : Option String
  providerLabel : String
  deriving DecidableEq, Repr

/-- What the session calls a speaker, or else the name of the participant they are. -/
def SessionSpeaker.name (participants : List (String × String)) (speaker : SessionSpeaker) :
    Option String :=
  ((speaker.localDisplayName.map Text.trimStr).filter (· ≠ "")).or
    (((speaker.participantId.bind fun id => participants.lookup id).map Text.trimStr).filter
      (· ≠ ""))

/-- What a transcript is read from: the blocks of its utterances, those of the refined
transcript, the speakers of the session, and the names of the participants. -/
structure Transcript where
  utterances : List WebBlock
  refined : List WebBlock
  speakers : List SessionSpeaker
  participants : List (String × String)
  deriving DecidableEq, Repr

/-- `web_speakers`, in the order of their ids.  Where the speakers or the participants cannot be
read, there are none. -/
def Transcript.webSpeakers (transcript : Transcript) (listed named : Bool) :
    List (String × WebSpeaker) :=
  let speakers := if listed then transcript.speakers else []
  let participants := if named then transcript.participants else []
  (speakers.map fun speaker =>
    (speaker.id, ⟨speaker.name participants, speaker.providerLabel⟩)).insertionSort
      fun a b => a.1 ≤ b.1

/-- The blocks of the utterances, without the empty ones. -/
def Transcript.spoken (transcript : Transcript) : List WebBlock :=
  transcript.utterances.filter fun block => block.text ≠ "" || !block.lanes.isEmpty

/-- Where no utterance has a block, the refined transcript is taken. -/
def Transcript.orRefined (transcript : Transcript) (blocks : List WebBlock) : List WebBlock :=
  if blocks.isEmpty then transcript.refined else blocks

/-- The parts of some blocks. -/
def partsOf (session : String) (blocks : List WebBlock) (speakers : List (String × WebSpeaker)) :
    List WebTranscriptPart :=
  let chunks := blocks.toChunks blocksPerPart
  chunks.zipIdx.map fun chunk => ⟨session, chunk.2, chunks.length, chunk.1, speakers⟩

/-- `transcript_parts`. -/
def Transcript.parts (transcript : Transcript) (session : String) : List WebTranscriptPart :=
  partsOf session (transcript.orRefined transcript.spoken) (transcript.webSpeakers true true)

/-- How far a thread has come with `push_live_link_transcript`, before it queues. -/
inductive Push
  | idle
  | started
  | listed (blocks : List WebBlock)
  | settled (blocks : List WebBlock)
  | read (parts : List WebTranscriptPart)
  deriving DecidableEq, Repr

/-- A live link of a session, the transcript it shows, and the room it is posted to. -/
structure Live where
  transcript : Transcript
  pushes : ℕ → Push
  /-- The parts that the push with the lock of the link has not looked at yet. -/
  queueing : Option (List WebTranscriptPart)
  sentParts : String → Option UInt64
  pendingParts : List (String × WebTranscriptPart)
  batch : List (String × WebTranscriptPart)
  room : List (String × WebTranscriptPart)

/-- A link that was just made. -/
def Live.start (transcript : Transcript) : Live :=
  ⟨transcript, fun _ => .idle, none, fun _ => none, [], [], []⟩

/-- What can happen. -/
inductive Act
  | change (transcript : Transcript)
  /-- A thread enters `push_live_link_transcript`. -/
  | start (thread : ℕ)
  /-- It reads the utterances, -/
  | list (thread : ℕ)
  /-- the refined transcript if there is none, -/
  | refine (thread : ℕ)
  /-- and the speakers, of which the list or the names of the participants may fail. -/
  | name (thread : ℕ) (listed named : Bool)
  /-- It cannot read the transcript. -/
  | fail (thread : ℕ)
  /-- It takes the lock, -/
  | lock (thread : ℕ)
  /-- looks at the next part, whose envelope may fail, -/
  | queue (sealed : Bool)
  /-- and gives the lock back. -/
  | unlock
  /-- The task takes what is pending. -/
  | take
  /-- It posts the next part. -/
  | post (stored : Bool)
  deriving DecidableEq, Repr

namespace Live

section

variable (hash : Hash) (session : String)

/-- A thread comes to the next step of its push. -/
def moveTo (live : Live) (thread : ℕ) (push : Push) : Live :=
  { live with pushes := Function.update live.pushes thread push }

/-- What `queue_transcript` does with one part. -/
def queuePart (live : Live) (part : WebTranscriptPart) (sealed : Bool) : Live :=
  if live.sentParts part.wireId = some (part.fingerprint hash) then live
  else if sealed then
    { live with
      sentParts := Function.update live.sentParts part.wireId (some (part.fingerprint hash))
      pendingParts := Slots.put part.wireId part live.pendingParts }
  else live

/-- One step. -/
def step (live : Live) : Act → Option Live
  | .change transcript => some { live with transcript := transcript }
  | .start thread =>
      match live.pushes thread with
      | .idle => some (live.moveTo thread .started)
      | _ => none
  | .list thread =>
      match live.pushes thread with
      | .started => some (live.moveTo thread (.listed live.transcript.spoken))
      | _ => none
  | .refine thread =>
      match live.pushes thread with
      | .listed blocks => some (live.moveTo thread (.settled (live.transcript.orRefined blocks)))
      | _ => none
  | .name thread listed named =>
      match live.pushes thread with
      | .settled blocks =>
          some (live.moveTo thread
            (.read (partsOf session blocks (live.transcript.webSpeakers listed named))))
      | _ => none
  | .fail thread =>
      match live.pushes thread with
      | .started => some (live.moveTo thread .idle)
      | .listed _ => some (live.moveTo thread .idle)
      | _ => none
  | .lock thread =>
      match live.pushes thread, live.queueing with
      | .read parts, none => some { live.moveTo thread .idle with queueing := some parts }
      | _, _ => none
  | .queue sealed =>
      match live.queueing with
      | some (part :: rest) => some { live.queuePart hash part sealed with queueing := some rest }
      | _ => none
  | .unlock =>
      match live.queueing with
      | some [] => some { live with queueing := none }
      | _ => none
  | .take =>
      match live.batch with
      | [] => some { live with batch := live.pendingParts, pendingParts := [] }
      | _ :: _ => none
  | .post stored =>
      match live.batch with
      | entry :: rest =>
          some { live with
            batch := rest
            room := if stored then Slots.put entry.1 entry.2 live.room else live.room }
      | [] => none

end

/-- All pushes have returned and all queued work is done. -/
structure Quiet (live : Live) : Prop where
  pushes : ∀ thread, live.pushes thread = .idle
  queueing : live.queueing = none
  pendingParts : live.pendingParts = []
  batch : live.batch = []

end Live

/-- The parts of the entries of a room by their numbers, as the page keeps them. -/
def byNumber (entries : List (String × WebTranscriptPart)) : List (ℕ × WebTranscriptPart) :=
  entries.foldl (fun held entry => Ordered.set entry.2.part entry.2 held) []

/-- The count that the page goes by. -/
def lastCount (entries : List (String × WebTranscriptPart)) : Option ℕ :=
  entries.foldl (fun _ entry => some entry.2.parts) none

/-- The parts that the page shows of the entries of a room: those below the count. -/
def shown (entries : List (String × WebTranscriptPart)) : List WebTranscriptPart :=
  ((byNumber entries).filter fun entry => Rooms.below (lastCount entries) entry.1).map Prod.snd

end Links
end ZuTalk
