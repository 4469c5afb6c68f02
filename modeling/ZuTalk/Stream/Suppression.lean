/-
# What a replacement connection lets through

A replacement connection hears the end of the old one's audio again.
`ReplaySuppression::filter` runs over its responses, and the responses themselves say what
should come of them: a source word is kept when it ends after the replay, a translation when
the source word before it was.  `<end>` and `<fin>` are neither, yet the filter takes them for
source words.

`suppresses`: while every marker agrees with the words before it, the filter keeps exactly
what it should, and no word of the replay comes after it has switched itself off.
`marker_lets_replayed_through`: a marker after a replayed word lets its translation through.
-/

import ZuTalk.Stream.Lane

namespace ZuTalk
namespace Stream

namespace SonioxStreamTokenWire

/-- A token that `emit_response_events` turns into a control event. -/
def isMarker (token : SonioxStreamTokenWire) : Bool :=
  token.text = "<end>" || token.text = "<fin>"

/-- A token of a translation. -/
def isTranslation (token : SonioxStreamTokenWire) : Bool :=
  token.translationStatus = some "translation"

/-- A token of the source. -/
def isWord (token : SonioxStreamTokenWire) : Bool := !token.isTranslation && !token.isMarker

/-- A source word no later token revises. -/
def isFinalWord (token : SonioxStreamTokenWire) : Bool := token.isWord && token.isFinal

/-- The test `filter` puts to a token that is not a translation. -/
def endsBy (token : SonioxStreamTokenWire) (untilMs : ℕ) : Bool :=
  token.endMs.any fun endMs => endMs ≤ untilMs

end SonioxStreamTokenWire

open SonioxStreamTokenWire

/-- The last source word of tokens. -/
def lastWord (tokens : List SonioxStreamTokenWire) : Option SonioxStreamTokenWire :=
  (tokens.filter isWord).getLast?

/-- The last final source word of tokens. -/
def lastFinalWord (tokens : List SonioxStreamTokenWire) : Option SonioxStreamTokenWire :=
  (tokens.filter isFinalWord).getLast?

/-- The source word before a token: in the same response, or else the last final one of the
responses before. -/
def nearestWord (earlier before : List SonioxStreamTokenWire) : Option SonioxStreamTokenWire :=
  (lastWord before).or (lastFinalWord earlier)

/-- Whether a word is part of the replay; what is before any word is. -/
def isReplayed (untilMs : ℕ) (word : Option SonioxStreamTokenWire) : Bool :=
  word.all fun word => word.endsBy untilMs

/-- Whether a word or a translation belongs to what is new. -/
def isNew (untilMs : ℕ) (earlier before : List SonioxStreamTokenWire)
    (token : SonioxStreamTokenWire) : Bool :=
  if token.isTranslation then !isReplayed untilMs (nearestWord earlier before)
  else !token.endsBy untilMs

/-- The words and translations of a response that belong to what is new, after the tokens of
the responses before and those before it in the same response. -/
def newTokens (untilMs : ℕ) (earlier before : List SonioxStreamTokenWire) :
    List SonioxStreamTokenWire → List SonioxStreamTokenWire
  | [] => []
  | token :: rest =>
      if !token.isMarker && isNew untilMs earlier before token then
        token :: newTokens untilMs earlier (before ++ [token]) rest
      else newTokens untilMs earlier (before ++ [token]) rest

/-- What is new in each of the responses. -/
def newInRun (untilMs : ℕ) (earlier : List SonioxStreamTokenWire) :
    List SonioxStreamResponse → List (List SonioxStreamTokenWire)
  | [] => []
  | response :: rest =>
      newTokens untilMs earlier [] response.tokens ::
        newInRun untilMs (earlier ++ response.tokens) rest

namespace ReplaySuppression

/-- The filter after responses. -/
def afterRun (s : ReplaySuppression) (responses : List SonioxStreamResponse) :
    ReplaySuppression :=
  responses.foldl (fun s response => (s.filter response.tokens response.finalAudioProcMs).1) s

/-- What the filter lets through of each of the responses. -/
def filterRun (s : ReplaySuppression) :
    List SonioxStreamResponse → List (List SonioxStreamTokenWire)
  | [] => []
  | response :: rest =>
      (s.filter response.tokens response.finalAudioProcMs).2 ::
        filterRun (s.filter response.tokens response.finalAudioProcMs).1 rest

end ReplaySuppression

open ReplaySuppression

/-- The tokens of responses, in the order they arrive. -/
def tokensOf (responses : List SonioxStreamResponse) : List SonioxStreamTokenWire :=
  responses.flatMap (·.tokens)

/-- Tokens arrive in order: source words have an end, and none ends before a final one that
came before it. -/
def InOrder (tokens : List SonioxStreamTokenWire) : Prop :=
  (∀ token ∈ tokens, token.isWord → token.endMs.isSome) ∧
    tokens.Pairwise fun a b =>
      a.isFinalWord → b.isWord → ∀ x ∈ a.endMs, ∀ y ∈ b.endMs, x ≤ y

/-- What is relied on of the provider: its tokens arrive in order, and `final_audio_proc_ms`
never goes back. -/
structure ArrivesInOrder (responses : List SonioxStreamResponse) : Prop where
  words : InOrder (tokensOf responses)
  processed : responses.Pairwise fun a b =>
    ∀ x ∈ a.finalAudioProcMs, ∀ y ∈ b.finalAudioProcMs, x ≤ y

/-- What the filter is for: tokens keep their order, exactly the new words and translations are
let through, and once the filter has switched itself off no word of the replay follows. -/
structure Suppresses (untilMs : ℕ) (responses : List SonioxStreamResponse) : Prop where
  order : List.Forall₂ (fun kept response => kept.Sublist response.tokens)
    ((afterReplay untilMs).filterRun responses) responses
  kept : ((afterReplay untilMs).filterRun responses).map (List.filter fun t => !t.isMarker) =
    newInRun untilMs [] responses
  off : ∀ done rest, responses = done ++ rest →
    ((afterReplay untilMs).afterRun done).untilProviderMs = 0 →
    ∀ token ∈ tokensOf rest, token.isWord → token.endsBy untilMs = false

/-- A marker answers the filter's test as the words before it do: as the nearest source word,
and a final one as the last final source word. -/
def MarkerAgrees (untilMs : ℕ) (earlier before : List SonioxStreamTokenWire)
    (token : SonioxStreamTokenWire) : Prop :=
  token.isMarker → token.isTranslation = false →
    token.endsBy untilMs = isReplayed untilMs (nearestWord earlier before) ∧
    (token.isFinal →
      token.endsBy untilMs = isReplayed untilMs (lastFinalWord (earlier ++ before)))

instance (untilMs : ℕ) (earlier before : List SonioxStreamTokenWire)
    (token : SonioxStreamTokenWire) : Decidable (MarkerAgrees untilMs earlier before token) :=
  inferInstanceAs (Decidable (_ → _ → _ ∧ (_ → _)))

/-- Every marker of a response agrees with the words before it. -/
def ResponseAgrees (untilMs : ℕ) (earlier before : List SonioxStreamTokenWire) :
    List SonioxStreamTokenWire → Prop
  | [] => True
  | token :: rest =>
      MarkerAgrees untilMs earlier before token ∧
        ResponseAgrees untilMs earlier (before ++ [token]) rest

/-- Every marker of the responses agrees with the words before it. -/
def MarkersAgree (untilMs : ℕ) (earlier : List SonioxStreamTokenWire) :
    List SonioxStreamResponse → Prop
  | [] => True
  | response :: rest =>
      ResponseAgrees untilMs earlier [] response.tokens ∧
        MarkersAgree untilMs (earlier ++ response.tokens) rest

/-! ### The words before a token -/

theorem nearestWord_nil (earlier : List SonioxStreamTokenWire) :
    nearestWord earlier [] = lastFinalWord earlier := rfl

theorem lastWord_append (a b : List SonioxStreamTokenWire) :
    lastWord (a ++ b) = (lastWord b).or (lastWord a) := by
  unfold lastWord
  rw [List.filter_append, List.getLast?_append]

theorem lastFinalWord_append (a b : List SonioxStreamTokenWire) :
    lastFinalWord (a ++ b) = (lastFinalWord b).or (lastFinalWord a) := by
  unfold lastFinalWord
  rw [List.filter_append, List.getLast?_append]

variable {untilMs : ℕ} {earlier before tokens : List SonioxStreamTokenWire}
  {token : SonioxStreamTokenWire}

theorem mem_of_lastFinalWord (h : lastFinalWord tokens = some token) :
    token ∈ tokens ∧ token.isFinalWord := List.mem_filter.1 (List.mem_of_getLast? h)

theorem mem_of_lastWord (h : lastWord tokens = some token) : token ∈ tokens ∧ token.isWord :=
  List.mem_filter.1 (List.mem_of_getLast? h)

/-- What is not a source word is not looked back at. -/
theorem nearestWord_snoc_of_not_word (h : token.isWord = false) :
    nearestWord earlier (before ++ [token]) = nearestWord earlier before := by
  unfold nearestWord
  rw [lastWord_append]
  simp [lastWord, h]

/-- A source word is what the token after it looks back at. -/
theorem nearestWord_snoc_of_word (h : token.isWord) :
    nearestWord earlier (before ++ [token]) = some token := by
  unfold nearestWord
  rw [lastWord_append]
  simp [lastWord, h]

theorem lastFinalWord_snoc_of_not (h : token.isFinalWord = false) :
    lastFinalWord (tokens ++ [token]) = lastFinalWord tokens := by
  rw [lastFinalWord_append]
  simp [lastFinalWord, h]

theorem lastFinalWord_snoc_of_final (h : token.isFinalWord) :
    lastFinalWord (tokens ++ [token]) = some token := by
  rw [lastFinalWord_append]
  simp [lastFinalWord, h]

/-! ### One response -/

/-- `last_replayed` after a token. -/
def nextReplayed (untilMs : ℕ) (token : SonioxStreamTokenWire) (lastReplayed : Bool) : Bool :=
  if token.isTranslation then lastReplayed else token.endsBy untilMs

/-- `last_final_replayed` after a token. -/
def nextFinalReplayed (untilMs : ℕ) (token : SonioxStreamTokenWire) (lastFinalReplayed : Bool) :
    Bool :=
  if token.isTranslation = false ∧ token.isFinal then token.endsBy untilMs else lastFinalReplayed

/-- A token stays when `last_replayed` is false after it, whatever it is. -/
theorem retain_cons (lastReplayed lastFinalReplayed : Bool) (rest : List SonioxStreamTokenWire) :
    retain untilMs lastReplayed lastFinalReplayed (token :: rest) =
      let (kept, last) := retain untilMs (nextReplayed untilMs token lastReplayed)
        (nextFinalReplayed untilMs token lastFinalReplayed) rest
      (if nextReplayed untilMs token lastReplayed then kept else token :: kept, last) := by
  unfold nextReplayed nextFinalReplayed isTranslation
  rw [retain]
  split
  · rename_i htranslation
    simp only [htranslation, decide_true, if_true, Bool.true_eq_false, false_and, if_false]
  · rename_i htranslation
    simp only [htranslation, decide_false, Bool.false_eq_true, if_false, true_and]
    rfl

/-- What is retained keeps its order. -/
theorem retain_sublist (untilMs : ℕ) (lastReplayed lastFinalReplayed : Bool)
    (tokens : List SonioxStreamTokenWire) :
    (retain untilMs lastReplayed lastFinalReplayed tokens).1.Sublist tokens := by
  induction tokens generalizing lastReplayed lastFinalReplayed with
  | nil => exact List.Sublist.refl _
  | cons token rest ih =>
      rw [retain_cons]
      dsimp only
      split
      · exact (ih _ _).cons _
      · exact (ih _ _).cons_cons _

/-- A marker that agrees, a translation and a source word all leave `last_replayed` saying
whether the source word before what comes next is part of the replay. -/
theorem nextReplayed_eq (hmarker : MarkerAgrees untilMs earlier before token) :
    nextReplayed untilMs token (isReplayed untilMs (nearestWord earlier before)) =
      isReplayed untilMs (nearestWord earlier (before ++ [token])) := by
  unfold nextReplayed
  rcases htranslation : token.isTranslation with _ | _
  · rcases hismarker : token.isMarker with _ | _
    · rw [nearestWord_snoc_of_word (by simp [isWord, htranslation, hismarker])]
      rfl
    · rw [nearestWord_snoc_of_not_word (by simp [isWord, hismarker])]
      exact (hmarker hismarker htranslation).1
  · rw [nearestWord_snoc_of_not_word (by simp [isWord, htranslation])]
    rfl

/-- So they leave `last_final_replayed` for the last final source word. -/
theorem nextFinalReplayed_eq (hmarker : MarkerAgrees untilMs earlier before token) :
    nextFinalReplayed untilMs token (isReplayed untilMs (lastFinalWord (earlier ++ before))) =
      isReplayed untilMs (lastFinalWord (earlier ++ (before ++ [token]))) := by
  unfold nextFinalReplayed
  rw [← List.append_assoc]
  split
  · rename_i hfinal
    rcases hismarker : token.isMarker with _ | _
    · rw [lastFinalWord_snoc_of_final (by simp [isFinalWord, isWord, hfinal, hismarker])]
      rfl
    · rw [lastFinalWord_snoc_of_not (by simp [isFinalWord, isWord, hismarker])]
      exact (hmarker hismarker hfinal.1).2 hfinal.2
  · rename_i hfinal
    rw [lastFinalWord_snoc_of_not]
    rcases htranslation : token.isTranslation with _ | _
    · simp [isFinalWord, not_and.1 hfinal htranslation]
    · simp [isFinalWord, isWord, htranslation]

/-- While its two flags say whether the words before are part of the replay, the filter
retains what is new. -/
theorem retain_eq (hagree : ResponseAgrees untilMs earlier before tokens) :
    ((retain untilMs (isReplayed untilMs (nearestWord earlier before))
        (isReplayed untilMs (lastFinalWord (earlier ++ before))) tokens).1.filter
        fun t => !t.isMarker) = newTokens untilMs earlier before tokens ∧
      (retain untilMs (isReplayed untilMs (nearestWord earlier before))
        (isReplayed untilMs (lastFinalWord (earlier ++ before))) tokens).2 =
        isReplayed untilMs (lastFinalWord (earlier ++ (before ++ tokens))) := by
  induction tokens generalizing before with
  | nil =>
      rw [List.append_nil]
      exact ⟨rfl, rfl⟩
  | cons token rest ih =>
      obtain ⟨hhere, hrest⟩ := hagree
      obtain ⟨hkept, hfinal⟩ := ih hrest
      have hnew : isNew untilMs earlier before token =
          !nextReplayed untilMs token (isReplayed untilMs (nearestWord earlier before)) := by
        unfold isNew nextReplayed
        split <;> rfl
      rw [List.append_cons before, newTokens, hnew, ← hkept, retain_cons, nextReplayed_eq hhere,
        nextFinalReplayed_eq hhere]
      refine ⟨?_, hfinal⟩
      dsimp only
      rcases hismarker : token.isMarker with _ | _ <;>
        rcases isReplayed untilMs (nearestWord earlier (before ++ [token])) with _ | _ <;>
        simp [hismarker]

/-! ### Once the replay is past -/

/-- No source word after a final one past the replay is part of it. -/
theorem word_past (horder : InOrder (earlier ++ tokens))
    (hpast : isReplayed untilMs (lastFinalWord earlier) = false) (htoken : token ∈ tokens)
    (hword : token.isWord) : token.endsBy untilMs = false := by
  obtain ⟨hended, hsorted⟩ := horder
  obtain ⟨last, hlast⟩ : ∃ last, lastFinalWord earlier = some last := by
    rcases hlast : lastFinalWord earlier with _ | last
    · rw [hlast] at hpast
      exact absurd hpast (by simp [isReplayed])
    · exact ⟨last, rfl⟩
  rw [hlast] at hpast
  obtain ⟨hmem, hfinal⟩ := mem_of_lastFinalWord hlast
  have hlastWord : last.isWord := (Bool.and_eq_true_iff.1 hfinal).1
  obtain ⟨x, hx⟩ := Option.isSome_iff_exists.1
    (hended last (List.mem_append_left _ hmem) hlastWord)
  obtain ⟨y, hy⟩ := Option.isSome_iff_exists.1
    (hended token (List.mem_append_right _ htoken) hword)
  have hle : x ≤ y :=
    (List.pairwise_append.1 hsorted).2.2 last hmem token htoken hfinal hword x hx y hy
  simp only [isReplayed, Option.all_some, endsBy, hx, Option.any_some,
    decide_eq_false_iff_not, not_le] at hpast
  simp only [endsBy, hy, Option.any_some, decide_eq_false_iff_not, not_le]
  omega

/-- The last final source word stays past the replay. -/
theorem past_append (horder : InOrder (earlier ++ tokens))
    (hpast : isReplayed untilMs (lastFinalWord earlier) = false) :
    isReplayed untilMs (lastFinalWord (earlier ++ tokens)) = false := by
  rw [lastFinalWord_append]
  rcases hlast : lastFinalWord tokens with _ | last
  · exact hpast
  · obtain ⟨hmem, hfinal⟩ := mem_of_lastFinalWord hlast
    exact word_past horder hpast hmem (Bool.and_eq_true_iff.1 hfinal).1

/-- Past the replay everything but the markers is new. -/
theorem newTokens_of_past (horder : InOrder (earlier ++ (before ++ tokens)))
    (hpast : isReplayed untilMs (lastFinalWord earlier) = false) :
    newTokens untilMs earlier before tokens = tokens.filter fun t => !t.isMarker := by
  induction tokens generalizing before with
  | nil => rfl
  | cons token rest ih =>
      rw [List.append_cons before] at horder
      rw [newTokens, ih horder, List.filter_cons]
      rcases hismarker : token.isMarker with _ | _
      · have hnew : isNew untilMs earlier before token = true := by
          unfold isNew
          rcases htranslation : token.isTranslation with _ | _
          · have hmem : token ∈ before ++ [token] ++ rest := by simp
            have hpastToken := word_past horder hpast hmem
              (by simp [isWord, htranslation, hismarker])
            simp [hpastToken]
          · rw [if_pos rfl, Bool.not_eq_true']
            unfold nearestWord
            rcases hword : lastWord before with _ | word
            · exact hpast
            · obtain ⟨hmem, hisWord⟩ := mem_of_lastWord hword
              exact word_past horder hpast (by simp [hmem]) hisWord
        simp [hnew]
      · simp

/-! ### A run -/

/-- The filter knows whether the last final source word is part of the replay, or has switched
itself off past it. -/
def Knows (untilMs : ℕ) (earlier : List SonioxStreamTokenWire) (s : ReplaySuppression) : Prop :=
  s = ⟨untilMs, isReplayed untilMs (lastFinalWord earlier)⟩ ∨
    s = ReplaySuppression.default ∧ isReplayed untilMs (lastFinalWord earlier) = false

/-- **One response.**  The filter lets through what is new, and still knows. -/
theorem filter_step {s : ReplaySuppression} (huntil : untilMs ≠ 0)
    (hknows : Knows untilMs earlier s)
    (hagree : ResponseAgrees untilMs earlier [] tokens)
    (horder : InOrder (earlier ++ tokens)) (finalAudioProcMs : Option ℕ) :
    ((s.filter tokens finalAudioProcMs).2.filter fun t => !t.isMarker) =
        newTokens untilMs earlier [] tokens ∧
      Knows untilMs (earlier ++ tokens) (s.filter tokens finalAudioProcMs).1 := by
  rcases hknows with rfl | ⟨rfl, hpast⟩
  · obtain ⟨hkept, hlast⟩ := retain_eq hagree
    rw [nearestWord_nil, List.append_nil] at hkept hlast
    rw [List.nil_append] at hlast
    unfold ReplaySuppression.filter
    rw [if_neg huntil]
    dsimp only
    rw [hlast]
    split
    · rename_i hoff
      have hpast := (Bool.and_eq_true_iff.1 hoff).2
      rw [Bool.not_eq_true'] at hpast
      exact ⟨hkept, .inr ⟨rfl, hpast⟩⟩
    · exact ⟨hkept, .inl rfl⟩
  · have hoff : ReplaySuppression.default.filter tokens finalAudioProcMs =
        (ReplaySuppression.default, tokens) := if_pos rfl
    rw [hoff]
    refine ⟨(newTokens_of_past ?_ hpast).symm, .inr ⟨rfl, past_append horder hpast⟩⟩
    rwa [List.nil_append]

/-- A run keeps the order of the tokens. -/
theorem filterRun_sublist (s : ReplaySuppression) (responses : List SonioxStreamResponse) :
    List.Forall₂ (fun kept response => kept.Sublist response.tokens) (s.filterRun responses)
      responses := by
  induction responses generalizing s with
  | nil => exact .nil
  | cons response rest ih =>
      refine .cons ?_ (ih _)
      unfold ReplaySuppression.filter
      split
      · exact List.Sublist.refl _
      · dsimp only
        split <;> exact retain_sublist _ _ _ _

theorem tokensOf_cons (response : SonioxStreamResponse) (rest : List SonioxStreamResponse) :
    tokensOf (response :: rest) = response.tokens ++ tokensOf rest := rfl

/-- The tokens up to a point are in order when all are. -/
theorem InOrder.upTo (h : InOrder (earlier ++ (before ++ tokens))) :
    InOrder (earlier ++ before) := by
  rw [← List.append_assoc] at h
  exact ⟨fun token htoken => h.1 token (List.mem_append_left _ htoken),
    (List.pairwise_append.1 h.2).1⟩

/-- After any of the responses, the filter knows. -/
theorem knows_afterRun {s : ReplaySuppression} {done rest : List SonioxStreamResponse}
    (huntil : untilMs ≠ 0) (hknows : Knows untilMs earlier s)
    (horder : InOrder (earlier ++ tokensOf (done ++ rest)))
    (hagree : MarkersAgree untilMs earlier (done ++ rest)) :
    Knows untilMs (earlier ++ tokensOf done) (s.afterRun done) := by
  induction done generalizing earlier s with
  | nil =>
      rw [tokensOf, List.flatMap_nil, List.append_nil]
      exact hknows
  | cons response done ih =>
      rw [List.cons_append, tokensOf_cons] at horder
      have hnext := (filter_step huntil hknows hagree.1 horder.upTo response.finalAudioProcMs).2
      rw [tokensOf_cons, ← List.append_assoc]
      rw [← List.append_assoc] at horder
      exact ih hnext horder hagree.2

/-- What a run lets through is what is new. -/
theorem filterRun_eq {s : ReplaySuppression} {responses : List SonioxStreamResponse}
    (huntil : untilMs ≠ 0) (hknows : Knows untilMs earlier s)
    (horder : InOrder (earlier ++ tokensOf responses))
    (hagree : MarkersAgree untilMs earlier responses) :
    (s.filterRun responses).map (List.filter fun t => !t.isMarker) =
      newInRun untilMs earlier responses := by
  induction responses generalizing earlier s with
  | nil => rfl
  | cons response rest ih =>
      rw [tokensOf_cons] at horder
      obtain ⟨hkept, hnext⟩ :=
        filter_step huntil hknows hagree.1 horder.upTo response.finalAudioProcMs
      rw [← List.append_assoc] at horder
      rw [filterRun, List.map_cons, hkept, ih hnext horder hagree.2, newInRun]

/-- **Replay suppression lets through exactly what is new.**  After a replay, over any responses
whose words arrive in order and whose markers agree with the words before them, the filter keeps
the order of the tokens and exactly the words and translations after the replay; and no word of
the replay follows once it has switched itself off. -/
theorem suppresses (untilMs : ℕ) (huntil : 0 < untilMs) (responses : List SonioxStreamResponse)
    (harrives : ArrivesInOrder responses) (hagree : MarkersAgree untilMs [] responses) :
    Suppresses untilMs responses := by
  have hne : untilMs ≠ 0 := Nat.pos_iff_ne_zero.1 huntil
  have hknows : Knows untilMs [] (afterReplay untilMs) := .inl rfl
  refine ⟨filterRun_sublist _ _, filterRun_eq hne hknows harrives.words hagree,
    fun done rest hresponses hoff token htoken hword => ?_⟩
  subst hresponses
  have horder : InOrder (tokensOf done ++ tokensOf rest) := by
    have hwords := harrives.words
    unfold tokensOf at hwords ⊢
    rwa [List.flatMap_append] at hwords
  rcases knows_afterRun hne hknows harrives.words hagree with hon | ⟨-, hpast⟩
  · rw [hon] at hoff
    exact absurd hoff hne
  · exact word_past horder hpast htoken hword

/-- A token of the source, final. -/
def finalWord (text : String) (endMs : ℕ) : SonioxStreamTokenWire :=
  ⟨text, none, some endMs, true, none, none, none, none⟩

/-- A token the provider gives no time. -/
def untimed (text : String) (translationStatus : Option String) : SonioxStreamTokenWire :=
  ⟨text, none, none, true, translationStatus, none, none, none⟩

/-- A response with nothing but tokens and a position. -/
def heard (tokens : List SonioxStreamTokenWire) (finalAudioProcMs : ℕ) : SonioxStreamResponse :=
  ⟨tokens, false, none, none, some finalAudioProcMs, some finalAudioProcMs⟩

/-- A replayed word and its translation, then a new word, its end and its translation. -/
theorem suppresses_replayed_then_new :
    Suppresses 2000
      [heard [finalWord "a" 1500, untimed "b" (some "translation")] 1600,
        heard [finalWord "c" 2600, untimed "<end>" none, untimed "d" (some "translation")] 2600] :=
  suppresses 2000 (by decide) _
    ⟨⟨by decide, by decide⟩, by decide⟩
    ⟨⟨by decide, by decide, trivial⟩, ⟨by decide, by decide, by decide, trivial⟩, trivial⟩

/-- **A marker lets a replayed translation through.**  The word before `<end>` is part of the
replay and dropped; its translation, after `<end>`, is kept. -/
theorem marker_lets_replayed_through :
    ∃ responses, ArrivesInOrder responses ∧ ¬ Suppresses 2000 responses := by
  refine ⟨[heard [finalWord "a" 1500, untimed "<end>" none, untimed "b" (some "translation")] 1600],
    ⟨⟨by decide, by decide⟩, by decide⟩, fun h => ?_⟩
  exact absurd h.kept (by decide)

end Stream
end ZuTalk
