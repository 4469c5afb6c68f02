/-
# Utterances of a realtime capture

`crates/vt-store/src/notebook_capture_store.rs`: the types an utterance is
handed to the capture store with.
-/

import ZuTalk.Library.Text

namespace ZuTalk
namespace Capture

/-- `CaptureMode`. -/
inductive CaptureMode
  | transcriptionOnly | twoWay | multilingualOneWay
  deriving DecidableEq, Repr

/-- `UtteranceCompletion`; `partially` is its `Partial`. -/
inductive UtteranceCompletion
  | partially | complete
  deriving DecidableEq, Repr

/-- `UtteranceAlignment`. -/
inductive UtteranceAlignment
  | paired | sourceOnly | translationPending | outsideLanguagePair
  deriving DecidableEq, Repr

/-- `NewRealtimeUtterance`. -/
structure NewRealtimeUtterance where
  id : String
  sessionId : String
  sequence : ℕ
  sessionSpeakerId : Option String
  sourceLanguage : String
  sourceText : String
  sourceStartMs : Option ℕ
  sourceEndMs : Option ℕ
  translatedLanguage : Option String
  translatedText : Option String
  completion : UtteranceCompletion
  alignment : UtteranceAlignment
  deriving DecidableEq, Repr

/-- `normalize_language`: the primary subtag, in lower case. -/
def normalizeLanguage (value : String) : String :=
  Text.toAsciiLowercase (Text.trimStr (Text.beforeAny ['-'] value))

end Capture
end ZuTalk
