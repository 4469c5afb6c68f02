/-
# Provider text, set the way people write it

`crates/vt-model/src/text.rs`: `normalize_pieces`, `normalize_provider_text` and
`polish_translation`.
-/

import ZuTalk.Library.Text

namespace ZuTalk

/-- `NIKHAHIT`. -/
def nikhahit : Char := Char.ofNat 0x0E4D

/-- `SARA_AA`. -/
def saraAa : Char := Char.ofNat 0x0E32

/-- `SARA_AM`. -/
def saraAm : Char := Char.ofNat 0x0E33

/-- `is_thai_tone_mark`. -/
def isThaiToneMark (c : Char) : Bool := 0x0E48 ≤ c.toNat && c.toNat ≤ 0x0E4B

/-- `is_han_or_kana`. -/
def isHanOrKana (c : Char) : Bool :=
  (0x3040 ≤ c.toNat && c.toNat ≤ 0x30FF) || (0x3400 ≤ c.toNat && c.toNat ≤ 0x9FFF) ||
    (0xF900 ≤ c.toNat && c.toNat ≤ 0xFAFF)

/-- `is_thai`. -/
def isThai (c : Char) : Bool := 0x0E00 ≤ c.toNat && c.toNat ≤ 0x0E7F

/-- `is_wide_punctuation`. -/
def isWidePunctuation (c : Char) : Bool :=
  (0x3000 ≤ c.toNat && c.toNat ≤ 0x303F) || (0xFF01 ≤ c.toNat && c.toNat ≤ 0xFF20) ||
    (0xFF3B ≤ c.toNat && c.toNat ≤ 0xFF40) || (0xFF5B ≤ c.toNat && c.toNat ≤ 0xFF65)

/-- `is_provider_space`. -/
def isProviderSpace (c : Char) : Bool :=
  c = ' ' || c = '\t' || c.toNat = 0x00A0 || c.toNat = 0x202F

/-- `space_is_noise`. -/
def spaceIsNoise (previous next : Option Char) : Bool :=
  match previous, next with
  | _, none => false
  | none, some next => isHanOrKana next || isWidePunctuation next
  | some previous, some next => isWidePunctuation previous || isWidePunctuation next

/-- The loop of `normalize_pieces`: what it pushes, and onto which piece. -/
def normalizeFlat (collapseSpaces : Bool) (previous : Option Char) :
    List (Char × ℕ) → List (Char × ℕ)
  | [] => []
  | (character, piece) :: rest =>
      let plain := fun (_ : Unit) =>
        if collapseSpaces && isProviderSpace character then
          let spaces := (character, piece) :: rest.takeWhile (isProviderSpace ·.1)
          let after := rest.dropWhile (isProviderSpace ·.1)
          if spaceIsNoise previous (after.head?.map (·.1)) then
            normalizeFlat collapseSpaces previous after
          else spaces ++ normalizeFlat collapseSpaces (spaces.getLast?.map (·.1)) after
        else (character, piece) :: normalizeFlat collapseSpaces (some character) rest
      if character = nikhahit then
        match rest with
        | (second, _) :: after =>
            if second = saraAa then
              (saraAm, piece) :: normalizeFlat collapseSpaces (some saraAm) after
            else match after with
              | (third, _) :: after' =>
                  if third = saraAa ∧ isThaiToneMark second then
                    (second, piece) :: (saraAm, piece) ::
                      normalizeFlat collapseSpaces (some saraAm) after'
                  else plain ()
              | [] => plain ()
        | [] => plain ()
      else plain ()
  termination_by l => l.length
  decreasing_by
    all_goals simp only [List.length_cons]
    all_goals have := (List.dropWhile_sublist (fun p : Char × ℕ => isProviderSpace p.1)
      (l := rest)).length_le
    all_goals simp_all
    all_goals omega

/-- `normalize_pieces`. -/
def normalizePieces (pieces : List String) (collapseSpaces : Bool) : List String :=
  let flat := (pieces.zipIdx.flatMap fun piece => piece.1.toList.map fun c => (c, piece.2))
  let pushed := normalizeFlat collapseSpaces none flat
  (List.range pieces.length).map fun piece =>
    String.ofList ((pushed.filter fun p => p.2 = piece).map (·.1))

/-- `normalize_provider_text`. -/
def normalizeProviderText (text : String) : String :=
  if !text.toList.contains nikhahit && !text.toList.any isProviderSpace then text
  else (normalizePieces [text] true).headD ""

/-- `primary_language`. -/
def primaryLanguage (language : String) : String :=
  Text.toAsciiLowercase (Text.beforeAny ['-', '_'] (Text.trimStr language))

/-- `is_unspaced_language`. -/
def isUnspacedLanguage (language : String) : Bool :=
  ["th", "lo", "km", "my", "zh", "yue", "ja"].contains language

/-- The loop of `remove_seams_between_characters`; `last` is the last character
of the output. -/
def removeSeams (last : Option Char) : List Char → List Char
  | [] => []
  | c :: rest =>
      if isProviderSpace c then
        let spaces := c :: rest.takeWhile isProviderSpace
        let after := rest.dropWhile isProviderSpace
        if last.any isHanOrKana && after.head?.any isHanOrKana then removeSeams last after
        else spaces ++ removeSeams spaces.getLast? after
      else c :: removeSeams (some c) rest
  termination_by l => l.length
  decreasing_by
    all_goals simp only [List.length_cons]
    all_goals have := (List.dropWhile_sublist isProviderSpace (l := rest)).length_le
    all_goals omega

/-- `PARTICLES` of `drop_thai_politeness_particles`. -/
def particles : List (List Char) := ["ครับ".toList, "ค่ะ".toList, "คะ".toList]

/-- The loop of `drop_thai_politeness_particles`; `last` is the last character
of the output. -/
def dropParticles (last : Option Char) : List Char → List Char
  | [] => []
  | c :: rest =>
      match particles.find? fun particle =>
          particle.isPrefixOf (c :: rest) &&
            ((c :: rest).drop particle.length).head?.all (!isThai ·) && last.any isThai with
      | some particle => dropParticles last (rest.drop (particle.length - 1))
      | none => c :: dropParticles (some c) rest
  termination_by l => l.length
  decreasing_by
    all_goals simp only [List.length_cons, List.length_drop]
    all_goals omega

/-- `polish_translation`. -/
def polishTranslation (text sourceLanguage targetLanguage : String) : String :=
  let source := primaryLanguage sourceLanguage
  let target := primaryLanguage targetLanguage
  if source = target then text
  else if ["zh", "yue", "ja"].contains target && !isUnspacedLanguage source then
    String.ofList (removeSeams none text.toList)
  else if target = "th" then String.ofList (dropParticles none text.toList)
  else text

end ZuTalk
