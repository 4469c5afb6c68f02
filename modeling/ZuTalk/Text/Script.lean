/-
# Which writing system a text is in

`crates/vt-model/src/script.rs`: `script_of`, `scripts_of_language`,
`language_written_in` and `is_latin_text`.
-/

import ZuTalk.Library.Text

namespace ZuTalk

/-- `Script`. -/
inductive Script
  | latin | han | kana | hangul | thai | lao | khmer | myanmar | cyrillic | greek | arabic | hebrew
  | devanagari
  deriving DecidableEq, Repr

/-- `script_of`: the script of a letter. -/
def scriptOf (character : Char) : Option Script :=
  let code := character.toNat
  let within := fun lo hi => decide (lo ≤ code) && decide (code ≤ hi)
  if within 0x0041 0x005A || within 0x0061 0x007A || within 0x00C0 0x024F ||
      within 0x1E00 0x1EFF then some .latin
  else if within 0x0370 0x03FF then some .greek
  else if within 0x0400 0x052F then some .cyrillic
  else if within 0x0590 0x05FF then some .hebrew
  else if within 0x0600 0x06FF || within 0x0750 0x077F then some .arabic
  else if within 0x0900 0x097F then some .devanagari
  else if within 0x0E00 0x0E7F then some .thai
  else if within 0x0E80 0x0EFF then some .lao
  else if within 0x1000 0x109F then some .myanmar
  else if within 0x1780 0x17FF then some .khmer
  else if within 0x1100 0x11FF || within 0x3130 0x318F || within 0xAC00 0xD7AF then some .hangul
  else if within 0x3040 0x30FF || within 0x31F0 0x31FF then some .kana
  else if within 0x3400 0x4DBF || within 0x4E00 0x9FFF || within 0xF900 0xFAFF then some .han
  else none

/-- The languages written in Latin letters that `scripts_of_language` knows. -/
def latinLanguages : List String :=
  ["en", "fr", "de", "es", "it", "pt", "nl", "sv", "da", "no", "nb", "fi", "pl", "cs", "sk", "hu",
    "ro", "tr", "id", "ms", "vi", "tl", "ca", "hr", "sl", "et", "lv", "lt", "sw"]

/-- `scripts_of_language`: the scripts a language is written in. -/
def scriptsOfLanguage (language : String) : Option (List Script) :=
  let primary := Text.toAsciiLowercase (Text.beforeAny ['-', '_'] (Text.trimStr language))
  if primary ∈ ["zh", "yue"] then some [.han]
  else if primary = "ja" then some [.han, .kana]
  else if primary = "ko" then some [.hangul, .han]
  else if primary = "th" then some [.thai]
  else if primary = "lo" then some [.lao]
  else if primary = "km" then some [.khmer]
  else if primary = "my" then some [.myanmar]
  else if primary ∈ ["ru", "uk", "bg", "sr", "mk", "be", "kk"] then some [.cyrillic]
  else if primary = "el" then some [.greek]
  else if primary ∈ ["ar", "fa", "ur"] then some [.arabic]
  else if primary = "he" then some [.hebrew]
  else if primary ∈ ["hi", "mr", "ne"] then some [.devanagari]
  else if primary ∈ latinLanguages then some [.latin]
  else none

/-- The one script of the letters of a text. -/
def onlyScript (text : String) : Option Script :=
  match text.toList.filterMap scriptOf with
  | [] => none
  | script :: rest => if rest.all (· = script) then some script else none

/-- `language_written_in`: the only candidate whose writing the text is in, when
its letters are all in one script other than Latin. -/
def languageWrittenIn (text : String) (candidates : List String) : Option String :=
  match (onlyScript text).filter (· ≠ .latin) with
  | none => none
  | some script =>
      match candidates.filter fun language =>
          (scriptsOfLanguage language).any fun scripts => scripts.contains script with
      | [only] => some only
      | _ => none

/-- `is_latin_text`: every letter is Latin, and there is one. -/
def isLatinText (text : String) : Bool :=
  let letters := text.toList.filterMap scriptOf
  !letters.isEmpty && letters.all (· = .latin)

end ZuTalk
