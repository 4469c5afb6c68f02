/-
# Canonical languages

`crates/vt-store/src/notebook_capture_store.rs`: `canonical_language`, under which every table
keeps its languages, and `validate_language`; `crates/vt-model/src/script.rs`:
`script_contradicts_language`.

What `canonical_language` returns it returns again (`canonicalLanguage_idem`), so a stored language
is a value of `Language`, and comparing two of them is comparing their codes.
-/

import ZuTalk.Inbox.Candidates
import ZuTalk.Text.Script
import Mathlib.Data.List.DropRight

namespace ZuTalk
namespace Lanes

open Inbox (canonicalLanguage NotebookCaptureStoreError)

/-! ### Lower case and blanks -/

theorem toNat_toLower (c : Char) :
    c.toLower.toNat = if 65 ≤ c.toNat ∧ c.toNat ≤ 90 then c.toNat + 32 else c.toNat := by
  unfold Char.toLower
  split
  · rename_i h
    have hlo : 65 ≤ c.toNat := h.1
    have hhi : c.val.toNat ≤ 90 := h.2
    have hstep : ('a'.val - 'A'.val).toNat = 32 := by decide
    rw [if_pos ⟨hlo, hhi⟩]
    change (c.val + ('a'.val - 'A'.val)).toNat = c.val.toNat + 32
    rw [UInt32.toNat_add, hstep]
    omega
  · rename_i h
    exact (if_neg h).symm

theorem isWhitespace_toLower (c : Char) : Text.isWhitespace c.toLower = Text.isWhitespace c := by
  unfold Text.isWhitespace
  rw [toNat_toLower]
  split
  · rw [Bool.eq_iff_iff]
    simp
    omega
  · rfl

theorem toLower_toLower (c : Char) : c.toLower.toLower = c.toLower := by
  apply Char.toNat_inj.1
  rw [toNat_toLower c.toLower, if_neg]
  rw [toNat_toLower]
  split
  · omega
  · assumption

theorem toLower_eq_hyphen {c : Char} : c.toLower = '-' ↔ c = '-' := by
  have hhyphen : '-'.toNat = 45 := rfl
  rw [← Char.toNat_inj, ← Char.toNat_inj, toNat_toLower]
  split
  · omega
  · rfl

theorem trim_map_toLower (cs : List Char) :
    Text.trim (cs.map Char.toLower) = (Text.trim cs).map Char.toLower := by
  have hblank : (Text.isWhitespace ∘ Char.toLower) = Text.isWhitespace :=
    funext isWhitespace_toLower
  unfold Text.trim Text.trimEnd
  rw [List.dropWhile_map, hblank, ← List.map_reverse, List.dropWhile_map, hblank, List.map_reverse]

theorem trim_trim (cs : List Char) : Text.trim (Text.trim cs) = Text.trim cs := by
  have hkept : (Text.trim cs).dropWhile Text.isWhitespace = Text.trim cs := by
    refine List.dropWhile_eq_self_iff.2 fun hpos hblank => ?_
    have hfront : Text.trim cs <+: cs.dropWhile Text.isWhitespace :=
      List.rdropWhile_prefix (p := Text.isWhitespace) _
    have hlt := hpos.trans_le hfront.length_le
    rw [hfront.getElem hpos] at hblank
    exact List.dropWhile_get_zero_not _ _ hlt hblank
  change Text.trimEnd ((Text.trim cs).dropWhile Text.isWhitespace) = _
  rw [hkept]
  exact List.rdropWhile_idempotent _ _

/-- **Canonical once is canonical for good.** -/
theorem canonicalLanguage_idem (value : String) :
    canonicalLanguage (canonicalLanguage value) = canonicalLanguage value := by
  set cut := (Text.trim value.toList).takeWhile fun c => !(['-'].contains c) with hcut
  have hvalue : canonicalLanguage value =
      String.ofList ((Text.trim cut).map Char.toLower) := by
    simp only [canonicalLanguage, Text.toAsciiLowercase, Text.trimStr, Text.beforeAny,
      String.toList_ofList, hcut]
  have hplain : ∀ c ∈ (Text.trim cut).map Char.toLower, (!(['-'].contains c)) = true := by
    intro c hc
    obtain ⟨d, hd, rfl⟩ := List.mem_map.1 hc
    have hmem : d ∈ cut := (List.dropWhile_sublist Text.isWhitespace).mem
      ((List.rdropWhile_prefix (p := Text.isWhitespace) _).mem hd)
    have hne := List.mem_takeWhile_imp hmem
    simpa [toLower_eq_hyphen] using hne
  rw [hvalue]
  simp only [canonicalLanguage, Text.toAsciiLowercase, Text.trimStr, Text.beforeAny,
    String.toList_ofList]
  rw [trim_map_toLower, trim_trim, List.takeWhile_eq_self_iff.2 hplain, trim_map_toLower, trim_trim,
    List.map_map]
  exact congrArg String.ofList (List.map_congr_left fun c _ => toLower_toLower c)

/-! ### Languages of rows and lanes -/

/-- A language as the tables keep it. -/
structure Language where
  code : String
  canonical : canonicalLanguage code = code

instance : DecidableEq Language := fun a b =>
  decidable_of_iff (a.code = b.code) ⟨fun h => by cases a; cases b; cases h; rfl, fun h => h ▸ rfl⟩

/-- `canonical_language`. -/
def Language.of (value : String) : Language :=
  ⟨canonicalLanguage value, canonicalLanguage_idem value⟩

/-- No claim about the language. -/
def und : Language := ⟨"und", by decide⟩

/-- `validate_language`. -/
def validateLanguage (value : String) : Except NotebookCaptureStoreError Unit :=
  let value := Text.trimStr value
  let invalid := NotebookCaptureStoreError.validation s!"invalid language code '{value}'"
  if value = "" ∨ 32 < Text.byteLen value.toList ∨ value.toList.any fun c => 0x80 ≤ c.toNat then
    .error invalid
  else
    match value.toList.splitOn '-' with
    | [] => .error invalid
    | primary :: parts =>
        if ¬(2 ≤ primary.length ∧ primary.length ≤ 3) ∨ !primary.all Char.isAlpha then
          .error invalid
        else if parts.any fun part =>
            ¬(2 ≤ part.length ∧ part.length ≤ 8) || !part.all Char.isAlphanum then .error invalid
        else .ok ()

/-- `require_nonempty`. -/
def requireNonempty (field value : String) : Except NotebookCaptureStoreError Unit :=
  if Text.trimStr value = "" then .error (.validation s!"{field} cannot be empty") else .ok ()

/-- `script_contradicts_language`: none of the letters of a text is in a script of the language. -/
def scriptContradictsLanguage (text : String) (language : Language) : Bool :=
  match scriptsOfLanguage language.code with
  | none => false
  | some expected =>
      let letters := text.toList.filterMap scriptOf
      letters.length > 0 && letters.countP (expected.contains ·) = 0

example : scriptContradictsLanguage "我们走吧" (Language.of "th") = true := by decide +kernel

example : scriptContradictsLanguage "我们走吧" und = false := by decide +kernel

end Lanes
end ZuTalk
