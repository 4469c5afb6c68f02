/-
# Unicode text, as `char` and `str` of the Rust standard library see it

What a model of string handling needs of `char` and `str`: the `White_Space`
property behind `char::is_whitespace`, trimming, splitting, ASCII case, and
byte offsets into UTF-8 text.  `splitOff_append` is the rule for
`String::split_off`: cutting at the length of a prefix gives the prefix back.
-/

import Mathlib.Algebra.BigOperators.Group.List.Basic
import Mathlib.Algebra.GroupWithZero.Nat
import Mathlib.Data.List.Basic

namespace Text

/-- `char::is_whitespace`: the Unicode property `White_Space`. -/
def isWhitespace (c : Char) : Bool :=
  let n := c.toNat
  (9 ≤ n && n ≤ 13) || n = 0x20 || n = 0x85 || n = 0xA0 || n = 0x1680 ||
    (0x2000 ≤ n && n ≤ 0x200A) || n = 0x2028 || n = 0x2029 || n = 0x202F || n = 0x205F ||
    n = 0x3000

/-- `str::trim_end`, on the characters. -/
def trimEnd (cs : List Char) : List Char := (cs.reverse.dropWhile isWhitespace).reverse

/-- `str::trim`, on the characters. -/
def trim (cs : List Char) : List Char := trimEnd (cs.dropWhile isWhitespace)

/-- `str::trim`. -/
def trimStr (s : String) : String := String.ofList (trim s.toList)

/-- `str::split(separators).next()`: what stands before the first separator. -/
def beforeAny (separators : List Char) (s : String) : String :=
  String.ofList (s.toList.takeWhile fun c => !separators.contains c)

/-- `str::to_ascii_lowercase`. -/
def toAsciiLowercase (s : String) : String := String.ofList (s.toList.map Char.toLower)

/-- `str::split_whitespace().count()`. -/
def wordCount (s : String) : ℕ := ((s.toList.splitOnP isWhitespace).filter (!·.isEmpty)).length

/-- `str::len`: the length in bytes. -/
def byteLen (cs : List Char) : ℕ := (cs.map Char.utf8Size).sum

@[simp] theorem byteLen_nil : byteLen [] = 0 := rfl

@[simp] theorem byteLen_cons (c : Char) (cs : List Char) :
    byteLen (c :: cs) = c.utf8Size + byteLen cs := by simp [byteLen]

@[simp] theorem byteLen_append (as bs : List Char) :
    byteLen (as ++ bs) = byteLen as + byteLen bs := by simp [byteLen]

/-- `String::split_off`, on the characters: `none` is the panic of an offset
that is not on a character boundary. -/
def splitOff : List Char → ℕ → Option (List Char × List Char)
  | cs, 0 => some ([], cs)
  | [], _ + 1 => none
  | c :: cs, n + 1 =>
      if c.utf8Size ≤ n + 1 then
        (splitOff cs (n + 1 - c.utf8Size)).map fun parts => (c :: parts.1, parts.2)
      else none

/-- **Cutting at the length of a prefix** gives the prefix and the rest. -/
theorem splitOff_append (as bs : List Char) :
    splitOff (as ++ bs) (byteLen as) = some (as, bs) := by
  induction as with
  | nil => cases bs <;> rfl
  | cons c as ih =>
      have hpos := Char.utf8Size_pos c
      obtain ⟨n, hn⟩ : ∃ n, c.utf8Size + byteLen as = n + 1 := ⟨c.utf8Size + byteLen as - 1, by omega⟩
      have hrest : n + 1 - c.utf8Size = byteLen as := by omega
      rw [byteLen_cons, hn, List.cons_append, splitOff, if_pos (by omega), hrest, ih]
      rfl

/-- The two parts of a cut make the whole. -/
theorem splitOff_eq {cs as bs : List Char} {n : ℕ} (h : splitOff cs n = some (as, bs)) :
    cs = as ++ bs := by
  induction cs generalizing as n with
  | nil =>
      cases n with
      | zero =>
          cases h
          rfl
      | succ n => cases h
  | cons c cs ih =>
      cases n with
      | zero =>
          cases h
          rfl
      | succ n =>
          rw [splitOff] at h
          split at h
          · obtain ⟨parts, hparts, heq⟩ := Option.map_eq_some_iff.1 h
            cases heq
            rw [ih hparts]
            rfl
          · cases h

end Text
