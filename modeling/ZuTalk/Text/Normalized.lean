/-
# What setting provider text changes

`normalize_provider_text` and `normalize_provider_pieces` of `crates/vt-model/src/text.rs` make one
pass over the characters (`Normalizes`).  The pass does not look at which token a character is from,
so the tokens joined are the join set; it leaves nothing for a second pass; and what it changes are
the vowels it composes and the spaces it takes out (`normalizeProvider_spec`).
-/

import ZuTalk.Library.Groups
import ZuTalk.Text.Provider
import Mathlib.Data.List.Infix
import Mathlib.Data.List.TakeWhile

namespace ZuTalk

/-- `normalize_provider_pieces`. -/
def normalizeProviderPieces (pieces : List String) : List String := normalizePieces pieces true

/-- What composes with a NIKHAHIT before it: SARA AA, or a tone mark and SARA AA. -/
def Completes (text : List Char) : Prop :=
  [saraAa] <+: text ∨ ∃ tone, isThaiToneMark tone ∧ [tone, saraAa] <+: text

/-- No NIKHAHIT is followed by SARA AA, with or without a tone mark between them. -/
def Composed (text : List Char) : Prop :=
  ¬ [nikhahit, saraAa] <:+: text ∧
    ∀ tone, isThaiToneMark tone → ¬ [nikhahit, tone, saraAa] <:+: text

/-- `Edited previous input output`: the output is the input with vowels composed, and with spaces
taken out that stand next to wide punctuation or at the start.  `previous` is the last character
before the output. -/
inductive Edited : Option Char → List Char → List Char → Prop
  | nil {previous : Option Char} : Edited previous [] []
  | composed {previous : Option Char} {input output : List Char}
      (rest : Edited (some saraAm) input output) :
      Edited previous (nikhahit :: saraAa :: input) (saraAm :: output)
  | composedAround {previous : Option Char} {tone : Char} {input output : List Char}
      (mark : isThaiToneMark tone) (rest : Edited (some saraAm) input output) :
      Edited previous (nikhahit :: tone :: saraAa :: input) (tone :: saraAm :: output)
  | removed {previous : Option Char} {spaces input output : List Char}
      (areSpaces : ∀ space ∈ spaces, isProviderSpace space)
      (beside : previous.all isWidePunctuation ∨ input.head?.any isWidePunctuation)
      (rest : Edited previous input output) : Edited previous (spaces ++ input) output
  | kept {previous : Option Char} {character : Char} {input output : List Char}
      (rest : Edited (some character) input output) :
      Edited previous (character :: input) (character :: output)

/-- **One pass**, on characters with the numbers of their tokens. -/
inductive Normalizes : Option Char → List (Char × ℕ) → List (Char × ℕ) → Prop
  | nil {previous : Option Char} : Normalizes previous [] []
  | composed {previous : Option Char} {piece other : ℕ} {input output : List (Char × ℕ)}
      (rest : Normalizes (some saraAm) input output) :
      Normalizes previous ((nikhahit, piece) :: (saraAa, other) :: input)
        ((saraAm, piece) :: output)
  | composedAround {previous : Option Char} {tone : Char} {piece i j : ℕ}
      {input output : List (Char × ℕ)} (mark : isThaiToneMark tone)
      (rest : Normalizes (some saraAm) input output) :
      Normalizes previous ((nikhahit, piece) :: (tone, i) :: (saraAa, j) :: input)
        ((tone, piece) :: (saraAm, piece) :: output)
  | removed {previous : Option Char} {space : Char × ℕ} {spaces input output : List (Char × ℕ)}
      (areSpaces : ∀ s ∈ space :: spaces, isProviderSpace s.1)
      (next : ∀ c ∈ input.head?, ¬ isProviderSpace c.1)
      (noise : spaceIsNoise previous (input.head?.map Prod.fst))
      (rest : Normalizes previous input output) :
      Normalizes previous (space :: spaces ++ input) output
  | keptSpaces {previous : Option Char} {space : Char × ℕ} {spaces input output : List (Char × ℕ)}
      (areSpaces : ∀ s ∈ space :: spaces, isProviderSpace s.1)
      (next : ∀ c ∈ input.head?, ¬ isProviderSpace c.1)
      (text : ¬ spaceIsNoise previous (input.head?.map Prod.fst))
      (rest : Normalizes ((space :: spaces).getLast?.map Prod.fst) input output) :
      Normalizes previous (space :: spaces ++ input) (space :: spaces ++ output)
  | kept {previous : Option Char} {character : Char} {piece : ℕ} {input output : List (Char × ℕ)}
      (notSpace : ¬ isProviderSpace character)
      (alone : character = nikhahit → ¬ Completes (input.map Prod.fst))
      (rest : Normalizes (some character) input output) :
      Normalizes previous ((character, piece) :: input) ((character, piece) :: output)

/-! ### The pass is the loop -/

theorem completes_cons {c : Char} {text : List Char} :
    Completes (c :: text) ↔ c = saraAa ∨ isThaiToneMark c ∧ [saraAa] <+: text := by
  unfold Completes
  constructor
  · rintro (h | ⟨tone, htone, h⟩)
    · exact .inl (List.cons_prefix_cons.1 h).1.symm
    · obtain ⟨rfl, hrest⟩ := List.cons_prefix_cons.1 h
      exact .inr ⟨htone, hrest⟩
  · rintro (rfl | ⟨htone, h⟩)
    · exact .inl (List.cons_prefix_cons.2 ⟨rfl, List.nil_prefix⟩)
    · exact .inr ⟨c, htone, List.cons_prefix_cons.2 ⟨rfl, h⟩⟩

theorem not_completes_nil : ¬ Completes [] := by
  rintro (h | ⟨tone, -, h⟩)
  · exact List.cons_ne_nil _ _ (List.prefix_nil.1 h)
  · exact List.cons_ne_nil _ _ (List.prefix_nil.1 h)

theorem saraAa_prefix_cons {c : Char} {text : List Char} :
    [saraAa] <+: c :: text ↔ c = saraAa := by
  rw [List.cons_prefix_cons]
  exact ⟨fun h => h.1.symm, fun h => ⟨h.symm, List.nil_prefix⟩⟩

section Loop

variable {previous : Option Char} {input : List (Char × ℕ)}

theorem normalizeFlat_kept {character : Char} {piece : ℕ} (hspace : ¬ isProviderSpace character)
    (hlone : character = nikhahit → ¬ Completes (input.map Prod.fst)) :
    normalizeFlat true previous ((character, piece) :: input) =
      (character, piece) :: normalizeFlat true (some character) input := by
  have hplain : (true && isProviderSpace character) = false := by simpa using hspace
  rw [normalizeFlat.eq_def]
  dsimp only
  rw [hplain]
  simp only [Bool.false_eq_true, if_false]
  split
  · rename_i hn
    have hnot := hlone hn
    cases input with
    | nil => rfl
    | cons second after =>
        rw [List.map_cons, completes_cons, not_or, not_and] at hnot
        dsimp only
        rw [if_neg hnot.1]
        cases after with
        | nil => rfl
        | cons third after' =>
            dsimp only
            rw [if_neg]
            rintro ⟨hthird, htone⟩
            exact hnot.2 htone (saraAa_prefix_cons.2 hthird)
  · rfl

theorem normalizeFlat_spaces {space : Char × ℕ} {spaces : List (Char × ℕ)}
    (hspaces : ∀ s ∈ space :: spaces, isProviderSpace s.1)
    (hnext : ∀ c ∈ input.head?, ¬ isProviderSpace c.1) :
    normalizeFlat true previous (space :: spaces ++ input) =
      if spaceIsNoise previous (input.head?.map Prod.fst) then normalizeFlat true previous input
      else space :: spaces ++
        normalizeFlat true ((space :: spaces).getLast?.map Prod.fst) input := by
  obtain ⟨character, piece⟩ := space
  obtain ⟨hspace, hrest⟩ := List.forall_mem_cons.1 hspaces
  have hne : character ≠ nikhahit := by
    rintro rfl
    have hnikhahit : isProviderSpace nikhahit = false := by decide
    exact Bool.false_ne_true (hnikhahit.symm.trans hspace)
  have hdrop : (spaces ++ input).dropWhile (fun p => isProviderSpace p.1) = input := by
    rw [List.dropWhile_append_of_pos hrest]
    cases input with
    | nil => rfl
    | cons c rest => exact List.dropWhile_cons_of_neg (hnext c rfl)
  have htake : (spaces ++ input).takeWhile (fun p => isProviderSpace p.1) = spaces := by
    rw [List.takeWhile_append_of_pos hrest]
    cases input with
    | nil => exact List.append_nil _
    | cons c rest =>
        have hstop : (c :: rest).takeWhile (fun p => isProviderSpace p.1) = [] :=
          List.takeWhile_cons_of_neg (hnext c rfl)
        rw [hstop, List.append_nil]
  have hsp : (true && isProviderSpace character) = true := hspace
  rw [List.cons_append, normalizeFlat.eq_def]
  simp only [hne, if_false, hsp, if_true, hdrop, htake]

end Loop

/-- The pass is what the loop does. -/
theorem Normalizes.eq {previous : Option Char} {input output : List (Char × ℕ)}
    (h : Normalizes previous input output) : normalizeFlat true previous input = output := by
  induction h with
  | nil => rw [normalizeFlat.eq_def]
  | composed rest ih =>
      rw [normalizeFlat.eq_def]
      simp only [if_true, ih]
  | @composedAround _ tone _ _ _ _ _ mark rest ih =>
      have hne : tone ≠ saraAa := by
        rintro rfl
        exact absurd mark (by decide)
      rw [normalizeFlat.eq_def]
      simp only [if_true, hne, if_false, mark, and_self, ih]
  | removed areSpaces next noise rest ih =>
      rw [normalizeFlat_spaces areSpaces next, if_pos noise, ih]
  | keptSpaces areSpaces next text rest ih =>
      rw [normalizeFlat_spaces areSpaces next, if_neg text, ih]
  | kept notSpace alone rest ih => rw [normalizeFlat_kept notSpace alone, ih]

/-- Everything has a pass. -/
theorem exists_normalizes (previous : Option Char) (input : List (Char × ℕ)) :
    ∃ output, Normalizes previous input output := by
  match input with
  | [] => exact ⟨[], .nil⟩
  | (character, piece) :: rest =>
      by_cases hspace : isProviderSpace character
      · have hsplit := List.takeWhile_append_dropWhile (p := fun p => isProviderSpace p.1)
          (l := rest)
        have hspaces : ∀ s ∈ (character, piece) :: rest.takeWhile fun p => isProviderSpace p.1,
            isProviderSpace s.1 :=
          List.forall_mem_cons.2 ⟨hspace, fun s hs =>
            List.mem_takeWhile_imp (p := fun p : Char × ℕ => isProviderSpace p.1) hs⟩
        have hnext : ∀ c ∈ (rest.dropWhile fun p => isProviderSpace p.1).head?,
            ¬ isProviderSpace c.1 := fun c hc => by
          have hnot := List.head?_dropWhile_not (fun p : Char × ℕ => isProviderSpace p.1) rest
          rw [Option.mem_def.1 hc] at hnot
          exact Bool.eq_false_iff.1 hnot
        have hlength := (List.dropWhile_sublist (fun p : Char × ℕ => isProviderSpace p.1)
          (l := rest)).length_le
        by_cases hnoise : spaceIsNoise previous
            ((rest.dropWhile fun p => isProviderSpace p.1).head?.map Prod.fst)
        · obtain ⟨output, h⟩ :=
            exists_normalizes previous (rest.dropWhile fun p => isProviderSpace p.1)
          refine ⟨output, ?_⟩
          rw [← hsplit]
          exact .removed hspaces hnext hnoise h
        · obtain ⟨output, h⟩ := exists_normalizes (((character, piece) ::
              rest.takeWhile fun p => isProviderSpace p.1).getLast?.map Prod.fst)
            (rest.dropWhile fun p => isProviderSpace p.1)
          have hpass := Normalizes.keptSpaces hspaces hnext hnoise h
          rw [List.cons_append, hsplit] at hpass
          exact ⟨_, hpass⟩
      · by_cases hcompletes : character = nikhahit ∧ Completes (rest.map Prod.fst)
        · obtain ⟨rfl, h | ⟨tone, htone, h⟩⟩ := hcompletes
          · match rest with
            | [] => exact absurd (.inl h) not_completes_nil
            | (second, other) :: after =>
                obtain rfl : second = saraAa := saraAa_prefix_cons.1 h
                obtain ⟨output, hafter⟩ := exists_normalizes (some saraAm) after
                exact ⟨_, .composed hafter⟩
          · match rest with
            | [] => exact absurd (.inr ⟨tone, htone, h⟩) not_completes_nil
            | [(second, other)] =>
                have hlength := h.length_le
                simp at hlength
            | (second, i) :: (third, j) :: after =>
                obtain ⟨rfl, hthird⟩ := List.cons_prefix_cons.1 h
                obtain rfl : third = saraAa := saraAa_prefix_cons.1 hthird
                obtain ⟨output, hafter⟩ := exists_normalizes (some saraAm) after
                exact ⟨_, .composedAround htone hafter⟩
        · obtain ⟨output, h⟩ := exists_normalizes (some character) rest
          exact ⟨_, .kept hspace (fun hn hc => hcompletes ⟨hn, hc⟩) h⟩
  termination_by input.length
  decreasing_by all_goals simp_all; try omega

theorem normalizes (previous : Option Char) (input : List (Char × ℕ)) :
    Normalizes previous input (normalizeFlat true previous input) := by
  obtain ⟨output, h⟩ := exists_normalizes previous input
  rwa [h.eq]

/-! ### Tokens -/

section Tokens

variable {previous : Option Char} {input output : List (Char × ℕ)}

/-- The numbers of the tokens do not matter to the pass. -/
theorem Normalizes.renumber (h : Normalizes previous input output) (f : ℕ → ℕ) :
    Normalizes previous (input.map (Prod.map id f)) (output.map (Prod.map id f)) := by
  have hchars : ∀ l : List (Char × ℕ), (l.map (Prod.map id f)).map Prod.fst = l.map Prod.fst :=
    fun l => by rw [List.map_map]; rfl
  have hhead : ∀ l : List (Char × ℕ),
      (l.map (Prod.map id f)).head?.map Prod.fst = l.head?.map Prod.fst := fun l => by
    rw [List.head?_map, Option.map_map]
    rfl
  have hspaces : ∀ l : List (Char × ℕ), (∀ s ∈ l, isProviderSpace s.1) →
      ∀ s ∈ l.map (Prod.map id f), isProviderSpace s.1 := fun l hl s hs => by
    obtain ⟨t, ht, rfl⟩ := List.mem_map.1 hs
    exact hl t ht
  have hnext : ∀ l : List (Char × ℕ), (∀ c ∈ l.head?, ¬ isProviderSpace c.1) →
      ∀ c ∈ (l.map (Prod.map id f)).head?, ¬ isProviderSpace c.1 := fun l hl c hc => by
    rw [List.head?_map] at hc
    obtain ⟨d, hd, rfl⟩ := Option.map_eq_some_iff.1 hc
    exact hl d hd
  induction h with
  | nil => exact .nil
  | composed rest ih => exact .composed ih
  | composedAround mark rest ih => exact .composedAround mark ih
  | removed areSpaces next noise rest ih =>
      rw [List.map_append]
      exact .removed (hspaces _ areSpaces) (hnext _ next) ((hhead _).symm ▸ noise) ih
  | @keptSpaces _ space spaces _ _ areSpaces next text rest ih =>
      have hlast : ((space :: spaces).map (Prod.map id f)).getLast?.map Prod.fst =
          (space :: spaces).getLast?.map Prod.fst := by
        rw [List.getLast?_map, Option.map_map]
        rfl
      rw [List.map_append, List.map_append]
      exact .keptSpaces (hspaces _ areSpaces) (hnext _ next) ((hhead _).symm ▸ text)
        (hlast.symm ▸ ih)
  | kept notSpace alone rest ih =>
      exact .kept notSpace (fun hn => (hchars _).symm ▸ alone hn) ih

/-- The tokens of the output are among those of the input. -/
theorem Normalizes.piece_mem (h : Normalizes previous input output) :
    ∀ entry ∈ output, ∃ other ∈ input, other.2 = entry.2 := by
  induction h with
  | nil => exact nofun
  | composed rest ih =>
      refine List.forall_mem_cons.2 ⟨⟨_, List.mem_cons_self, rfl⟩, fun entry hentry => ?_⟩
      obtain ⟨other, hother, heq⟩ := ih entry hentry
      exact ⟨other, List.mem_cons_of_mem _ (List.mem_cons_of_mem _ hother), heq⟩
  | composedAround mark rest ih =>
      refine List.forall_mem_cons.2 ⟨⟨_, List.mem_cons_self, rfl⟩,
        List.forall_mem_cons.2 ⟨⟨_, List.mem_cons_self, rfl⟩, fun entry hentry => ?_⟩⟩
      obtain ⟨other, hother, heq⟩ := ih entry hentry
      exact ⟨other, List.mem_cons_of_mem _ (List.mem_cons_of_mem _
        (List.mem_cons_of_mem _ hother)), heq⟩
  | removed areSpaces next noise rest ih =>
      intro entry hentry
      obtain ⟨other, hother, heq⟩ := ih entry hentry
      exact ⟨other, List.mem_append_right _ hother, heq⟩
  | keptSpaces areSpaces next text rest ih =>
      intro entry hentry
      rcases List.mem_append.1 hentry with hentry | hentry
      · exact ⟨entry, List.mem_append_left _ hentry, rfl⟩
      · obtain ⟨other, hother, heq⟩ := ih entry hentry
        exact ⟨other, List.mem_append_right _ hother, heq⟩
  | kept notSpace alone rest ih =>
      refine List.forall_mem_cons.2 ⟨⟨_, List.mem_cons_self, rfl⟩, fun entry hentry => ?_⟩
      obtain ⟨other, hother, heq⟩ := ih entry hentry
      exact ⟨other, List.mem_cons_of_mem _ hother, heq⟩

/-- Characters in the order of their tokens. -/
def InOrder (entries : List (Char × ℕ)) : Prop := (entries.map Prod.snd).Pairwise (· ≤ ·)

theorem inOrder_cons {entry : Char × ℕ} {entries : List (Char × ℕ)} :
    InOrder (entry :: entries) ↔ (∀ other ∈ entries, entry.2 ≤ other.2) ∧ InOrder entries := by
  unfold InOrder
  rw [List.map_cons, List.pairwise_cons, List.forall_mem_map]

theorem inOrder_append {l l' : List (Char × ℕ)} :
    InOrder (l ++ l') ↔ InOrder l ∧ InOrder l' ∧ ∀ a ∈ l, ∀ b ∈ l', a.2 ≤ b.2 := by
  unfold InOrder
  rw [List.map_append, List.pairwise_append, List.forall_mem_map]
  simp only [List.forall_mem_map]

/-- The pass keeps the characters in the order of their tokens. -/
theorem Normalizes.inOrder (h : Normalizes previous input output) (horder : InOrder input) :
    InOrder output := by
  induction h with
  | nil => exact horder
  | composed rest ih =>
      obtain ⟨hfirst, hrest⟩ := inOrder_cons.1 horder
      refine inOrder_cons.2 ⟨fun entry hentry => ?_, ih (inOrder_cons.1 hrest).2⟩
      obtain ⟨other, hother, heq⟩ := rest.piece_mem entry hentry
      exact heq ▸ hfirst other (List.mem_cons_of_mem _ hother)
  | @composedAround _ _ piece _ _ _ output mark rest ih =>
      obtain ⟨hfirst, hrest⟩ := inOrder_cons.1 horder
      have hall : ∀ entry ∈ output, piece ≤ entry.2 := fun entry hentry => by
        obtain ⟨other, hother, heq⟩ := rest.piece_mem entry hentry
        exact heq ▸ hfirst other (List.mem_cons_of_mem _ (List.mem_cons_of_mem _ hother))
      exact inOrder_cons.2 ⟨List.forall_mem_cons.2 ⟨le_rfl, hall⟩,
        inOrder_cons.2 ⟨hall, ih (inOrder_cons.1 (inOrder_cons.1 hrest).2).2⟩⟩
  | removed areSpaces next noise rest ih => exact ih (inOrder_append.1 horder).2.1
  | keptSpaces areSpaces next text rest ih =>
      obtain ⟨hspaces, hinput, hle⟩ := inOrder_append.1 horder
      refine inOrder_append.2 ⟨hspaces, ih hinput, fun a ha b hb => ?_⟩
      obtain ⟨other, hother, heq⟩ := rest.piece_mem b hb
      exact heq ▸ hle a ha other hother
  | kept notSpace alone rest ih =>
      obtain ⟨hfirst, hrest⟩ := inOrder_cons.1 horder
      refine inOrder_cons.2 ⟨fun entry hentry => ?_, ih hrest⟩
      obtain ⟨other, hother, heq⟩ := rest.piece_mem entry hentry
      exact heq ▸ hfirst other hother

end Tokens

/-- The characters of tokens, with the numbers of the tokens. -/
def flat (pieces : List String) : List (Char × ℕ) :=
  pieces.zipIdx.flatMap fun piece => piece.1.toList.map fun c => (c, piece.2)

theorem flat_fst (pieces : List String) :
    (flat pieces).map Prod.fst = (String.join pieces).toList := by
  have hpiece : ∀ (l : List String) (n : ℕ),
      ((l.zipIdx n).flatMap fun piece => piece.1.toList.map fun c => (c, piece.2)).map Prod.fst =
        l.flatMap String.toList := by
    intro l
    induction l with
    | nil => exact fun _ => rfl
    | cons piece l ih =>
        intro n
        rw [List.zipIdx_cons, List.flatMap_cons, List.map_append, ih, List.flatMap_cons,
          List.map_map]
        exact congrArg (· ++ _) (List.map_id _)
  rw [String.toList_join]
  exact hpiece pieces 0

/-- The tokens have their numbers in order. -/
theorem inOrder_flat (pieces : List String) (n : ℕ) :
    InOrder ((pieces.zipIdx n).flatMap fun piece => piece.1.toList.map fun c => (c, piece.2)) ∧
      ∀ entry ∈ (pieces.zipIdx n).flatMap fun piece => piece.1.toList.map fun c => (c, piece.2),
        n ≤ entry.2 ∧ entry.2 < n + pieces.length := by
  induction pieces generalizing n with
  | nil => exact ⟨List.Pairwise.nil, nofun⟩
  | cons piece pieces ih =>
      obtain ⟨horder, hrange⟩ := ih (n + 1)
      rw [List.zipIdx_cons, List.flatMap_cons]
      have hfirst : ∀ entry ∈ piece.toList.map fun c => (c, n), entry.2 = n := by
        intro entry hentry
        obtain ⟨c, -, rfl⟩ := List.mem_map.1 hentry
        rfl
      refine ⟨inOrder_append.2 ⟨?_, horder, fun a ha b hb => ?_⟩, fun entry hentry => ?_⟩
      · unfold InOrder
        rw [List.map_map]
        exact List.pairwise_map.2 (List.pairwise_of_forall fun _ _ => le_rfl)
      · rw [hfirst a ha]
        exact Nat.le_of_succ_le (hrange b hb).1
      · rw [List.length_cons]
        rcases List.mem_append.1 hentry with hentry | hentry
        · have := hfirst entry hentry
          omega
        · have := hrange entry hentry
          omega

/-- **Tokens set one by one are their join set**, on the characters. -/
theorem join_normalizeProviderPieces (pieces : List String) :
    (String.join (normalizeProviderPieces pieces)).toList =
      (normalizeFlat true none (flat pieces)).map Prod.fst := by
  have hpass := normalizes none (flat pieces)
  obtain ⟨horder, hrange⟩ := inOrder_flat pieces 0
  have hgroups := Groups.flatMap_filter (hpass.inOrder horder) (n := pieces.length)
    fun entry hentry => by
      obtain ⟨other, hother, heq⟩ := hpass.piece_mem entry hentry
      have := hrange other hother
      omega
  conv_rhs => rw [← hgroups]
  rw [String.toList_join, normalizeProviderPieces, normalizePieces, List.flatMap_map,
    List.map_flatMap]
  exact List.flatMap_congr fun piece _ => String.toList_ofList

/-! ### A second pass -/

section Second

variable {c p : Char} {previous : Option Char} {input output : List (Char × ℕ)}

theorem wide_eq_false_of_mark (h : isThaiToneMark c) : isWidePunctuation c = false := by
  simp only [isThaiToneMark, Bool.and_eq_true, decide_eq_true_eq] at h
  simp only [isWidePunctuation, Bool.or_eq_false_iff, Bool.and_eq_false_iff,
    decide_eq_false_iff_not]
  omega

theorem han_eq_false_of_mark (h : isThaiToneMark c) : isHanOrKana c = false := by
  simp only [isThaiToneMark, Bool.and_eq_true, decide_eq_true_eq] at h
  simp only [isHanOrKana, Bool.or_eq_false_iff, Bool.and_eq_false_iff, decide_eq_false_iff_not]
  omega

theorem not_space_of_mark (h : isThaiToneMark c) : ¬ isProviderSpace c := by
  intro hspace
  simp only [isProviderSpace, Bool.or_eq_true, decide_eq_true_eq] at hspace
  rcases hspace with ((rfl | rfl) | hspace) | hspace
  · exact absurd h (by decide)
  · exact absurd h (by decide)
  all_goals
    simp only [isThaiToneMark, Bool.and_eq_true, decide_eq_true_eq] at h
    omega

theorem saraAm_ne_nikhahit : saraAm ≠ nikhahit := by decide

theorem saraAm_ne_saraAa : saraAm ≠ saraAa := by decide

theorem not_mark_saraAm : ¬ isThaiToneMark saraAm := by decide

theorem wide_nikhahit : isWidePunctuation nikhahit = false := by decide

theorem ne_nikhahit_of_mark (h : isThaiToneMark c) : c ≠ nikhahit := by
  rintro rfl
  exact absurd h (by decide)

theorem ne_saraAa_of_mark (h : isThaiToneMark c) : c ≠ saraAa := by
  rintro rfl
  exact absurd h (by decide)

/-- A pass on text that does not begin with a space keeps the first character, or makes a mark of
a NIKHAHIT. -/
theorem Normalizes.head (h : Normalizes previous input output)
    (hnext : ∀ c ∈ input.head?, ¬ isProviderSpace c.1) :
    output.head?.map Prod.fst = input.head?.map Prod.fst ∨
      input.head?.map Prod.fst = some nikhahit ∧
        ∃ c, output.head?.map Prod.fst = some c ∧ (c = saraAm ∨ isThaiToneMark c) := by
  cases h with
  | nil => exact .inl rfl
  | composed rest => exact .inr ⟨rfl, _, rfl, .inl rfl⟩
  | composedAround mark rest => exact .inr ⟨rfl, _, rfl, .inr mark⟩
  | removed areSpaces next noise rest =>
      exact absurd (areSpaces _ List.mem_cons_self) (hnext _ rfl)
  | keptSpaces | kept => exact .inl rfl

/-- So spaces before it are as much noise as they were. -/
theorem Normalizes.next (h : Normalizes previous input output)
    (hnext : ∀ c ∈ input.head?, ¬ isProviderSpace c.1) :
    (∀ c ∈ output.head?, ¬ isProviderSpace c.1) ∧ ∀ before,
      spaceIsNoise before (output.head?.map Prod.fst) =
        spaceIsNoise before (input.head?.map Prod.fst) := by
  rcases h.head hnext with heq | ⟨hnikhahit, c, hc, hmark⟩
  · refine ⟨fun c hc => ?_, fun before => by rw [heq]⟩
    rw [Option.mem_def.1 hc] at heq
    obtain ⟨d, hd, hdc⟩ := Option.map_eq_some_iff.1 heq.symm
    exact hdc ▸ hnext d hd
  · have hspace : ¬ isProviderSpace c := by
      rcases hmark with rfl | hmark
      · decide
      · exact not_space_of_mark hmark
    have hwide : isWidePunctuation c = isWidePunctuation nikhahit := by
      rcases hmark with rfl | hmark
      · decide
      · rw [wide_eq_false_of_mark hmark]
        decide
    have hhan : isHanOrKana c = isHanOrKana nikhahit := by
      rcases hmark with rfl | hmark
      · decide
      · rw [han_eq_false_of_mark hmark]
        decide
    refine ⟨fun d hd => ?_, fun before => ?_⟩
    · rw [Option.mem_def.1 hd] at hc
      exact Option.some.inj hc ▸ hspace
    · rw [hc, hnikhahit]
      cases before with
      | none => simp only [spaceIsNoise, hwide, hhan]
      | some before => simp only [spaceIsNoise, hwide]

/-- After a character that is not wide, spaces are only taken out before one that is. -/
theorem Normalizes.wide_of_removed (h : Normalizes (some p) input output)
    (hp : isWidePunctuation p = false) (hnext : ∀ c ∈ input.head?, ¬ isProviderSpace c.1)
    (hnoise : spaceIsNoise (some p) (input.head?.map Prod.fst)) :
    ∃ c, output.head?.map Prod.fst = some c ∧ isWidePunctuation c := by
  cases hhead : input.head?.map Prod.fst with
  | none =>
      rw [hhead] at hnoise
      cases hnoise
  | some c =>
      rw [hhead] at hnoise
      have hwide : isWidePunctuation c := by simpa [spaceIsNoise, hp] using hnoise
      rcases h.head hnext with heq | ⟨hnikhahit, -⟩
      · exact ⟨c, heq.trans hhead, hwide⟩
      · rw [hhead] at hnikhahit
        rw [Option.some.inj hnikhahit] at hwide
        exact absurd hwide (by decide)

/-- What follows a character that is not wide begins with SARA AA only if it did. -/
theorem Normalizes.saraAa (h : Normalizes (some p) input output)
    (hp : isWidePunctuation p = false) (hout : [ZuTalk.saraAa] <+: output.map Prod.fst) :
    [ZuTalk.saraAa] <+: input.map Prod.fst := by
  cases h with
  | nil => exact hout
  | composed rest => exact absurd (saraAa_prefix_cons.1 hout) saraAm_ne_saraAa
  | composedAround mark rest => exact absurd (saraAa_prefix_cons.1 hout) (ne_saraAa_of_mark mark)
  | removed areSpaces next noise rest =>
      obtain ⟨c, hc, hwide⟩ := rest.wide_of_removed hp next noise
      cases output with
      | nil => cases hc
      | cons entry output =>
          obtain rfl := Option.some.inj hc
          rw [saraAa_prefix_cons.1 hout] at hwide
          exact absurd hwide (by decide)
  | keptSpaces areSpaces next text rest =>
      have hspace := areSpaces _ List.mem_cons_self
      rw [saraAa_prefix_cons.1 hout] at hspace
      exact absurd hspace (by decide)
  | kept notSpace alone rest => exact saraAa_prefix_cons.2 (saraAa_prefix_cons.1 hout)

/-- What follows a character that is not wide completes a NIKHAHIT only if it did. -/
theorem Normalizes.completes (h : Normalizes (some p) input output)
    (hp : isWidePunctuation p = false) (hout : Completes (output.map Prod.fst)) :
    Completes (input.map Prod.fst) := by
  cases h with
  | nil => exact hout
  | composed rest =>
      rcases completes_cons.1 hout with h | ⟨h, -⟩
      · exact absurd h saraAm_ne_saraAa
      · exact absurd h not_mark_saraAm
  | composedAround mark rest =>
      rcases completes_cons.1 hout with h | ⟨-, h⟩
      · exact absurd h (ne_saraAa_of_mark mark)
      · exact absurd (saraAa_prefix_cons.1 h) saraAm_ne_saraAa
  | removed areSpaces next noise rest =>
      obtain ⟨c, hc, hwide⟩ := rest.wide_of_removed hp next noise
      cases output with
      | nil => cases hc
      | cons entry output =>
          obtain rfl := Option.some.inj hc
          rcases completes_cons.1 hout with h | ⟨h, -⟩
          · rw [h] at hwide
            exact absurd hwide (by decide)
          · rw [wide_eq_false_of_mark h] at hwide
            cases hwide
  | keptSpaces areSpaces next text rest =>
      have hspace := areSpaces _ List.mem_cons_self
      rcases completes_cons.1 hout with h | ⟨h, -⟩
      · rw [h] at hspace
        exact absurd hspace (by decide)
      · exact absurd hspace (not_space_of_mark h)
  | kept notSpace alone rest =>
      refine completes_cons.2 ((completes_cons.1 hout).imp_right fun h => ⟨h.1, ?_⟩)
      exact rest.saraAa (wide_eq_false_of_mark h.1) h.2

/-- **A second pass changes nothing.** -/
theorem Normalizes.again (h : Normalizes previous input output) :
    Normalizes previous output output := by
  induction h with
  | nil => exact .nil
  | composed rest ih => exact .kept (by decide) (fun h => absurd h (by decide)) ih
  | composedAround mark rest ih =>
      refine .kept (not_space_of_mark mark) (fun h => absurd h (ne_nikhahit_of_mark mark)) ?_
      exact .kept (by decide) (fun h => absurd h (by decide)) ih
  | removed areSpaces next noise rest ih => exact ih
  | keptSpaces areSpaces next text rest ih =>
      obtain ⟨hnext, hnoise⟩ := rest.next next
      exact .keptSpaces areSpaces hnext ((hnoise _).symm ▸ text) ih
  | kept notSpace alone rest ih =>
      refine .kept notSpace (fun hn hcompletes => alone hn (rest.completes ?_ hcompletes)) ih
      rw [hn, wide_nikhahit]

theorem Composed.cons {text : List Char} (h : Composed text)
    (hc : c = nikhahit → ¬ Completes text) : Composed (c :: text) := by
  refine ⟨fun hinfix => ?_, fun tone htone hinfix => ?_⟩
  · rcases List.infix_cons_iff.1 hinfix with hprefix | hinfix
    · obtain ⟨hn, hrest⟩ := List.cons_prefix_cons.1 hprefix
      exact hc hn.symm (.inl hrest)
    · exact h.1 hinfix
  · rcases List.infix_cons_iff.1 hinfix with hprefix | hinfix
    · obtain ⟨hn, hrest⟩ := List.cons_prefix_cons.1 hprefix
      exact hc hn.symm (.inr ⟨tone, htone, hrest⟩)
    · exact h.2 tone htone hinfix

/-- **What comes of a pass is composed.** -/
theorem Normalizes.composed_output (h : Normalizes previous input output) :
    Composed (output.map Prod.fst) := by
  induction h with
  | nil =>
      refine ⟨fun h => ?_, fun tone _ h => ?_⟩
      · exact List.cons_ne_nil _ _ (List.infix_nil.1 h)
      · exact List.cons_ne_nil _ _ (List.infix_nil.1 h)
  | composed rest ih => exact ih.cons fun h => absurd h saraAm_ne_nikhahit
  | composedAround mark rest ih =>
      exact (ih.cons fun h => absurd h saraAm_ne_nikhahit).cons fun h =>
        absurd h (ne_nikhahit_of_mark mark)
  | removed areSpaces next noise rest ih => exact ih
  | @keptSpaces _ space spaces _ output areSpaces next text rest ih =>
      clear next text rest
      generalize space :: spaces = all at areSpaces
      induction all with
      | nil => exact ih
      | cons s all ihs =>
          refine (ihs fun t ht => areSpaces t (List.mem_cons_of_mem _ ht)).cons fun h => ?_
          have hs := areSpaces s List.mem_cons_self
          rw [h] at hs
          exact absurd hs (by decide)
  | kept notSpace alone rest ih =>
      refine ih.cons fun hn hcompletes => alone hn (rest.completes ?_ hcompletes)
      exact Eq.trans (congrArg isWidePunctuation hn) wide_nikhahit

end Second

/-! ### What a pass changes -/

theorem Edited.keptAll {spaces input output : List Char} {space : Char} {previous : Option Char}
    (h : Edited (space :: spaces).getLast? input output) :
    Edited previous (space :: spaces ++ input) (space :: spaces ++ output) := by
  induction spaces generalizing space previous with
  | nil => exact .kept h
  | cons next spaces ih =>
      rw [List.getLast?_cons_cons] at h
      exact .kept (ih h)

/-- A pass composes vowels and takes out spaces, and does nothing else. -/
theorem Normalizes.edited {previous : Option Char} {input output : List (Char × ℕ)}
    (h : Normalizes previous input output) :
    Edited previous (input.map Prod.fst) (output.map Prod.fst) := by
  induction h with
  | nil => exact .nil
  | composed rest ih => exact .composed ih
  | composedAround mark rest ih => exact .composedAround mark ih
  | @removed previous space spaces input output areSpaces next noise rest ih =>
      rw [List.map_append]
      refine .removed (List.forall_mem_map.2 areSpaces) ?_ ih
      rw [List.head?_map]
      cases hhead : input.head?.map Prod.fst with
      | none =>
          rw [hhead] at noise
          cases previous <;> cases noise
      | some c =>
          rw [hhead] at noise
          cases previous with
          | none => exact .inl rfl
          | some p => simpa [spaceIsNoise] using noise
  | keptSpaces areSpaces next text rest ih =>
      rw [List.map_append, List.map_append]
      refine Edited.keptAll ?_
      rw [← List.map_cons, List.getLast?_map]
      exact ih
  | kept notSpace alone rest ih => exact .kept ih

/-! ### The text as a whole -/

/-- Text without spaces and without a NIKHAHIT is as it is to be. -/
theorem normalizes_plain {previous : Option Char} {input : List (Char × ℕ)}
    (h : ∀ entry ∈ input, entry.1 ≠ nikhahit ∧ ¬ isProviderSpace entry.1) :
    Normalizes previous input input := by
  induction input generalizing previous with
  | nil => exact .nil
  | cons entry input ih =>
      obtain ⟨hentry, hrest⟩ := List.forall_mem_cons.1 h
      exact .kept hentry.2 (fun hn => absurd hn hentry.1) (ih hrest)

theorem toList_normalizeProviderText (text : String) :
    (normalizeProviderText text).toList =
      (normalizeFlat true none (text.toList.map fun c => (c, 0))).map Prod.fst := by
  unfold normalizeProviderText
  split
  · rename_i hplain
    have hchars : ∀ entry ∈ text.toList.map fun c => (c, 0),
        entry.1 ≠ nikhahit ∧ ¬ isProviderSpace entry.1 := by
      simp only [Bool.and_eq_true, Bool.not_eq_true', List.any_eq_false] at hplain
      rintro entry hentry
      obtain ⟨c, hc, rfl⟩ := List.mem_map.1 hentry
      refine ⟨?_, hplain.2 c hc⟩
      rintro rfl
      simp [hc] at hplain
    rw [(normalizes_plain hchars).eq, List.map_map]
    exact (List.map_id _).symm
  · have hjoin := join_normalizeProviderPieces [text]
    have hone : flat [text] = text.toList.map fun c => (c, 0) := List.flatMap_singleton ..
    rw [hone] at hjoin
    rw [← hjoin]
    obtain ⟨only, honly⟩ : ∃ only, normalizePieces [text] true = [only] := ⟨_, rfl⟩
    rw [normalizeProviderPieces, honly]
    simp

/-- The pass of the text, whatever tokens it comes in. -/
theorem normalizes_text (text : String) : ∃ output,
    Normalizes none (text.toList.map fun c => (c, 0)) output ∧
      (normalizeProviderText text).toList = output.map Prod.fst :=
  ⟨_, normalizes none _, toList_normalizeProviderText text⟩

/-- **Setting provider text.**  Tokens set one by one give one token each, and together the join
set.  Setting text again changes nothing, no NIKHAHIT is left before a SARA AA, and nothing is
changed but the vowels composed and the spaces taken out next to wide punctuation or at the
start. -/
theorem normalizeProvider_spec :
    (∀ pieces : List String, (normalizeProviderPieces pieces).length = pieces.length ∧
      String.join (normalizeProviderPieces pieces) =
        normalizeProviderText (String.join pieces)) ∧
    ∀ text : String,
      normalizeProviderText (normalizeProviderText text) = normalizeProviderText text ∧
      Composed (normalizeProviderText text).toList ∧
      Edited none text.toList (normalizeProviderText text).toList := by
  have hzero : ∀ l : List (Char × ℕ),
      l.map (Prod.map id fun _ => 0) = (l.map Prod.fst).map fun c => (c, 0) := fun l => by
    rw [List.map_map]
    rfl
  refine ⟨fun pieces => ⟨?_, ?_⟩, fun text => ?_⟩
  · rw [normalizeProviderPieces, normalizePieces, List.length_map, List.length_range]
  · refine String.toList_injective ?_
    have hpass := (normalizes none (flat pieces)).renumber fun _ => 0
    rw [hzero, flat_fst] at hpass
    rw [join_normalizeProviderPieces, toList_normalizeProviderText, hpass.eq, List.map_map]
    rfl
  · obtain ⟨output, hpass, houtput⟩ := normalizes_text text
    refine ⟨String.toList_injective ?_, ?_, ?_⟩
    · have hagain := hpass.again.renumber fun _ => 0
      rw [hzero] at hagain
      rw [toList_normalizeProviderText, houtput, hagain.eq, List.map_map]
      exact List.map_id _
    · rw [houtput]
      exact hpass.composed_output
    · have hedited := hpass.edited
      rw [List.map_map] at hedited
      rw [houtput]
      exact (List.map_id text.toList) ▸ hedited

end ZuTalk
