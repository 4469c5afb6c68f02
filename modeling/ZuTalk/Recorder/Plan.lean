/-
# The connections of a capture

`remote_stream_plan` of `crates/vt-ffi/src/notebook_capture_api.rs` and
`normalized_subtitle_only_languages` of `crates/vt-store/src/notebook_capture_store.rs`.

Whatever languages are selected, and whichever of them are only read, what is said in a spoken
language is translated into every other selected one (`remoteStreamPlan_covers`).
-/

import ZuTalk.Inbox.Candidates

namespace ZuTalk
namespace Recorder

open Inbox (canonicalLanguage)

/-- `TranslationConfig`. -/
inductive TranslationConfig
  | oneWay (targetLanguage : String)
  | twoWay (languageA languageB : String)
  deriving DecidableEq, Repr

/-- `RemoteStreamPlanEntry`: one connection. -/
structure RemoteStreamPlanEntry where
  targetLanguage : Option String
  translation : Option TranslationConfig
  deriving DecidableEq, Repr

/-- The error of `remote_stream_plan`. -/
inductive PlanError
  | validationFailed (message : String)
  deriving DecidableEq, Repr

/-- `normalized_subtitle_only_languages`. -/
def normalizedSubtitleOnlyLanguages (selectedLanguages subtitleOnlyLanguages : List String) :
    List String :=
  let requested := subtitleOnlyLanguages.map canonicalLanguage
  let kept := selectedLanguages.filter fun language => canonicalLanguage language ∈ requested
  if selectedLanguages.length ≤ kept.length then [] else kept

/-- `canonical` of `remote_stream_plan`. -/
def canonicalEntry (translation : Option TranslationConfig) : RemoteStreamPlanEntry :=
  ⟨none, translation⟩

/-- `auxiliary` of `remote_stream_plan`. -/
def auxiliaryEntries (targets : List String) : List RemoteStreamPlanEntry :=
  targets.map fun targetLanguage => ⟨some targetLanguage, some (.oneWay targetLanguage)⟩

/-- The languages that may be spoken: those that are selected, and not only read. -/
def spokenLanguages (selectedLanguages subtitleOnlyLanguages : List String) : List String :=
  selectedLanguages.filter fun language =>
    language ∉ normalizedSubtitleOnlyLanguages selectedLanguages subtitleOnlyLanguages

/-- `remote_stream_plan`. -/
def remoteStreamPlan (selectedLanguages subtitleOnlyLanguages : List String) :
    Except PlanError (List RemoteStreamPlanEntry) :=
  match selectedLanguages with
  | [] =>
      .error (.validationFailed "remote realtime capture requires at least one selected language")
  | [_] => .ok [canonicalEntry none]
  | [languageA, languageB] => .ok [canonicalEntry (some (.twoWay languageA languageB))]
  | selected =>
      let subtitleOnly := normalizedSubtitleOnlyLanguages selected subtitleOnlyLanguages
      let spoken := spokenLanguages selected subtitleOnlyLanguages
      match spoken with
      | [languageA, languageB] =>
          .ok (canonicalEntry (some (.twoWay languageA languageB)) :: auxiliaryEntries subtitleOnly)
      | spoken =>
          let targets := if spoken.length = 1 then subtitleOnly else selected
          -- there is a last one: three or more are selected
          let canonicalTarget := (subtitleOnly.head?.or selected.getLast?).getD ""
          .ok (canonicalEntry (some (.oneWay canonicalTarget)) ::
            auxiliaryEntries (targets.filter (· ≠ canonicalTarget)))

/-! ### What a connection translates -/

/-- The languages a connection translates into. -/
def RemoteStreamPlanEntry.targets (entry : RemoteStreamPlanEntry) : List String :=
  match entry.translation with
  | none => []
  | some (.oneWay targetLanguage) => [targetLanguage]
  | some (.twoWay languageA languageB) => [languageA, languageB]

/-- A connection translates what is said in one language into another. -/
def RemoteStreamPlanEntry.Translates (entry : RemoteStreamPlanEntry) (spoken target : String) :
    Prop :=
  match entry.translation with
  | none => False
  | some (.oneWay targetLanguage) => spoken ≠ targetLanguage ∧ target = targetLanguage
  | some (.twoWay languageA languageB) =>
      spoken = languageA ∧ target = languageB ∨ spoken = languageB ∧ target = languageA

/-- One connection of the plan is canonical: the first. -/
def OneCanonical (plan : List RemoteStreamPlanEntry) : Prop :=
  ∃ canonical auxiliary, plan = canonical :: auxiliary ∧ canonical.targetLanguage = none ∧
    ∀ entry ∈ auxiliary, entry.targetLanguage ≠ none

section Plan

variable {selectedLanguages subtitleOnlyLanguages : List String}

theorem normalized_sublist :
    (normalizedSubtitleOnlyLanguages selectedLanguages subtitleOnlyLanguages).Sublist
      selectedLanguages := by
  unfold normalizedSubtitleOnlyLanguages
  dsimp only
  split
  · exact List.nil_sublist _
  · exact List.filter_sublist

theorem normalized_subset {language : String}
    (h : language ∈ normalizedSubtitleOnlyLanguages selectedLanguages subtitleOnlyLanguages) :
    language ∈ selectedLanguages :=
  normalized_sublist.subset h

/-- A selected language is spoken or only read. -/
theorem spoken_or_subtitleOnly {language : String} (h : language ∈ selectedLanguages) :
    language ∈ spokenLanguages selectedLanguages subtitleOnlyLanguages ∨
      language ∈ normalizedSubtitleOnlyLanguages selectedLanguages subtitleOnlyLanguages := by
  by_cases hmem :
      language ∈ normalizedSubtitleOnlyLanguages selectedLanguages subtitleOnlyLanguages
  · exact .inr hmem
  · exact .inl (List.mem_filter.2 ⟨h, decide_eq_true hmem⟩)

theorem mem_auxiliaryEntries {targets : List String} {entry : RemoteStreamPlanEntry} :
    entry ∈ auxiliaryEntries targets ↔
      ∃ target ∈ targets, entry = ⟨some target, some (.oneWay target)⟩ := by
  simp only [auxiliaryEntries, List.mem_map, eq_comm]

/-- A language is the target of as many auxiliary connections as it is listed. -/
theorem countP_auxiliaryEntries (targets : List String) (language : String) :
    (auxiliaryEntries targets).countP (language ∈ ·.targets) = targets.count language := by
  unfold auxiliaryEntries
  rw [List.countP_map]
  refine List.countP_congr fun target _ => ?_
  have hone : language ∈ [target] ↔ target = language :=
    List.mem_singleton.trans ⟨Eq.symm, Eq.symm⟩
  exact (decide_eq_true_iff.trans hone).trans beq_iff_eq.symm

theorem oneCanonical_cons (translation : Option TranslationConfig) (targets : List String) :
    OneCanonical (canonicalEntry translation :: auxiliaryEntries targets) := by
  refine ⟨_, _, rfl, rfl, fun entry hentry => ?_⟩
  obtain ⟨target, -, rfl⟩ := mem_auxiliaryEntries.1 hentry
  exact nofun

/-- What a plan of the capture is to be. -/
structure Covers (selectedLanguages subtitleOnlyLanguages : List String)
    (plan : List RemoteStreamPlanEntry) : Prop where
  canonical : OneCanonical plan
  once : ∀ language, plan.countP (language ∈ ·.targets) ≤ selectedLanguages.count language
  pairs : ∀ spoken ∈ spokenLanguages selectedLanguages subtitleOnlyLanguages,
    ∀ target ∈ selectedLanguages, target ≠ spoken → ∃ entry ∈ plan, entry.Translates spoken target
  selected : ∀ entry ∈ plan, ∀ target ∈ entry.targets, target ∈ selectedLanguages

/-- A two-way connection between the two spoken languages, and one into each of the others. -/
theorem covers_twoWay {languageA languageB : String}
    (hspoken : spokenLanguages selectedLanguages subtitleOnlyLanguages = [languageA, languageB]) :
    Covers selectedLanguages subtitleOnlyLanguages
      (canonicalEntry (some (.twoWay languageA languageB)) ::
        auxiliaryEntries
          (normalizedSubtitleOnlyLanguages selectedLanguages subtitleOnlyLanguages)) where
  canonical := oneCanonical_cons _ _
  once language := by
    have hmem : ∀ spoken ∈ [languageA, languageB], spoken ∈ selectedLanguages ∧
        spoken ∉ normalizedSubtitleOnlyLanguages selectedLanguages subtitleOnlyLanguages := by
      intro spoken h
      rw [← hspoken] at h
      exact ⟨List.mem_of_mem_filter h, of_decide_eq_true (List.mem_filter.1 h).2⟩
    rw [List.countP_cons, countP_auxiliaryEntries]
    by_cases h : language ∈ [languageA, languageB]
    · have hone := List.count_pos_iff.2 (hmem language h).1
      have hnone := List.count_eq_zero_of_not_mem (hmem language h).2
      split <;> omega
    · have hle : (normalizedSubtitleOnlyLanguages selectedLanguages subtitleOnlyLanguages).count
          language ≤ selectedLanguages.count language := normalized_sublist.count_le language
      rw [if_neg (by simpa [RemoteStreamPlanEntry.targets, canonicalEntry] using h)]
      exact hle
  pairs spoken hmem target htarget hne := by
    rw [hspoken] at hmem
    rcases @spoken_or_subtitleOnly _ subtitleOnlyLanguages _ htarget with h | h
    · rw [hspoken] at h
      refine ⟨_, List.mem_cons_self, ?_⟩
      simp only [List.mem_cons, List.not_mem_nil, or_false] at hmem h
      change spoken = languageA ∧ target = languageB ∨ spoken = languageB ∧ target = languageA
      rcases hmem with rfl | rfl
      · exact .inl ⟨rfl, h.resolve_left hne⟩
      · exact .inr ⟨rfl, h.resolve_right hne⟩
    · exact ⟨_, List.mem_cons_of_mem _ (mem_auxiliaryEntries.2 ⟨target, h, rfl⟩), hne.symm, rfl⟩
  selected entry hentry target htarget := by
    rcases List.mem_cons.1 hentry with rfl | hentry
    · have h : target ∈ [languageA, languageB] := htarget
      rw [← hspoken] at h
      exact List.mem_of_mem_filter h
    · obtain ⟨other, hother, rfl⟩ := mem_auxiliaryEntries.1 hentry
      rw [List.mem_singleton.1 htarget]
      exact normalized_subset hother

/-- A one-way connection into a language, and one into each of the others. -/
theorem covers_oneWay {targets : List String} {canonicalTarget : String}
    (htargets : targets.Sublist selectedLanguages)
    (hcanonical : canonicalTarget ∈ selectedLanguages)
    (hpairs : ∀ spoken ∈ spokenLanguages selectedLanguages subtitleOnlyLanguages,
      ∀ target ∈ selectedLanguages, target ≠ spoken → target ∈ targets) :
    Covers selectedLanguages subtitleOnlyLanguages
      (canonicalEntry (some (.oneWay canonicalTarget)) ::
        auxiliaryEntries (targets.filter (· ≠ canonicalTarget))) where
  canonical := oneCanonical_cons _ _
  once language := by
    rw [List.countP_cons, countP_auxiliaryEntries]
    by_cases h : language = canonicalTarget
    · subst h
      have hone := List.count_pos_iff.2 hcanonical
      have hnone : (targets.filter (· ≠ language)).count language = 0 :=
        List.count_eq_zero_of_not_mem fun hmem => by simpa using (List.mem_filter.1 hmem).2
      split <;> omega
    · rw [if_neg (by simpa [RemoteStreamPlanEntry.targets, canonicalEntry] using h)]
      exact (List.filter_sublist.trans htargets).count_le language
  pairs spoken hmem target htarget hne := by
    by_cases h : target = canonicalTarget
    · exact ⟨_, List.mem_cons_self, h ▸ hne.symm, h⟩
    · refine ⟨_, List.mem_cons_of_mem _ (mem_auxiliaryEntries.2 ⟨target, ?_, rfl⟩), hne.symm, rfl⟩
      exact List.mem_filter.2 ⟨hpairs spoken hmem target htarget hne, decide_eq_true h⟩
  selected entry hentry target htarget := by
    rcases List.mem_cons.1 hentry with rfl | hentry
    · rw [List.mem_singleton.1 htarget]
      exact hcanonical
    · obtain ⟨other, hother, rfl⟩ := mem_auxiliaryEntries.1 hentry
      rw [List.mem_singleton.1 htarget]
      exact htargets.subset (List.mem_of_mem_filter hother)

theorem covers_one (language : String) :
    Covers [language] subtitleOnlyLanguages [canonicalEntry none] where
  canonical := oneCanonical_cons none []
  once _ := Nat.zero_le _
  pairs spoken hmem target htarget hne := by
    have hspoken := List.mem_singleton.1 (List.mem_of_mem_filter hmem)
    exact absurd ((List.mem_singleton.1 htarget).trans hspoken.symm) hne
  selected entry hentry target htarget := by
    rw [List.mem_singleton.1 hentry] at htarget
    cases htarget

theorem covers_two (languageA languageB : String) :
    Covers [languageA, languageB] subtitleOnlyLanguages
      [canonicalEntry (some (.twoWay languageA languageB))] where
  canonical := oneCanonical_cons (some (.twoWay languageA languageB)) []
  once language := by
    rw [List.countP_singleton]
    split
    · rename_i h
      exact List.count_pos_iff.2 (of_decide_eq_true h)
    · exact Nat.zero_le _
  pairs spoken hmem target htarget hne := by
    have hspoken := List.mem_of_mem_filter hmem
    simp only [List.mem_cons, List.not_mem_nil, or_false] at hspoken htarget
    refine ⟨_, List.mem_singleton_self _, ?_⟩
    rcases hspoken with rfl | rfl
    · exact .inl ⟨rfl, htarget.resolve_left hne⟩
    · exact .inr ⟨rfl, htarget.resolve_right hne⟩
  selected entry hentry target htarget := by
    rw [List.mem_singleton.1 hentry] at htarget
    exact htarget

/-- What is asked of a plan when the languages may be selected twice, and those only read need not
be selected. -/
def CoversEveryPair (selectedLanguages subtitleOnlyLanguages : List String) : Prop :=
  ∀ plan, remoteStreamPlan selectedLanguages subtitleOnlyLanguages = .ok plan →
    OneCanonical plan ∧ (∀ language, plan.countP (language ∈ ·.targets) ≤ 1) ∧
    (∀ spoken ∈ spokenLanguages selectedLanguages subtitleOnlyLanguages,
      ∀ target ∈ selectedLanguages ++ subtitleOnlyLanguages, target ≠ spoken →
        ∃ entry ∈ plan, entry.Translates spoken target) ∧
    ∀ entry ∈ plan, ∀ target ∈ entry.targets, target ∈ selectedLanguages

/-- A language that is only read and not selected gets no connection, and one that is selected
twice may get two. -/
theorem not_coversEveryPair :
    ¬ CoversEveryPair ["zh", "en", "th"] ["fr"] ∧ ¬ CoversEveryPair ["zh", "zh", "en"] [] := by
  refine ⟨fun h => ?_, fun h => ?_⟩
  · have hplan : remoteStreamPlan ["zh", "en", "th"] ["fr"] =
        .ok [⟨none, some (.oneWay "th")⟩, ⟨some "zh", some (.oneWay "zh")⟩,
          ⟨some "en", some (.oneWay "en")⟩] := by decide +kernel
    have hspoken : "zh" ∈ spokenLanguages ["zh", "en", "th"] ["fr"] := by decide +kernel
    obtain ⟨entry, hentry, htranslates⟩ :=
      (h _ hplan).2.2.1 "zh" hspoken "fr" (by decide) (by decide)
    simp only [List.mem_cons, List.not_mem_nil, or_false] at hentry
    rcases hentry with rfl | rfl | rfl
    · exact absurd htranslates.2 (by decide)
    · exact absurd htranslates.2 (by decide)
    · exact absurd htranslates.2 (by decide)
  · have hplan : remoteStreamPlan ["zh", "zh", "en"] [] =
        .ok [⟨none, some (.oneWay "en")⟩, ⟨some "zh", some (.oneWay "zh")⟩,
          ⟨some "zh", some (.oneWay "zh")⟩] := by decide +kernel
    exact absurd ((h _ hplan).2.1 "zh") (by decide)

/-- **The plan of a capture** has one canonical connection, translates into a selected language in
no more connections than the language is selected, and into no other, and translates what is said
in a spoken language into every other selected one. -/
theorem remoteStreamPlan_covers {plan : List RemoteStreamPlanEntry}
    (h : remoteStreamPlan selectedLanguages subtitleOnlyLanguages = .ok plan) :
    OneCanonical plan ∧
    (∀ language, plan.countP (language ∈ ·.targets) ≤ selectedLanguages.count language) ∧
    (∀ spoken ∈ spokenLanguages selectedLanguages subtitleOnlyLanguages,
      ∀ target ∈ selectedLanguages, target ≠ spoken →
        ∃ entry ∈ plan, entry.Translates spoken target) ∧
    ∀ entry ∈ plan, ∀ target ∈ entry.targets, target ∈ selectedLanguages := by
  suffices hcovers : Covers selectedLanguages subtitleOnlyLanguages plan from
    ⟨hcovers.canonical, hcovers.once, hcovers.pairs, hcovers.selected⟩
  unfold remoteStreamPlan at h
  split at h
  · cases h
  · obtain rfl := Except.ok.inj h
    exact covers_one _
  · obtain rfl := Except.ok.inj h
    exact covers_two _ _
  · rename_i hnil hone htwo
    dsimp only at h
    split at h
    · rename_i languageA languageB hspoken
      obtain rfl := Except.ok.inj h
      exact covers_twoWay hspoken
    · obtain rfl := Except.ok.inj h
      refine covers_oneWay ?_ ?_ fun spoken hmem target htarget hne => ?_
      · split
        · exact normalized_sublist
        · exact List.Sublist.refl _
      · -- it is one of those only read, or the last of all
        cases hhead : (normalizedSubtitleOnlyLanguages selectedLanguages
            subtitleOnlyLanguages).head? with
        | some first => exact normalized_subset (List.mem_of_head? hhead)
        | none =>
            obtain ⟨last, hlast⟩ : ∃ last, selectedLanguages.getLast? = some last :=
              Option.isSome_iff_exists.1 (List.getLast?_isSome.2 hnil)
            rw [hlast]
            exact List.mem_of_getLast? hlast
      · split
        · rename_i hlength
          rcases @spoken_or_subtitleOnly _ subtitleOnlyLanguages _ htarget with hmem' | hmem'
          · obtain ⟨only, honly⟩ := List.length_eq_one_iff.1 hlength
            rw [honly] at hmem hmem'
            exact absurd ((List.mem_singleton.1 hmem').trans (List.mem_singleton.1 hmem).symm) hne
          · exact hmem'
        · exact htarget

/-- Three of four languages are spoken. -/
theorem remoteStreamPlan_covers_four :
    ∃ plan, remoteStreamPlan ["zh", "en", "th", "ja"] ["th"] = .ok plan ∧
      ∃ entry ∈ plan, entry.Translates "zh" "ja" :=
  have hplan : remoteStreamPlan ["zh", "en", "th", "ja"] ["th"] =
      .ok [⟨none, some (.oneWay "th")⟩, ⟨some "zh", some (.oneWay "zh")⟩,
        ⟨some "en", some (.oneWay "en")⟩, ⟨some "ja", some (.oneWay "ja")⟩] := by
    decide +kernel
  ⟨_, hplan, (remoteStreamPlan_covers hplan).2.2.1 "zh" (by decide +kernel) "ja" (by decide)
    (by decide)⟩

end Plan

end Recorder
end ZuTalk
