import Interhart.BootArguments
import Interhart.Proofs.Text.Words
import Mathlib.Data.List.Basic

/-!
# The setting that decides

The words of a command line are obeyed one after the other, and a word that sets the log limit
replaces what was set before it.  So the last setting on the line decides, whatever else is on
the line and wherever it stands.
-/

namespace Interhart
namespace BootArguments

/-!
# Settings
-/

/-- A word that sets the log limit.  There is no equals sign in the key, so the key ends in
front of the first one of the word. -/
def IsSetting (word : List Char) : Prop := ∃ value, word = limitKey ++ '=' :: value

/-- The limit that a value stands for: a level by its keyword, and otherwise none. -/
inductive Names : List Char → LogLimit → Prop
  | level (level : Level) : Names level.keyword.toList (some level)
  | other {value : List Char} : (∀ level : Level, value ≠ level.keyword.toList) →
    Names value none

theorem names_ofKeyword? (value : List Char) : Names value (Level.ofKeyword? value) := by
  cases hfound : Level.ofKeyword? value with
  | some level =>
      unfold Level.ofKeyword? at hfound
      have hkeyword := List.find?_some hfound
      rw [← of_decide_eq_true hkeyword]
      exact .level level
  | none =>
      refine .other fun level hkeyword => ?_
      have hall : level ∈ Level.all := by cases level <;> decide
      have hdiffers := List.find?_eq_none.mp hfound level hall
      exact hdiffers (decide_eq_true hkeyword.symm)

theorem Names.ofKeyword?_eq {value : List Char} {limit : LogLimit} (h : Names value limit) :
    Level.ofKeyword? value = limit := by
  cases h with
  | level level => cases level <;> rfl
  | other hdiffers =>
      refine List.find?_eq_none.mpr fun level _ hkeyword => ?_
      exact hdiffers level (of_decide_eq_true hkeyword).symm

/-!
# Words with an equals sign
-/

theorem assignment?_append {key : List Char} (h : '=' ∉ key) (value : List Char) :
    assignment? (key ++ '=' :: value) = some (key, value) := by
  unfold assignment?
  rw [dropWhile_ne_append h, takeWhile_ne_append h]

theorem eq_append_of_assignment? {word key value : List Char}
    (h : assignment? word = some (key, value)) : word = key ++ '=' :: value := by
  have hsplit := List.takeWhile_append_dropWhile (p := fun c => decide (c ≠ '=')) (l := word)
  have hstop := List.head?_dropWhile_not (fun c => decide (c ≠ '=')) word
  unfold assignment? at h
  split at h
  · cases h
  · rename_i first rest hrest
    rw [hrest] at hsplit hstop
    have hfirst : first = '=' := by simpa using hstop
    cases h
    subst hfirst
    exact hsplit.symm

theorem limitOf?_setting (value : List Char) :
    limitOf? (limitKey ++ '=' :: value) = some (Level.ofKeyword? value) := by
  unfold limitOf?
  rw [assignment?_append (by decide)]
  exact if_pos rfl

theorem limitOf?_eq_some_iff {word : List Char} {limit : LogLimit} :
    limitOf? word = some limit ↔ ∃ value, word = limitKey ++ '=' :: value ∧
      Names value limit := by
  constructor
  · intro h
    unfold limitOf? at h
    split at h
    · rename_i key value hassignment
      split at h
      · rename_i hkey
        cases h
        subst hkey
        exact ⟨value, eq_append_of_assignment? hassignment, names_ofKeyword? value⟩
      · cases h
    · cases h
  · rintro ⟨value, rfl, hnames⟩
    rw [limitOf?_setting, hnames.ofKeyword?_eq]

theorem limitOf?_eq_none_iff {word : List Char} : limitOf? word = none ↔ ¬IsSetting word := by
  constructor
  · rintro hnone ⟨value, rfl⟩
    rw [limitOf?_setting] at hnone
    cases hnone
  · intro hother
    cases hlimit : limitOf? word with
    | none => rfl
    | some limit =>
        rcases limitOf?_eq_some_iff.mp hlimit with ⟨value, hword, -⟩
        exact absurd ⟨value, hword⟩ hother

instance (word : List Char) : Decidable (IsSetting word) :=
  decidable_of_iff (limitOf? word ≠ none) (by rw [ne_eq, limitOf?_eq_none_iff, not_not])

/-!
# One word after the other
-/

def ownPrefix : List Char := "hartlink.".toList

def levelName : List Char := "log_level".toList

def obey (arguments : BootArguments) (word : List Char) : BootArguments :=
  match assignment? word with
  | none => arguments
  | some (key, value) =>
      match ownPrefix.isPrefixOf? key with
      | none => arguments
      | some name =>
          if name = levelName then { arguments with logLimit := Level.ofKeyword? value }
          else arguments

theorem isPrefixOf?_levelName_iff {key : List Char} :
    ownPrefix.isPrefixOf? key = some levelName ↔ key = limitKey := by
  rw [List.isPrefixOf?_eq_some_iff_append_eq]
  exact eq_comm

theorem obey_eq (arguments : BootArguments) (word : List Char) :
    obey arguments word = { logLimit := (limitOf? word).getD arguments.logLimit } := by
  unfold obey limitOf?
  cases assignment? word with
  | none => rfl
  | some assignment =>
      rcases assignment with ⟨key, value⟩
      dsimp only
      by_cases hkey : key = limitKey
      · rw [isPrefixOf?_levelName_iff.mpr hkey]
        simp [hkey]
      · rw [if_neg hkey]
        have hname : ownPrefix.isPrefixOf? key ≠ some levelName :=
          fun h => hkey (isPrefixOf?_levelName_iff.mp h)
        cases hrest : ownPrefix.isPrefixOf? key with
        | none => rfl
        | some name =>
            have hother : name ≠ levelName := fun h => hname (hrest.trans (congrArg some h))
            exact if_neg hother

theorem foldl_obey (line : List (List Char)) (arguments : BootArguments) :
    line.foldl obey arguments =
      { logLimit := ((line.filterMap limitOf?).getLast?).getD arguments.logLimit } := by
  induction line generalizing arguments with
  | nil => rfl
  | cons word rest ih =>
      rw [List.foldl_cons, ih, obey_eq]
      cases hlimit : limitOf? word with
      | none => rw [List.filterMap_cons_none hlimit, Option.getD_none]
      | some limit => rw [List.filterMap_cons_some hlimit, List.getLast?_cons, Option.getD_some,
          Option.getD_some]

theorem filterMap_limitOf?_eq_nil_iff {line : List (List Char)} :
    line.filterMap limitOf? = [] ↔ ∀ word ∈ line, ¬IsSetting word := by
  simp only [List.filterMap_eq_nil_iff, limitOf?_eq_none_iff]

theorem obey_of_not_setting {word : List Char} (h : ¬IsSetting word)
    (arguments : BootArguments) : obey arguments word = arguments := by
  rw [obey_eq, limitOf?_eq_none_iff.mpr h]
  rfl

theorem foldl_obey_of_no_setting {line : List (List Char)} (h : ∀ word ∈ line, ¬IsSetting word)
    (arguments : BootArguments) : line.foldl obey arguments = arguments := by
  rw [foldl_obey, filterMap_limitOf?_eq_nil_iff.mpr h]
  rfl

theorem foldl_obey_of_setting {line : List (List Char)} (h : ∃ word ∈ line, IsSetting word)
    (arguments others : BootArguments) :
    line.foldl obey arguments = line.foldl obey others := by
  rw [foldl_obey, foldl_obey]
  cases hlast : (line.filterMap limitOf?).getLast? with
  | some limit => rfl
  | none =>
      rcases h with ⟨word, hword, hsetting⟩
      have hother := filterMap_limitOf?_eq_nil_iff.mp (List.getLast?_eq_none_iff.mp hlast)
      exact absurd hsetting (hother word hword)

/-!
# The last setting
-/

/-- The limit that words ask for: the one that the value of the last setting stands for, and
none where there is no setting. -/
inductive Asks : List (List Char) → LogLimit → Prop
  | last {before after : List (List Char)} {value : List Char} {limit : LogLimit} :
      Names value limit → (∀ word ∈ after, ¬IsSetting word) →
      Asks (before ++ (limitKey ++ '=' :: value) :: after) limit
  | unset {line : List (List Char)} : (∀ word ∈ line, ¬IsSetting word) → Asks line none

theorem logLimit_foldl_obey_iff {line : List (List Char)} {limit : LogLimit} :
    (line.foldl obey {}).logLimit = limit ↔ Asks line limit := by
  constructor
  · rintro rfl
    rw [foldl_obey]
    cases hlast : (line.filterMap limitOf?).getLast? with
    | none =>
        exact .unset (filterMap_limitOf?_eq_nil_iff.mp (List.getLast?_eq_none_iff.mp hlast))
    | some limit =>
        rcases List.getLast?_eq_some_iff.mp hlast with ⟨earlier, hlimits⟩
        rcases List.filterMap_eq_append_iff.mp hlimits with ⟨front, back, rfl, -, hback⟩
        rcases List.filterMap_eq_cons_iff.mp hback with ⟨skipped, word, after, rfl, -,
          hword, hafter⟩
        rcases limitOf?_eq_some_iff.mp hword with ⟨value, rfl, hnames⟩
        rw [← List.append_assoc]
        exact .last hnames (filterMap_limitOf?_eq_nil_iff.mp hafter)
  · intro h
    cases h with
    | @last before after value limit hnames hafter =>
        rw [List.foldl_append, List.foldl_cons, foldl_obey_of_no_setting hafter, obey_eq,
          limitOf?_setting, hnames.ofKeyword?_eq]
        rfl
    | unset hother => rw [foldl_obey_of_no_setting hother]

/-!
# Command lines
-/

def HasSetting (line : String) : Prop := ∃ word ∈ words line.toList, IsSetting word

instance (line : String) : Decidable (HasSetting line) :=
  inferInstanceAs (Decidable (∃ word ∈ words line.toList, IsSetting word))

theorem ofCommandLine_eq_foldl (line : String) :
    ofCommandLine line = (words line.toList).foldl obey {} :=
  (foldl_obey (words line.toList) {}).symm

theorem ofCommandLine_append (line other : String) :
    ofCommandLine (line ++ " " ++ other) =
      if HasSetting other then ofCommandLine other else ofCommandLine line := by
  have hwords : words (line ++ " " ++ other).toList =
      words line.toList ++ words other.toList := by
    rw [String.toList_append, String.toList_append, List.append_assoc]
    exact words_append_blank (by decide) line.toList other.toList
  rw [ofCommandLine_eq_foldl, hwords, List.foldl_append, ofCommandLine_eq_foldl other,
    ofCommandLine_eq_foldl line]
  split
  · rename_i hsetting
    exact foldl_obey_of_setting hsetting _ _
  · rename_i hnone
    apply foldl_obey_of_no_setting
    intro word hword hsetting
    exact hnone ⟨word, hword, hsetting⟩

theorem ofCommandLine_insert {line longer : String} {before after : List (List Char)}
    {word : List Char} (hline : words line.toList = before ++ after)
    (hlonger : words longer.toList = before ++ word :: after) (hother : ¬IsSetting word) :
    ofCommandLine longer = ofCommandLine line := by
  rw [ofCommandLine_eq_foldl, ofCommandLine_eq_foldl, hline, hlonger, List.foldl_append,
    List.foldl_append, List.foldl_cons, obey_of_not_setting hother]

/-- The words of a command line, of which alone it consists, are obeyed one after the other,
and the last setting among them decides.  So further words behind a blank decide if there is a
setting among them, and do not matter otherwise, as no word matters that is no setting. -/
theorem last_setting_decides (line : String) :
    (∀ arguments, words line.toList = arguments ↔ ConsistsOf line.toList arguments) ∧
    ofCommandLine line = (words line.toList).foldl obey {} ∧
    (∀ limit, (ofCommandLine line).logLimit = limit ↔ Asks (words line.toList) limit) ∧
    (∀ other : String, ofCommandLine (line ++ " " ++ other) =
      if HasSetting other then ofCommandLine other else ofCommandLine line) ∧
    ∀ (longer : String) (before after : List (List Char)) (word : List Char),
      words line.toList = before ++ after → words longer.toList = before ++ word :: after →
      ¬IsSetting word → ofCommandLine longer = ofCommandLine line := by
  have hobeyed := ofCommandLine_eq_foldl line
  refine ⟨fun _ => words_eq_iff, hobeyed, fun limit => ?_, ofCommandLine_append line, ?_⟩
  · rw [hobeyed]
    exact logLimit_foldl_obey_iff
  · intro longer before after word hline hlonger hother
    exact ofCommandLine_insert hline hlonger hother

theorem last_setting_decides_crowdedLine :
    ¬IsSetting "hartlink.hartlink.log_level=info".toList ∧
    ofCommandLine "quiet hartlink.hartlink.log_level=info hartlink.log_level=warn" =
      ofCommandLine "quiet hartlink.log_level=warn" ∧
    (ofCommandLine "quiet hartlink.log_level=warn").logLimit = some .warn ∧
    ofCommandLine ("quiet hartlink.log_level=warn" ++ " " ++ "hartlink.log_level=debug=1") =
      ofCommandLine "hartlink.log_level=debug=1" ∧
    (ofCommandLine "hartlink.log_level=debug=1").logLimit = none := by
  rcases last_setting_decides "quiet hartlink.log_level=warn" with
    ⟨-, -, hlimit, happend, hinsert⟩
  have hother : ¬IsSetting "hartlink.hartlink.log_level=info".toList := by decide
  have hwords : words "quiet hartlink.log_level=warn".toList =
      ["quiet".toList] ++ ["hartlink.log_level=warn".toList] := by cbv
  have hlonger : words "quiet hartlink.hartlink.log_level=info hartlink.log_level=warn".toList =
      ["quiet".toList] ++ "hartlink.hartlink.log_level=info".toList ::
        ["hartlink.log_level=warn".toList] := by cbv
  have hlater : words "hartlink.log_level=debug=1".toList =
      [] ++ (limitKey ++ '=' :: "debug=1".toList) :: [] := by cbv
  refine ⟨hother, hinsert _ _ _ _ hwords hlonger hother, (hlimit _).mpr ?_, ?_, ?_⟩
  · rw [hwords]
    exact .last (.level .warn) (by simp)
  · refine (happend _).trans (if_pos ?_)
    refine ⟨limitKey ++ '=' :: "debug=1".toList, ?_, "debug=1".toList, rfl⟩
    rw [hlater]
    exact List.mem_singleton_self _
  · rcases last_setting_decides "hartlink.log_level=debug=1" with ⟨-, -, hlimit, -⟩
    refine (hlimit none).mpr ?_
    rw [hlater]
    refine .last (.other fun level => ?_) (by simp)
    cases level <;> decide

end BootArguments
end Interhart
