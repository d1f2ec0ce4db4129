import Totality.Proofs.Text.Blanks
import Totality.Proofs.Text.PathName
import Totality.Script.Field

/-!
# Names of sound files

Whatever extension a script names, the file that is played is the one with the extension `mp3`, and a file name that has
got this extension keeps it. File names of two dots and an extension are the exception: without their extension they name
the directory above. The main statement is `normalises_iff`.
-/

namespace Totality

open Text PathName

namespace SoundFile

/-- The extension of the files that are played. -/
def played : List Char := "mp3".toList

/-- The sound file of a text is the file that the text names with the extension `mp3` in place of its own, or the text
without the blanks around it if it names no file. Whichever it is, it is its own sound file. -/
structure Normalises (cs : List Char) : Prop where
  again : soundFile (soundFile cs) = soundFile cs
  named : ∀ dir name s, Named dir name (trim cs) → IsStem s name →
    ∃ name', Named dir name' (soundFile cs) ∧ Extended s played name'
  unnamed : (∀ dir name, ¬Named dir name (trim cs)) → soundFile cs = trim cs

variable {cs dir name path s ext : List Char}

lemma played_ne_nil : played ≠ [] := by decide

lemma slash_not_mem_played : '/' ∉ played := by decide

lemma extended_played (hs : s ≠ []) : Extended s played (s ++ '.' :: played) := ⟨hs, by decide, rfl⟩

/-- An extension at the end leaves no blank there, and the beginning of the path stays. -/
lemma flush_append_played (h : Named dir name path) (hflush : Flush path) (hs : IsStem s name) :
    Flush (dir ++ s ++ '.' :: played) := by
  have hne : dir ++ s ≠ [] := by simp [hs.ne_nil h.isFileName.ne_nil]
  obtain ⟨rest, -, rfl⟩ := h.path_eq
  obtain ⟨back, rfl⟩ := hs.isPrefix
  constructor
  · intro c hc
    apply hflush.head c
    have hassoc : dir ++ (s ++ back) ++ rest = dir ++ s ++ (back ++ rest) := by simp
    rw [List.head?_append_of_ne_nil _ hne] at hc
    rw [hassoc, List.head?_append_of_ne_nil _ hne]
    exact hc
  · have hplayed : Flush ('.' :: played) := by decide
    rw [List.getLast?_append_of_ne_nil _ (List.cons_ne_nil _ _)]
    exact hplayed.last

lemma soundFile_eq (cs : List Char) : soundFile cs = withExtension played (trim cs) := rfl

/-- A stem that is more than a dot gets the extension. -/
lemma soundFile_of_isStem (h : Named dir name (trim cs)) (hs : IsStem s name) (hne : s ≠ ['.']) :
    soundFile cs = dir ++ s ++ '.' :: played := withExtension_of_isStem h hs hne

/-- With the extension, a path without blanks at its ends is its own sound file. -/
lemma soundFile_append_played (h : Named dir name path) (hflush : Flush path) (hs : IsStem s name) (hne : s ≠ ['.']) :
    soundFile (dir ++ s ++ '.' :: played) = dir ++ s ++ '.' :: played := by
  have hnamed := h.append_extension hs slash_not_mem_played played_ne_nil
  have hstem : IsStem s (s ++ '.' :: played) := Or.inl ⟨played, extended_played (hs.ne_nil h.isFileName.ne_nil)⟩
  rw [soundFile_eq, (flush_append_played h hflush hs).trim, withExtension_of_isStem hnamed hstem hne]

lemma normalises_of_not_named (h : ∀ dir name, ¬Named dir name (trim cs)) : Normalises cs := by
  have hsame : soundFile cs = trim cs := withExtension_of_not_named h
  refine ⟨?_, fun dir name s hnamed _ => absurd hnamed (h dir name), fun _ => hsame⟩
  rw [hsame, soundFile_eq, (flush_trim cs).trim, withExtension_of_not_named h]

lemma normalises_of_isStem (h : Named dir name (trim cs)) (hs : IsStem s name) (hne : s ≠ ['.']) : Normalises cs := by
  have hsound := soundFile_of_isStem h hs hne
  refine ⟨?_, fun dir' name' s' h' hs' => ?_, fun hnot => absurd h (hnot dir name)⟩
  · rw [hsound, soundFile_append_played h (flush_trim cs) hs hne]
  · -- a path has one directory part, one name and one stem
    obtain ⟨rfl, rfl⟩ : dir' = dir ∧ name' = name := by
      have hparts := (splitName_of_named h').symm.trans (splitName_of_named h)
      exact Prod.mk.inj hparts
    obtain rfl : s' = s := (isStem_iff.mp hs').symm.trans (isStem_iff.mp hs)
    refine ⟨s' ++ '.' :: played, ?_, extended_played (hs.ne_nil h.isFileName.ne_nil)⟩
    rw [hsound]
    exact h.append_extension hs slash_not_mem_played played_ne_nil

/-- A file name whose stem is a dot is two dots and an extension. -/
lemma isStem_dot_iff (h : IsFileName name) : IsStem ['.'] name ↔ ∃ ext, '.' ∉ ext ∧ name = '.' :: '.' :: ext := by
  constructor
  · rintro (⟨ext, -, hdot, rfl⟩ | ⟨hname, -⟩)
    · exact ⟨ext, hdot, rfl⟩
    · exact absurd hname.symm h.ne_dot
  · rintro ⟨ext, hdot, rfl⟩
    exact Or.inl ⟨ext, List.cons_ne_nil _ _, hdot, rfl⟩

/-- Two dots and an extension get the new extension only if something stands behind them, and lose it the next time. -/
lemma not_normalises_of_dot (h : Named dir name (trim cs)) (hs : IsStem ['.'] name) : ¬Normalises cs := by
  intro hnormal
  obtain ⟨name', hnamed, hextended⟩ := hnormal.named dir name ['.'] h hs
  obtain rfl := hextended.name_eq
  have hsound : soundFile cs = _ := withExtension_of_dot h hs
  have hshort : dir ++ ['.', '.'] ≠ dir ++ (['.'] ++ '.' :: played) := by simp [played_ne_nil]
  split at hsound
  · obtain ⟨rest, -, hpath⟩ := hnamed.path_eq
    have hlength := congrArg List.length (hsound.symm.trans hpath)
    simp [played_ne_nil] at hlength
  · have hflush : Flush (soundFile cs) := hsound ▸ flush_append_played h (flush_trim cs) hs
    have hself : dir ++ (['.'] ++ '.' :: played) = soundFile cs := by
      rw [hsound, List.append_assoc]
      rfl
    have hagain : soundFile (soundFile cs) = dir ++ ['.', '.'] := by
      rw [soundFile_eq (soundFile cs), hflush.trim, withExtension_of_dot hnamed (Or.inl ⟨_, hextended⟩), if_pos hself]
    rw [hnormal.again, ← hself] at hagain
    exact hshort hagain.symm

/-- The sound file of a text has the extension `mp3`, with the stem and the directory of the file that the text names, and
it is its own sound file, unless this file's name is two dots and an extension. Such a name becomes two dots if it ends
the text, and otherwise gets the extension, to lose it the next time. -/
theorem normalises_iff (cs : List Char) :
    (Normalises cs ↔ ¬∃ dir ext, '.' ∉ ext ∧ Named dir ('.' :: '.' :: ext) (trim cs)) ∧
      ∀ dir ext, '.' ∉ ext → Named dir ('.' :: '.' :: ext) (trim cs) →
        soundFile cs = if dir ++ '.' :: '.' :: ext = trim cs then dir ++ "..".toList else dir ++ "..mp3".toList := by
  refine ⟨⟨?_, fun hnot => ?_⟩, fun dir ext hdot h => ?_⟩
  · rintro hnormal ⟨dir, ext, hdot, h⟩
    exact not_normalises_of_dot h ((isStem_dot_iff h.isFileName).mpr ⟨ext, hdot, rfl⟩) hnormal
  · by_cases hnamed : ∃ dir name, Named dir name (trim cs)
    · obtain ⟨dir, name, h⟩ := hnamed
      refine normalises_of_isStem h (isStem_iff.mpr rfl) fun hstem => ?_
      obtain ⟨ext, hdot, rfl⟩ := (isStem_dot_iff h.isFileName).mp (isStem_iff.mpr hstem)
      exact hnot ⟨dir, ext, hdot, h⟩
    · exact normalises_of_not_named fun dir name h => hnamed ⟨dir, name, h⟩
  · rw [soundFile_eq, withExtension_of_dot h ((isStem_dot_iff h.isFileName).mpr ⟨ext, hdot, rfl⟩), List.append_assoc]
    rfl

example : soundFile " dir/a.tar.gz/. ".toList = "dir/a.tar.mp3".toList := by decide

/-- The file `..a` is named, and its sound file is the directory above, which is no file and has no extension. -/
theorem dotsA_not_normalises :
    Named [] "..a".toList (trim "..a".toList) ∧ soundFile "..a".toList = "..".toList ∧
      fileName? "..".toList = none ∧ ¬Normalises "..a".toList ∧
      soundFile "..a/".toList = "..mp3".toList ∧ soundFile "..mp3".toList = "..".toList := by
  have hnamed : Named [] "..a".toList (trim "..a".toList) :=
    ⟨Or.inl rfl, ⟨by decide, by decide, by decide, by decide⟩, [], .nil, by decide⟩
  have hstem : IsStem ['.'] "..a".toList := isStem_iff.mpr (by decide)
  exact ⟨hnamed, by decide, by decide, not_normalises_of_dot hnamed hstem, by decide, by decide⟩

end SoundFile

end Totality
