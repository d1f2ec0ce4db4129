import Mathlib.Data.List.TakeWhile
import Mathlib.Tactic.Lemma
import Totality.Proofs.Text.Pieces
import Totality.Text.PathName

/-!
# Parts of path names

A path with a file name is its directory part, the name, and slashes and components `.` that do not count. A file name
with an extension is its stem, a dot and the extension. The functions on paths find these parts.
-/

namespace Totality.PathName

/-! ### File names -/

/-- What may stand behind a file name: slashes, and components `.` behind them. -/
inductive Trailing : List Char → Prop where
  | nil : Trailing []
  | slash {rest : List Char} : Trailing rest → Trailing ('/' :: rest)
  | dot {rest : List Char} : Trailing rest → Trailing ('/' :: '.' :: rest)

/-- A component of a path that is the name of a file. -/
structure IsFileName (name : List Char) : Prop where
  ne_nil : name ≠ []
  slash_not_mem : '/' ∉ name
  ne_dot : name ≠ ['.']
  ne_dots : name ≠ ['.', '.']

/-- The last component of the path is the name of a file, behind a directory part that is empty or ends with a slash. -/
structure Named (dir name path : List Char) : Prop where
  dir_closed : dir = [] ∨ ∃ parent, dir = parent ++ ['/']
  isFileName : IsFileName name
  path_eq : ∃ rest, Trailing rest ∧ path = dir ++ name ++ rest

variable {dir name path rest : List Char}

lemma Trailing.append {rest' : List Char} (h : Trailing rest) (h' : Trailing rest') : Trailing (rest ++ rest') := by
  induction h with
  | nil => exact h'
  | slash _ ih => exact .slash ih
  | dot _ ih => exact .dot ih

lemma dropTrailing_append (h : Trailing rest) (cs : List Char) :
    dropTrailing (rest.reverse ++ cs) = dropTrailing cs := by
  induction h generalizing cs with
  | nil => rfl
  | slash _ ih => rw [List.reverse_cons, List.append_assoc, ih, List.singleton_append, dropTrailing]
  | dot _ ih =>
    rw [List.reverse_cons, List.reverse_cons, List.append_assoc, List.append_assoc, ih, List.singleton_append,
      List.singleton_append, dropTrailing]

/-- What is dropped from the end does not count. -/
lemma exists_trailing (cs : List Char) : ∃ rest, Trailing rest ∧ cs.reverse = (dropTrailing cs).reverse ++ rest := by
  fun_induction dropTrailing cs with
  | case1 cs ih =>
    obtain ⟨rest, hrest, hcs⟩ := ih
    refine ⟨rest ++ ['/'], hrest.append (.slash .nil), ?_⟩
    rw [List.reverse_cons, hcs, List.append_assoc]
  | case2 cs ih =>
    obtain ⟨rest, hrest, hcs⟩ := ih
    refine ⟨rest ++ ['/', '.'], hrest.append (.dot .nil), ?_⟩
    rw [List.reverse_cons, List.reverse_cons, hcs, List.append_assoc, List.append_assoc]
    rfl
  | case3 cs => exact ⟨[], .nil, (List.append_nil _).symm⟩

/-- A file name at the end of a path stays. -/
lemma dropTrailing_of_isFileName (h : IsFileName name) (cs : List Char) :
    dropTrailing (name.reverse ++ cs) = name.reverse ++ cs := by
  obtain ⟨before, c, rfl⟩ := (List.eq_nil_or_concat name).resolve_left h.ne_nil
  have hslash := h.slash_not_mem
  rw [List.concat_eq_append] at hslash ⊢
  have hreverse : (before ++ [c]).reverse ++ cs = c :: (before.reverse ++ cs) := by simp
  rw [hreverse]
  unfold dropTrailing
  split
  · next heq =>
    cases heq
    exact absurd (by simp) hslash
  · next heq =>
    -- a component `.` has a slash right before its dot
    obtain ⟨rfl, hbefore⟩ := List.cons.inj heq
    obtain rfl | ⟨before, d, rfl⟩ := List.eq_nil_or_concat before
    · exact absurd rfl h.ne_dot
    · rw [List.concat_eq_append, List.reverse_concat, List.cons_append] at hbefore
      obtain ⟨rfl, -⟩ := List.cons.inj hbefore
      exact absurd (by simp) hslash
  · rfl

/-- The last component of a path is found behind its directory part. -/
lemma splitName_of_named (h : Named dir name path) : splitName path = (dir, name) := by
  obtain ⟨rest, hrest, rfl⟩ := h.path_eq
  have hreverse : (dir ++ name ++ rest).reverse = rest.reverse ++ (name.reverse ++ dir.reverse) := by simp
  have hname : ∀ c ∈ name.reverse, (c != '/') = true := by
    intro c hc
    rw [bne_iff_ne]
    rintro rfl
    exact h.isFileName.slash_not_mem (List.mem_reverse.mp hc)
  have hdir : ∀ c ∈ dir.reverse.head?, ¬(c != '/') = true := by
    obtain hdir | ⟨parent, hdir⟩ := h.dir_closed
    · simp [hdir]
    · simp [hdir]
  obtain ⟨htake, hdrop⟩ := Text.takeWhile_dropWhile_append hname dir.reverse hdir
  rw [splitName, hreverse, dropTrailing_append hrest, dropTrailing_of_isFileName h.isFileName, htake, hdrop,
    List.reverse_reverse, List.reverse_reverse]

lemma fileName?_of_named (h : Named dir name path) : fileName? path = some name := by
  obtain ⟨hne, -, hdot, hdots⟩ := h.isFileName
  rw [fileName?, splitName_of_named h]
  simp [hne, hdot, hdots]

/-- A path with a file name is made of the parts that are found. -/
lemma named_of_fileName? (h : fileName? path = some name) : Named (splitName path).1 name path := by
  obtain ⟨rest, hrest, hpath⟩ := exists_trailing path.reverse
  rw [List.reverse_reverse] at hpath
  rw [fileName?] at h
  split at h
  · cases h
  · next hname =>
    obtain rfl := Option.some.inj h
    rw [Bool.or_eq_true, Bool.or_eq_true, not_or, not_or, List.isEmpty_iff, decide_eq_true_iff, decide_eq_true_iff] at hname
    obtain ⟨⟨hne, hdot⟩, hdots⟩ := hname
    rw [splitName] at *
    generalize dropTrailing path.reverse = kept at *
    refine ⟨?_, ⟨hne, fun hslash => ?_, hdot, hdots⟩, rest, hrest, ?_⟩
    · cases hdrop : kept.dropWhile (· != '/') with
      | nil => exact Or.inl rfl
      | cons c parent =>
        have hfirst := List.head?_dropWhile_not (· != '/') kept
        rw [hdrop] at hfirst
        obtain rfl : c = '/' := by simpa using hfirst
        exact Or.inr ⟨parent.reverse, List.reverse_cons⟩
    · have hkept := List.mem_takeWhile_imp (List.mem_reverse.mp hslash)
      exact absurd hkept (by decide)
    · rw [← List.reverse_append, List.takeWhile_append_dropWhile, hpath]

/-- A path without a last component that names a file has no file name. -/
lemma fileName?_eq_none (h : ∀ dir name, ¬Named dir name path) : fileName? path = none := by
  cases hname : fileName? path with
  | none => rfl
  | some name => exact absurd (named_of_fileName? hname) (h _ _)

/-! ### Extensions -/

/-- A file name with an extension: the extension holds no dot, and something stands before its dot. -/
structure Extended (stem ext name : List Char) : Prop where
  stem_ne : stem ≠ []
  dot_not_mem : '.' ∉ ext
  name_eq : name = stem ++ '.' :: ext

/-- What is left of a file name without its extension, if it has one. -/
def IsStem (s name : List Char) : Prop := (∃ ext, Extended s ext name) ∨ s = name ∧ ∀ s' ext, ¬Extended s' ext name

variable {s ext : List Char}

lemma stem_of_extended (h : Extended s ext name) : stem name = s := by
  obtain ⟨hne, hdot, rfl⟩ := h
  have hreverse : (s ++ '.' :: ext).reverse = ext.reverse ++ '.' :: s.reverse := by simp
  have hext : ∀ c ∈ ext.reverse, (c != '.') = true := by
    intro c hc
    rw [bne_iff_ne]
    rintro rfl
    exact hdot (List.mem_reverse.mp hc)
  rw [stem, hreverse, List.dropWhile_append_of_pos hext, List.dropWhile_cons_of_neg (by decide)]
  simp [hne]

lemma stem_of_not_extended (h : ∀ s ext, ¬Extended s ext name) : stem name = name := by
  rw [stem]
  split
  · rfl
  · next c before hdrop =>
    split
    · rfl
    · next hne =>
      -- the last dot and what stands on both sides of it
      have hjoin := List.takeWhile_append_dropWhile (p := (· != '.')) (l := name.reverse)
      have hfirst := List.head?_dropWhile_not (· != '.') name.reverse
      have hext : '.' ∉ name.reverse.takeWhile (· != '.') := fun hmem => absurd (List.mem_takeWhile_imp hmem) (by decide)
      rw [hdrop] at hjoin hfirst
      obtain rfl : c = '.' := by simpa using hfirst
      generalize name.reverse.takeWhile (· != '.') = ext at *
      refine absurd ⟨by simpa using hne, by simpa using hext, ?_⟩ (h before.reverse ext.reverse)
      rw [← List.reverse_inj, ← hjoin]
      simp

/-- The stem of a file name is found. -/
lemma isStem_iff : IsStem s name ↔ stem name = s := by
  constructor
  · rintro (⟨ext, h⟩ | ⟨rfl, h⟩)
    · exact stem_of_extended h
    · exact stem_of_not_extended h
  · rintro rfl
    by_cases hext : ∃ s ext, Extended s ext name
    · obtain ⟨s, ext, h⟩ := hext
      exact Or.inl ⟨ext, (stem_of_extended h).symm ▸ h⟩
    · have hnot : ∀ s ext, ¬Extended s ext name := fun s ext h => hext ⟨s, ext, h⟩
      exact Or.inr ⟨stem_of_not_extended hnot, hnot⟩

/-- A stem is not empty, and it is the beginning of its name. -/
lemma IsStem.ne_nil (h : IsStem s name) (hname : name ≠ []) : s ≠ [] := by
  obtain ⟨ext, h⟩ | ⟨rfl, -⟩ := h
  · exact h.stem_ne
  · exact hname

lemma IsStem.isPrefix (h : IsStem s name) : s <+: name := by
  obtain ⟨ext, -, -, rfl⟩ | ⟨rfl, -⟩ := h
  · exact List.prefix_append _ _
  · exact List.prefix_refl _

/-! ### Other extensions -/

lemma withExtension_of_not_named (h : ∀ dir name, ¬Named dir name path) : withExtension ext path = path := by
  rw [withExtension, fileName?_eq_none h]

/-- The extension is changed if the stem is more than a dot. -/
lemma withExtension_of_isStem (h : Named dir name path) (hs : IsStem s name) (hne : s ≠ ['.']) :
    withExtension ext path = dir ++ s ++ '.' :: ext := by
  rw [withExtension, fileName?_of_named h]
  dsimp only
  rw [isStem_iff.mp hs, if_neg fun hdot => hne hdot.1, splitName_of_named h]

/-- Two dots and an extension lose the extension at the end of a path, and get another one before it. -/
lemma withExtension_of_dot (h : Named dir name path) (hs : IsStem ['.'] name) :
    withExtension ext path = if dir ++ name = path then dir ++ ['.', '.'] else dir ++ ['.'] ++ '.' :: ext := by
  rw [withExtension, fileName?_of_named h]
  dsimp only
  rw [isStem_iff.mp hs, splitName_of_named h]
  simp

/-- A name with an extension is the name of a file. -/
lemma Named.append_extension (h : Named dir name path) (hs : IsStem s name) (hslash : '/' ∉ ext) (hext : ext ≠ []) :
    Named dir (s ++ '.' :: ext) (dir ++ s ++ '.' :: ext) := by
  have hne := hs.ne_nil h.isFileName.ne_nil
  have hmem : '/' ∉ s := fun hmem => h.isFileName.slash_not_mem (hs.isPrefix.subset hmem)
  have hlength : 3 ≤ (s ++ '.' :: ext).length := by
    have := List.length_pos_iff.mpr hne
    have := List.length_pos_iff.mpr hext
    rw [List.length_append, List.length_cons]
    omega
  have hlong : ∀ cs : List Char, cs.length < 3 → s ++ '.' :: ext ≠ cs := by
    rintro cs hcs rfl
    omega
  refine ⟨h.dir_closed, ⟨hlong _ (by decide), ?_, hlong _ (by decide), hlong _ (by decide)⟩, [], .nil, ?_⟩
  · simp [hmem, hslash]
  · simp

end Totality.PathName
