import Mathlib.Tactic.Lemma
import Totality.Text.Basic

/-!
# Blanks and separators

A text without blanks is not changed by trimming, and pieces without the separator are found again when they are
joined by it. So are lines that are written below one another.
-/

namespace Totality.Text

/-- A text in which no character is a blank. -/
def Solid (cs : List Char) : Prop := ∀ c ∈ cs, isBlank c = false

instance (cs : List Char) : Decidable (Solid cs) := List.decidableBAll _ cs

lemma solid_cons {c : Char} {cs : List Char} (hc : isBlank c = false) (hcs : Solid cs) : Solid (c :: cs) :=
  List.forall_mem_cons.mpr ⟨hc, hcs⟩

lemma Solid.append {cs ds : List Char} (hcs : Solid cs) (hds : Solid ds) : Solid (cs ++ ds) :=
  List.forall_mem_append.mpr ⟨hcs, hds⟩

lemma trimStart_of_head? {cs : List Char} (h : ∀ c ∈ cs.head?, isBlank c = false) : trimStart cs = cs := by
  cases cs with
  | nil => rfl
  | cons c cs => rw [Text.trimStart, List.dropWhile_cons_of_neg (by simp [h c rfl])]

/-- A text that neither begins nor ends with a blank. -/
lemma trim_of_ends {cs : List Char} (hhead : ∀ c ∈ cs.head?, isBlank c = false)
    (hlast : ∀ c ∈ cs.getLast?, isBlank c = false) : trim cs = cs := by
  rw [← List.head?_reverse] at hlast
  rw [Text.trim, trimStart_of_head? hhead, trimEnd, trimStart_of_head? hlast, List.reverse_reverse]

lemma Solid.trim {cs : List Char} (h : Solid cs) : trim cs = cs :=
  trim_of_ends (fun c hc => h c (List.mem_of_mem_head? hc)) fun c hc => h c (List.mem_of_getLast? hc)

/-- Whatever stands between two texts without blanks stays there. -/
lemma trim_solid_append {cs ds : List Char} (hcs : Solid cs) (hne : cs ≠ []) (hds : Solid ds) (hne' : ds ≠ [])
    (c : Char) : trim (cs ++ c :: ds) = cs ++ c :: ds := by
  obtain ⟨a, as, rfl⟩ := List.exists_cons_of_ne_nil hne
  obtain ⟨bs, b, rfl⟩ := (List.eq_nil_or_concat ds).resolve_left hne'
  apply trim_of_ends
  · intro d hd
    obtain rfl := Option.some.inj hd
    exact hcs a List.mem_cons_self
  · intro d hd
    have hconcat : a :: as ++ c :: bs.concat b = a :: as ++ c :: bs ++ [b] := by simp
    rw [hconcat, List.getLast?_concat] at hd
    obtain rfl := Option.some.inj hd
    exact hds b (by simp)

/-! ### Pieces -/

/-- There is always a piece, the empty text has the empty one. -/
lemma exists_splitAt (sep : Char) (cs : List Char) : ∃ p ps, splitAt sep cs = p :: ps := by
  cases cs with
  | nil => exact ⟨[], [], rfl⟩
  | cons c cs =>
    rw [splitAt, List.foldr_cons]
    split
    · exact ⟨_, _, rfl⟩
    · split
      · exact ⟨_, _, rfl⟩
      · exact ⟨_, _, rfl⟩

lemma splitAt_cons_of_ne {sep c : Char} (h : c ≠ sep) (cs : List Char) :
    ∃ p ps, splitAt sep cs = p :: ps ∧ splitAt sep (c :: cs) = (c :: p) :: ps := by
  obtain ⟨p, ps, hcs⟩ := exists_splitAt sep cs
  refine ⟨p, ps, hcs, ?_⟩
  rw [splitAt] at hcs
  rw [splitAt, List.foldr_cons, if_neg h, hcs]

/-- A text without the separator is one piece. -/
lemma splitAt_of_not_mem {sep : Char} {cs : List Char} (h : sep ∉ cs) : splitAt sep cs = [cs] := by
  induction cs with
  | nil => rfl
  | cons c cs ih =>
    rw [List.mem_cons, not_or] at h
    obtain ⟨p, ps, hcs, hsplit⟩ := splitAt_cons_of_ne (Ne.symm h.1) cs
    rw [ih h.2] at hcs
    cases hcs
    exact hsplit

/-- The piece in front of the first separator. -/
lemma splitAt_append {sep : Char} {cs : List Char} (h : sep ∉ cs) (ds : List Char) :
    splitAt sep (cs ++ sep :: ds) = cs :: splitAt sep ds := by
  induction cs with
  | nil =>
    rw [List.nil_append, splitAt, List.foldr_cons, if_pos rfl]
    rfl
  | cons c cs ih =>
    rw [List.mem_cons, not_or] at h
    obtain ⟨p, ps, hcs, hsplit⟩ := splitAt_cons_of_ne (Ne.symm h.1) (cs ++ sep :: ds)
    rw [ih h.2] at hcs
    cases hcs
    exact hsplit

/-- A cut at the first character that satisfies `p`. -/
lemma cut?_append {p : Char → Bool} {cs : List Char} (h : ∀ c ∈ cs, p c = false) {c : Char} (hc : p c)
    (ds : List Char) : cut? p (cs ++ c :: ds) = some (cs, ds) := by
  have hdrop : (cs ++ c :: ds).dropWhile (fun c => !p c) = c :: ds := by
    rw [List.dropWhile_append_of_pos (by simpa using h)]
    exact List.dropWhile_cons_of_neg (by simp [hc])
  have htake : (cs ++ c :: ds).takeWhile (fun c => !p c) = cs := by
    rw [List.takeWhile_append_of_pos (by simpa using h), List.takeWhile_cons_of_neg (by simp [hc]), List.append_nil]
  rw [cut?, hdrop, htake]

/-- The characters in front that satisfy `p`, and the rest. -/
lemma takeWhile_dropWhile_append {p : Char → Bool} {cs : List Char} (h : ∀ c ∈ cs, p c) (rest : List Char)
    (hrest : ∀ c ∈ rest.head?, ¬p c) : (cs ++ rest).takeWhile p = cs ∧ (cs ++ rest).dropWhile p = rest := by
  rw [List.takeWhile_append_of_pos h, List.dropWhile_append_of_pos h]
  cases rest with
  | nil => exact ⟨List.append_nil cs, rfl⟩
  | cons c rest =>
    have hc : ¬p c := hrest c rfl
    rw [List.takeWhile_cons_of_neg hc, List.dropWhile_cons_of_neg hc, List.append_nil]
    exact ⟨rfl, rfl⟩

/-! ### Words -/

/-- The pieces of a text when one more character stands in front. -/
def gather (c : Char) (pieces : List (List Char)) : List (List Char) :=
  if isBlank c then [] :: pieces
  else match pieces with
    | [] => [[c]]
    | p :: ps => (c :: p) :: ps

lemma words_eq (cs : List Char) : words cs = (cs.foldr gather [[]]).filter fun p => !p.isEmpty := rfl

lemma foldr_gather_solid {cs : List Char} (h : Solid cs) (p : List Char) (ps : List (List Char)) :
    cs.foldr gather (p :: ps) = (cs ++ p) :: ps := by
  induction cs with
  | nil => rfl
  | cons c cs ih =>
    obtain ⟨hc, hcs⟩ := List.forall_mem_cons.mp h
    rw [List.foldr_cons, ih hcs, gather, if_neg (by simp [hc]), List.cons_append]

/-- Two texts without blanks are the words that a space divides. -/
lemma words_append_space {cs ds : List Char} (hcs : Solid cs) (hne : cs ≠ []) (hds : Solid ds) (hne' : ds ≠ []) :
    words (cs ++ ' ' :: ds) = [cs, ds] := by
  have hspace : isBlank ' ' := by decide
  rw [words_eq, List.foldr_append, List.foldr_cons, foldr_gather_solid hds, gather, if_pos hspace,
    foldr_gather_solid hcs, List.append_nil, List.append_nil]
  simp [hne, hne']

/-! ### Lines -/

/-- A text without the ends of lines. -/
def OneLine (cs : List Char) : Prop := ∀ c ∈ cs, c ≠ '\n' ∧ c ≠ '\r'

instance (cs : List Char) : Decidable (OneLine cs) := List.decidableBAll _ cs

lemma Solid.oneLine {cs : List Char} (h : Solid cs) : OneLine cs := by
  intro c hc
  have hblank := h c hc
  constructor
  · rintro rfl
    exact absurd hblank (by decide)
  · rintro rfl
    exact absurd hblank (by decide)

lemma OneLine.append {cs ds : List Char} (hcs : OneLine cs) (hds : OneLine ds) : OneLine (cs ++ ds) :=
  List.forall_mem_append.mpr ⟨hcs, hds⟩

lemma OneLine.dropReturn {cs : List Char} (h : OneLine cs) : dropReturn cs = cs := by
  rw [Text.dropReturn, if_neg]
  intro hlast
  exact (h '\r' (List.mem_of_getLast? hlast)).2 rfl

/-- Lines below one another. -/
def unlines (ls : List (List Char)) : List Char := ls.flatMap fun l => l ++ ['\n']

lemma splitAt_unlines {ls : List (List Char)} (h : ∀ l ∈ ls, OneLine l) : splitAt '\n' (unlines ls) = ls ++ [[]] := by
  induction ls with
  | nil => rfl
  | cons l ls ih =>
    obtain ⟨hl, hls⟩ := List.forall_mem_cons.mp h
    have hmem : '\n' ∉ l := fun hmem => (hl _ hmem).1 rfl
    have hunlines : unlines (l :: ls) = l ++ '\n' :: unlines ls := by
      rw [unlines, List.flatMap_cons, List.append_assoc]
      rfl
    rw [hunlines, splitAt_append hmem, ih hls, List.cons_append]

/-- Lines that are written are found again. -/
lemma lines_unlines {ls : List (List Char)} (h : ∀ l ∈ ls, OneLine l) : lines (unlines ls) = ls := by
  have hreturn : ls.map dropReturn = ls.map id := List.map_congr_left fun l hl => (h l hl).dropReturn
  rw [lines, splitAt_unlines h]
  simp [hreturn]

end Totality.Text
